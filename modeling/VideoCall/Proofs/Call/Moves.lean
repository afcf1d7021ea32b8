import VideoCall.Proofs.Call.Effects
import VideoCall.Gallery.History

/-!
# The moves of a call

Whatever a call reacts to, it reacts by a few moves: a connection is opened, goes into another
phase, or ends; the gallery changes; the recording begins or ends; all of it is released; and
anything else is done in passing. A property of calls and their effects that every move keeps is
kept by every moment, so it is enough to look at the moves.

## Main definitions

* `Call.Resembles` : two calls differ in nothing that moves are about.
* `Call.held` : the connections that a call holds on to.
* `Call.Move` : the moves.
* `Call.Moves` : an outcome that comes about by moves.

## Main results

* `Call.Moves.bind`, `Call.Moves.forEach` : moves in a row are moves.
* `Call.Moves.leads` : what every move leads on to, moves in a row lead on to.
-/

namespace VideoCall

open Outcome Peer Wire Media

namespace Call

open Effect (Within Part)

/-- Two calls have the same participant, the same gallery, the same connections, and the same
sessions. -/
structure Resembles (c c' : Call) : Prop where
  user : c'.membership.user = c.membership.user
  gallery : c'.gallery = c.gallery
  mesh : c'.mesh = c.mesh
  session : c'.recorder.session.map Recorder.Session.numbers =
    c.recorder.session.map Recorder.Session.numbers
  started : c'.recorder.started = c.recorder.started
  opened : c'.board.opened = c.board.opened

namespace Resembles

theorem refl (c : Call) : Resembles c c := ⟨rfl, rfl, rfl, rfl, rfl, rfl⟩

variable {c c' : Call} (h : Resembles c c')
include h

/-- There is a recording in both, or in neither. -/
theorem active : c'.recorder.active = c.recorder.active := by
  have := congrArg Option.isSome h.session
  rwa [Option.isSome_map, Option.isSome_map] at this

/-- The connection to the recording service is the same. -/
theorem line : c'.recorder.session.map Recorder.Session.line =
    c.recorder.session.map Recorder.Session.line := by
  have := congrArg (Option.map Prod.snd) h.session
  rwa [Option.map_map, Option.map_map] at this

end Resembles

/-- The numbers of the connections that a call holds on to: those to the participants in their
order, and the one to the recording service. -/
def held (c : Call) : List Nat :=
  c.mesh.lines.values.map Line.number ++
    (c.recorder.session.map Recorder.Session.line).toList

theorem mem_held_iff {c : Call} {n : Nat} :
    n ∈ c.held ↔ (∃ u l, c.mesh.lines.get? u = some l ∧ l.number = n) ∨
      ∃ s, c.recorder.session = some s ∧ s.line = n := by
  have hlines : n ∈ c.mesh.lines.values.map Line.number ↔
      ∃ u l, c.mesh.lines.get? u = some l ∧ l.number = n := by
    constructor
    · intro hn
      obtain ⟨l, hl, rfl⟩ := List.mem_map.1 hn
      obtain ⟨⟨u, l⟩, hul, rfl⟩ := List.mem_map.1 hl
      exact ⟨u, l, Table.mem_entries_iff.1 hul, rfl⟩
    · rintro ⟨u, l, hl, rfl⟩
      exact List.mem_map.2 ⟨l, List.mem_map.2 ⟨(u, l), Table.mem_entries_iff.2 hl, rfl⟩, rfl⟩
  rw [held, List.mem_append, hlines, Option.mem_toList, Option.map_eq_some_iff]

/-- The moves. The last effect of a move that changes the gallery, or begins or ends the recording,
is to publish that. What becomes of URLs is what the change of the gallery does to them. -/
inductive Move (c : Call) : Outcome Call → Prop
  /-- Something is done in passing. -/
  | pass {c' : Call} {es : List Effect} (h : Resembles c c')
      (hes : ∀ e ∈ es, e.Within Part.asides) :
      Move c ⟨c', es⟩
  /-- A connection is opened, to another participant to whom there is none. -/
  | connect {user : UserId} {initiator : Bool} {options : Options} {b : Switchboard}
      (hother : user ≠ c.membership.user) (hnew : c.mesh.lines.get? user = none)
      (hb : b.opened = c.board.opened + 1) :
      Move c ⟨{ c with
        mesh := ⟨c.mesh.lines.insert user ⟨c.board.opened, .created, initiator⟩⟩
        board := b },
        [.line (.opened c.board.opened (.participant user) options),
          .measured (.count .peersCreated)]⟩
  /-- A connection goes into another phase, but does not end. -/
  | phase {user : UserId} {l : Line} {p : Phase} {es : List Effect}
      (hl : c.mesh.lines.get? user = some l) (hp : l.phase ≠ .closed → p ≠ .closed)
      (hes : ∀ e ∈ es, e.Within Part.asides) :
      Move c ⟨{ c with mesh := ⟨c.mesh.lines.insert user { l with phase := p }⟩ }, es⟩
  /-- A connection ends, with all of its slots. -/
  | tearDown {user : UserId} {l : Line} {es : List Effect}
      (hl : c.mesh.lines.get? user = some l)
      (hes : ∀ e ∈ es, e.Within (.gallery :: Part.asides))
      (hurls : Effect.urls es = Effect.urls (c.gallery.removePeer user).effects) :
      Move c ⟨{ c with
        mesh := ⟨c.mesh.lines.erase user⟩
        gallery := (c.gallery.removePeer user).value },
        .line (.destroyed l.number) :: es ++
          [.published (.streams (c.gallery.removePeer user).value.snapshot)]⟩
  /-- The gallery changes. A track that arrives does so in a slot of a connection that is there. -/
  | change (change : Gallery.Change) {c' : Call} {es : List Effect}
      (h : Resembles { c with gallery := (c.gallery.apply change).value } c')
      (hslot : ∀ slot t raw, change = .addTrack slot t raw → c.mesh.contains slot.peer)
      (hes : ∀ e ∈ es, e.Within (.gallery :: Part.asides))
      (hurls : Effect.urls es = Effect.urls (c.gallery.apply change).effects) :
      Move c ⟨c', es ++ [.published (.streams c'.gallery.snapshot)]⟩
  /-- The recording begins. -/
  | record {s : Recorder.Session} {r : Recorder} {b : Switchboard} {options : Options}
      {es : List Effect} (hnone : c.recorder.session = none) (hr : r.session = some s)
      (hs : s.numbers = (c.recorder.started + 1, c.board.opened))
      (hstarted : r.started = c.recorder.started + 1) (hb : b.opened = c.board.opened + 1)
      (hes : ∀ e ∈ es, e.Within Part.asides) :
      Move c ⟨{ c with recorder := r, board := b },
        .line (.opened c.board.opened .recording options) :: es ++
          [.published (.recording true)]⟩
  /-- The recording ends. -/
  | stop {s : Recorder.Session} {r : Recorder} {es : List Effect}
      (hs : c.recorder.session = some s) (hr : r.session = none)
      (hstarted : r.started = c.recorder.started) (hes : ∀ e ∈ es, e.Within Part.asides) :
      Move c ⟨{ c with recorder := r },
        .line (.destroyed s.line) :: es ++ [.published (.recording false)]⟩
  /-- Connections, recording and streams are released. -/
  | release {c' : Call} {es : List Effect}
      (huser : c'.membership.user = c.membership.user) (hopened : c'.board.opened = c.board.opened)
      (hmesh : c'.mesh = .empty) (hsession : c'.recorder.session = none)
      (hstarted : c'.recorder.started = c.recorder.started)
      (hgallery : c'.gallery = c.gallery.reset.value)
      (ho : Effect.opened es = []) (hd : Effect.destroyed es = c.held)
      (hr : Effect.recordings es = if c.recorder.active then [false] else [])
      (hurls : Effect.urls es = Effect.urls c.gallery.reset.effects) :
      Move c ⟨c', es ++ [.published (.streams c'.gallery.snapshot)]⟩

/-- An outcome that comes about by moves, one after the other. -/
inductive Moves : Call → Outcome Call → Prop
  | none (c : Call) : Moves c (pure c)
  | cons {c : Call} {o o' : Outcome Call} (h : Move c o) (h' : Moves o.value o') :
      Moves c ⟨o'.value, o.effects ++ o'.effects⟩

theorem Move.moves {c : Call} {o : Outcome Call} (h : Move c o) : Moves c o := by
  have := Moves.cons h (.none o.value)
  rwa [effects_pure, List.append_nil] at this

namespace Moves

variable {c c' : Call} {o : Outcome Call}

/-- What is done in passing. -/
theorem pass {ps : List Part} (ho : Emits (Within ps) o) (hps : ∀ p ∈ ps, p ∈ Part.asides)
    (h : Resembles c o.value) : Moves c o :=
  (Move.pass h (ho.widen hps)).moves

theorem bind {f : Call → Outcome Call} (h : Moves c o) (hf : Moves o.value (f o.value)) :
    Moves c (o >>= f) := by
  induction h with
  | none c => exact hf
  | @cons c o o' h h' ih =>
    change Moves c ⟨(f o'.value).value, (o.effects ++ o'.effects) ++ (f o'.value).effects⟩
    rw [List.append_assoc]
    exact cons h (ih hf)

/-- The moves come after something that is done in passing. -/
theorem after {α : Type} {o : Outcome α} {f : α → Outcome Call} {ps : List Part}
    (ho : Emits (Within ps) o) (hps : ∀ p ∈ ps, p ∈ Part.asides) (hf : Moves c (f o.value)) :
    Moves c (o >>= f) :=
  cons (.pass (.refl c) (ho.widen hps)) hf

/-- It makes no difference to moves if a call first changes in what they are not about. -/
theorem of_resembles (h : Resembles c c') (ho : Moves c' o) : Moves c o :=
  have hpass : Move c (Pure.pure c') := .pass h (Emits.pure c')
  cons hpass ho

/-- Steps that come about by moves do so in a row, and so long as a property that they rely on is
kept. -/
theorem forEach {ι : Type} {step : Call → ι → Outcome Call} {p : Call → Prop} {is : List ι}
    (hp : p c) (h : ∀ c, p c → ∀ i ∈ is, p (step c i).value ∧ Moves c (step c i)) :
    Moves c (forEach step is c) := by
  induction is generalizing c with
  | nil => exact none c
  | cons i is ih =>
    have hi := h c hp i List.mem_cons_self
    exact hi.2.bind (ih hi.1 fun c hc j hj => h c hc j (List.mem_cons_of_mem _ hj))

/-- What every move leads on to, moves in a row lead on to. -/
theorem leads {P : Call → List Effect → Prop} (hP : ∀ c o, Move c o → Leads (P c) o P)
    (h : Moves c o) : Leads (P c) o P := by
  induction h with
  | none c => exact .pure fun _ h => h
  | cons h _ ih =>
    intro es hes
    -- the effects so far and those of the first move are what the others start from
    rw [← List.append_assoc]
    exact ih _ (hP _ _ h es hes)

end Moves

end Call

end VideoCall
