import VideoCall.Proofs.Call.Accounts
import VideoCall.Proofs.Call.Changes
import VideoCall.Proofs.Call.OffMesh
import VideoCall.Proofs.Call.Release
import VideoCall.Proofs.Call.Wiring
import VideoCall.Proofs.Gallery.Captures

/-!
# Every connection sends what is captured

The streams captured here reach the connections by two ways. A connection is opened with those that
there are, and is told afterwards of each one that comes or goes. Both together leave every
connection with exactly the streams that are captured, whether the connection is old or new and
whatever it refuses, and nothing is ever taken from a connection that it was not given.

## Main definitions

* `Call.Supplied` : the connections to participants have the captured streams.

## Main results

* `Call.Supplied.quiet` : what leaves the mesh alone keeps them supplied.
* `Call.Supplied.opening`, `Call.Supplied.passOn` : so do new connections, and streams that come or
  go at all of them.
* `Call.supplied_meet` : so does every moment.
* `Call.fan_out_run` : what every connection was given, and what was taken from it.
-/

namespace VideoCall

open Outcome Peer Wire Media

/-! ### Dealings with connections -/

namespace Effect

variable {es : List Effect} {line : Option Nat} {n : Nat}

/-- What leaves the mesh alone gives nothing to a connection that is neither opened to the recording
service nor the one that is passed streams. -/
theorem supplies_of_offMesh (h : ∀ e ∈ es, e.OffMesh line) (hopened : (n, .recording) ∉ opened es)
    (hline : line ≠ some n) : supplies n es = [] := by
  refine supplies_eq_nil fun l hl => ?_
  have hoff := h _ hl
  cases l with
  | opened m key options =>
    obtain rfl : key = .recording := hoff
    refine if_neg ?_
    rintro rfl
    exact hopened (List.mem_filterMap.2 ⟨_, List.mem_filterMap.2 ⟨_, hl, rfl⟩, rfl⟩)
  | told m command accepted =>
    cases command with
    | signal s => exact ite_self _
    | addStream s =>
      refine if_neg ?_
      rintro rfl
      exact hline hoff
    | removeStream s =>
      refine if_neg ?_
      rintro rfl
      exact hline hoff
  | _ => rfl

/-- What leaves the mesh alone opens connections to the recording service only. -/
theorem eq_recording_of_offMesh (h : ∀ e ∈ es, e.OffMesh line) {key : Key}
    (hn : (n, key) ∈ opened es) : key = .recording := by
  obtain ⟨l, hl, he⟩ := List.mem_filterMap.1 hn
  obtain ⟨e, he', hel⟩ := List.mem_filterMap.1 hl
  have hoff := h e he'
  cases e with
  | line l' =>
    obtain rfl := Option.some.inj hel
    cases l' with
    | opened m key' options =>
      obtain ⟨rfl, rfl⟩ := Prod.mk.inj (Option.some.inj he)
      exact hoff
    | _ => cases he
  | _ => cases hel

/-- So a connection to a participant was opened before. -/
theorem opened_before {fs : List Effect} (h : ∀ e ∈ fs, e.OffMesh line) {u : UserId}
    (hn : (n, .participant u) ∈ opened (es ++ fs)) : (n, .participant u) ∈ opened es := by
  rw [opened_append] at hn
  refine (List.mem_append.1 hn).resolve_right fun hnew => ?_
  cases eq_recording_of_offMesh h hnew

end Effect

/-! ### Calls -/

namespace Call

open Effect (supplies)
open Supply (after?)

/-- Every connection to a participant that a call holds on to has the captured streams, and the
books of all that were ever opened are in order. -/
structure Supplied (c : Call) (es : List Effect) : Prop where
  inOrder : c.gallery.InOrder
  wired : Wired c es
  accounted : Accounted c es
  current : ∀ u l, c.mesh.lines.get? u = some l →
    after? 0 (supplies l.number es) = some ↑c.gallery.captured
  past : ∀ n u, (n, .participant u) ∈ Effect.opened es → (after? 0 (supplies n es)).isSome
  /-- Nothing was given to connections that are still to be opened. -/
  ahead : ∀ n, c.board.opened ≤ n → supplies n es = []

/-- The books on connections only grow. -/
theorem Accounted.le {c c' : Call} {es fs : List Effect} (h : Accounted c es)
    (h' : Accounted c' (es ++ fs)) : c.board.opened ≤ c'.board.opened := by
  have hbefore := congrArg List.length h.opened
  have hafter := congrArg List.length h'.opened
  rw [List.length_map, List.length_range] at hbefore hafter
  rw [Effect.opened_append, List.length_append] at hafter
  omega

/-- Connections have numbers of their own. -/
theorem Accounted.nodup {c : Call} {es : List Effect} (h : Accounted c es) :
    (c.mesh.lines.values.map Line.number).Nodup := by
  have hall : (Effect.destroyed es ++ c.held).Nodup := h.settled.nodup_iff.2 List.nodup_range
  exact (List.nodup_append.1 (List.nodup_append.1 hall).2.1).1

/-- A connection that a roster asks for is there already, or is refused, or is opened with the
captured streams. -/
theorem connectTo_cases (c : Call) (initiator : Bool) (user : UserId) :
    c.connectTo initiator user = pure c ∨
    (∃ options notice, c.connectTo initiator user =
      ⟨c, [.line (.refused (.participant user) options), .published notice]⟩) ∨
    ∃ b options, b.opened = c.board.opened + 1 ∧
      options.streams = c.gallery.captured ∧ c.connectTo initiator user = ⟨{ c with
        mesh := ⟨c.mesh.lines.insert user ⟨c.board.opened, .created, initiator⟩⟩
        board := b },
        [.line (.opened c.board.opened (.participant user) options),
          .measured (.count .peersCreated)]⟩ := by
  unfold connectTo Mesh.create Switchboard.dial
  split
  · exact Or.inl rfl
  · split
    · exact Or.inr (Or.inl ⟨_, _, rfl⟩)
    · exact Or.inr (Or.inr ⟨_, _, rfl, rfl, rfl⟩)

namespace Supplied

variable {c : Call} {es : List Effect} (h : Supplied c es)
include h

theorem opened_of_get? {u : UserId} {l : Line} (hl : c.mesh.lines.get? u = some l) :
    (l.number, .participant u) ∈ Effect.opened es :=
  h.wired.line_opened u l.number (by simp [wiring, hl])

/-- The connection to the recording service leads to no participant. -/
theorem line?_ne {n : Nat} {u : UserId} (hn : (n, .participant u) ∈ Effect.opened es) :
    c.recorder.line? ≠ some n := by
  intro hline
  cases h.wired.unique _ _ _ hn (h.wired.session_opened n hline)

section Quiet

variable {c' : Call} {fs : List Effect} (hoff : ∀ e ∈ fs, e.OffMesh c.recorder.line?)
  (hwired : Wired c' (es ++ fs))
include hoff hwired

/-- What leaves the mesh alone gives nothing to connections to participants. -/
theorem supplies_stay {n : Nat} {u : UserId} (hn : (n, .participant u) ∈ Effect.opened es) :
    supplies n (es ++ fs) = supplies n es := by
  have hn' : (n, .participant u) ∈ Effect.opened (es ++ fs) := by
    rw [Effect.opened_append]
    exact List.mem_append_left _ hn
  have hrecording : (n, .recording) ∉ Effect.opened fs := fun hrec => by
    have hrec' : (n, .recording) ∈ Effect.opened (es ++ fs) := by
      rw [Effect.opened_append]
      exact List.mem_append_right _ hrec
    cases hwired.unique _ _ _ hn' hrec'
  rw [Effect.supplies_append, Effect.supplies_of_offMesh hoff hrecording (h.line?_ne hn),
    List.append_nil]

/-- A connection to a participant that is there afterwards was there before. -/
theorem line_stays {u : UserId} {l : Line} (hl : c'.mesh.lines.get? u = some l) :
    (l.number, .participant u) ∈ Effect.opened es ∧
      ∃ u' l', c.mesh.lines.get? u' = some l' ∧ l'.number = l.number := by
  have hline : c'.wiring.lines u = some l.number := by simp [wiring, hl]
  have hn := Effect.opened_before hoff (hwired.line_opened u _ hline)
  have halive : l.number ∉ Effect.destroyed es := fun hgone =>
    hwired.line_alive u _ hline (by
      rw [Effect.destroyed_append]
      exact List.mem_append_left _ hgone)
  refine ⟨hn, ?_⟩
  rcases mem_held_iff.1 ((h.accounted.mem_or_mem hn).resolve_left halive) with
    hheld | ⟨s, hs, hnumber⟩
  · exact hheld
  · exact absurd (by rw [Recorder.line?, hs, ← hnumber]; rfl) (h.line?_ne hn)

/-- Nothing is given to connections that are still to be opened. -/
theorem ahead_stays (haccounted : Accounted c' (es ++ fs)) {n : Nat} (hn : c'.board.opened ≤ n) :
    supplies n (es ++ fs) = [] := by
  have hle := h.accounted.le haccounted
  have hrecording : (n, .recording) ∉ Effect.opened fs := fun hrec => by
    have hlt := hwired.opened_lt n .recording (by
      rw [Effect.opened_append]
      exact List.mem_append_right _ hrec)
    exact absurd hn (Nat.not_le_of_lt hlt)
  have hline : c.recorder.line? ≠ some n := fun hline => by
    have hlt := h.wired.opened_lt n _ (h.wired.session_opened n hline)
    exact absurd (Nat.le_trans hle hn) (Nat.not_le_of_lt hlt)
  rw [Effect.supplies_append, h.ahead n (Nat.le_trans hle hn),
    Effect.supplies_of_offMesh hoff hrecording hline]
  rfl

end Quiet

/-- What leaves the mesh alone keeps the connections supplied, if the captured streams stay or the
connections go. -/
theorem quiet {o : Outcome Call} (hmoves : Moves c o) (hin : o.value.gallery.InOrder)
    (hoff : Emits (Effect.OffMesh c.recorder.line?) o)
    (hkeep : o.value.mesh = .empty ∨ o.value.gallery.captured.Perm c.gallery.captured) :
    Supplied o.value (es ++ o.effects) := by
  have hwired : Wired o.value (es ++ o.effects) :=
    hmoves.leads (fun _ _ => leads_move) es h.wired
  have haccounted : Accounted o.value (es ++ o.effects) :=
    hmoves.leads (fun _ _ => leads_accounted) es h.accounted
  refine ⟨hin, hwired, haccounted, fun u l hl => ?_, fun n u hn => ?_,
    fun n hn => h.ahead_stays hoff hwired haccounted hn⟩
  · rcases hkeep with hempty | hkeep
    · rw [hempty] at hl
      cases hl
    · obtain ⟨hn, u', l', hl', hnumber⟩ := h.line_stays hoff hwired hl
      rw [h.supplies_stay hoff hwired hn, ← hnumber, h.current u' l' hl',
        Multiset.coe_eq_coe.2 hkeep]
  · have hn' := Effect.opened_before hoff hn
    rw [h.supplies_stay hoff hwired hn']
    exact h.past n u hn'

/-- What every connection is given, and what is taken from it, goes with the captured streams. -/
theorem passOn {o : Outcome Call} (hmoves : Moves c o) (hin : o.value.gallery.InOrder)
    (hmesh : o.value.mesh = c.mesh) (hopened : Effect.opened o.effects = []) {ks : List Supply}
    (hks : after? ↑c.gallery.captured ks = some ↑o.value.gallery.captured)
    (heach : ∀ u l, c.mesh.lines.get? u = some l → supplies l.number o.effects = ks)
    (hothers : ∀ n, (∀ u l, c.mesh.lines.get? u = some l → l.number ≠ n) →
      c.recorder.line? ≠ some n → supplies n o.effects = []) :
    Supplied o.value (es ++ o.effects) := by
  have hwired : Wired o.value (es ++ o.effects) :=
    hmoves.leads (fun _ _ => leads_move) es h.wired
  have haccounted : Accounted o.value (es ++ o.effects) :=
    hmoves.leads (fun _ _ => leads_accounted) es h.accounted
  have hcurrent : ∀ u l, c.mesh.lines.get? u = some l →
      after? 0 (supplies l.number (es ++ o.effects)) = some ↑o.value.gallery.captured := by
    intro u l hl
    rw [Effect.supplies_append, heach u l hl, Supply.after?_append, h.current u l hl]
    exact hks
  refine ⟨hin, hwired, haccounted, hmesh ▸ hcurrent, fun n u hn => ?_, fun n hn => ?_⟩
  · rw [Effect.opened_append, hopened, List.append_nil] at hn
    by_cases hheld : ∃ u l, c.mesh.lines.get? u = some l ∧ l.number = n
    · obtain ⟨u', l, hl, rfl⟩ := hheld
      rw [hcurrent u' l hl]
      rfl
    · rw [Effect.supplies_append, hothers n (fun u l hl hnumber => hheld ⟨u, l, hl, hnumber⟩)
        (h.line?_ne hn), List.append_nil]
      exact h.past n u hn
  · have hle := Nat.le_trans (h.accounted.le haccounted) hn
    have hlt : ∀ key, (n, key) ∉ Effect.opened es := fun key hmem =>
      absurd hle (Nat.not_le_of_lt (h.wired.opened_lt n key hmem))
    rw [Effect.supplies_append, h.ahead n hle, hothers n ?_ ?_]
    · rfl
    · rintro u l hl rfl
      exact hlt _ (h.opened_of_get? hl)
    · exact fun hline => hlt _ (h.wired.session_opened n hline)

/-- What is done in passing keeps the connections supplied. -/
theorem aside {α : Type} {o : Outcome α} {c' : Call} {ps : List Effect.Part}
    (ho : Emits (Effect.Within ps) o) (hps : ∀ p ∈ ps, p ∈ Effect.Part.asides)
    (hcommand : .command ∉ ps) (hc : Resembles c c') : Supplied c' (es ++ o.effects) := by
  have hopening : .opening ∉ ps := fun hmem => absurd (hps _ hmem) (by decide)
  refine h.quiet (o := ⟨c', o.effects⟩) (.pass ho hps hc) (hc.gallery ▸ h.inOrder) (fun e he => ?_)
    (Or.inr ?_)
  · exact (ho e he).offMesh hopening hcommand _
  · rw [hc.gallery]

end Supplied

/-! ### Rosters -/

/-- What the opening of a connection gives to connections. -/
theorem supplies_opening (n m : Nat) (user : UserId) (options : Options) (metric : Measurement) :
    supplies n [.line (.opened m (.participant user) options), .measured metric] =
      if m = n then options.streams.map .given else [] := List.append_nil _

/-- A new connection is opened with the captured streams, and was given nothing before. -/
theorem Supplied.opening {c : Call} {es : List Effect} (h : Supplied c es) {user : UserId}
    {initiator : Bool} {b : Switchboard} {options : Options} {metric : Measurement}
    (hb : b.opened = c.board.opened + 1) (hstreams : options.streams = c.gallery.captured) :
    let o : Outcome Call := ⟨{ c with
        mesh := ⟨c.mesh.lines.insert user ⟨c.board.opened, .created, initiator⟩⟩
        board := b },
      [.line (.opened c.board.opened (.participant user) options), .measured metric]⟩
    Wired o.value (es ++ o.effects) → Accounted o.value (es ++ o.effects) →
      Supplied o.value (es ++ o.effects) := by
  intro o hwired haccounted
  have hold : ∀ {n key}, (n, key) ∈ Effect.opened es →
      supplies n (es ++ o.effects) = supplies n es := by
    intro n key hn
    have hne : c.board.opened ≠ n := (Nat.ne_of_lt (h.wired.opened_lt _ _ hn)).symm
    rw [Effect.supplies_append, supplies_opening, if_neg hne, List.append_nil]
  have hfresh : after? 0 (supplies c.board.opened (es ++ o.effects)) =
      some ↑c.gallery.captured := by
    rw [Effect.supplies_append, h.ahead _ (Nat.le_refl _), supplies_opening, if_pos rfl,
      List.nil_append, hstreams, Supply.after?_givens, Multiset.add_zero]
  refine ⟨h.inOrder, hwired, haccounted, fun u l hl => ?_, fun n u hn => ?_, fun n hn => ?_⟩
  · change (c.mesh.lines.insert user _).get? u = some l at hl
    rw [Table.get?_insert] at hl
    split at hl
    · obtain rfl := Option.some.inj hl
      exact hfresh
    · rw [hold (h.opened_of_get? hl)]
      exact h.current u l hl
  · rw [Effect.opened_append] at hn
    rcases List.mem_append.1 hn with hn | hn
    · rw [hold hn]
      exact h.past n u hn
    · obtain ⟨rfl, -⟩ := Prod.mk.inj (List.mem_singleton.1 hn)
      rw [hfresh]
      rfl
  · change b.opened ≤ n at hn
    rw [Effect.supplies_append, h.ahead n (by omega), supplies_opening, if_neg (by omega)]
    rfl

/-- A connection is opened with the captured streams, unless it is refused. -/
theorem supplied_connectTo (c : Call) (initiator : Bool) {user : UserId}
    (hother : user ≠ c.membership.user) :
    Leads (Supplied c) (c.connectTo initiator user) Supplied := by
  intro es h
  have hmoves := c.moves_connectTo initiator hother
  have hwired := hmoves.leads (fun _ _ => leads_move) es h.wired
  have haccounted := hmoves.leads (fun _ _ => leads_accounted) es h.accounted
  rcases c.connectTo_cases initiator user with he | ⟨_, notice, he⟩ |
    ⟨b, options, hb, hstreams, he⟩ <;> rw [he] at hmoves hwired haccounted ⊢
  · exact h.passOn hmoves h.inOrder rfl rfl rfl (fun _ _ _ => rfl) fun _ _ _ => rfl
  · exact h.passOn hmoves h.inOrder rfl rfl rfl (fun _ _ _ => rfl) fun _ _ _ => rfl
  · exact h.opening hb hstreams hwired haccounted

theorem supplied_connectEach (c : Call) (initiator : Bool) {users : List UserId}
    (hothers : ∀ user ∈ users, user ≠ c.membership.user) :
    Leads (Supplied c) (forEach (fun c user => c.connectTo initiator user) users c) Supplied := by
  induction users generalizing c with
  | nil => exact .pure fun _ h => h
  | cons user users ih =>
    exact (c.supplied_connectTo initiator (hothers user List.mem_cons_self)).bind
      (ih _ fun user' huser => hothers user' (List.mem_cons_of_mem _ huser))

theorem supplied_settleCounted (c : Call) (outcome : DialOutcome) (a : Answer) :
    Leads (Supplied c) (c.settleCounted outcome a) Supplied := by
  refine fun es h => h.aside (c.within_settleCounted outcome a) (by decide) (by decide) ?_
  rw [value_settleCounted]
  exact ⟨rfl, rfl, rfl, rfl, rfl, rfl⟩

theorem supplied_applyRecording (c : Call) (recording : Bool) (url : Option String) :
    Leads (Supplied c) (c.applyRecording recording url) Supplied := by
  have hgallery := c.gallery_applyRecording recording url
  refine fun es h => h.quiet (c.moves_applyRecording recording url) (hgallery ▸ h.inOrder)
    (c.offMesh_applyRecording _ recording url) (Or.inr ?_)
  rw [hgallery]

/-- A roster may lead to new connections, and to the recording service. -/
theorem supplied_onRoster (c : Call) (r : Roster) :
    Leads (Supplied c) (c.onRoster r) Supplied := by
  have hnext (c : Call) (initiator recording : Bool) (url : Option String) {users : List UserId}
      (hothers : ∀ user ∈ users, user ≠ c.membership.user) :
      Leads (Supplied c) (forEach (fun c user => c.connectTo initiator user) users c >>= fun c =>
        c.settleCounted .joined .done >>= fun c => c.applyRecording recording url) Supplied :=
    (c.supplied_connectEach initiator hothers).bind
      ((supplied_settleCounted _ _ _).bind (supplied_applyRecording _ _ _))
  let c' : Call := { c with
    membership := (c.membership.meet r c.mesh.contains).1
    isInitiator := some (c.membership.meet r c.mesh.contains).2.isInitiator }
  have hothers : ∀ user ∈ (c.membership.meet r c.mesh.contains).2.newPeers,
      user ≠ c'.membership.user := fun _ => Membership.ne_user_of_mem_newPeers
  refine Leads.bind (q := fun _ => Supplied c') (fun es h => ?_) (hnext c' _ _ _ hothers)
  exact h.aside (within_notify _ _) (by decide) (by decide) ⟨rfl, rfl, rfl, rfl, rfl, rfl⟩

/-! ### Captured streams that come and go -/

/-- The recorder that follows the captured streams gives nothing to participants. -/
theorem supplies_follow {α : Type} (r : Recorder) (b : Switchboard) {o : Outcome α}
    (ho : Emits Effect.OfGallery o) {n : Nat} (hn : r.line? ≠ some n) :
    supplies n (r.follow b o).effects = [] := by
  have hopened : Effect.opened (r.follow b o).effects = [] :=
    Effect.opened_eq_nil (Recorder.within_follow _ _ ho) (by decide)
  refine Effect.supplies_of_offMesh (r.offMesh_follow b ho) ?_ hn
  rw [hopened]
  exact List.not_mem_nil

/-- A stream that goes is taken from every connection. -/
theorem supplies_vacate {c : Call} {es : List Effect} (h : Supplied c es) {u : UserId} {l : Line}
    (hl : c.mesh.lines.get? u = some l) (type : StreamType) :
    supplies l.number (forSome (c.gallery.locals.get? type) fun m =>
      c.mesh.tellAll c.board (.removeStream m.stream)).effects = c.gallery.vacating type := by
  unfold Gallery.vacating
  cases c.gallery.locals.get? type with
  | none => rfl
  | some m => exact c.mesh.supplies_tellAll_of_get? c.board _ h.accounted.nodup hl

theorem supplies_vacate_of_ne (c : Call) {n : Nat}
    (hn : ∀ u l, c.mesh.lines.get? u = some l → l.number ≠ n) (type : StreamType) :
    supplies n (forSome (c.gallery.locals.get? type) fun m =>
      c.mesh.tellAll c.board (.removeStream m.stream)).effects = [] := by
  cases c.gallery.locals.get? type with
  | none => rfl
  | some m => exact c.mesh.supplies_tellAll_of_ne c.board _ hn

/-- What the installation of a captured stream gives to connections, and takes from them. -/
theorem supplies_addLocal (c : Call) (now ticket : Nat) (type : StreamType) (stream : Stream)
    (n : Nat) :
    supplies n (c.onIntent now ticket (.addLocal type stream)).effects =
      supplies n (forSome (c.gallery.locals.get? type) fun m =>
        c.mesh.tellAll c.board (.removeStream m.stream)).effects ++
      (supplies n (c.recorder.follow c.board
        (c.gallery.addLocal c.recorder.active type stream)).effects ++
      supplies n (c.mesh.tellAll c.board (.addStream stream)).effects) := by
  have heffects : (c.onIntent now ticket (.addLocal type stream)).effects =
      (forSome (c.gallery.locals.get? type) fun m =>
        c.mesh.tellAll c.board (.removeStream m.stream)).effects ++
      ((c.recorder.follow c.board (c.gallery.addLocal c.recorder.active type stream)).effects ++
      ((c.mesh.tellAll c.board (.addStream stream)).effects ++
        [.published (.streams (c.addLocal type stream).value.1.gallery.snapshot)])) ++
      [.answered ticket (.installed (c.addLocal type stream).value.2)] := rfl
  have hpublished : ∀ notice, supplies n [.published notice] = [] := fun _ => rfl
  have hanswered : ∀ answer, supplies n [.answered ticket answer] = [] := fun _ => rfl
  rw [heffects]
  simp only [Effect.supplies_append, hpublished, hanswered, List.append_nil]

theorem supplied_addLocal (c : Call) (now ticket : Nat) (type : StreamType) (stream : Stream) :
    Leads (Supplied c) (c.onIntent now ticket (.addLocal type stream)) Supplied := by
  intro es h
  have hadd := c.gallery.emits_addLocal c.recorder.active type stream
  have hopened : Effect.opened (c.onIntent now ticket (.addLocal type stream)).effects = [] :=
    Effect.opened_eq_nil (c.within_onIntent now ticket _)
      (by simp [Effect.Part.ofIntent, Effect.Part.change])
  refine h.passOn (c.moves_onIntent now ticket _)
    (h.inOrder.addLocal c.recorder.active type stream) rfl hopened
    (c.gallery.after?_replacing c.recorder.active type stream) (fun u l hl => ?_)
    fun n hn hline => ?_
  · rw [supplies_addLocal, supplies_vacate h hl,
      supplies_follow _ _ hadd (h.line?_ne (h.opened_of_get? hl)),
      c.mesh.supplies_tellAll_of_get? c.board _ h.accounted.nodup hl]
    rfl
  · rw [supplies_addLocal, c.supplies_vacate_of_ne hn, supplies_follow _ _ hadd hline,
      c.mesh.supplies_tellAll_of_ne c.board _ hn]
    rfl

/-- What the removal of a captured stream takes from connections. -/
theorem supplies_removeLocal (c : Call) (now ticket : Nat) (type : StreamType) (n : Nat) :
    supplies n (c.onIntent now ticket (.removeLocal type)).effects =
      supplies n (c.recorder.follow c.board
        (c.gallery.removeLocal c.recorder.active type)).effects ++
      supplies n (forSome (c.gallery.locals.get? type) fun m =>
        c.mesh.tellAll c.board (.removeStream m.stream)).effects := by
  have hremoved : (c.gallery.removeLocal c.recorder.active type).value.2 =
      c.gallery.locals.get? type := by
    cases hm : c.gallery.locals.get? type with
    | none => rw [Gallery.removeLocal_of_none _ hm, value_pure]
    | some m => rw [Gallery.value_removeLocal _ hm]
  have heffects : (c.onIntent now ticket (.removeLocal type)).effects =
      (c.recorder.follow c.board
        (c.gallery.removeLocal c.recorder.active type)).effects ++
      ((forSome (c.gallery.removeLocal c.recorder.active type).value.2 fun m =>
        c.mesh.tellAll c.board (.removeStream m.stream) >>= fun _ =>
          (c.removeLocal type).value.1.publishStreams).effects ++ []) ++
      [.answered ticket (.removed (c.removeLocal type).value.2)] := rfl
  have hanswered : ∀ answer, supplies n [.answered ticket answer] = [] := fun _ => rfl
  rw [heffects, hremoved]
  simp only [Effect.supplies_append, hanswered, List.append_nil]
  cases c.gallery.locals.get? type with
  | none => rfl
  | some m => exact congrArg _ ((Effect.supplies_append n _ _).trans (List.append_nil _))

theorem supplied_removeLocal (c : Call) (now ticket : Nat) (type : StreamType) :
    Leads (Supplied c) (c.onIntent now ticket (.removeLocal type)) Supplied := by
  intro es h
  have hremove := c.gallery.emits_removeLocal c.recorder.active type
  have hopened : Effect.opened (c.onIntent now ticket (.removeLocal type)).effects = [] :=
    Effect.opened_eq_nil (c.within_onIntent now ticket _)
      (by simp [Effect.Part.ofIntent, Effect.Part.change])
  refine h.passOn (c.moves_onIntent now ticket _)
    (h.inOrder.removeLocal c.recorder.active type) rfl hopened
    (c.gallery.after?_vacating c.recorder.active type) (fun u l hl => ?_) fun n hn hline => ?_
  · rw [supplies_removeLocal, supplies_vacate h hl,
      supplies_follow _ _ hremove (h.line?_ne (h.opened_of_get? hl))]
    rfl
  · rw [supplies_removeLocal, c.supplies_vacate_of_ne hn, supplies_follow _ _ hremove hline]
    rfl

/-! ### All inputs -/

/-- Beside the inputs that bear on the mesh, only a hang-up lets captured streams go. -/
theorem not_captures_of_change? (c : Call) {i : Input} (hi : i.bearsOnMesh = false)
    (hup : ∀ ticket, i ≠ .intent ticket .hangUp) {change : Gallery.Change}
    (hc : change ∈ c.change? i) : ¬ change.Captures := by
  unfold change? at hc
  split at hc
  · rename_i m
    split at hc
    · cases m <;> cases hc <;> exact id
    · cases hc
  · rename_i user r
    split at hc
    · unfold changeOfReport? at hc
      repeat' split at hc
      all_goals cases hc <;> exact id
    · cases hc
  · rename_i ticket j
    cases j with
    | hangUp => exact absurd rfl (hup ticket)
    | addLocal type stream => cases hi
    | removeLocal type => cases hi
    | trackChanged type t => cases hc; exact id
    | _ => cases hc
  · cases hc

/-- What the media stack refuses next is no matter. -/
theorem Supplied.withRefusals {c : Call} {es : List Effect} (h : Supplied c es)
    (refusals : Refusals) :
    Supplied { c with board := { c.board with refusals := refusals } } es :=
  ⟨h.inOrder, h.wired, ⟨h.accounted.opened, h.accounted.settled⟩, h.current, h.past, h.ahead⟩

/-- The streams that are captured after a moment. -/
theorem captured_meet {c : Call} (h : c.gallery.InOrder) {m : Moment}
    (hi : m.input.bearsOnMesh = false) (hup : ∀ ticket, m.input ≠ .intent ticket .hangUp) :
    (c.meet m).value.gallery.captured.Perm c.gallery.captured := by
  rw [gallery_meet]
  cases hc : c.change? m.input with
  | none => exact .refl _
  | some change => exact h.captured_apply (c.not_captures_of_change? hi hup hc)

/-- Every moment keeps the connections supplied. -/
theorem supplied_meet (c : Call) (m : Moment) : Leads (Supplied c) (c.meet m) Supplied := by
  intro es h
  have hin : (c.meet m).value.gallery.InOrder := c.gallery_meet m ▸ h.inOrder.run _
  cases hi : m.input.bearsOnMesh with
  | false =>
    refine h.quiet (c.moves_meet m) hin (c.offMesh_meet _ hi) ?_
    by_cases hup : ∃ ticket, m.input = .intent ticket .hangUp
    · obtain ⟨ticket, hm⟩ := hup
      exact Or.inl (c.bare_meet_hangUp hm).mesh
    · exact Or.inr (captured_meet h.inOrder hi fun ticket hm => hup ⟨ticket, hm⟩)
  | true =>
    obtain ⟨now, refusals, i⟩ := m
    have h' := h.withRefusals refusals
    unfold meet at hin ⊢
    generalize { c with board := { c.board with refusals := refusals } } = c' at h' hin
    unfold Input.bearsOnMesh at hi
    split at hi
    · rename_i r hinput
      obtain rfl : i = _ := hinput
      change Supplied (c'.onMessage (.roster r)).value (es ++ (c'.onMessage (.roster r)).effects)
      unfold onMessage
      split
      · exact c'.supplied_onRoster r es h'
      · exact h'.aside (within_count _) (by decide) (by decide) (.refl c')
    · rename_i ticket type stream hinput
      obtain rfl : i = _ := hinput
      exact c'.supplied_addLocal now ticket type stream es h'
    · rename_i ticket type hinput
      obtain rfl : i = _ := hinput
      exact c'.supplied_removeLocal now ticket type es h'
    · cases hi

theorem supplied_fresh (s : Settings) (room : RoomId) (user : UserId) (urls : UrlSource) :
    Supplied (fresh s room user urls .none) [] where
  inOrder := Gallery.inOrder_empty urls
  wired := wired_fresh s room user urls
  accounted := ⟨rfl, .nil⟩
  current _ _ hl := nomatch hl
  past _ _ hn := absurd hn List.not_mem_nil
  ahead _ _ := rfl

theorem supplied_run (s : Settings) (room : RoomId) (user : UserId) (urls : UrlSource)
    (moments : List Moment) :
    Supplied ((fresh s room user urls .none).run moments).value
      ((fresh s room user urls .none).run moments).effects :=
  Leads.forEach supplied_meet moments _ [] (supplied_fresh s room user urls)

/-- In every history, whatever connections refuse: what a live connection to a participant was
given, when it was opened and since then, is what was taken from it together with the streams that
are captured; and no stream was taken from a connection, live or gone, more often than it was given
before. -/
theorem fan_out_run (s : Settings) (room : RoomId) (user : UserId) (urls : UrlSource)
    (moments : List Moment) :
    let c := ((fresh s room user urls .none).run moments).value
    let es := ((fresh s room user urls .none).run moments).effects
    (∀ u l, c.mesh.lines.get? u = some l →
      (Supply.givens (Effect.supplies l.number es) : Multiset Stream) =
        ↑(Supply.takens (Effect.supplies l.number es)) + ↑c.captured) ∧
    ∀ n u, (n, .participant u) ∈ Effect.opened es → ∀ before m after,
      Effect.supplies n es = before ++ .taken m :: after →
        (Supply.takens before).count m < (Supply.givens before).count m := by
  intro c es
  have h : Supplied c es := supplied_run s room user urls moments
  refine ⟨fun u l hl => Supply.given_eq (h.current u l hl), fun n u hn before m after he => ?_⟩
  have hbooks := h.past n u hn
  rw [he] at hbooks
  exact Supply.count_taken_lt hbooks

end Call

end VideoCall
