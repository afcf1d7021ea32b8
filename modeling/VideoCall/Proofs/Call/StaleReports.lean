import VideoCall.Proofs.Call.Evolution
import VideoCall.Proofs.Call.Wiring
import VideoCall.Proofs.Gallery.Consistency

/-!
# Reports of connections that are gone

A report names the participant that its connection leads to, and the call goes by that name alone. A
report that waits while its connection is destroyed is dropped if there is no connection to the
participant when the call comes to deal with it. If a later connection was opened in between, the
report is taken for one of that connection: the older connection's last word closes the newer one.
The recording service's replies carry the number of their session and are not taken for those of a
later one.

What follows says exactly which stale reports do no harm.

## Main definitions

* `Call.Untouched` : an outcome leaves connections, slots and streams alone, and sends nothing.
* `Call.Inert` : a report tells of nothing that a connection, or the slots, do not show already.

## Main results

* `Call.onReport_untouched_iff` : a report leaves a call untouched if it is inert for the live
  connection.
* `Call.stale_untouched_iff` : this is so for stale reports, and the live connection is then a later
  one.
* `Call.stale_close_destroys_successor` : a stale report that closes a later connection.
-/

namespace VideoCall

open Outcome Peer Wire Media

/-! ### Changes of a gallery that change nothing -/

namespace Gallery

variable {g : Gallery}

theorem removeTrack_of_clear {id : TrackId} {k : Slot} {x : Holding} (hi : g.index.get? id = some k)
    (hx : g.slots.get? k = some x) (ha : x.attribution = none) : g.removeTrack id = pure g := by
  unfold removeTrack
  rw [hi]
  dsimp only
  rw [hx]
  dsimp only
  rw [ha]

/-- A track that is taken out changes its slot unless it is attributed to no one. -/
theorem clear_of_slots_removeTrack {id : TrackId} {k : Slot} {x : Holding}
    (hi : g.index.get? id = some k)
    (hx : g.slots.get? k = some x) (hs : (g.removeTrack id).value.slots = g.slots) :
    x.attribution = none := by
  have hget := g.get?_slots_removeTrack id k
  rw [hs, if_pos hi, hx] at hget
  exact congrArg Holding.attribution (Option.some.inj hget)

end Gallery

namespace Call

/-- No connection is destroyed or changes its phase, no track comes or goes, and nothing is sent. -/
structure Untouched (c : Call) (o : Outcome Call) : Prop where
  mesh : o.value.mesh = c.mesh
  slots : o.value.gallery.slots = c.gallery.slots
  index : o.value.gallery.index = c.gallery.index
  users : o.value.gallery.users = c.gallery.users
  destroyed : Effect.destroyed o.effects = []
  messages : Effect.messages o.effects = []

/-- A report tells of nothing new on a connection: its phase stays, an envelope cannot go out, a
track that comes sits in its slot already, and one that goes is not rendered. -/
def Inert (c : Call) (user : UserId) (l : Line) (r : Report) : Prop :=
  l.phase.after r = l.phase ∧
    match r with
    | .signal _ => c.outboundOpen = false
    | .track t raw mid => c.gallery.Seats ⟨user, mid⟩ t raw
    | .unmuted t raw mid => c.gallery.Seats ⟨user, mid⟩ t raw
    | .muted id => ∀ k x, c.gallery.index.get? id = some k → k.peer = user →
        c.gallery.slots.get? k = some x → x.attribution = none
    | .failed _ => False
    | .closed => False
    | .connected => True
    | .renegotiating => True
    | .data _ => True

variable {c : Call}

theorem untouched_iff_mesh (c : Call) {o : Outcome Call} (hg : o.value.gallery = c.gallery)
    (hd : Effect.destroyed o.effects = []) (hm : Effect.messages o.effects = []) :
    Untouched c o ↔ o.value.mesh = c.mesh :=
  ⟨fun h => h.mesh, fun h => ⟨h, by rw [hg], by rw [hg], by rw [hg], hd, hm⟩⟩

theorem onTrack_untouched_iff (h : c.gallery.InOrder) (m : Mesh) (user : UserId) (t : Track)
    (raw : StreamId) (mid : Mid) :
    Untouched c (onTrack { c with mesh := m } user t raw mid) ↔
      m = c.mesh ∧ c.gallery.Seats ⟨user, mid⟩ t raw := by
  constructor
  · exact fun hu => ⟨hu.mesh, h.seats_of_slots_addTrack hu.slots⟩
  · rintro ⟨hm, hs⟩
    unfold onTrack
    rw [Gallery.addTrack_of_seats (g := c.gallery) hs]
    exact ⟨hm, rfl, rfl, rfl, rfl, rfl⟩

theorem onMuted_untouched_iff (h : c.gallery.InOrder) (m : Mesh) (user : UserId) (id : TrackId) :
    Untouched c (onMuted { c with mesh := m } user id) ↔
      m = c.mesh ∧ ∀ k x, c.gallery.index.get? id = some k → k.peer = user →
        c.gallery.slots.get? k = some x → x.attribution = none := by
  unfold onMuted
  split
  · rename_i hown
    obtain ⟨k, hk, hp⟩ := (Option.any_eq_true _ _).1 hown
    obtain ⟨x, hx, -⟩ := (h.index_iff id k).1 hk
    constructor
    · intro hu
      refine ⟨hu.mesh, fun k' x' hk' _ hx' => ?_⟩
      exact Gallery.clear_of_slots_removeTrack hk' hx' hu.slots
    · rintro ⟨hm, hclear⟩
      rw [Gallery.removeTrack_of_clear (g := c.gallery) hk hx
        (hclear k x hk (by simpa using hp) hx)]
      exact ⟨hm, rfl, rfl, rfl, rfl, rfl⟩
  · rename_i hown
    refine (untouched_iff_mesh c rfl rfl rfl).trans
      (and_iff_left fun k x hk hp _ => absurd ?_ hown).symm
    rw [hk]
    simpa using hp

/-- A report leaves a call untouched if it is inert for the live connection. -/
theorem onReport_untouched_iff (h : c.gallery.InOrder) {user : UserId} {l : Line}
    (hl : c.mesh.lines.get? user = some l) (r : Report) :
    Untouched c (c.onReport (.participant user) r) ↔ Inert c user l r := by
  obtain ⟨m, hm⟩ :
      ∃ m : Mesh, m = ⟨c.mesh.lines.insert user { l with phase := l.phase.after r }⟩ := ⟨_, rfl⟩
  have honReport : c.onReport (.participant user) r = onPeerReport { c with mesh := m } user r := by
    rw [c.onReport_of_get? hl, hm]
  have hget : m.lines.get? user = some { l with phase := l.phase.after r } := by
    rw [hm]
    simp
  have hmesh : m = c.mesh ↔ l.phase.after r = l.phase := by
    constructor
    · intro he
      rw [he, hl] at hget
      exact congrArg Line.phase (Option.some.inj hget).symm
    · intro he
      rw [hm, he]
      exact congrArg Mesh.mk (Table.insert_of_get? hl)
  -- a report that ends the connection takes it out of the mesh
  have htear : ∀ reason, ¬ Untouched c (tearDown { c with mesh := m } user reason) := by
    intro reason hu
    have hgone : (tearDown { c with mesh := m } user reason).value.mesh.lines.get? user = none := by
      change (m.close user reason).value.1.lines.get? user = none
      unfold Mesh.close
      rw [hget]
      simp [Table.get?_erase]
    rw [hu.mesh, hl] at hgone
    cases hgone
  rw [honReport]
  unfold Inert
  rw [← hmesh]
  cases r with
  | signal s =>
    rw [onPeerReport]
    by_cases ho : c.outboundOpen
    · refine ⟨fun hu => ?_, fun hi => absurd (ho.symm.trans hi.2) (by simp)⟩
      have := hu.messages
      simp [send, ho, Effect.messages] at this
    · have ho' : c.outboundOpen = false := by simpa using ho
      rw [untouched_iff_mesh c rfl (by simp [send, ho', Effect.destroyed, Effect.lines])
        (by simp [send, ho', Effect.messages])]
      exact (and_iff_left ho').symm
  | connected => exact (untouched_iff_mesh c rfl rfl rfl).trans (and_iff_left trivial).symm
  | renegotiating => exact (untouched_iff_mesh c rfl rfl rfl).trans (and_iff_left trivial).symm
  | data bytes => exact (untouched_iff_mesh c rfl rfl rfl).trans (and_iff_left trivial).symm
  | track t raw mid => exact onTrack_untouched_iff h m user t raw mid
  | unmuted t raw mid => exact onTrack_untouched_iff h m user t raw mid
  | muted id => exact onMuted_untouched_iff h m user id
  | failed e => exact ⟨fun hu => absurd hu (htear _), fun hi => hi.2.elim⟩
  | closed => exact ⟨fun hu => absurd hu (htear _), fun hi => hi.2.elim⟩

/-- A call that meets a report stays untouched if there is no connection to the participant, or if
the report is inert for the one that there is. -/
theorem meet_untouched_iff (h : c.gallery.InOrder) (now : Nat) (refusals : Refusals) (n : Nat)
    (u : UserId) (r : Report) :
    Untouched c (c.meet ⟨now, refusals, .report n (.participant u) r⟩) ↔
      ∀ l, c.mesh.lines.get? u = some l → Inert c u l r := by
  -- what the media stack refuses next is no part of what stays untouched
  have hmeet : Untouched c (c.meet ⟨now, refusals, .report n (.participant u) r⟩) ↔
      Untouched { c with board := { c.board with refusals := refusals } }
        (onReport { c with board := { c.board with refusals := refusals } } (.participant u) r) :=
    ⟨fun h => ⟨h.mesh, h.slots, h.index, h.users, h.destroyed, h.messages⟩,
      fun h => ⟨h.mesh, h.slots, h.index, h.users, h.destroyed, h.messages⟩⟩
  rw [hmeet]
  cases hl : c.mesh.lines.get? u with
  | none =>
    refine iff_of_true ?_ fun l hl => by cases hl
    rw [onReport_of_get?_eq_none { c with board := { c.board with refusals := refusals } } hl]
    exact ⟨rfl, rfl, rfl, rfl, rfl, rfl⟩
  | some l =>
    rw [onReport_untouched_iff
      (c := { c with board := { c.board with refusals := refusals } }) h hl]
    exact ⟨fun h l' hl' => Option.some.inj hl' ▸ h, fun h => h l rfl⟩

/-- A connection that a call holds on to is a later one than one to the participant that is gone. -/
theorem Wired.lt_number {es : List Effect} (h : Wired c es) {n : Nat} {u : UserId} {l : Line}
    (hopened : (n, .participant u) ∈ Effect.opened es) (hgone : n ∈ Effect.destroyed es)
    (hl : c.mesh.lines.get? u = some l) : n < l.number := by
  have hline : c.wiring.lines u = some l.number := by simp [wiring, hl]
  refine Nat.lt_of_le_of_ne (h.line_newest u _ hline n hopened) ?_
  rintro rfl
  exact h.line_alive u _ hline hgone

/-- A report of a connection that was destroyed leaves the call untouched exactly if there is no
connection to the participant any more, or if the report is inert for the one that there is. That
one was opened later. -/
theorem stale_untouched_iff (s : Settings) (room : RoomId) (user : UserId) (urls : UrlSource)
    (moments : List Moment) {n : Nat} {u : UserId}
    (hopened : (n, .participant u) ∈ Effect.opened
      ((fresh s room user urls .none).run moments).effects)
    (hgone : n ∈ Effect.destroyed ((fresh s room user urls .none).run moments).effects)
    (now : Nat) (refusals : Refusals) (r : Report) :
    let c := ((fresh s room user urls .none).run moments).value
    (∀ l, c.mesh.lines.get? u = some l → n < l.number) ∧
      (Untouched c (c.meet ⟨now, refusals, .report n (.participant u) r⟩) ↔
        ∀ l, c.mesh.lines.get? u = some l → Inert c u l r) := by
  intro c
  have hwired : Wired c _ := wired_run s room user urls moments
  have hgallery : c.gallery.InOrder := (Reachable.run s room user urls moments).gallery.inOrder
  exact ⟨fun l hl => hwired.lt_number hopened hgone hl,
    meet_untouched_iff hgallery now refusals n u r⟩

/-- The connection to a participant fails, and the next roster leads to another one. -/
def reconnecting : List Moment :=
  let roster : Roster := ⟨⟨"me"⟩, [⟨"me"⟩, ⟨"ann"⟩], ∅, false, ""⟩
  [⟨0, .none, .intent 0 (.dial "me")⟩, ⟨1, .none, .relay (.message (.roster roster))⟩,
    ⟨2, .none, .report 0 (.participant ⟨"ann"⟩) (.failed .destroyed)⟩,
    ⟨3, .none, .relay (.message (.roster roster))⟩]

/-- Bytes that the failed connection still brought do no harm. -/
theorem stale_data_untouched :
    let c := ((fresh (.ofRelay "ws://relay") ⟨"room"⟩ ⟨"me"⟩ (.fresh fun _ _ => false) .none).run
      reconnecting).value
    Untouched c (c.meet ⟨4, .none, .report 0 (.participant ⟨"ann"⟩) (.data [])⟩) :=
  (stale_untouched_iff _ _ _ _ _ (by decide) (by decide) 4 .none (.data [])).2.2 fun l _ =>
    ⟨by cases l.phase <;> rfl, trivial⟩

/-- The word that the failed connection is closed closes the other one. -/
theorem stale_close_destroys_successor :
    let o := (fresh (.ofRelay "ws://relay") ⟨"room"⟩ ⟨"me"⟩ (.fresh fun _ _ => false) .none).run
      reconnecting
    let o' := o.value.meet ⟨4, .none, .report 0 (.participant ⟨"ann"⟩) .closed⟩
    (0, .participant ⟨"ann"⟩) ∈ Effect.opened o.effects ∧ 0 ∈ Effect.destroyed o.effects ∧
      Effect.destroyed o'.effects = [1] ∧ ¬ Untouched o.value o' := by
  have hdestroyed : Effect.destroyed
      (((fresh (.ofRelay "ws://relay") ⟨"room"⟩ ⟨"me"⟩ (.fresh fun _ _ => false) .none).run
        reconnecting).value.meet
          ⟨4, .none, .report 0 (.participant ⟨"ann"⟩) .closed⟩).effects = [1] := by
    decide
  refine ⟨by decide, by decide, hdestroyed, fun h => ?_⟩
  cases hdestroyed.symm.trans h.destroyed

end Call

end VideoCall
