import VideoCall.Proofs.Call.Evolution
import VideoCall.Proofs.Call.Wiring
import VideoCall.Proofs.Gallery.Consistency

/-!
# What is rendered comes over live connections

A track sits in a slot of the connection that it came over, and announcements outlive connections.
So it takes some care that nothing is left of a connection that is gone: between two inputs, every
slot is one of a connection that is there and was not destroyed, and every track on show sits in
such a slot. No connection that is there is closed, and none leads to the participant of the call.

## Main definitions

* `Call.Attended` : slots and connections are in step.
* `Call.Live` : there is a connection to a participant, and it is open.

## Main results

* `Call.attended_move` : every move of a call keeps slots and connections in step.
* `Call.live_run` : in every history, what is on show comes over live connections.
-/

namespace VideoCall.Call

open Outcome Peer Media

/-- Slots and connections are in step, in the call of a participant. -/
structure Attended (me : UserId) (c : Call) : Prop where
  inOrder : c.gallery.InOrder
  user : c.membership.user = me
  /-- A slot is one of a connection that is there. -/
  slots : ∀ k, c.mesh.lines.get? k.peer = none → c.gallery.slots.get? k = none
  phase : ∀ u l, c.mesh.lines.get? u = some l → l.phase ≠ .closed
  /-- No connection leads to the participant themselves. -/
  others : c.mesh.lines.get? me = none

namespace Attended

variable {me : UserId} {c c' : Call} (h : Attended me c)
include h

/-- The gallery changes, and the connections stay. -/
theorem change {change : Gallery.Change} (hg : c'.gallery = (c.gallery.apply change).value)
    (hu : c'.membership.user = c.membership.user) (hm : c'.mesh = c.mesh)
    (hslot : ∀ k t raw, change = .addTrack k t raw → c.mesh.contains k.peer) : Attended me c' where
  inOrder := hg ▸ h.inOrder.apply change
  user := hu.trans h.user
  slots k hk := by
    rw [hm] at hk
    rw [hg]
    refine h.inOrder.get?_slots_apply (h.slots k hk) fun t raw he => ?_
    have hin := hslot k t raw he
    rw [Mesh.contains, Table.contains, hk] at hin
    cases hin
  phase := hm ▸ h.phase
  others := hm ▸ h.others

theorem resembles (hr : Resembles c c') : Attended me c' :=
  ⟨hr.gallery ▸ h.inOrder, hr.user.trans h.user, hr.mesh ▸ hr.gallery ▸ h.slots, hr.mesh ▸ h.phase,
    hr.mesh ▸ h.others⟩

/-- A connection to another participant is opened, or goes into another phase. -/
theorem insertLine {u : UserId} {l : Line} (hg : c'.gallery = c.gallery)
    (hu : c'.membership.user = c.membership.user) (hm : c'.mesh = ⟨c.mesh.lines.insert u l⟩)
    (hother : u ≠ me) (hl : l.phase ≠ .closed) : Attended me c' := by
  have hget : ∀ v, c'.mesh.lines.get? v = if v = u then some l else c.mesh.lines.get? v :=
    fun v => by simp [hm]
  refine ⟨hg ▸ h.inOrder, hu.trans h.user, fun k hk => ?_, fun v l' hl' => ?_, ?_⟩
  · rw [hget] at hk
    rw [hg]
    split at hk
    · cases hk
    · exact h.slots k hk
  · rw [hget] at hl'
    split at hl'
    · exact Option.some.inj hl' ▸ hl
    · exact h.phase v l' hl'
  · rw [hget, if_neg hother.symm]
    exact h.others

/-- A connection is forgotten, and all of its slots are cleared. -/
theorem eraseLine {u : UserId} (hg : c'.gallery = (c.gallery.removePeer u).value)
    (hu : c'.membership.user = c.membership.user) (hm : c'.mesh = ⟨c.mesh.lines.erase u⟩) :
    Attended me c' := by
  have hget : ∀ v, c'.mesh.lines.get? v = if v = u then none else c.mesh.lines.get? v :=
    fun v => by simp [hm, Table.get?_erase]
  refine ⟨hg ▸ h.inOrder.removePeer u, hu.trans h.user, fun k hk => ?_, fun v l hl => ?_, ?_⟩
  · rw [hget] at hk
    rw [hg, Gallery.get?_slots_removePeer]
    split at hk
    · rename_i hpeer
      exact if_pos hpeer
    · rw [h.slots k hk, ite_self]
  · rw [hget] at hl
    split at hl
    · cases hl
    · exact h.phase v l hl
  · rw [hget, h.others, ite_self]

end Attended

variable {me : UserId} {c : Call} {o : Outcome Call}

/-- Every move of a call keeps slots and connections in step. -/
theorem attended_move (h : Attended me c) (hm : Move c o) : Attended me o.value := by
  cases hm with
  | pass hr _ => exact h.resembles hr
  | connect hother _ _ =>
    exact h.insertLine rfl rfl rfl (h.user ▸ hother) (by simp)
  | phase hl hp _ =>
    refine h.insertLine rfl rfl rfl ?_ (hp (h.phase _ _ hl))
    rintro rfl
    cases hl.symm.trans h.others
  | tearDown _ _ _ => exact h.eraseLine rfl rfl rfl
  | change _ hr hslot _ _ => exact h.change hr.gallery hr.user hr.mesh hslot
  | record _ _ _ _ _ _ => exact ⟨h.inOrder, h.user, h.slots, h.phase, h.others⟩
  | stop _ _ _ _ => exact ⟨h.inOrder, h.user, h.slots, h.phase, h.others⟩
  | release huser _ hmesh _ _ hgallery _ _ _ _ =>
    refine ⟨hgallery ▸ .reset c.gallery, huser.trans h.user, fun _ _ => hgallery ▸ rfl, ?_, ?_⟩
    · rw [hmesh]
      exact fun _ _ hl => nomatch hl
    · rw [hmesh]
      rfl

theorem attended_fresh (s : Settings) (room : RoomId) (user : UserId) (urls : UrlSource) :
    Attended user (fresh s room user urls .none) :=
  ⟨Gallery.inOrder_empty urls, rfl, fun _ _ => rfl, fun _ _ hl => (nomatch hl), rfl⟩

theorem attended_run (s : Settings) (room : RoomId) (user : UserId) (urls : UrlSource)
    (moments : List Moment) : Attended user ((fresh s room user urls .none).run moments).value :=
  forEach_induction (attended_fresh s room user urls) fun c hc m _ =>
    (c.moves_meet m).leads (P := fun c _ => Attended user c) (fun _ _ hm _ h => attended_move h hm)
      [] hc

/-- There is a connection to a participant. It was opened for them, it was not destroyed, and as far
as the call knows it is not closed. -/
def Live (c : Call) (es : List Effect) (u : UserId) : Prop :=
  ∃ l, c.mesh.lines.get? u = some l ∧ (l.number, .participant u) ∈ Effect.opened es ∧
    l.number ∉ Effect.destroyed es ∧ l.phase ≠ .closed

theorem Attended.live {es : List Effect} (h : Attended me c) (hw : Wired c es) {k : Slot}
    {x : Holding} (hx : c.gallery.slots.get? k = some x) : c.Live es k.peer := by
  cases hl : c.mesh.lines.get? k.peer with
  | none => cases hx.symm.trans (h.slots k hl)
  | some l =>
    have hnumber : c.wiring.lines k.peer = some l.number := by simp [wiring, hl]
    exact ⟨l, hl, hw.line_opened _ _ hnumber, hw.line_alive _ _ hnumber, h.phase _ _ hl⟩

/-- In every history, whatever is refused, every slot is one of a connection that is live, and so
every track on show came over one; no connection is closed, and none leads to the participant
themselves. -/
theorem live_run (s : Settings) (room : RoomId) (user : UserId) (urls : UrlSource)
    (moments : List Moment) :
    let es := ((fresh s room user urls .none).run moments).effects
    let c := ((fresh s room user urls .none).run moments).value
    (∀ k x, c.gallery.slots.get? k = some x → c.Live es k.peer) ∧
    (∀ u rs, (u, rs) ∈ c.gallery.snapshot.users → ∀ r ∈ rs, ∀ t ∈ r.stream.tracks,
      ∃ k, c.gallery.slots.get? k = some ⟨t, some ⟨u, r.id⟩⟩ ∧ c.Live es k.peer) ∧
    (∀ u p, (u, p) ∈ c.mesh.phases → p ≠ .closed) ∧
    c.mesh.contains user = false := by
  intro es c
  have h : Attended user c := attended_run s room user urls moments
  have hw : Wired c es := wired_run s room user urls moments
  refine ⟨fun k x hx => h.live hw hx, fun u rs hu r hr t ht => ?_, fun u p hp => ?_, ?_⟩
  · obtain ⟨k, hk⟩ := h.inOrder.slot_of_snapshot hu hr ht
    exact ⟨k, hk, h.live hw hk⟩
  · obtain ⟨⟨v, l⟩, hl, he⟩ := List.mem_map.1 hp
    obtain ⟨rfl, rfl⟩ := Prod.mk.inj he
    exact h.phase _ _ (Table.mem_entries_iff.1 hl)
  · rw [Mesh.contains, Table.contains, h.others]
    rfl

end VideoCall.Call
