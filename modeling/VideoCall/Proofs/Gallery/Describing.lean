import VideoCall.Proofs.Gallery.Consistency
import VideoCall.Proofs.Gallery.Gauge

/-!
# What a batch says is what is shown

A batch describes all slots of its sender. After it the sender's announcements are those of the
batch, each described slot is attributed as the batch says, each other slot of the sender to no one,
and nothing else about slots is different. That two slots exchange their attributions in one batch,
or that a batch says several things of one slot, makes no difference. A batch that says what is
shown already changes nothing and does nothing, and so a batch that comes twice counts once.

## Main definitions

* `Announcements.last?` : what a batch says of a media section.
* `Gallery.leftOut` : the slots from which a batch withdraws the tracks.
* `Gallery.Describes` : all that comes of a batch.
* `Gallery.Heeds` : what a batch says is shown already.

## Main results

* `Gallery.describes_run` : this comes of a batch in every history.
* `Gallery.InOrder.announce_eq_pure_iff` : a batch does nothing if what it says is shown already,
  and only then.
* `Gallery.announce_twice_run` : a batch that comes again does nothing.
-/

namespace VideoCall

open Media Wire Outcome

/-! ### What a batch says -/

namespace Announcements

/-- What a batch says of a media section: of several announcements the last one counts. -/
def last? (batch : List Announcement) (mid : Mid) : Option Announcement :=
  batch.reverse.find? fun m => m.mid = mid

theorem last?_eq_none_iff {batch : List Announcement} {mid : Mid} :
    last? batch mid = none ↔ ∀ m ∈ batch, m.mid ≠ mid := by
  simp [last?]

theorem mid_of_last? {batch : List Announcement} {mid : Mid} {m : Announcement}
    (h : last? batch mid = some m) : m.mid = mid := by
  simpa using List.find?_some h

/-- The announcements of a batch, slot by slot. -/
theorem get?_ofBatch (sender : UserId) (batch : List Announcement) (slot : Slot) :
    (ofBatch sender batch).get? slot =
      if slot.peer = sender then last? batch slot.mid else none := by
  split
  · rename_i hpeer
    rw [ofBatch, Table.get?_ofList, ← List.map_reverse, last?]
    induction batch.reverse with
    | nil => rfl
    | cons m l ih =>
      have hslot : slot = ⟨sender, m.mid⟩ ↔ m.mid = slot.mid := by
        cases slot
        simp_all [eq_comm]
      simp only [List.map_cons, Entries.lookup, List.find?_cons, ih,
        Std.LawfulEqCmp.compare_eq_iff_eq, hslot]
      by_cases hm : m.mid = slot.mid <;> simp [hm]
  · rename_i hpeer
    exact get?_ofBatch_of_peer_ne batch hpeer

end Announcements

namespace Gallery

open Announcements (last?)

variable (g : Gallery) (sender : UserId) (batch : List Announcement)

/-! ### What a batch leaves out -/

/-- The slots of a sender with a rendered track that a batch does not describe. -/
def leftOut : List Slot :=
  g.slots.keys.filter fun k => k.peer = sender ∧
    (g.slots.get? k).any (fun x => x.attribution.isSome) ∧ ∀ m ∈ batch, m.mid ≠ k.mid

variable {g sender batch}

theorem mem_leftOut {k : Slot} : k ∈ g.leftOut sender batch ↔ k.peer = sender ∧
    (∃ t a, g.slots.get? k = some ⟨t, some a⟩) ∧ ∀ m ∈ batch, m.mid ≠ k.mid := by
  have hrendered : (g.slots.get? k).any (fun x => x.attribution.isSome) ↔
      ∃ t a, g.slots.get? k = some ⟨t, some a⟩ := by
    rcases hx : g.slots.get? k with _ | ⟨t, _ | a⟩ <;> simp
  simp only [leftOut, List.mem_filter, decide_eq_true_eq, hrendered, Table.mem_keys_iff]
  refine ⟨And.right, fun h => ⟨?_, h⟩⟩
  obtain ⟨t, a, hx⟩ := h.2.1
  exact ⟨_, hx⟩

theorem nodup_leftOut : (g.leftOut sender batch).Nodup := g.slots.nodup_keys.filter _

/-- Each slot that a batch leaves out has its track withdrawn. -/
theorem length_undescribed :
    (g.undescribed sender (.ofBatch sender batch)).length = (g.leftOut sender batch).length := by
  rw [undescribed, leftOut, Table.keys, List.filter_map, List.length_map, List.length_map]
  refine congrArg List.length (List.filter_congr fun e he => ?_)
  have hget : g.slots.get? e.1 = some e.2 := Table.mem_entries_iff.1 he
  have hnews : (Announcements.ofBatch sender batch).contains e.1 = false ↔
      (e.1.peer = sender → ∀ m ∈ batch, m.mid ≠ e.1.mid) := by
    rw [Table.contains, Announcements.get?_ofBatch]
    split <;> simp_all [Announcements.last?_eq_none_iff]
  rw [Bool.eq_iff_iff]
  simp only [Function.comp_apply, Bool.and_eq_true, decide_eq_true_eq, Bool.not_eq_true', hnews,
    hget, Option.any_some]
  tauto

/-! ### What comes of a batch -/

/-- All that comes of a batch: the slots hold the tracks that they held, the sender's are attributed
as the batch says and those of others as before, and whatever was shown and is left out is
withdrawn. -/
structure Describes (g : Gallery) (sender : UserId) (batch : List Announcement)
    (o : Outcome Gallery) : Prop where
  /-- What is announced for the sender's slots is the batch, and for other slots what it was. -/
  announced : ∀ k, o.value.announced.get? k =
    if k.peer = sender then last? batch k.mid else g.announced.get? k
  index : o.value.index = g.index
  /-- No slot comes or goes, and each keeps its track. A slot of the sender is attributed as the
  batch says, and to no one if the batch does not describe it. -/
  slots : ∀ k, o.value.slots.get? k = (g.slots.get? k).map fun x =>
    ⟨x.track, if k.peer = sender then (last? batch k.mid).map Announcement.attribution
      else x.attribution⟩
  /-- The streams show the tracks in the slots that are attributed to them. -/
  shows_iff : ∀ u s t, o.value.Shows u s t ↔ ∃ k, o.value.slots.get? k = some ⟨t, some ⟨u, s⟩⟩
  /-- Each slot of the sender is counted that was attributed and is not described. -/
  withdrawn : ∀ f : Footprint, (f.noteAll o.effects).readings.total .tracksWithdrawn =
    f.readings.total .tracksWithdrawn + (g.leftOut sender batch).length

theorem InOrder.describes (h : g.InOrder) (sender : UserId) (batch : List Announcement) :
    Describes g sender batch (g.announce sender batch) where
  announced k := by
    have hget := Announcements.get?_ofBatch sender batch k
    rw [(h.recast_announce sender batch).announced, Announcements.get?_replace, hget]
    split <;> rfl
  index := (h.recast_announce sender batch).index
  slots k := by
    rw [h.get?_slots_announce, Announcements.get?_ofBatch]
    split <;> rfl
  shows_iff u s t := (h.announce sender batch).shows_iff
  withdrawn f := by rw [Footprint.total_noteAll, count_withdrawn_announce, length_undescribed]

/-- In every history a batch leaves the tracks where they are and attributes those of its sender as
it says. -/
theorem describes_run (urls : UrlSource) (changes : List Change) (sender : UserId)
    (batch : List Announcement) :
    let g := ((empty urls).run changes).value
    Describes g sender batch (g.announce sender batch) :=
  (show Reachable _ from ⟨urls, changes, rfl⟩).inOrder.describes sender batch

/-- Two slots exchange their attributions, and a third one is no longer described. -/
example :
    let said (mid stream : String) : Announcement := ⟨⟨mid⟩, .video, ⟨"ann"⟩, ⟨stream⟩⟩
    let arrives (mid : String) : Change :=
      .addTrack ⟨⟨"ann"⟩, ⟨mid⟩⟩ ⟨0, ⟨mid⟩, .video, ""⟩ ⟨"raw"⟩
    let g := ((empty (.fresh fun _ _ => false)).run
      [arrives "0", arrives "1", arrives "2",
        .announce ⟨"ann"⟩ [said "0" "desk", said "1" "face", said "2" "face"]]).value
    let g' := (g.announce ⟨"ann"⟩ [said "1" "desk", said "0" "face"]).value
    g'.slots.values.map Holding.attribution =
      [some ⟨⟨"ann"⟩, ⟨"face"⟩⟩, some ⟨⟨"ann"⟩, ⟨"desk"⟩⟩, none] := by
  decide

/-! ### A batch that comes again -/

/-- What a batch says is announced already, and the slots of its sender are attributed as it
says. -/
structure Heeds (g : Gallery) (sender : UserId) (batch : List Announcement) : Prop where
  announced : ∀ k, k.peer = sender → g.announced.get? k = last? batch k.mid
  attributed : ∀ k x, g.slots.get? k = some x → k.peer = sender →
    x.attribution = (last? batch k.mid).map Announcement.attribution

theorem Describes.heeds {o : Outcome Gallery} (h : Describes g sender batch o) :
    o.value.Heeds sender batch where
  announced k hk := (h.announced k).trans (if_pos hk)
  attributed k x hx hk := by
    obtain ⟨y, -, rfl⟩ := Option.map_eq_some_iff.1 ((h.slots k).symm.trans hx)
    exact if_pos hk

namespace Heeds

variable (h : g.Heeds sender batch)
include h

theorem undescribed_eq_nil : g.undescribed sender (.ofBatch sender batch) = [] := by
  refine List.eq_nil_iff_forall_not_mem.2 fun id hid => ?_
  obtain ⟨k, x, hx, hpeer, hattributed, hundescribed, -⟩ := mem_undescribed.1 hid
  rw [Announcements.get?_ofBatch, if_pos hpeer] at hundescribed
  rw [h.attributed k x hx hpeer, hundescribed] at hattributed
  cases hattributed

theorem replace_eq : g.announced.replace sender (.ofBatch sender batch) = g.announced := by
  refine Table.ext_get? fun k => ?_
  rw [Announcements.get?_replace]
  split
  · rename_i hpeer
    rw [Announcements.get?_ofBatch, if_pos hpeer, h.announced k hpeer]
  · rfl

theorem follow_eq {e : Slot × Announcement}
    (he : e ∈ (Announcements.ofBatch sender batch).entries) : g.follow e = pure g := by
  obtain ⟨k, m⟩ := e
  have hm := Table.mem_entries_iff.1 he
  have hpeer := (Announcements.of_get?_ofBatch hm).1
  rw [Announcements.get?_ofBatch, if_pos hpeer] at hm
  dsimp only [follow]
  split
  · rfl
  · rename_i x hx
    have hattribution := h.attributed k x hx hpeer
    rw [hm] at hattribution
    rw [hattribution]
    exact if_pos rfl

theorem announce_eq : g.announce sender batch = pure g :=
  calc g.announce sender batch
      = forEach withdraw (g.undescribed sender (.ofBatch sender batch)) g >>= fun g =>
          forEach follow (Announcements.ofBatch sender batch).entries
            { g with announced := g.announced.replace sender (.ofBatch sender batch) } := rfl
    _ = forEach follow (Announcements.ofBatch sender batch).entries
          { g with announced := g.announced.replace sender (.ofBatch sender batch) } := by
        rw [h.undescribed_eq_nil]
        rfl
    _ = pure g := by
        rw [h.replace_eq]
        exact forEach_of_pure fun _ he => h.follow_eq he

end Heeds

/-- A batch changes nothing and does nothing if what it says is shown already, and only then. -/
theorem InOrder.announce_eq_pure_iff (h : g.InOrder) :
    g.announce sender batch = pure g ↔ g.Heeds sender batch := by
  refine ⟨fun heq => ?_, fun hheeds => hheeds.announce_eq⟩
  have hheeds := (h.describes sender batch).heeds
  rwa [heq] at hheeds

/-- In every history a gallery shows what a batch says once the batch was applied. So a batch that
comes again right away leaves the whole gallery as it is, makes and releases no URL, and withdraws
no track. -/
theorem announce_twice_run (urls : UrlSource) (changes : List Change) (sender : UserId)
    (batch : List Announcement) :
    let g := (((empty urls).run changes).value.announce sender batch).value
    g.Heeds sender batch ∧ g.announce sender batch = pure g := by
  intro g
  have h : ((empty urls).run changes).value.InOrder :=
    (show Reachable _ from ⟨urls, changes, rfl⟩).inOrder
  have hheeds : g.Heeds sender batch := (h.describes sender batch).heeds
  exact ⟨hheeds, (h.announce sender batch).announce_eq_pure_iff.2 hheeds⟩

end Gallery

end VideoCall
