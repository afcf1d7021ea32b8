import VideoCall.Proofs.Call.Evolution
import VideoCall.Proofs.Call.Wiring
import VideoCall.Proofs.Gallery.Sharing

/-!
# Participants are isolated from each other

A participant has two ways into a call: the connection to them reports, and the relay passes on what
they announce. Neither lets them disturb another participant, even if both have tracks in one
stream: the other connection goes on as it was, its slots and what was announced for them stay, and
every stream with tracks of the other connection stays on show with these tracks. The one exception
is a track that arrives under the id of a track of the other connection: it moves over.

## Main definitions

* `Call.Input.From` : the inputs of a participant.
* `Call.Undisturbed` : a connection and what is rendered from it are as they were.

## Main results

* `Call.undisturbed_meet` : the input of a participant leaves other participants undisturbed.
-/

namespace VideoCall

open Outcome Peer Wire Media

/-- The connection of a number is opened, told something, or destroyed. -/
def Effect.Concerns (n : Nat) : Effect → Prop
  | .line (.opened m _ _) => m = n
  | .line (.told m _ _) => m = n
  | .line (.destroyed m) => m = n
  | _ => False

theorem Effect.OfGallery.not_concerns {e : Effect} (h : e.OfGallery) (n : Nat) :
    ¬ e.Concerns n := by
  cases e with
  | line _ => exact h.elim
  | _ => exact not_false

/-- What neither opens a connection nor ends nor tells one concerns none. -/
theorem Effect.Within.not_concerns {e : Effect} {ps : List Effect.Part} (h : e.Within ps)
    (hopening : .opening ∉ ps) (hdestruction : .destruction ∉ ps) (hcommand : .command ∉ ps)
    (n : Nat) : ¬ e.Concerns n := by
  cases e with
  | line l =>
    cases l with
    | opened m key options => exact absurd h hopening
    | refused key options => exact not_false
    | told m command accepted => exact absurd h hcommand
    | destroyed m => exact absurd h hdestruction
  | _ => exact not_false

/-- The track that arrives by a report. -/
def Peer.Report.arriving? : Report → Option TrackId
  | .track t _ _ => some t.id
  | .unmuted t _ _ => some t.id
  | _ => none

namespace Call

/-- The inputs of a participant: what the connection to them reports, and what they announce. -/
inductive Input.From (p : UserId) : Input → Prop
  | report (line : Nat) (r : Report) : From p (.report line (.participant p) r)
  | announcements (batch : List Announcement) :
      From p (.relay (.message (.announcements p batch)))

/-- The track that arrives by an input. -/
def Input.arriving? : Input → Option TrackId
  | .report _ _ r => r.arriving?
  | _ => none

/-- The connection to a participant is as it was, nothing was done to it, and all that is rendered
from it stays. -/
structure Undisturbed (q : UserId) (c : Call) (o : Outcome Call) : Prop where
  line : o.value.mesh.lines.get? q = c.mesh.lines.get? q
  unconcerned : ∀ l, c.mesh.lines.get? q = some l → ∀ e ∈ o.effects, ¬ e.Concerns l.number
  gallery : Gallery.Spares q c.gallery o.value.gallery

namespace Undisturbed

variable {p q : UserId} {c c' : Call} {o : Outcome Call}

/-- Nothing happens to connections and gallery. -/
theorem of_eq (hm : o.value.mesh = c.mesh) (hg : o.value.gallery = c.gallery)
    (he : ∀ n, Emits (fun e => ¬ e.Concerns n) o) : Undisturbed q c o :=
  ⟨by rw [hm], fun l _ => he l.number, hg ▸ .refl q c.gallery⟩

/-- The gallery changes, and that is published. -/
theorem of_change {change : Outcome Gallery} (hs : Gallery.Spares q c.gallery change.value)
    (he : Emits Effect.OfGallery change) :
    Undisturbed q c (change >>= fun g => publishStreams { c with gallery := g } >>= fun _ =>
      pure { c with gallery := g }) where
  line := rfl
  unconcerned l _ := Emits.bind (he.mono fun _ h => h.not_concerns l.number)
    (.bind (.emit not_false) (.pure _))
  gallery := hs

end Undisturbed

variable {p q : UserId} {c : Call}

/-- Two participants have two connections. -/
theorem Wired.number_ne {es : List Effect} (h : Wired c es) (hpq : p ≠ q) {l l' : Line}
    (hl : c.mesh.lines.get? p = some l) (hl' : c.mesh.lines.get? q = some l') :
    l.number ≠ l'.number := fun hn => by
  have hp := h.line_opened p l.number (by simp [wiring, hl])
  have hq := h.line_opened q l.number (by simp [wiring, hl', hn])
  exact hpq (Key.participant.inj (h.unique _ _ _ hp hq))

theorem undisturbed_tearDown (h : c.gallery.InOrder) (hpq : p ≠ q)
    (hn : ∀ l l', c.mesh.lines.get? p = some l → c.mesh.lines.get? q = some l' →
      l.number ≠ l'.number) (reason : CloseReason) :
    Undisturbed q c (c.tearDown p reason) where
  line := (c.mesh.get?_close p q reason).trans (if_neg hpq.symm)
  unconcerned l' hl' := by
    have hclose : Emits (fun e => ¬ e.Concerns l'.number) (c.mesh.close p reason) := by
      unfold Mesh.close
      split
      · exact .pure _
      · rename_i l hl
        exact .bind (.emit (hn l l' hl hl')) (.bind (.emit not_false) (.pure _))
    exact hclose.bind (.bind ((c.gallery.emits_removePeer p).mono fun _ h => h.not_concerns _)
      (.bind (.emit not_false) (.pure _)))
  gallery := h.spares_deed hpq .leave fun _ _ _ _ => nofun

theorem undisturbed_onPeerReport (h : c.gallery.InOrder) (hpq : p ≠ q)
    (hn : ∀ l l', c.mesh.lines.get? p = some l → c.mesh.lines.get? q = some l' →
      l.number ≠ l'.number) (r : Report)
    (hid : ∀ id ∈ r.arriving?, ∀ k ∈ c.gallery.index.get? id, k.peer ≠ q) :
    Undisturbed q c (c.onPeerReport p r) := by
  cases r with
  | signal s => exact .of_eq rfl rfl fun n => .bind (.when (.emit not_false) _) (.pure _)
  | connected => exact .of_eq rfl rfl fun n => .pure _
  | renegotiating => exact .of_eq rfl rfl fun n => .pure _
  | track t stream mid =>
    exact .of_change (h.spares_deed hpq (.arrive ⟨mid, t, stream⟩) (h.awayFrom hid))
      (c.gallery.emits_addTrack _ _ _)
  | unmuted t stream mid =>
    exact .of_change (h.spares_deed hpq (.arrive ⟨mid, t, stream⟩) (h.awayFrom hid))
      (c.gallery.emits_addTrack _ _ _)
  | muted id =>
    rw [onPeerReport, onMuted]
    split
    · rename_i hown
      refine .of_change (h.spares_removeTrack fun k hk => ?_) (c.gallery.emits_removeTrack id)
      obtain ⟨k', hk', hp⟩ := (Option.any_eq_true _ _).1 hown
      obtain rfl := Option.some.inj (hk'.symm.trans hk)
      exact fun hq => hpq ((of_decide_eq_true hp).symm.trans hq)
    · exact .of_eq rfl rfl fun n => .pure _
  | data bytes => exact .of_eq rfl rfl fun n => .bind (.emit not_false) (.pure _)
  | failed e => exact undisturbed_tearDown h hpq hn _
  | closed => exact undisturbed_tearDown h hpq hn _

/-- A report of a connection leaves the connections to others undisturbed. -/
theorem undisturbed_onReport (h : c.gallery.InOrder) (hpq : p ≠ q)
    (hn : ∀ l l', c.mesh.lines.get? p = some l → c.mesh.lines.get? q = some l' →
      l.number ≠ l'.number) (r : Report)
    (hid : ∀ id ∈ r.arriving?, ∀ k ∈ c.gallery.index.get? id, k.peer ≠ q) :
    Undisturbed q c (c.onReport (.participant p) r) := by
  cases hl : c.mesh.lines.get? p with
  | none =>
    rw [c.onReport_of_get?_eq_none hl]
    exact .of_eq rfl rfl fun n => .pure _
  | some l =>
    rw [c.onReport_of_get? hl]
    -- the phase of the connection that reports is all that changes beforehand
    have hget : ∀ u, (c.mesh.lines.insert p { l with phase := l.phase.after r }).get? u =
        if u = p then some { l with phase := l.phase.after r } else c.mesh.lines.get? u :=
      fun u => by simp
    have hq : (c.mesh.lines.insert p { l with phase := l.phase.after r }).get? q =
        c.mesh.lines.get? q := (hget q).trans (if_neg hpq.symm)
    have hrest := undisturbed_onPeerReport (c := { c with
      mesh := ⟨c.mesh.lines.insert p { l with phase := l.phase.after r }⟩ }) h hpq
      (fun l₁ l' hl₁ hl' => by
        obtain rfl := Option.some.inj (((hget p).trans (if_pos rfl)).symm.trans hl₁)
        exact hn l l' hl (hq.symm.trans hl')) r hid
    exact ⟨hrest.line.trans hq, fun l' hl' => hrest.unconcerned l' (hq.trans hl'), hrest.gallery⟩

/-- The input of a participant leaves other participants undisturbed, unless a track of theirs
arrives by it. -/
theorem undisturbed_meet (h : c.Reachable) (hpq : p ≠ q) (m : Moment) (hm : m.input.From p)
    (hid : ∀ id ∈ m.input.arriving?, ∀ k ∈ c.gallery.index.get? id, k.peer ≠ q) :
    Undisturbed q c (c.meet m) := by
  have hg := h.gallery.inOrder
  obtain ⟨now, refusals, input⟩ := m
  -- what the media stack refuses next has no part in any of it
  suffices hrest : Undisturbed q { c with board := { c.board with refusals := refusals } }
      (react { c with board := { c.board with refusals := refusals } } now input) from
    ⟨hrest.line, hrest.unconcerned, hrest.gallery⟩
  cases hm with
  | report n r =>
    refine undisturbed_onReport (c := { c with board := { c.board with refusals := refusals } })
      hg hpq (fun l l' hl hl' => ?_) r hid
    obtain ⟨s, room, user, urls, moments, rfl⟩ := h
    exact (wired_run s room user urls moments).number_ne hpq hl hl'
  | announcements batch =>
    unfold react onRelay onMessage
    dsimp only
    split
    · exact .of_change (c := { c with board := { c.board with refusals := refusals } })
        (hg.spares_deed hpq (.describe batch) fun _ _ _ _ => nofun)
        (c.gallery.emits_announce p batch)
    · exact .of_eq rfl rfl fun n => .bind (.emit not_false) (.pure _)

/-- A voice of Bob is in a stream with a picture of Ann, whose slot gets the track that sat in a
slot of Cleo. -/
theorem undisturbed_meet_shared_stream :
    let c := ((fresh (.ofRelay "ws://relay") ⟨"room"⟩ ⟨"me"⟩ (.fresh fun _ _ => false) .none).run
      [⟨0, .none, .intent 0 (.dial "me")⟩,
        ⟨1, .none, .relay (.message (.roster
          ⟨⟨"me"⟩, [⟨"me"⟩, ⟨"ann"⟩, ⟨"bob"⟩, ⟨"cleo"⟩], ∅, false, ""⟩))⟩,
        ⟨2, .none, .relay (.message (.announcements ⟨"bob"⟩
          [⟨⟨"0"⟩, .audio, ⟨"ann"⟩, ⟨"camera"⟩⟩]))⟩,
        ⟨3, .none, .report 0 (.participant ⟨"ann"⟩)
          (.track ⟨0, ⟨"picture"⟩, .video, "front"⟩ ⟨"camera"⟩ ⟨"0"⟩)⟩,
        ⟨4, .none, .report 1 (.participant ⟨"bob"⟩)
          (.track ⟨1, ⟨"voice"⟩, .audio, ""⟩ ⟨"camera"⟩ ⟨"0"⟩)⟩,
        ⟨5, .none, .report 2 (.participant ⟨"cleo"⟩)
          (.track ⟨2, ⟨"slides"⟩, .video, ""⟩ ⟨"desktop"⟩ ⟨"0"⟩)⟩]).value
    Undisturbed ⟨"bob"⟩ c (c.meet ⟨6, .none, .report 0 (.participant ⟨"ann"⟩)
      (.unmuted ⟨3, ⟨"slides"⟩, .video, ""⟩ ⟨"camera"⟩ ⟨"0"⟩)⟩) :=
  undisturbed_meet (.run _ _ _ _ _) (by decide) _ (.report _ _) (by decide)

end Call

end VideoCall
