import VideoCall.Proofs.Call.Attendance
import VideoCall.Proofs.Call.Changes
import VideoCall.Proofs.Call.Depiction
import VideoCall.Proofs.Gallery.Hiding
import VideoCall.Proofs.Peer.Mesh

/-!
# Muted tracks

A track that its own connection mutes is out of sight at once, in everything that the call publishes
and in every answer to the question for the status. It is seen again when it arrives or is unmuted,
on whichever connection. But a muted track is recorded like one that was withdrawn, so it is seen
again, too, when its sender describes the slot in which it sits, even if the description is the one
that stood before. Nothing else brings it back.

## Main definitions

* `Call.arrives` : an input by which a track arrives or is unmuted.
* `Call.describes` : an input by which the sender of a track describes its slot.
* `Call.Unrevived` : a list of moments without such an input.

## Main results

* `Call.renders_meet_iff` : the moments after which a hidden track is seen again.
* `Call.hidden_until_revived` : in every history, a muted track is not shown before such a moment.
* `Call.description_shows_muted` : a repeated description shows a track that is still muted.
-/

namespace VideoCall.Call

open Outcome Peer Wire Media

variable (c : Call) (t : TrackId)

/-- A track arrives, or is unmuted, on a connection to a participant. -/
def arrives : Input → Bool
  | .report _ (.participant user) (.track t' _ _) => c.mesh.contains user && t'.id = t
  | .report _ (.participant user) (.unmuted t' _ _) => c.mesh.contains user && t'.id = t
  | _ => false

/-- The sender of a track announces something for the slot in which the track sits, while the
participant is ready. -/
def describes : Input → Bool
  | .relay (.message (.announcements sender batch)) =>
    c.membership.active && (c.gallery.index.get? t).any fun slot =>
      slot.peer = sender && batch.any fun m => m.mid = slot.mid
  | _ => false

/-- None of the moments, each at the time it is met, brings a track back. -/
def Unrevived (t : TrackId) : Call → List Moment → Prop
  | _, [] => True
  | c, m :: moments =>
    c.arrives t m.input = false ∧ c.describes t m.input = false ∧
      Unrevived t (c.meet m).value moments

/-! ### One moment -/

/-- An input brings a track back if the change of the gallery does that it leads to. -/
theorem arrives_or_describes_iff (i : Input) :
    c.arrives t i ∨ c.describes t i ↔ ∃ change ∈ c.change? i, c.gallery.Reveals t change := by
  have hannounced (sender : UserId) (batch : List Announcement) :
      ((c.gallery.index.get? t).any fun slot =>
        slot.peer = sender && batch.any fun m => m.mid = slot.mid) = true ↔
        c.gallery.Reveals t (.announce sender batch) := by
    simp only [Gallery.Reveals, Option.any_eq_true, Bool.and_eq_true, decide_eq_true_eq,
      List.any_eq_true]
    constructor
    · rintro ⟨⟨_, mid⟩, hslot, rfl, hm⟩
      exact ⟨mid, hslot, hm⟩
    · rintro ⟨mid, hslot, hm⟩
      exact ⟨⟨sender, mid⟩, hslot, rfl, hm⟩
  cases i with
  | relay e =>
    cases e with
    | message m =>
      cases m with
      | announcements sender batch =>
        have hm := hannounced sender batch
        cases ha : c.membership.active <;>
          simp [arrives, describes, change?, changeOfMessage?, Membership.admits, ha, hm]
      | _ => simp [arrives, describes, change?, changeOfMessage?, Gallery.Reveals]
    | _ => simp [arrives, describes, change?]
  | report n key r =>
    cases key with
    | recording => simp [arrives, describes, change?]
    | participant user =>
      cases hu : c.mesh.contains user <;> cases r <;>
        simp [arrives, describes, change?, changeOfReport?, Gallery.Reveals, hu]
  | intent ticket i =>
    cases i <;> simp [arrives, describes, change?, changeOfIntent?, Gallery.Reveals]
  | _ => simp [arrives, describes, change?]

variable {c t}

/-- A track that is not rendered is rendered after a moment exactly if it arrives or is unmuted
then, or its sender describes its slot. -/
theorem renders_meet_iff (h : c.gallery.InOrder) (hid : ¬ c.gallery.snapshot.renders t)
    (m : Moment) :
    (c.meet m).value.gallery.snapshot.renders t ↔
      c.arrives t m.input ∨ c.describes t m.input := by
  rw [c.gallery_meet, arrives_or_describes_iff]
  cases hc : c.change? m.input with
  | none => exact iff_of_false hid fun ⟨_, h, _⟩ => by cases h
  | some change =>
    refine (h.renders_apply_iff hid change).trans ⟨fun hr => ⟨change, rfl, hr⟩, ?_⟩
    rintro ⟨_, hmem, hr⟩
    obtain rfl := Option.some.inj hmem
    exact hr

/-- A mute on the connection in whose slot a track sits takes it out of sight. -/
theorem not_renders_meet_muted (h : c.gallery.InOrder) {m : Moment} {n : Nat} {u : UserId}
    {mid : Mid} (hm : m.input = .report n (.participant u) (.muted t))
    (hline : c.mesh.contains u) (hslot : c.gallery.index.get? t = some ⟨u, mid⟩) :
    ¬ (c.meet m).value.gallery.snapshot.renders t := by
  have hchange : c.change? m.input = some (.removeTrack t) := by
    simp [hm, change?, changeOfReport?, hline, hslot]
  rw [c.gallery_meet, hchange]
  exact h.renders_removeTrack t

/-! ### Histories -/

theorem inOrder_meet (h : c.gallery.InOrder) (m : Moment) : (c.meet m).value.gallery.InOrder := by
  rw [c.gallery_meet]
  cases c.change? m.input with
  | none => exact h
  | some change => exact h.apply change

/-- What is not rendered after a moment is not shown in it. -/
theorem not_renders_of_mem_shown_cons {m : Moment} {moments : List Moment}
    (hfirst : ¬ (c.meet m).value.gallery.snapshot.renders t)
    (hrest : ∀ snapshot ∈ Effect.shown ((c.meet m).value.run moments).effects,
      ¬ snapshot.renders t) :
    ∀ snapshot ∈ Effect.shown (c.run (m :: moments)).effects, ¬ snapshot.renders t := by
  intro snapshot hs
  have heffects : (c.run (m :: moments)).effects =
      (c.meet m).effects ++ ((c.meet m).value.run moments).effects := rfl
  rw [heffects, Effect.shown_append] at hs
  rcases List.mem_append.1 hs with hs | hs
  · rw [c.eq_of_mem_shown_meet hs]
    exact hfirst
  · exact hrest snapshot hs

/-- A hidden track stays out of sight as long as no moment brings it back. -/
theorem hidden_of_unrevived (h : c.gallery.InOrder) (hid : ¬ c.gallery.snapshot.renders t)
    {moments : List Moment} (hmoments : c.Unrevived t moments) :
    (∀ snapshot ∈ Effect.shown (c.run moments).effects, ¬ snapshot.renders t) ∧
      ¬ (c.run moments).value.gallery.snapshot.renders t ∧
      (c.run moments).value.gallery.InOrder := by
  induction moments generalizing c with
  | nil => exact ⟨fun _ hs => absurd hs List.not_mem_nil, hid, h⟩
  | cons m moments ih =>
    obtain ⟨harrives, hdescribes, hrest⟩ := hmoments
    have hnext : ¬ (c.meet m).value.gallery.snapshot.renders t := fun hr => by
      rcases (renders_meet_iff h hid m).1 hr with ha | hd
      · cases harrives.symm.trans ha
      · cases hdescribes.symm.trans hd
    obtain ⟨hshown, hlast⟩ := ih (inOrder_meet h m) hnext hrest
    exact ⟨not_renders_of_mem_shown_cons hnext hshown, hlast⟩

/-- In every history, a track that is muted on the connection in whose slot it sits is in nothing
that is shown until it arrives or is unmuted, or its sender describes its slot, whatever else comes
in between. It is rendered again after the first moment that brings one of these, and after no
other. -/
theorem hidden_until_revived (s : Settings) (room : RoomId) (user : UserId) (urls : UrlSource)
    (before after : List Moment) {m : Moment} {n : Nat} {u : UserId} {t : TrackId} {mid : Mid}
    (hm : m.input = .report n (.participant u) (.muted t))
    (hslot : ((fresh s room user urls .none).run before).value.gallery.index.get? t =
      some ⟨u, mid⟩)
    (hafter : (((fresh s room user urls .none).run before).value.meet m).value.Unrevived t
      after) :
    let o := ((fresh s room user urls .none).run before).value.run (m :: after)
    (∀ snapshot ∈ Effect.shown o.effects, ¬ snapshot.renders t) ∧
      ¬ o.value.gallery.snapshot.renders t ∧
      ∀ next, (o.value.meet next).value.gallery.snapshot.renders t ↔
        o.value.arrives t next.input ∨ o.value.describes t next.input := by
  have h := attended_run s room user urls before
  generalize ((fresh s room user urls .none).run before).value = c at h hslot hafter
  obtain ⟨x, hx, -⟩ := (h.inOrder.index_iff _ _).1 hslot
  have hline : c.mesh.contains u = true := by
    refine Mesh.contains_eq_true_iff.2 (Option.ne_none_iff_exists'.1 fun hnone => ?_)
    cases hx.symm.trans (h.slots ⟨u, mid⟩ hnone)
  have hmuted := not_renders_meet_muted h.inOrder hm hline hslot
  obtain ⟨hshown, hlast, hinOrder⟩ :=
    hidden_of_unrevived (inOrder_meet h.inOrder m) hmuted hafter
  exact ⟨not_renders_of_mem_shown_cons hmuted hshown, hlast, renders_meet_iff hinOrder hlast⟩

/-- A picture of Ann is on show, as her batch describes it. -/
def picturing : List Moment :=
  [⟨0, .none, .intent 0 (.dial "me")⟩,
    ⟨1, .none, .relay (.message (.roster ⟨⟨"ann"⟩, [⟨"ann"⟩, ⟨"me"⟩], ∅, false, ""⟩))⟩,
    ⟨2, .none, .relay (.message (.announcements ⟨"ann"⟩ [⟨⟨"0"⟩, .video, ⟨"ann"⟩, ⟨"camera"⟩⟩]))⟩,
    ⟨3, .none, .report 0 (.participant ⟨"ann"⟩)
      (.track ⟨0, ⟨"picture"⟩, .video, "front"⟩ ⟨"raw"⟩ ⟨"0"⟩)⟩]

/-- The picture is muted. -/
def muting : Moment := ⟨4, .none, .report 0 (.participant ⟨"ann"⟩) (.muted ⟨"picture"⟩)⟩

/-- Ann's batch comes again. -/
def describing : Moment :=
  ⟨5, .none, .relay (.message (.announcements ⟨"ann"⟩ [⟨⟨"0"⟩, .video, ⟨"ann"⟩, ⟨"camera"⟩⟩]))⟩

/-- Bob sends that batch, and the status is asked for. -/
def asking : List Moment :=
  [⟨5, .none, .relay (.message (.announcements ⟨"bob"⟩ [⟨⟨"0"⟩, .video, ⟨"ann"⟩, ⟨"camera"⟩⟩]))⟩,
    ⟨6, .none, .intent 1 .getStatus⟩]

/-- What Bob sends does not bring the picture back, and the status does not show it. -/
theorem hidden_until_revived_asking :
    let c := ((fresh (.ofRelay "ws://relay") ⟨"room"⟩ ⟨"me"⟩ (.fresh fun _ _ => false) .none).run
      picturing).value
    let o := c.run (muting :: asking)
    c.gallery.index.get? ⟨"picture"⟩ = some ⟨⟨"ann"⟩, ⟨"0"⟩⟩ ∧
      c.gallery.snapshot.renders ⟨"picture"⟩ ∧
      ∀ snapshot ∈ Effect.shown o.effects, ¬ snapshot.renders ⟨"picture"⟩ := by
  intro c o
  have hslot : c.gallery.index.get? ⟨"picture"⟩ = some ⟨⟨"ann"⟩, ⟨"0"⟩⟩ := by decide
  have hafter : (c.meet muting).value.Unrevived ⟨"picture"⟩ asking :=
    ⟨rfl, by decide, rfl, rfl, trivial⟩
  exact ⟨hslot, by decide, (hidden_until_revived _ _ _ _ picturing asking rfl hslot hafter).1⟩

/-- The batch that stood before shows the picture, which is still muted. -/
theorem description_shows_muted :
    let c := ((fresh (.ofRelay "ws://relay") ⟨"room"⟩ ⟨"me"⟩ (.fresh fun _ _ => false) .none).run
      picturing).value
    let o := c.run [muting, describing]
    c.gallery.index.get? ⟨"picture"⟩ = some ⟨⟨"ann"⟩, ⟨"0"⟩⟩ ∧
      (c.meet muting).value.arrives ⟨"picture"⟩ describing.input = false ∧
      ∃ snapshot ∈ Effect.shown o.effects, snapshot.renders ⟨"picture"⟩ := by
  decide

end VideoCall.Call
