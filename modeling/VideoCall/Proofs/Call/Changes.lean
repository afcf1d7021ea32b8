import VideoCall.Proofs.Call.Effects

/-!
# What inputs do to the gallery

An input leads to one change of the gallery, or to none. A message of the relay does so only while
it counts, and a report of a connection only while there is one to that participant; what the
participant captures, and a hang-up, changes the gallery at any time.

## Main definitions

* `Call.change?` : the change of the gallery that an input leads to.

## Main results

* `Call.gallery_meet` : a moment changes the gallery by that change, and in no other way.
-/

namespace VideoCall.Call

open Outcome Peer Wire Media

variable (c : Call)

/-- The change of the gallery that a message leads to which counts. -/
def changeOfMessage? : Incoming → Option Gallery.Change
  | .announcements sender batch => some (.announce sender batch)
  | .hangUp user => some (.unassociate user)
  | _ => none

/-- The change of the gallery that a report of the connection to a participant leads to. A mute
matters only for a track that sits in a slot of that connection. -/
def changeOfReport? (user : UserId) : Report → Option Gallery.Change
  | .track t stream mid => some (.addTrack ⟨user, mid⟩ t stream)
  | .unmuted t stream mid => some (.addTrack ⟨user, mid⟩ t stream)
  | .muted id =>
    if (c.gallery.index.get? id).any fun slot => slot.peer = user then some (.removeTrack id)
    else none
  | .failed _ => some (.removePeer user)
  | .closed => some (.removePeer user)
  | _ => none

/-- The change of the gallery that a wish of the participant leads to. -/
def changeOfIntent? : Intent → Option Gallery.Change
  | .hangUp => some .reset
  | .addLocal type stream => some (.addLocal c.recorder.active type stream)
  | .removeLocal type => some (.removeLocal c.recorder.active type)
  | .trackChanged type t => some (.setMirror type t)
  | _ => none

/-- The change of the gallery that an input leads to, if it leads to one. -/
def change? : Input → Option Gallery.Change
  | .relay (.message m) => if c.membership.admits m then changeOfMessage? m else none
  | .report _ (.participant user) r =>
    if c.mesh.contains user then c.changeOfReport? user r else none
  | .intent _ i => c.changeOfIntent? i
  | _ => none

/-! ### Reactions -/

theorem gallery_applyRecording (recording : Bool) (url : Option String) :
    (c.applyRecording recording url).value.gallery = c.gallery := by
  unfold applyRecording
  split <;> rfl

theorem gallery_onRoster (r : Roster) : (c.onRoster r).value.gallery = c.gallery := by
  obtain ⟨_, hvalue, _, _, rfl⟩ := c.exists_value_onRoster r
  rw [hvalue, gallery_applyRecording]

theorem gallery_onAdmitted (m : Incoming) :
    (c.onAdmitted m).value.gallery = (c.gallery.run (changeOfMessage? m).toList).value := by
  cases m with
  | roster r => exact c.gallery_onRoster r
  | recordOutcome r =>
    rw [onAdmitted]
    split
    · exact c.gallery_applyRecording _ _
    · rfl
  | _ => rfl

theorem gallery_onPeerReport (user : UserId) (r : Report) :
    (c.onPeerReport user r).value.gallery =
      (c.gallery.run (c.changeOfReport? user r).toList).value := by
  cases r with
  | muted id =>
    rw [onPeerReport, changeOfReport?, onMuted]
    split <;> rfl
  | _ => rfl

theorem gallery_onReport (line : Nat) (key : Key) (r : Report) :
    (c.onReport key r).value.gallery =
      (c.gallery.run (c.change? (.report line key r)).toList).value := by
  cases key with
  | recording => rfl
  | participant user =>
    unfold onReport change? Mesh.report Mesh.contains Table.contains
    dsimp only
    cases hl : c.mesh.lines.get? user with
    | none => rfl
    | some l => exact gallery_onPeerReport _ user r

theorem gallery_onIntent (now ticket : Nat) (i : Intent) :
    (c.onIntent now ticket i).value.gallery =
      (c.gallery.run (c.changeOfIntent? i).toList).value := by
  cases i with
  | dial nickname =>
    unfold onIntent dial
    dsimp only [value_bind]
    rw [value_settleCounted]
    rfl
  | hangUp =>
    have hsettled : ∀ c' : Call, (c'.settleDial (.failed .dialSuperseded)).value.gallery =
        c'.gallery := fun c' => by rw [value_settleDial]
    exact congrArg (fun g : Gallery => g.reset.value) (hsettled _)
  | _ => rfl

/-- A moment changes the gallery by the change that its input leads to, and in no other way. -/
theorem gallery_meet (m : Moment) :
    (c.meet m).value.gallery = (c.gallery.run (c.change? m.input).toList).value := by
  obtain ⟨now, refusals, i⟩ := m
  cases i with
  | relay e =>
    cases e with
    | connected => rfl
    | disconnected =>
      change (onRelay { c with board := { c.board with refusals := refusals } }
        .disconnected).value.gallery = c.gallery
      unfold onRelay
      dsimp only
      split <;> rfl
    | message m =>
      change (onMessage { c with board := { c.board with refusals := refusals } } m).value.gallery =
        _
      unfold onMessage change?
      dsimp only
      split
      · exact gallery_onAdmitted _ m
      · rfl
  | report line key r => exact gallery_onReport _ line key r
  | reply session result => rfl
  | intent ticket i => exact gallery_onIntent _ now ticket i
  | deadline =>
    change (onDeadline { c with board := { c.board with refusals := refusals } }).value.gallery =
      c.gallery
    unfold onDeadline
    dsimp only
    split
    · rfl
    · dsimp only [value_bind]
      rw [value_settleCounted]

end VideoCall.Call
