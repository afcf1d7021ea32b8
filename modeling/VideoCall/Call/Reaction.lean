import VideoCall.Call.Basic

/-!
# Reactions of a call

What a call does about each input, and about its end. Anomalies are no errors: a message that does
not count, an envelope for nobody, and a report of a connection that is closed are passed over.

## Main definitions

* `Call.onRelay`, `Call.onMessage` : reactions to the relay.
* `Call.onReport` : the reaction to a report of a connection.
* `Call.onIntent` : the reaction to the participant.
* `Call.react` : the reaction to any input.
* `Call.shutDown` : the end of the call.
-/

namespace VideoCall.Call

open Media Wire Outcome Peer

variable (c : Call)

/-! ### The recording -/

/-- Ends the recording, if there is one; `loud` is whether to publish that. -/
def stopRecording (loud : Bool) : Outcome Call := do
  let (recorder, stopped) ← c.recorder.stop
  when (stopped && loud) (publishRecording false)
  return { c with recorder := recorder }

/-- Begins the recording, unless there is one or the connection is refused. -/
def startRecording (url : Option String) : Outcome Call := do
  let (recorder, board, started) ←
    c.recorder.start c.board c.membership.room c.membership.user url c.gallery.locals.values
  when started (publishRecording true)
  return { c with recorder := recorder, board := board }

/-- Brings the recording into the state that the relay names. -/
def applyRecording (recording : Bool) (url : Option String) : Outcome Call :=
  if recording then c.startRecording url else c.stopRecording true

/-! ### The relay -/

/-- Tells the participant that a connection was refused, if it was. -/
def tellRefusal : Except Failure Bool → Outcome Unit
  | .ok _ => pure ()
  | .error e => notify .error (CallError.peer e).clientMessage

/-- Opens a connection to a participant who is new. A refusal is told and does not stop the
others. -/
def connectTo (initiator : Bool) (user : UserId) : Outcome Call := do
  let (mesh, board, created) ← c.mesh.create c.board user initiator c.captured
  tellRefusal created
  return { c with mesh := mesh, board := board }

/-- A roster came in: there are connections to open, and the pending dial is done. -/
def onRoster (r : Roster) : Outcome Call := do
  let (membership, update) := c.membership.meet r c.mesh.contains
  notify .info ("Connected users: " ++ toString update.connectedUsers)
  let c := { c with membership := membership, isInitiator := some update.isInitiator }
  let c ← forEach (fun c user => connectTo c update.isInitiator user) update.newPeers c
  let c ← c.settleCounted .joined .done
  c.applyRecording update.recording update.recordUrl

/-- The reaction to a message that counts. -/
def onAdmitted : Incoming → Outcome Call
  | .roster r => c.onRoster r
  | .signal sender s => do
    let (mesh, _) ← c.mesh.signal c.board sender s
    return { c with mesh := mesh }
  | .announcements sender batch => do
    let gallery ← c.gallery.announce sender batch
    let c := { c with gallery := gallery }
    c.publishStreams
    return c
  | .hangUp user => do
    let gallery ← c.gallery.unassociate user
    let c := { c with membership := c.membership.dropName user, gallery := gallery }
    c.publishStreams
    return c
  | .roomCreated creator => do
    let (membership, ready) := c.membership.roomMade creator
    forSome ready c.send
    return { c with membership := membership }
  | .recordOutcome r =>
    if r.successful then c.applyRecording r.recording (nonempty r.url) else pure c

/-- The reaction to a message, which is counted and dropped if it does not count. -/
def onMessage (m : Incoming) : Outcome Call :=
  if c.membership.admits m then c.onAdmitted m
  else do
    count (.signalsDropped .notJoined)
    return c

/-- The reaction to an event of the link to the relay. -/
def onRelay : Relay.Event → Outcome Call
  | .connected => do
    notify .warning "Connected to server socket"
    c.send c.membership.createRoom
    return { c with connected := true }
  | .disconnected =>
    if c.connected then do
      notify .error "Server socket disconnected"
      return { c with connected := false }
    else pure c
  | .message m => c.onMessage m

/-! ### Connections -/

/-- A connection is gone: it is closed and forgotten, with all of its slots. -/
def tearDown (user : UserId) (reason : CloseReason) : Outcome Call := do
  let (mesh, _) ← c.mesh.close user reason
  let gallery ← c.gallery.removePeer user
  let c := { c with mesh := mesh, gallery := gallery }
  c.publishStreams
  return c

/-- A track arrived on a connection. -/
def onTrack (user : UserId) (t : Track) (stream : StreamId) (mid : Mid) : Outcome Call := do
  let gallery ← c.gallery.addTrack ⟨user, mid⟩ t stream
  let c := { c with gallery := gallery }
  c.publishStreams
  return c

/-- A track was muted on a connection, which matters only if it sits in one of its slots. -/
def onMuted (user : UserId) (id : TrackId) : Outcome Call :=
  if (c.gallery.index.get? id).any fun slot => slot.peer = user then do
    let gallery ← c.gallery.removeTrack id
    let c := { c with gallery := gallery }
    c.publishStreams
    return c
  else pure c

/-- The reaction to a report of a connection to a participant. -/
def onPeerReport (user : UserId) : Report → Outcome Call
  | .signal s => do
    c.send (.signal user s)
    return c
  | .connected => pure c
  | .renegotiating => pure c
  | .track t stream mid => c.onTrack user t stream mid
  | .unmuted t stream mid => c.onTrack user t stream mid
  | .muted id => c.onMuted user id
  | .data bytes => do
    emit (.published (.data user bytes))
    return c
  | .failed _ => c.tearDown user .error
  | .closed => c.tearDown user .remoteClose

/-- The reaction to a report of the connection to the recording service. -/
def onRecordingReport (r : Report) : Outcome Call := do
  let recorder ← c.recorder.report r
  when (c.recorder.active && !recorder.active) (publishRecording false)
  return { c with recorder := recorder }

/-- The reaction to a report, which goes by where the connection leads. A report from where there is
no connection is dropped. -/
def onReport (key : Key) (r : Report) : Outcome Call :=
  match key with
  | .recording => c.onRecordingReport r
  | .participant user =>
    match c.mesh.report user r with
    | (_, none) => pure c
    | (mesh, some _) => onPeerReport { c with mesh := mesh } user r

/-- The reaction to a reply of the recording service. -/
def onReply (session : Nat) (result : Except Recorder.JoinError Signal) : Outcome Call := do
  let failed ← c.recorder.reply c.board session result
  forSome failed fun e => notify .warning (CallError.recording e).clientMessage
  return c

/-! ### The participant -/

/-- The participant joins under a name. A dial that is pending is superseded. -/
def dial (now ticket : Nat) (nickname : String) : Outcome Call := do
  let c ← c.settleCounted .superseded (.failed .dialSuperseded)
  let (membership, ready) := c.membership.start nickname
  c.send ready
  return { c with membership := membership, pending := some ⟨ticket, now + c.dialTimeout⟩ }

/-- No roster came in time. -/
def onDeadline : Outcome Call :=
  match c.pending with
  | none => pure c
  | some _ => do
    let e := CallError.dialTimeout c.dialTimeout
    let c := { c with membership := c.membership.stop }
    notify .error e.clientMessage
    c.settleCounted .timeout (.failed e)

/-- Everything is released: connections, recording, and streams; `loud` is whether to publish the
end of the recording. -/
def release (loud : Bool) : Outcome Call := do
  let (mesh, _) ← c.mesh.closeAll .hangUp
  let c ← stopRecording { c with mesh := mesh } loud
  let gallery ← c.gallery.reset
  return { c with gallery := gallery }

/-- The participant leaves. -/
def hangUp : Outcome Call := do
  c.send c.membership.farewell
  let c := { c with membership := c.membership.stop }
  let c ← c.settleDial (.failed .dialSuperseded)
  let c ← c.release true
  let c := { c with isInitiator := none }
  c.publishStreams
  return c

/-- A captured stream takes the place of the one of its type, for every connection. -/
def addLocal (type : StreamType) (stream : Stream) : Outcome (Call × LocalStream) := do
  forSome (c.gallery.locals.get? type) fun before =>
    c.mesh.tellAll c.board (.removeStream before.stream)
  let (recorder, gallery, m) ←
    c.recorder.follow c.board (c.gallery.addLocal c.recorder.active type stream)
  let c := { c with recorder := recorder, gallery := gallery }
  c.mesh.tellAll c.board (.addStream stream)
  c.publishStreams
  return (c, m)

/-- The captured stream of a type goes, for every connection. -/
def removeLocal (type : StreamType) : Outcome (Call × Option LocalStream) := do
  let (recorder, gallery, removed) ←
    c.recorder.follow c.board (c.gallery.removeLocal c.recorder.active type)
  let c := { c with recorder := recorder, gallery := gallery }
  forSome removed fun m => do
    c.mesh.tellAll c.board (.removeStream m.stream)
    c.publishStreams
  return (c, removed)

/-- The reaction to the participant, at the given time. -/
def onIntent (now ticket : Nat) : Intent → Outcome Call
  | .dial nickname => c.dial now ticket nickname
  | .hangUp => do
    let c ← c.hangUp
    emit (.answered ticket .done)
    return c
  | .toggleRecord => do
    c.send (c.membership.wish !c.recorder.active)
    emit (.answered ticket .done)
    return c
  | .addLocal type stream => do
    let (c, m) ← c.addLocal type stream
    emit (.answered ticket (.installed m))
    return c
  | .removeLocal type => do
    let (c, removed) ← c.removeLocal type
    emit (.answered ticket (.removed removed))
    return c
  | .trackChanged type t => do
    let c := { c with gallery := c.gallery.setMirror type t }
    c.publishStreams
    emit (.answered ticket .done)
    return c
  | .getStatus => do
    emit (.answered ticket (.status c.status))
    return c

/-! ### All inputs -/

/-- The reaction to an input, at the given time. -/
def react (now : Nat) : Input → Outcome Call
  | .relay e => c.onRelay e
  | .report _ key r => c.onReport key r
  | .reply session result => c.onReply session result
  | .intent ticket i => c.onIntent now ticket i
  | .deadline => c.onDeadline

/-- The end of the call: everything is released without a word. -/
def shutDown : Outcome Call := do
  let c ← c.settleDial (.failed .ended)
  c.release false

end VideoCall.Call
