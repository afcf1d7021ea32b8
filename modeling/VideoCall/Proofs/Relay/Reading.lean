import VideoCall.Proofs.Metric
import VideoCall.Proofs.Wire.Agreement
import VideoCall.Relay.Link

/-!
# Every frame is accounted for

A frame holds a message that the client knows, or one of a name that it does not know, or nothing
that can be read, or it is about the socket alone. By this alone it is decided what becomes of the
frame: the call hears the message, one of two counters goes up, or nothing happens. It matters
neither what came before nor what comes behind. So a call that listens hears that the link is up,
then the known messages in the order of their frames, and then once that the link is gone, however
the socket ends.

## Main definitions

* `Relay.Fate`, `Relay.Frame.fate` : what a frame holds.
* `Relay.Ends` : reading ends here.
* `Relay.Accounts` : what the frames of a link come to.

## Main results

* `Relay.deliver_eq` : what becomes of one frame.
* `Relay.listen_frames` : what becomes of frames in a row.
* `Relay.receive_accounts` : what the call hears of a link from its beginning to its end, and what
  the metrics read afterwards.
-/

namespace VideoCall.Relay

open Json Wire Outcome

/-! ### One frame -/

/-- What a frame holds. -/
inductive Fate
  /-- A message that the client knows. -/
  | known (m : Incoming)
  /-- A message of a name that the client does not know. -/
  | foreign (name : String)
  /-- A text that is no message. -/
  | malformed
  /-- Bytes. -/
  | bytes
  /-- A word about the socket alone. -/
  | control

namespace Fate

/-- The message, if the client knows it. -/
def message? : Fate → Option Incoming
  | known m => some m
  | _ => none

/-- Whether it is a message of a name that the client does not know. -/
def isForeign : Fate → Bool
  | foreign _ => true
  | _ => false

/-- Whether it is a text that is no message. -/
def isMalformed : Fate → Bool
  | malformed => true
  | _ => false

/-- Whether it is bytes. -/
def isBytes : Fate → Bool
  | bytes => true
  | _ => false

/-- Why a message is dropped, if it is. -/
def dropped? : Fate → Option DropReason
  | known _ => none
  | foreign _ => some .unknownEvent
  | malformed => some .undecodable
  | bytes => some .undecodable
  | control => none

end Fate

/-- What a frame holds. Only a text can hold a message. -/
def Frame.fate : Frame → Fate
  | .text s =>
    match decode s with
    | .ok (.known m) => .known m
    | .ok (.unknown name) => .foreign name
    | .error _ => .malformed
  | .binary _ => .bytes
  | .ping _ => .control
  | .pong _ => .control
  | .close => .control

/-- A message was dropped for the given reason. -/
def drop (r : DropReason) : Effect := .measured (.count (.signalsDropped r))

/-- What becomes of a frame is decided by what it holds. -/
theorem deliver_eq (f : Frame) :
    f.deliver = ⟨f.fate.message?, (f.fate.dropped?.map drop).toList⟩ := by
  cases f with
  | text s =>
    unfold Frame.deliver Frame.read Frame.fate
    dsimp only
    cases decode s with
    | error f => rfl
    | ok d => cases d <;> rfl
  | _ => rfl

/-! ### Frames in a row -/

/-- Reading ends here: nothing more comes, or something comes that ends it. -/
def Ends : List Arrival → Prop
  | [] => True
  | .frame .close :: _ => True
  | .failed _ :: _ => True
  | .cancelled :: _ => True
  | _ => False

theorem listen_of_ends {as : List Arrival} (h : Ends as) (held : Bool) :
    listen held as = pure (farewell held) := by
  unfold Ends at h
  split at h
  · rfl
  · rfl
  · rfl
  · rfl
  · exact h.elim

/-- A frame that does not end reading comes before all that is behind it. -/
theorem listen_frame {f : Frame} (hf : f ≠ .close) (as : List Arrival) :
    listen true (.frame f :: as) =
      ⟨(f.fate.message?.map Event.message).toList ++ (listen true as).value,
        (f.fate.dropped?.map drop).toList ++ (listen true as).effects⟩ := by
  rw [listen, deliver_eq]
  · cases f.fate with
    | known m => simp [Fate.message?, Fate.dropped?, bind]
    | _ => rfl
  · exact hf

/-- What becomes of frames in a row is what becomes of each of them, in order. -/
theorem listen_frames {fs : List Frame} (hfs : ∀ f ∈ fs, f ≠ .close) (as : List Arrival) :
    listen true (fs.map .frame ++ as) =
      ⟨(fs.filterMap fun f => f.fate.message?).map .message ++ (listen true as).value,
        (fs.filterMap fun f => f.fate.dropped?).map drop ++ (listen true as).effects⟩ := by
  induction fs with
  | nil => rfl
  | cons f fs ih =>
    obtain ⟨hf, hfs⟩ := List.forall_mem_cons.1 hfs
    rw [List.map_cons, List.cons_append, listen_frame hf, ih hfs, List.filterMap_cons,
      List.filterMap_cons]
    cases f.fate <;> rfl

/-! ### What is counted -/

theorem count_counts_drop (rs : List DropReason) (r : DropReason) :
    (Effect.counts (rs.map drop)).count (.signalsDropped r) = rs.count r := by
  induction rs with
  | nil => rfl
  | cons r' rs ih =>
    change (Counter.signalsDropped r' :: Effect.counts (rs.map drop)).count _ = _
    rw [List.count_cons, List.count_cons, ih]
    simp

/-- A message of an unknown name is dropped as such, and nothing else is. -/
theorem count_dropped_unknownEvent (fs : List Frame) :
    (fs.filterMap fun f => f.fate.dropped?).count .unknownEvent =
      fs.countP fun f => f.fate.isForeign := by
  rw [List.count_filterMap]
  refine List.countP_congr fun f _ => ?_
  cases f.fate <;> exact Iff.rfl

/-- Bytes and texts that are no messages are dropped because they cannot be read. -/
theorem count_dropped_undecodable (fs : List Frame) :
    (fs.filterMap fun f => f.fate.dropped?).count .undecodable =
      (fs.countP fun f => f.fate.isBytes) + fs.countP fun f => f.fate.isMalformed := by
  rw [List.count_filterMap]
  induction fs with
  | nil => rfl
  | cons f fs ih =>
    have hone : (if f.fate.dropped? == some .undecodable then 1 else 0) =
        (if f.fate.isBytes then 1 else 0) + if f.fate.isMalformed then 1 else 0 := by
      cases f.fate <;> rfl
    rw [List.countP_cons, List.countP_cons, List.countP_cons, ih, hone, Nat.add_add_add_comm]

/-- The counters that frames are counted in. -/
def metrics : List Metric :=
  [.counter (.signalsDropped .unknownEvent), .counter (.signalsDropped .undecodable)]

theorem touches_of_dropped {fs : List Frame} :
    ∀ e ∈ (fs.filterMap fun f => f.fate.dropped?).map drop, e.Touches metrics := by
  intro e he
  obtain ⟨r, hr, rfl⟩ := List.mem_map.1 he
  obtain ⟨f, -, hf⟩ := List.mem_filterMap.1 hr
  have hreason : ∀ {t : Fate}, t.dropped? = some r →
      Metric.counter (.signalsDropped r) ∈ metrics := by
    rintro (_ | _ | _ | _ | _) ⟨⟩ <;> decide
  exact hreason hf

/-! ### A link from its beginning to its end -/

/-- What the frames of a link come to, if the metrics read `before` at first: what the call hears,
and what the metrics read afterwards. -/
structure Accounts (fs : List Frame) (before : Readings) (heard : List Event)
    (after : Readings) : Prop where
  heard : heard =
    .connected :: (fs.filterMap fun f => f.fate.message?).map .message ++ [.disconnected]
  foreign : after.total (.signalsDropped .unknownEvent) =
    before.total (.signalsDropped .unknownEvent) + fs.countP fun f => f.fate.isForeign
  undecodable : after.total (.signalsDropped .undecodable) =
    before.total (.signalsDropped .undecodable) +
      ((fs.countP fun f => f.fate.isBytes) + fs.countP fun f => f.fate.isMalformed)
  counters : ∀ c, .counter c ∉ metrics → after.total c = before.total c
  gauges : ∀ g, after.level g = before.level g

/-- What the call hears of a link, and what the metrics read afterwards, is the account of the
frames before the end, whatever the end is and whatever lies behind it. -/
theorem receive_accounts (fs : List Frame) (rest : List Arrival) (hfs : ∀ f ∈ fs, f ≠ .close)
    (hrest : Ends rest) (before : Footprint) :
    let o := receive (fs.map .frame ++ rest)
    Accounts fs before.readings o.value (before.noteAll o.effects).readings := by
  intro o
  have ho : o = ⟨.connected :: (fs.filterMap fun f => f.fate.message?).map .message ++
      [.disconnected], (fs.filterMap fun f => f.fate.dropped?).map drop⟩ := by
    unfold o receive
    rw [listen_frames hfs, listen_of_ends hrest]
    simp [farewell, bind]
  rw [ho]
  exact {
    heard := rfl
    foreign := by
      rw [Footprint.total_noteAll, count_counts_drop, count_dropped_unknownEvent]
    undecodable := by
      rw [Footprint.total_noteAll, count_counts_drop, count_dropped_undecodable]
    counters := fun c hc => by
      rw [Footprint.total_noteAll, Effect.count_eq_zero touches_of_dropped hc, Nat.add_zero]
    gauges := fun g => by
      rw [Footprint.level_noteAll, Effect.settings_eq_nil touches_of_dropped
        (by cases g <;> decide)]
      rfl }

/-- What a peer says when it hangs up. -/
def goodbye : Incoming := .hangUp ⟨"bob"⟩

/-- A goodbye, bytes, a message of an unknown name, a question, a text that is no message, and a
goodbye. -/
def mixture : List Frame :=
  [.text goodbye.text, .binary [0], .text Incoming.foreignNode.text, .ping [],
    .text Node.null.text, .text goodbye.text]

/-- Both goodbyes are heard, in spite of what lies between them. What comes after the end is not. -/
theorem receive_accounts_mixture :
    (∀ f ∈ mixture, f ≠ .close) ∧ Ends [.frame .close, .frame (.text goodbye.text)] ∧
      let o := receive (mixture.map .frame ++ [.frame .close, .frame (.text goodbye.text)])
      let after := (Footprint.none.noteAll o.effects).readings
      o.value = [.connected, .message goodbye, .message goodbye, .disconnected] ∧
        after.total (.signalsDropped .unknownEvent) = 1 ∧
        after.total (.signalsDropped .undecodable) = 2 := by
  have hgoodbye : (Frame.text goodbye.text).fate = .known goodbye := by
    have hread : Document.read goodbye.text = ⟨Incoming.format.node goodbye, false⟩ :=
      Document.read_text (d := 2) rfl
    simp only [Frame.fate, decode, hread]
    rfl
  have hforeign : (Frame.text Incoming.foreignNode.text).fate = .foreign "pubTrack" := by
    have hread : Document.read Incoming.foreignNode.text = ⟨Incoming.foreignNode, false⟩ :=
      Document.read_text (d := 2) rfl
    simp only [Frame.fate, decode, hread]
    rfl
  have hnull : (Frame.text Node.null.text).fate = .malformed := by
    have hread : Document.read Node.null.text = ⟨.null, false⟩ := Document.read_text (d := 1) rfl
    simp only [Frame.fate, decode, hread]
    rfl
  have hfs : ∀ f ∈ mixture, f ≠ .close := by simp [mixture]
  have haccounts := receive_accounts mixture [.frame .close, .frame (.text goodbye.text)] hfs
    trivial Footprint.none
  refine ⟨hfs, trivial, haccounts.heard.trans ?_, haccounts.foreign.trans ?_,
    haccounts.undecodable.trans ?_⟩
  · simp only [mixture, List.filterMap_cons, hgoodbye, hforeign, hnull]
    rfl
  · simp only [mixture, List.countP_cons, hgoodbye, hforeign, hnull]
    rfl
  · simp only [mixture, List.countP_cons, hgoodbye, hforeign, hnull]
    rfl

end VideoCall.Relay
