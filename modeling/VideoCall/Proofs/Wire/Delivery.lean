import VideoCall.Proofs.Json.Reading
import VideoCall.Proofs.Wire.Payloads

/-!
# Messages survive the wire

A message from the relay is decoded from its text, with its members in any order and with others
among them, such as the room. A message to the relay is read back from its text. Whoever decodes it
as if it came from the relay gets the same envelope and the same word that somebody left, and for
all else sees a message of a name unknown to clients.

## Main definitions

* `Wire.Beside` : a member that stands beside the type and the payload of a message.
* `Wire.Outgoing.heard` : what a client makes of a message to the relay.

## Main results

* `Wire.decode_of_perm` : what a text with a type and a payload is decoded to.
* `Wire.Incoming.decode_shuffled` : every message from the relay is decoded from its text.
* `Wire.Envelope.read_back_and_heard` : every message to the relay is read back, and what a client
  makes of it.
-/

namespace VideoCall.Wire

open Json

/-- A member that stands beside the type and the payload of a message. Its value is any document
that stands for something, however deep. -/
structure Beside (m : Key × Node) : Prop where
  named : ∃ s, m.1 = .name s ∧ s ≠ "type" ∧ s ≠ "payload"
  readable : ∃ d, m.2.readable d

/-- An answer with a description of the session, and the numbers of both ends of the range. -/
def Signal.answer : Signal :=
  ⟨.object [("range", .array [.number (.whole (-9223372036854775808)),
      .number (.whole 18446744073709551615), .null, .bool true]),
    ("sdp", .string "v=0\r\ns=\"ö\"\n"), ("type", .string "answer")]⟩

theorem Signal.sendable_answer : Signal.answer.Sendable where
  plain := by
    have hlow : (Number.whole (-9223372036854775808)).Fits := ⟨by decide, by decide⟩
    have hhigh : (Number.whole 18446744073709551615).Fits := ⟨by decide, by decide⟩
    have hrange : Value.Plain (.array [.number (.whole (-9223372036854775808)),
        .number (.whole 18446744073709551615), .null, .bool true]) := by
      refine .array _ (List.forall_mem_cons.2 ⟨.whole _ hlow, ?_⟩)
      exact List.forall_mem_cons.2 ⟨.whole _ hhigh, List.forall_mem_cons.2 ⟨.null,
        List.forall_mem_singleton.2 (.bool true)⟩⟩
    refine .object _ (by decide) (List.forall_mem_cons.2 ⟨hrange, ?_⟩)
    exact List.forall_mem_cons.2 ⟨.string _, List.forall_mem_singleton.2 (.string _)⟩
  readable := rfl

/-! ### The outer form -/

/-- The outer form is found in an object with its members in any order and others among them. -/
theorem read_outerFormat {name : String} {p : Node} {others members : List (Key × Node)}
    (hp : p.readable (maxDepth - 1))
    (hnamed : ∀ m ∈ others, ∃ s, m.1 = .name s ∧ s ≠ "type" ∧ s ≠ "payload")
    (hwhole : ∀ m ∈ others, m.2.whole)
    (hperm : members.Perm
      ([(.name "type", .string (some name)), (.name "payload", p)] ++ others)) :
    outerFormat.read .text (.object members true) = .ok (name, p.value) := by
  have hpayload : (Format.free 1).read .text p = .ok p.value := if_pos hp
  refine Format.read_record "RawEnvelope" _ _ (t := (name, p.value, ())) (by decide) ?_ ?_
    hwhole hperm
  · exact Or.inl ⟨_, _, rfl, rfl, Or.inl ⟨_, _, rfl, hpayload, rfl⟩⟩
  · intro m hm
    obtain ⟨s, hs, htype, hpayload⟩ := hnamed m hm
    exact ⟨s, hs, by simp [Fields.names, Fields.field, Fields.fieldOr, htype, hpayload]⟩

section Frame

variable {name : String} {p : Node} {others members : List (Key × Node)}
  (hp : p.readable (maxDepth - 1)) (hothers : ∀ m ∈ others, Beside m)
  (hperm : members.Perm
    ([(.name "type", .string (some name)), (.name "payload", p)] ++ others))
include hp hothers hperm

theorem readable_frame : ∃ d, (Node.object members true).readable d := by
  refine Node.exists_readable_object fun m hm => ?_
  have hmem := hperm.mem_iff.1 hm
  simp only [List.cons_append, List.nil_append, List.mem_cons] at hmem
  rcases hmem with rfl | rfl | hm
  · exact ⟨⟨_, rfl⟩, 0, rfl⟩
  · exact ⟨⟨_, rfl⟩, _, hp⟩
  · obtain ⟨s, hs, -⟩ := (hothers m hm).named
    exact ⟨⟨s, hs⟩, (hothers m hm).readable⟩

/-- The outer form is found in the text of the object, whose other members may not come back as
they are. -/
theorem read_frame (hreread : p.reread = p) :
    ∃ root, Document.read (Node.object members true).text = ⟨root, false⟩ ∧
      outerFormat.read .text root = .ok (name, p.value) := by
  obtain ⟨d, hreadable⟩ := readable_frame hp hothers hperm
  refine ⟨_, Document.read_text hreadable, ?_⟩
  rw [Node.reread_object]
  have hperm' : (members.map fun m => (m.1, m.2.reread)).Perm
      ([(.name "type", .string (some name)), (.name "payload", p)] ++
        others.map fun m => (m.1, m.2.reread)) := by
    have h := hperm.map fun m => (m.1, m.2.reread)
    rwa [List.map_append, List.map_cons, List.map_cons, List.map_nil, hreread] at h
  have hnamed : ∀ m ∈ others.map fun m => (m.1, m.2.reread),
      ∃ s, m.1 = .name s ∧ s ≠ "type" ∧ s ≠ "payload" :=
    List.forall_mem_map.2 fun m hm => (hothers m hm).named
  have hwhole : ∀ m ∈ others.map fun m => (m.1, m.2.reread), m.2.whole :=
    List.forall_mem_map.2 fun m hm => (hothers m hm).readable.elim fun _ => Node.whole_reread
  exact read_outerFormat hp hnamed hwhole hperm'

/-- A text with a type and a payload is decoded by these two, wherever they stand in it and whatever
stands beside them. -/
theorem decode_of_perm (hreread : p.reread = p) :
    decode (Node.object members true).text =
      if (Incoming.Kind.all.map (·.name)).contains name then
        (ofOuter name p.value).map .known
      else .ok (.unknown name) := by
  obtain ⟨root, hread, houter⟩ := read_frame hp hothers hperm hreread
  simp only [decode, hread, houter]
  change (if (Incoming.Kind.all.map (·.name)).contains name then do
      let m ← ofOuter name p.value
      pure (Decoded.known m)
    else pure (Decoded.unknown name)) = _
  cases ofOuter name p.value <;> rfl

end Frame

/-! ### Messages from the relay -/

namespace Incoming

theorem name_mem_names (m : Incoming) : (Kind.all.map (·.name)).contains m.name := by
  cases m <;> rfl

/-- The payload of a message, with its members in the order of their names, gives the message. -/
theorem ofOuter_payload {m : Incoming} (h : m.Sendable) :
    ofOuter m.name m.payload.value = .ok m :=
  Tagged.read_members_reverse (carries h).kind ((carries h).read (Or.inr rfl))

/-- A message is decoded from its type and any document that has the value of its payload. -/
theorem decode_of_value {m : Incoming} (h : m.Sendable) {p : Node}
    (hp : p.readable (maxDepth - 1)) (hreread : p.reread = p) (hvalue : p.value = m.payload.value)
    {others members : List (Key × Node)} (hothers : ∀ o ∈ others, Beside o)
    (hperm : members.Perm
      ([(.name "type", .string (some m.name)), (.name "payload", p)] ++ others)) :
    decode (Node.object members true).text = .ok (.known m) := by
  rw [decode_of_perm hp hothers hperm hreread, if_pos m.name_mem_names, hvalue, ofOuter_payload h]
  rfl

/-- Every message from the relay is decoded from its text, in whatever order its two members come
and whatever stands beside them. -/
theorem decode_shuffled {m : Incoming} (h : m.Sendable) {others members : List (Key × Node)}
    (hothers : ∀ o ∈ others, Beside o) (hperm : members.Perm (format.members m ++ others)) :
    decode (Node.object members true).text = .ok (.known m) :=
  decode_of_value h (carries h).readable (carries h).reread rfl hothers hperm

/-- An answer arrives with the room in front and its payload before its type. -/
theorem decode_shuffled_answer :
    Signal.answer.Sendable ∧
      decode (Node.object [(.name "room", .string (some "standup")),
        (.name "payload", signalFormat.write (⟨"ada"⟩, .answer)),
        (.name "type", .string (some "signal"))] true).text =
        .ok (.known (.signal ⟨"ada"⟩ .answer)) := by
  have hbeside : ∀ o ∈ [(Key.name "room", Node.string (some "standup"))], Beside o :=
    List.forall_mem_singleton.2 ⟨⟨"room", rfl, by decide, by decide⟩, 0, rfl⟩
  have hperm : [(Key.name "room", Node.string (some "standup")),
      (.name "payload", signalFormat.write (⟨"ada"⟩, .answer)),
      (.name "type", .string (some "signal"))].Perm
      (format.members (.signal ⟨"ada"⟩ .answer) ++
        [(Key.name "room", Node.string (some "standup"))]) :=
    ((List.Perm.swap _ _ []).cons _).trans (List.perm_append_singleton _ _).symm
  exact ⟨Signal.sendable_answer,
    decode_shuffled (m := .signal ⟨"ada"⟩ .answer) Signal.sendable_answer hbeside hperm⟩

end Incoming

/-! ### Messages to the relay -/

/-- What a client makes of a message to the relay. -/
def Outgoing.heard : Outgoing → Decoded
  | signal receiver s => .known (.signal receiver s)
  | hangUp user => .known (.hangUp user)
  | m => .unknown m.name

namespace Envelope

/-- The room stands beside the type and the payload. -/
theorem beside_room (room : RoomId) : Beside (.name "room", ident.write room) where
  named := ⟨"room", rfl, by decide, by decide⟩
  readable := ⟨0, rfl⟩

theorem readable_node {m : Envelope} (h : m.message.Sendable) : m.node.readable maxDepth := by
  have hpayload := (Outgoing.carries h).readable
  refine Node.readable_object.2 ⟨rfl, maxDepth - 1, rfl, ?_⟩
  refine List.forall_mem_cons.2 ⟨⟨⟨_, rfl⟩, rfl⟩, ?_⟩
  exact List.forall_mem_cons.2 ⟨⟨⟨_, rfl⟩, rfl⟩,
    List.forall_mem_cons.2 ⟨⟨⟨_, rfl⟩, hpayload⟩, nofun⟩⟩

theorem reread_node {m : Envelope} (h : m.message.Sendable) : m.node.reread = m.node := by
  have hpayload := (Outgoing.carries h).reread
  rw [node, Node.reread_object]
  change Node.object [_, _, (_, (Outgoing.format.write m.message).2.reread)] true = _
  rw [hpayload]
  rfl

/-- The room is taken out, and the other members are held back. -/
theorem sort_members {m : Envelope} (h : m.message.Sendable) :
    sort .text true ((.name "room", ident.write m.room) :: Outgoing.format.members m.message) none =
      .ok (some m.room, Outgoing.format.members m.message) := by
  have hhold : Tagged.hold .text (Outgoing.format.write m.message).2 = .ok () :=
    if_pos (Outgoing.carries h).readable
  have hroom : (ident : Format RoomId).read .text (ident.write m.room) = .ok m.room := rfl
  simp only [sort, Tagged.members, hroom, hhold]
  rfl

/-- A message is read from its members as they are written. -/
theorem read_node {m : Envelope} (h : m.message.Sendable) : read .text m.node = .ok m := by
  have hcarries := Outgoing.carries h
  have hmessage : Outgoing.format.read .held (.object (Outgoing.format.members m.message) true) =
      .ok m.message :=
    Tagged.read_members hcarries.kind (hcarries.read (Node.Arranged.refl _))
  simp only [read, node, sort_members h, hmessage, bind, Except.bind]
  rfl

theorem ofText_text {m : Envelope} (h : m.message.Sendable) : ofText m.text = .ok m := by
  have hread := Document.read_text (readable_node h)
  rw [reread_node h] at hread
  simp only [ofText, text, hread, read_node h]
  rfl

theorem decode_text {m : Envelope} (h : m.message.Sendable) :
    decode m.text = .ok m.message.heard := by
  obtain ⟨room, message⟩ := m
  have hbeside : ∀ o ∈ [(Key.name "room", ident.write room)], Beside o :=
    List.forall_mem_singleton.2 (beside_room room)
  have hcarries := Outgoing.carries h
  have hperm := (List.perm_append_singleton (Key.name "room", ident.write room)
    (Outgoing.format.members message)).symm
  have hdecode := decode_of_perm hcarries.readable hbeside hperm hcarries.reread
  -- both directions write the same payload for the two kinds that they share
  have hshared : ∀ m : Incoming, m.Sendable → (Outgoing.format.write message).2 = m.payload →
      message.name = m.name → decode (text ⟨room, message⟩) = .ok (.known m) := by
    intro m hm hpayload hname
    refine Incoming.decode_of_value hm hcarries.readable hcarries.reread
      (congrArg Node.value hpayload) hbeside ?_
    rw [← hname]
    exact hperm
  cases message with
  | signal receiver s => exact hshared (.signal receiver s) h rfl rfl
  | hangUp user => exact hshared (.hangUp user) h rfl rfl
  | createRoom => exact hdecode
  | ready => exact hdecode
  | record => exact hdecode

/-- Every message to the relay is read back from its text, and a client that decodes the text gets
the envelope or the word that somebody left, or sees a message of a name that it does not know. -/
theorem read_back_and_heard (m : Envelope) (h : m.message.Sendable) :
    ofText m.text = .ok m ∧ decode m.text = .ok m.message.heard :=
  ⟨ofText_text h, decode_text h⟩

/-- An answer is read back by the relay, and a client that hears it gets it. -/
theorem read_back_and_heard_answer :
    Signal.answer.Sendable ∧
      ofText (text ⟨⟨"standup"⟩, .signal ⟨"ada"⟩ .answer⟩) =
        .ok ⟨⟨"standup"⟩, .signal ⟨"ada"⟩ .answer⟩ ∧
      decode (text ⟨⟨"standup"⟩, .signal ⟨"ada"⟩ .answer⟩) =
        .ok (.known (.signal ⟨"ada"⟩ .answer)) :=
  ⟨Signal.sendable_answer,
    read_back_and_heard ⟨⟨"standup"⟩, .signal ⟨"ada"⟩ .answer⟩ Signal.sendable_answer⟩

end Envelope

end VideoCall.Wire
