import VideoCall.Proofs.Json.Reading
import VideoCall.Proofs.Json.Steadiness
import VideoCall.Proofs.Wire.Payloads

/-!
# Two ways to read a message agree

A text from the relay can be read in one go, or in two steps: first its outer form, the type and a
free-form payload, and then the payload by its type. The second way asks less of the text, since the
value of a payload forgets in which order members stood and which of them were named twice. Where
both the message and the outer form can be read, both ways lead to the same message. Where the type
is none that a client knows, the second way says so whatever the payload is, and the first one finds
no message.

## Main definitions

* `Wire.outerOfText` : the outer form that a text holds.

## Main results

* `Wire.Incoming.steady_readPayload` : the payload of every kind is found in its value.
* `Wire.Incoming.decode_eq_known` : a message that is read in one go is read in two steps.
* `Wire.Incoming.two_steps_agree` : both halves for every text.
-/

namespace VideoCall.Wire

open Json

/-! ### The outer form -/

/-- The outer form that a text holds: its type and its payload as it stands. -/
def outerOfText (s : String) : Except Fault (String × Value) := do
  let d := Document.read s
  let o ← outerFormat.read .text d.root
  if d.trailing then .error .garbled
  return o

/-- The names of all kinds of messages from the relay. -/
def Incoming.Kind.names : List String := all.map (·.name)

/-- The outer form decides whether the payload is looked at. -/
theorem decode_eq (s : String) :
    decode s = (do
      let (name, payload) ← outerOfText s
      if Incoming.Kind.names.contains name then return .known (← ofOuter name payload)
      else return .unknown name) := by
  unfold decode outerOfText
  obtain ⟨root, trailing⟩ := Document.read s
  cases h : outerFormat.read .text root with
  | error e =>
    simp only [h]
    rfl
  | ok o =>
    simp only [h]
    cases trailing <;> rfl

theorem outerOfText_eq_ok_iff {s : String} {o : String × Value} :
    outerOfText s = .ok o ↔
      outerFormat.read .text (Document.read s).root = .ok o ∧
        (Document.read s).trailing = false := by
  unfold outerOfText
  obtain ⟨root, trailing⟩ := Document.read s
  cases h : outerFormat.read .text root <;> cases trailing <;>
    simp [h, bind, Except.bind, pure, Except.pure]

/-- What is read as a text is that text. -/
theorem eq_of_read_text {o : Origin} {n : Node} {s : String} (h : Format.text.read o n = .ok s) :
    n = .string (some s) := by
  cases n with
  | string s' =>
    cases s' with
    | none => cases h
    | some s' => rw [Except.ok.inj h]
  | _ => cases h

/-- What is read as a free-form value in a text is readable and has that value. -/
theorem of_read_free {outside : Nat} {p : Node} {v : Value}
    (h : (Format.free outside).read .text p = .ok v) :
    p.readable (maxDepth - outside) ∧ p.value = v := by
  simp only [Format.free] at h
  split at h
  · exact ⟨‹_›, Except.ok.inj h⟩
  · cases h

/-- The type and the payload of an outer form in an array. -/
theorem of_read_outer_array {n p : Node} {closed : Bool} {name : String} {payload : Value}
    (h : outerFormat.read .text (.array [n, p] closed) = .ok (name, payload)) :
    n = .string (some name) ∧ p.readable (maxDepth - 1) ∧ p.value = payload := by
  obtain ⟨⟨⟨_, _, ⟨⟩⟩, _⟩, hitems, h⟩ := exists_of_bind_eq_ok h
  obtain ⟨-, -, heq⟩ := exists_of_bind_eq_ok h
  obtain ⟨rfl, rfl⟩ := Prod.mk.inj (Except.ok.inj heq)
  -- the items are read one by one, first the type
  obtain ⟨_, hname, hitems⟩ := exists_of_bind_eq_ok hitems
  obtain ⟨⟨⟨_, ⟨⟩⟩, _⟩, hrest, heq⟩ := exists_of_bind_eq_ok hitems
  cases heq
  obtain ⟨_, hpayload, hrest⟩ := exists_of_bind_eq_ok hrest
  cases hrest
  exact ⟨eq_of_read_text hname, of_read_free hpayload⟩

/-- The type and the payload of an outer form in an object. -/
theorem of_read_outer_object {n p : Node} {members : List (Key × Node)} {closed : Bool}
    {name : String} {payload : Value}
    (h : outerFormat.read .text (.object members closed) = .ok (name, payload))
    (hn : (.name "type", n) ∈ members) (hp : (.name "payload", p) ∈ members) :
    n = .string (some name) ∧ p.readable (maxDepth - 1) ∧ p.value = payload := by
  obtain ⟨draft, hread, h⟩ := exists_of_bind_eq_ok h
  split at h
  · cases h
  obtain ⟨⟨name', payload', ⟨⟩⟩, hfinish, heq⟩ := exists_of_bind_eq_ok h
  obtain ⟨rfl, rfl⟩ := Prod.mk.inj (Except.ok.inj heq)
  obtain ⟨parts, others, hperm, hparts, hothers⟩ := Fields.exists_parts hread hfinish
  -- none of the others has the name of a field, so both members are fields that were read
  have hfield : ∀ s n, s ∈ ["type", "payload"] → (Key.name s, n) ∈ members →
      (Key.name s, n) ∈ parts := by
    intro s n hs hmem
    refine (List.mem_append.1 (hperm.mem_iff.1 hmem)).resolve_right fun hother => ?_
    obtain ⟨s', heq, hnot⟩ := hothers _ hother
    exact hnot (Key.name.inj heq ▸ hs)
  have hn := hfield _ _ (by decide) hn
  have hp := hfield _ _ (by decide) hp
  rcases hparts with ⟨n', more, rfl, hname, hmore⟩ | ⟨hfallback, -⟩
  · rcases hmore with ⟨p', last, rfl, hpayload, hlast⟩ | ⟨-, hlast⟩
    · obtain rfl : last = [] := hlast
      simp only [List.mem_cons, Prod.mk.injEq, Key.name.injEq, String.reduceEq, false_and, true_and,
        List.not_mem_nil, or_false, false_or] at hn hp
      subst hn hp
      exact ⟨eq_of_read_text hname, of_read_free hpayload⟩
    · obtain rfl : more = [] := hlast
      simp at hp
  · cases hfallback

/-! ### Payloads -/

theorem steady_ident {kind : IdentKind} : (ident : Format (Ident kind)).Steady :=
  Format.steady_text.map Ident.mk Ident.text

theorem Signal.steady_format : Signal.format.Steady :=
  (Format.steady_free 2).map Signal.mk Signal.value

theorem Announcement.steady_format : Announcement.format.Steady :=
  Format.steady_record "TrackMetadata" _ _ (by decide)
    (Fields.steady_field "mid" steady_ident <|
      Fields.steady_field "kind" (Format.steady_choice _ _) <|
      Fields.steady_field "userId" steady_ident <| Fields.steady_field "streamId" steady_ident <|
      Fields.steady_nil)

/-- Of several names of one participant the last one counts, in an object as in its value. -/
theorem Roster.steady_nicknameFormat : Roster.nicknameFormat.Steady := by
  refine Format.steady_pairs Format.steady_text fun as => Table.ext_get? fun user => ?_
  have hlookup : ∀ l : List (String × String),
      Entries.lookup user (l.map fun a => ((⟨a.1⟩ : UserId), a.2)) =
        Entries.lookup user.text l := by
    intro l
    induction l with
    | nil => rfl
    | cons a l ih =>
      rw [List.map_cons, Entries.lookup, Entries.lookup, ih]
      rfl
  rw [Table.get?_ofList, Table.get?_ofList, ← List.map_reverse, ← List.map_reverse, hlookup,
    hlookup, Entries.lookup_reverse (Table.ofList as).increasing]
  exact Table.get?_ofList as user.text

theorem Roster.steady_format : Roster.format.Steady :=
  Format.steady_record "UsersPayload" _ _ (by decide)
    (Fields.steady_field "initiator" steady_ident <|
      Fields.steady_field "peerIds" (Format.steady_list steady_ident) <|
      Fields.steady_fieldOr "nicknames" Table.empty steady_nicknameFormat <|
      Fields.steady_fieldOr "recordStatus" false Format.steady_flag <|
      Fields.steady_fieldOr "recordUrl" "" Format.steady_text <| Fields.steady_nil)

theorem RecordOutcome.steady_format : RecordOutcome.format.Steady :=
  Format.steady_record "RecordCallbackPayload" _ _ (by decide)
    (Fields.steady_field "successful" Format.steady_flag <|
      Fields.steady_field "recordStatus" Format.steady_flag <|
      Fields.steady_fieldOr "url" "" Format.steady_text <| Fields.steady_nil)

theorem steady_userFormat (title field : String) : (userFormat title field).Steady :=
  Format.steady_record title _ _ (List.nodup_singleton field)
    (Fields.steady_field field steady_ident <| Fields.steady_nil)

theorem steady_signalFormat : signalFormat.Steady :=
  Format.steady_record "SignalPayload" _ _ (by decide)
    (Fields.steady_field "userId" steady_ident <|
      Fields.steady_field "signal" Signal.steady_format <| Fields.steady_nil)

namespace Incoming

theorem steady_announcementsFormat : announcementsFormat.Steady :=
  Format.steady_record "MetadataPayload" _ _ (by decide)
    (Fields.steady_field "userId" steady_ident <|
      Fields.steady_field "metadata" (Format.steady_list Announcement.steady_format) <|
      Fields.steady_nil)

/-- The payload of every kind is found in its value. -/
theorem steady_readPayload {k : Kind} {o : Origin} {p : Node} {depth : Nat} {m : Incoming}
    (hp : p.readable depth) (h : readPayload k o p = .ok m) :
    readPayload k .held p.sorted = .ok m := by
  cases k with
  | roster => exact Roster.steady_format.read_map _ hp h
  | signal => exact steady_signalFormat.read_map _ hp h
  | announcements => exact steady_announcementsFormat.read_map _ hp h
  | hangUp => exact (steady_userFormat _ _).read_map _ hp h
  | roomCreated => exact (steady_userFormat _ _).read_map _ hp h
  | recordOutcome => exact RecordOutcome.steady_format.read_map _ hp h

/-! ### Messages -/

theorem ofText_eq_ok_iff {s : String} {m : Incoming} :
    ofText s = .ok m ↔
      format.read .text (Document.read s).root = .ok m ∧ (Document.read s).trailing = false := by
  unfold ofText
  obtain ⟨root, trailing⟩ := Document.read s
  cases h : format.read .text root <;> cases trailing <;>
    simp [h, bind, Except.bind, pure, Except.pure]

/-- A kind is picked by its name. -/
theorem name_eq_of_pick {name : String} {k : Kind} (h : Format.pick format.kinds name = .ok k) :
    k.name = name := by
  unfold Format.pick at h
  split at h
  · rename_i k' hlookup
    obtain rfl := Except.ok.inj h
    obtain ⟨before, behind, hkinds, -⟩ := List.lookup_eq_some_iff.1 hlookup
    have hmem : (name, k') ∈ format.kinds := hkinds ▸ List.mem_append_right _ List.mem_cons_self
    obtain ⟨k, -, heq⟩ := List.mem_map.1 hmem
    obtain ⟨rfl, rfl⟩ := Prod.mk.inj heq
    rfl
  · cases h

/-- A message that is read from a document is read from the outer form that the document has. -/
theorem ofOuter_of_read {n : Node} {m : Incoming} {name : String} {payload : Value}
    (hm : format.read .text n = .ok m) (ho : outerFormat.read .text n = .ok (name, payload)) :
    Kind.names.contains name ∧ ofOuter name payload = .ok m := by
  have hpicked : ∀ {k : Kind} {o : Origin} {p : Node}, Format.pick format.kinds name = .ok k →
      readPayload k o p = .ok m → p.readable (maxDepth - 1) → p.value = payload →
        Kind.names.contains name ∧ ofOuter name payload = .ok m := by
    rintro k o p hk hread hp rfl
    obtain rfl := name_eq_of_pick hk
    refine ⟨by cases k <;> rfl, ?_⟩
    exact Tagged.read_members_reverse (lookup_kind k) (steady_readPayload hp hread)
  cases n with
  | array items closed =>
    obtain ⟨k, n, p, rfl, hk, hread⟩ := Tagged.exists_of_read_array hm
    obtain ⟨rfl, hp, hvalue⟩ := of_read_outer_array ho
    exact hpicked hk hread hp hvalue
  | object members closed =>
    obtain ⟨k, n, o, p, hn, hpmem, hk, hread⟩ := Tagged.exists_of_read_object hm
    obtain ⟨rfl, hp, hvalue⟩ := of_read_outer_object ho hn hpmem
    exact hpicked hk hread hp hvalue
  | _ => cases hm

theorem decode_eq_known {s : String} {m : Incoming} {name : String} {payload : Value}
    (hm : ofText s = .ok m) (ho : outerOfText s = .ok (name, payload)) :
    decode s = .ok (.known m) := by
  obtain ⟨hknown, hread⟩ :=
    ofOuter_of_read (ofText_eq_ok_iff.1 hm).1 (outerOfText_eq_ok_iff.1 ho).1
  rw [decode_eq, ho]
  change (if Kind.names.contains name then _ else _) = _
  rw [if_pos hknown, hread]
  rfl

/-- The payload of a message of an unknown name is not looked at. -/
theorem decode_eq_unknown {s : String} {name : String} {payload : Value}
    (ho : outerOfText s = .ok (name, payload)) (hname : name ∉ Kind.names) :
    decode s = .ok (.unknown name) := by
  rw [decode_eq, ho]
  change (if Kind.names.contains name then _ else _) = _
  rw [if_neg fun h => hname (List.contains_iff_mem.1 h)]
  rfl

/-- Every text from which a message can be read in one go, and of which the outer form can be read,
is decoded in two steps to that message. Every text with an outer form of an unknown name is
decoded to that name, whatever its payload is, and no message can be read from it in one go. -/
theorem two_steps_agree (s : String) :
    (∀ m o, ofText s = .ok m → outerOfText s = .ok o → decode s = .ok (.known m)) ∧
    ∀ name payload, outerOfText s = .ok (name, payload) → name ∉ Kind.names →
      decode s = .ok (.unknown name) ∧ ∃ f, ofText s = .error f := by
  refine ⟨fun m o hm ho => decode_eq_known hm ho, fun name payload ho hname => ?_⟩
  have hunknown := decode_eq_unknown ho hname
  refine ⟨hunknown, ?_⟩
  cases hm : ofText s with
  | error f => exact ⟨f, rfl⟩
  | ok m => cases (decode_eq_known hm ho).symm.trans hunknown

/-- A sender's announcement in arrays, before its type, with its kind as an object. -/
def announcementNode : Node :=
  .object [(.name "room", .string (some "standup")),
    (.name "payload", .array [.string (some "sfu"), .array [.array [.string (some "0"),
      .object [(.name "video", .null)] true, .string (some "bob"), .string (some "face")] true]
      true] true),
    (.name "type", .string (some "metadata"))] true

/-- A message of an unknown name, whose payload is of no shape that a message has. -/
def foreignNode : Node :=
  .object [(.name "type", .string (some "pubTrack")), (.name "payload", .array [.null] true)] true

/-- The announcement is read in both ways. The message of an unknown name has an outer form, and is
found unknown in one way and no message in the other. -/
theorem two_steps_agree_announcement :
    (ofText announcementNode.text =
        .ok (.announcements ⟨"sfu"⟩ [⟨⟨"0"⟩, .video, ⟨"bob"⟩, ⟨"face"⟩⟩]) ∧
      (∃ payload, outerOfText announcementNode.text = .ok ("metadata", payload)) ∧
      decode announcementNode.text =
        .ok (.known (.announcements ⟨"sfu"⟩ [⟨⟨"0"⟩, .video, ⟨"bob"⟩, ⟨"face"⟩⟩]))) ∧
    outerOfText foreignNode.text = .ok ("pubTrack", .array [.null]) ∧ "pubTrack" ∉ Kind.names ∧
      decode foreignNode.text = .ok (.unknown "pubTrack") ∧
      ∃ f, ofText foreignNode.text = .error f := by
  have hread : Document.read announcementNode.text = ⟨announcementNode, false⟩ :=
    Document.read_text (d := 5) rfl
  have hforeign : Document.read foreignNode.text = ⟨foreignNode, false⟩ :=
    Document.read_text (d := 2) rfl
  have hm : ofText announcementNode.text =
      .ok (.announcements ⟨"sfu"⟩ [⟨⟨"0"⟩, .video, ⟨"bob"⟩, ⟨"face"⟩⟩]) :=
    ofText_eq_ok_iff.2 (by rw [hread]; exact ⟨rfl, rfl⟩)
  have ho : outerOfText announcementNode.text = .ok ("metadata", .array [.string "sfu",
      .array [.array [.string "0", .object [("video", .null)], .string "bob", .string "face"]]]) :=
    outerOfText_eq_ok_iff.2 (by rw [hread]; exact ⟨rfl, rfl⟩)
  have ho' : outerOfText foreignNode.text = .ok ("pubTrack", .array [.null]) :=
    outerOfText_eq_ok_iff.2 (by rw [hforeign]; exact ⟨rfl, rfl⟩)
  have hunknown : "pubTrack" ∉ Kind.names := by decide
  exact ⟨⟨hm, ⟨_, ho⟩, (two_steps_agree announcementNode.text).1 _ _ hm ho⟩, ho', hunknown,
    (two_steps_agree foreignNode.text).2 _ _ ho' hunknown⟩

end Incoming

end VideoCall.Wire
