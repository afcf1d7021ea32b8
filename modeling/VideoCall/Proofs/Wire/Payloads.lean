import VideoCall.Proofs.Json.Formats
import VideoCall.Wire.Incoming
import VideoCall.Wire.Outgoing

/-!
# Payloads come back

Every payload is carried by its format, whatever texts, flags and names it is made of and however
many of them there are. Only a negotiation envelope can be too deep for a text, or have doubles in
it that come back as others.

## Main definitions

* `Wire.Signal.Sendable` : an envelope without doubles that is not too deep.
* `Wire.Incoming.Sendable`, `Wire.Outgoing.Sendable` : the same of the envelope of a message.

## Main results

* `Wire.Incoming.carries`, `Wire.Outgoing.carries` : the payloads of all messages are carried.
-/

namespace VideoCall.Wire

open Json Media

variable {depth : Nat}

/-! ### Parts of payloads -/

theorem carries_ident {kind : IdentKind} (depth : Nat) (a : Ident kind) :
    (ident : Format (Ident kind)).Carries depth a :=
  (Format.carries_text depth a.text).map rfl

theorem carries_user (title field : String) (depth : Nat) (user : UserId) :
    (userFormat title field).Carries (depth + 1) user :=
  Format.carries_record title (List.nodup_singleton field)
    (Fields.carries_field field (carries_ident depth user) (Fields.carries_nil depth)) rfl

theorem carries_trackKind (depth : Nat) (kind : TrackKind) : TrackKind.format.Carries depth kind :=
  Format.carries_choice (by cases kind <;> rfl) depth

theorem Announcement.carries (depth : Nat) (a : Announcement) :
    Announcement.format.Carries (depth + 1) a :=
  Format.carries_record "TrackMetadata" (by decide)
    (Fields.carries_field "mid" (carries_ident depth a.mid) <|
      Fields.carries_field "kind" (carries_trackKind depth a.kind) <|
      Fields.carries_field "userId" (carries_ident depth a.user) <|
      Fields.carries_field "streamId" (carries_ident depth a.stream) <|
      Fields.carries_nil depth) rfl

/-- The names of participants come back in whatever order they stand. -/
theorem Roster.carries_nicknames (depth : Nat) (t : Table UserId String) :
    Roster.nicknameFormat.Carries (depth + 1) t := by
  have hnames : ((t.entries.map fun e => (e.1.text, e.2)).map Prod.fst).Nodup := by
    have hkeys : (t.entries.map fun e => (e.1.text, e.2)).map Prod.fst = t.keys.map Ident.text := by
      rw [Table.keys, List.map_map, List.map_map]
      rfl
    rw [hkeys]
    exact t.nodup_keys.map fun a b hab => by cases a; cases b; cases hab; rfl
  refine Format.carries_pairs hnames (fun a _ => Format.carries_text depth a.2) fun hperm => ?_
  refine Table.ofList_of_perm ((hperm.map _).trans (List.Perm.of_eq ?_))
  rw [List.map_map]
  exact List.map_id t.entries

theorem Roster.carries (depth : Nat) (r : Roster) : Roster.format.Carries (depth + 2) r :=
  Format.carries_record "UsersPayload" (by decide)
    (Fields.carries_field "initiator" (carries_ident (depth + 1) r.initiator) <|
      Fields.carries_field "peerIds" (Format.carries_list fun a _ => carries_ident depth a) <|
      Fields.carries_fieldOr "nicknames" Table.empty (carries_nicknames depth r.nicknames) <|
      Fields.carries_fieldOr "recordStatus" false (Format.carries_flag (depth + 1) r.recording) <|
      Fields.carries_fieldOr "recordUrl" "" (Format.carries_text (depth + 1) r.recordUrl) <|
      Fields.carries_nil (depth + 1)) rfl

theorem RecordOutcome.carries (depth : Nat) (r : RecordOutcome) :
    RecordOutcome.format.Carries (depth + 1) r :=
  Format.carries_record "RecordCallbackPayload" (by decide)
    (Fields.carries_field "successful" (Format.carries_flag depth r.successful) <|
      Fields.carries_field "recordStatus" (Format.carries_flag depth r.recording) <|
      Fields.carries_fieldOr "url" "" (Format.carries_text depth r.url) <|
      Fields.carries_nil depth) rfl

/-- The envelope has no doubles in it, and with the two brackets that stand around it in a message
it is not too deep for a text. -/
structure Signal.Sendable (s : Signal) : Prop where
  plain : s.value.Plain
  readable : (Node.ofValue s.value).readable (maxDepth - 2)

theorem carries_signal (user : UserId) {s : Signal} (h : s.Sendable) :
    signalFormat.Carries (maxDepth - 1) (user, s) := by
  have hsignal : Signal.format.Carries (maxDepth - 2) s :=
    (Format.carries_free h.plain h.readable 2).map rfl
  exact Format.carries_record "SignalPayload" (by decide)
    (Fields.carries_field "userId" (carries_ident _ user) <|
      Fields.carries_field "signal" hsignal <| Fields.carries_nil _) rfl

/-! ### Messages -/

namespace Incoming

/-- The envelope in a message, if there is one, is sendable. -/
def Sendable : Incoming → Prop
  | signal _ s => s.Sendable
  | _ => True

theorem lookup_kind (k : Kind) : format.kinds.lookup (format.nameOf k) = some k := by
  cases k <;> rfl

theorem carries_announcements (depth : Nat) (sender : UserId) (batch : List Announcement) :
    announcementsFormat.Carries (depth + 3) (sender, batch) :=
  Format.carries_record "MetadataPayload" (by decide)
    (Fields.carries_field "userId" (carries_ident (depth + 2) sender) <|
      Fields.carries_field "metadata"
        (Format.carries_list fun a _ => Announcement.carries depth a) <|
      Fields.carries_nil (depth + 2)) rfl

/-- The payloads of all messages from the relay are carried. -/
theorem carries {m : Incoming} (h : m.Sendable) : format.Carries (maxDepth - 1) m := by
  cases m with
  | roster r => exact .of_format roster (lookup_kind .roster) rfl (fun _ => rfl) (r.carries _)
  | signal sender s =>
    exact .of_format (fun p => signal p.1 p.2) (lookup_kind .signal) rfl (fun _ => rfl)
      (carries_signal sender h)
  | announcements sender batch =>
    exact .of_format (fun p => announcements p.1 p.2) (lookup_kind .announcements) rfl
      (fun _ => rfl) (carries_announcements _ sender batch)
  | hangUp user =>
    exact .of_format hangUp (lookup_kind .hangUp) rfl (fun _ => rfl) (carries_user _ _ _ user)
  | roomCreated creator =>
    exact .of_format roomCreated (lookup_kind .roomCreated) rfl (fun _ => rfl)
      (carries_user _ _ _ creator)
  | recordOutcome r =>
    exact .of_format recordOutcome (lookup_kind .recordOutcome) rfl (fun _ => rfl) (r.carries _)

end Incoming

namespace Outgoing

/-- The envelope in a message, if there is one, is sendable. -/
def Sendable : Outgoing → Prop
  | signal _ s => s.Sendable
  | _ => True

theorem lookup_kind (k : Kind) : format.kinds.lookup (format.nameOf k) = some k := by
  cases k <;> rfl

theorem carries_createRoom (depth : Nat) (room : RoomId) (user : UserId) :
    createRoomFormat.Carries (depth + 1) (room, user) :=
  Format.carries_record "CreateRoomPayload" (by decide)
    (Fields.carries_field "room" (carries_ident depth room) <|
      Fields.carries_field "userId" (carries_ident depth user) <| Fields.carries_nil depth) rfl

theorem carries_ready (depth : Nat) (room : RoomId) (user : UserId) (nickname : String) :
    readyFormat.Carries (depth + 1) (room, user, nickname) :=
  Format.carries_record "ReadyPayload" (by decide)
    (Fields.carries_field "room" (carries_ident depth room) <|
      Fields.carries_field "userId" (carries_ident depth user) <|
      Fields.carries_field "nickname" (Format.carries_text depth nickname) <|
      Fields.carries_nil depth) rfl

theorem carries_record (depth : Nat) (recording : Bool) (user : UserId) :
    recordFormat.Carries (depth + 1) (recording, user) :=
  Format.carries_record "RecordPayload" (by decide)
    (Fields.carries_field "recordStatus" (Format.carries_flag depth recording) <|
      Fields.carries_field "userId" (carries_ident depth user) <| Fields.carries_nil depth) rfl

/-- The payloads of all messages to the relay are carried. -/
theorem carries {m : Outgoing} (h : m.Sendable) : format.Carries (maxDepth - 1) m := by
  cases m with
  | createRoom room user =>
    exact .of_format (fun p => createRoom p.1 p.2) (lookup_kind .createRoom) rfl (fun _ => rfl)
      (carries_createRoom _ room user)
  | ready room user nickname =>
    exact .of_format (fun p => ready p.1 p.2.1 p.2.2) (lookup_kind .ready) rfl (fun _ => rfl)
      (carries_ready _ room user nickname)
  | signal receiver s =>
    exact .of_format (fun p => signal p.1 p.2) (lookup_kind .signal) rfl (fun _ => rfl)
      (carries_signal receiver h)
  | hangUp user =>
    exact .of_format hangUp (lookup_kind .hangUp) rfl (fun _ => rfl) (carries_user _ _ _ user)
  | record recording user =>
    exact .of_format (fun p => record p.1 p.2) (lookup_kind .record) rfl (fun _ => rfl)
      (carries_record _ recording user)

end Outgoing

end VideoCall.Wire
