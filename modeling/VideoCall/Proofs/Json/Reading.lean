import VideoCall.Json.Reader
import VideoCall.Proofs.Json.Nodes
import VideoCall.Proofs.Json.Scanning

/-!
# What is written is read back

The reader takes the tokens of a written document one by one and delivers the document in the place
where its first token stood, with all open brackets around it as they were. So the text of a
readable document holds that document, with its numbers read again, and nothing behind it.

## Main definitions

* `Json.Document.resume` : reading on after a move.
* `Json.Document.ReadBack` : a document that is delivered from its characters in every place.

## Main results

* `Json.Document.readBack_array`, `Json.Document.readBack_object` : from the parts to the whole.
* `Json.Document.read_text` : what the text of a readable document is read as.
-/

namespace VideoCall.Json.Document

open Node Token

/-- Reading on after a move. -/
def resume : Move → List Token → Document
  | .go p fs, ts => run p fs ts
  | .finished n, ts => ⟨n, !ts.isEmpty⟩
  | .broken n, _ => ⟨n, true⟩

theorem run_cons (p : Place) (fs : List Frame) (t : Token) (ts : List Token) :
    run p fs (t :: ts) = resume (step p fs t) ts := by
  rw [run]
  cases step p fs t <;> rfl

/-- A value may stand in a place. -/
def Place.TakesValue (p : Place) : Prop := p = .value ∨ p = .firstValue

/-- Only a closing bracket tells the place of a first value from that of any other. -/
theorem step_of_takesValue {p : Place} (hp : p.TakesValue) {t : Token} (ht : t ≠ .closeArray)
    (fs : List Frame) : step p fs t = atValue fs t := by
  rcases hp with rfl | rfl
  · rfl
  · unfold step
    split
    case h_1 => exact absurd rfl ht
    case h_11 => rfl
    all_goals contradiction

/-- The characters of a document are read as the document wherever a value may stand. -/
def ReadBack (n : Node) : Prop :=
  ∀ {p : Place}, p.TakesValue → ∀ (fs : List Frame) {rest : List Char}, Stops rest →
    run p fs (scan (n.chars ++ rest)) = resume (deliver n.reread fs) (scan rest)

theorem run_leaf {p : Place} (hp : p.TakesValue) {t : Token} {n : Node} (h : leaf? t = some n)
    (fs : List Frame) (ts : List Token) : run p fs (t :: ts) = resume (deliver n fs) ts := by
  have ht : t ≠ .closeArray := by
    rintro rfl
    cases h
  rw [run_cons, step_of_takesValue hp ht]
  cases t <;> cases h <;> rfl

theorem run_openArray {p : Place} (hp : p.TakesValue) (fs : List Frame) (ts : List Token) :
    run p fs (.openArray :: ts) = run .firstValue (.items [] :: fs) ts := by
  have hstep : step p fs .openArray = .go .firstValue (.items [] :: fs) :=
    step_of_takesValue hp (by rintro ⟨⟩) fs
  rw [run_cons, hstep]
  rfl

theorem run_openObject {p : Place} (hp : p.TakesValue) (fs : List Frame) (ts : List Token) :
    run p fs (.openObject :: ts) = run .firstName (.members [] :: fs) ts := by
  have hstep : step p fs .openObject = .go .firstName (.members [] :: fs) :=
    step_of_takesValue hp (by rintro ⟨⟩) fs
  rw [run_cons, hstep]
  rfl

/-! ### Arrays -/

/-- A comma or a closing bracket ends a number. -/
theorem stops_moreItemChars (items : List Node) (rest : List Char) :
    Stops (moreItemChars items ++ ']' :: rest) := by
  intro c hc
  cases items with
  | nil =>
    obtain rfl : ']' = c := Option.some.inj hc
    decide
  | cons n items =>
    obtain rfl : ',' = c := Option.some.inj hc
    decide

/-- Behind an item of an array the items that follow it are read, up to the closing bracket. -/
theorem run_moreItemChars {items : List Node} (h : ∀ n ∈ items, ReadBack n) (done : List Node)
    (fs : List Frame) (rest : List Char) :
    run .separator (.items done :: fs) (scan (moreItemChars items ++ ']' :: rest)) =
      resume (deliver (.array (done.reverse ++ items.map reread) true) fs) (scan rest) := by
  induction items generalizing done with
  | nil =>
    rw [moreItemChars, List.nil_append, scan_closeArray, run_cons, List.map_nil, List.append_nil]
    rfl
  | cons n items ih =>
    obtain ⟨hn, hitems⟩ := List.forall_mem_cons.1 h
    have hcomma : moreItemChars (n :: items) ++ ']' :: rest =
        ',' :: (n.chars ++ (moreItemChars items ++ ']' :: rest)) := by
      simp [moreItemChars]
    rw [hcomma, scan_comma, run_cons]
    change run .value (.items done :: fs) _ = _
    rw [hn (Or.inl rfl) _ (stops_moreItemChars items rest)]
    change run .separator (.items (n.reread :: done) :: fs) _ = _
    rw [ih hitems, List.reverse_cons, List.append_assoc, List.map_cons]
    rfl

theorem readBack_array {items : List Node} (h : ∀ n ∈ items, ReadBack n) :
    ReadBack (.array items true) := by
  intro p hp fs rest _
  cases items with
  | nil =>
    change run p fs (scan ('[' :: ']' :: rest)) = _
    rw [scan_openArray, scan_closeArray, run_openArray hp, run_cons]
    rfl
  | cons n items =>
    obtain ⟨hn, hitems⟩ := List.forall_mem_cons.1 h
    have hopen : (array (n :: items) true).chars ++ rest =
        '[' :: (n.chars ++ (moreItemChars items ++ ']' :: rest)) := by
      simp [chars, itemChars]
    rw [hopen, scan_openArray, run_openArray hp,
      hn (Or.inr rfl) _ (stops_moreItemChars items rest)]
    change run .separator (.items [n.reread] :: fs) _ = _
    rw [run_moreItemChars hitems, reread_array]
    rfl

/-! ### Objects -/

/-- A comma or a closing bracket ends a number. -/
theorem stops_moreMemberChars (members : List (Key × Node)) (rest : List Char) :
    Stops (moreMemberChars members ++ '\x7d' :: rest) := by
  intro c hc
  cases members with
  | nil =>
    obtain rfl : '\x7d' = c := Option.some.inj hc
    decide
  | cons m members =>
    obtain rfl : ',' = c := Option.some.inj hc
    decide

/-- A name may stand in a place. -/
def Place.TakesName (p : Place) : Prop := p = .name ∨ p = .firstName

/-- A member is read where a name may stand. -/
theorem run_member {p : Place} (hp : p.TakesName) (s : String) {n : Node} (hn : ReadBack n)
    (done : List (Key × Node)) (fs : List Frame) {rest : List Char} (hrest : Stops rest) :
    run p (.members done :: fs) (scan (Writer.quoted s ++ ':' :: (n.chars ++ rest))) =
      run .separator (.members ((.name s, n.reread) :: done) :: fs) (scan rest) := by
  have hstep : step p (.members done :: fs) (.string (some s)) =
      .go .colon (.member done (.name s) :: fs) := by
    rcases hp with rfl | rfl <;> rfl
  rw [scan_quoted, run_cons, hstep]
  change run .colon (.member done (.name s) :: fs) _ = _
  rw [scan_colon, run_cons]
  change run .value (.member done (.name s) :: fs) _ = _
  rw [hn (Or.inl rfl) _ hrest]
  rfl

/-- Every member has a name, and its value is read back. -/
def MembersReadBack (members : List (Key × Node)) : Prop :=
  ∀ m ∈ members, (∃ s, m.1 = .name s) ∧ ReadBack m.2

/-- Behind a member of an object those that follow it are read, up to the closing bracket. -/
theorem run_moreMemberChars {members : List (Key × Node)} (h : MembersReadBack members)
    (done : List (Key × Node)) (fs : List Frame) (rest : List Char) :
    run .separator (.members done :: fs) (scan (moreMemberChars members ++ '\x7d' :: rest)) =
      resume (deliver (.object (done.reverse ++ members.map fun m => (m.1, m.2.reread)) true) fs)
        (scan rest) := by
  induction members generalizing done with
  | nil =>
    rw [moreMemberChars, List.nil_append, scan_closeObject, run_cons, List.map_nil,
      List.append_nil]
    rfl
  | cons m members ih =>
    obtain ⟨⟨⟨s, hs⟩, hn⟩, hmembers⟩ := List.forall_mem_cons.1 h
    obtain ⟨k, n⟩ := m
    obtain rfl : k = .name s := hs
    have hcomma : moreMemberChars ((.name s, n) :: members) ++ '\x7d' :: rest =
        ',' :: (Writer.quoted s ++ ':' :: (n.chars ++
          (moreMemberChars members ++ '\x7d' :: rest))) := by
      simp [moreMemberChars, Writer.name]
    rw [hcomma, scan_comma, run_cons]
    change run .name (.members done :: fs) _ = _
    rw [run_member (Or.inl rfl) s hn _ _ (stops_moreMemberChars members rest), ih hmembers,
      List.reverse_cons, List.append_assoc, List.map_cons]
    rfl

theorem readBack_object {members : List (Key × Node)} (h : MembersReadBack members) :
    ReadBack (.object members true) := by
  intro p hp fs rest _
  cases members with
  | nil =>
    change run p fs (scan ('\x7b' :: '\x7d' :: rest)) = _
    rw [scan_openObject, scan_closeObject, run_openObject hp, run_cons]
    rfl
  | cons m members =>
    obtain ⟨⟨⟨s, hs⟩, hn⟩, hmembers⟩ := List.forall_mem_cons.1 h
    obtain ⟨k, n⟩ := m
    obtain rfl : k = .name s := hs
    have hopen : (object ((.name s, n) :: members) true).chars ++ rest =
        '\x7b' :: (Writer.quoted s ++ ':' :: (n.chars ++
          (moreMemberChars members ++ '\x7d' :: rest))) := by
      simp [chars, memberChars, Writer.name]
    rw [hopen, scan_openObject, run_openObject hp,
      run_member (Or.inr rfl) s hn _ _ (stops_moreMemberChars members rest),
      run_moreMemberChars hmembers, reread_object]
    rfl

/-! ### Whole documents -/

/-- A part whose characters are one token is read back. -/
theorem readBack_leaf (n : Node) (t : Token) (hleaf : leaf? t = some n.reread)
    (hscan : ∀ {rest}, Stops rest → scan (n.chars ++ rest) = t :: scan rest) : ReadBack n :=
  fun hp fs _ hrest => by rw [hscan hrest, run_leaf hp hleaf]

/-- A readable document is read back wherever a value may stand. -/
theorem readBack_of_readable {n : Node} {d : Nat} (h : n.readable d) : ReadBack n := by
  induction n using Node.induction generalizing d with
  | null => exact readBack_leaf .null .null rfl fun _ => scan_null _
  | bool b =>
    cases b with
    | true => exact readBack_leaf (.bool true) (.bool true) rfl fun _ => scan_true _
    | false => exact readBack_leaf (.bool false) (.bool false) rfl fun _ => scan_false _
  | number n =>
    obtain ⟨x, rfl⟩ := Option.isSome_iff_exists.1 h
    exact readBack_leaf (.number (some x)) (.number x.reread) rfl fun hrest => scan_number x hrest
  | string s =>
    obtain ⟨s, rfl⟩ := Option.isSome_iff_exists.1 h
    exact readBack_leaf (.string (some s)) (.string (some s)) rfl fun _ => scan_quoted s _
  | array items closed ih =>
    obtain ⟨rfl, d, rfl, hitems⟩ := readable_array.1 h
    exact readBack_array fun n hn => ih n hn (hitems n hn)
  | object members closed ih =>
    obtain ⟨rfl, d, rfl, hmembers⟩ := readable_object.1 h
    exact readBack_object fun m hm => ⟨(hmembers m hm).1, ih m hm (hmembers m hm).2⟩
  | cut => cases h

/-- The text of a readable document holds that document with its numbers read again, and nothing
follows it. -/
theorem read_text {n : Node} {d : Nat} (h : n.readable d) : read n.text = ⟨n.reread, false⟩ := by
  have hstops : Stops [] := nofun
  have hread := readBack_of_readable h (Or.inl rfl) [] hstops
  have hend : scan [] = [] := by rw [scan]
  rw [List.append_nil, hend] at hread
  rw [read, Node.text, String.toList_ofList]
  exact hread

end VideoCall.Json.Document
