import VideoCall.Json.Node
import VideoCall.Proofs.Json.Numerals

/-!
# Documents, part by part

What holds of a document follows from the same about its items and its members' values. A document
may not come back from its own text as it was: its doubles are read again. A document without
doubles does come back, and so does a plain value from its document.

## Main definitions

* `Json.Node.reread` : what the text of a document is read back as.
* `Json.Value.Plain` : a value without doubles, in order and in range.

## Main results

* `Json.Node.induction` : induction on the parts of a document.
* `Json.Node.whole_reread` : what is read back from a readable document is whole.
* `Json.Node.reread_ofValue` : the document of a plain value comes back.
-/

namespace VideoCall.Json

namespace Node

/-! ### Parts -/

/-- What holds of a document if it holds of its parts holds of every document. -/
@[elab_as_elim]
theorem induction {motive : Node → Prop} (null : motive .null) (bool : ∀ b, motive (.bool b))
    (number : ∀ n, motive (.number n)) (string : ∀ s, motive (.string s))
    (array : ∀ items closed, (∀ n ∈ items, motive n) → motive (.array items closed))
    (object : ∀ members closed, (∀ m ∈ members, motive m.2) → motive (.object members closed))
    (cut : motive .cut) (n : Node) : motive n :=
  @Node.rec motive (fun items => ∀ n ∈ items, motive n) (fun members => ∀ m ∈ members, motive m.2)
    (fun m => motive m.2) null bool number string array object cut nofun
    (fun _ _ hn hr => List.forall_mem_cons.2 ⟨hn, hr⟩) nofun
    (fun _ _ hm hr => List.forall_mem_cons.2 ⟨hm, hr⟩) (fun _ _ hn => hn) n

theorem wholeItems_iff {items : List Node} : wholeItems items ↔ ∀ n ∈ items, n.whole := by
  induction items with
  | nil => simp [wholeItems]
  | cons n items ih => simp [wholeItems, ih]

theorem wholeMembers_iff {members : List (Key × Node)} :
    wholeMembers members ↔ ∀ m ∈ members, m.2.whole := by
  induction members with
  | nil => simp [wholeMembers]
  | cons m members ih => simp [wholeMembers, ih]

theorem readableItems_iff {d : Nat} {items : List Node} :
    readableItems d items ↔ ∀ n ∈ items, n.readable d := by
  induction items with
  | nil => simp [readableItems]
  | cons n items ih => simp [readableItems, ih]

theorem readableMembers_iff {d : Nat} {members : List (Key × Node)} :
    readableMembers d members ↔
      ∀ m ∈ members, (∃ s, m.1 = .name s) ∧ m.2.readable d := by
  induction members with
  | nil => simp [readableMembers]
  | cons m members ih =>
    obtain ⟨k, n⟩ := m
    cases k with
    | name s => simp [readableMembers, ih]
    | unreadable => simp [readableMembers]

theorem readable_array {d : Nat} {items : List Node} {closed : Bool} :
    (array items closed).readable d ↔
      closed ∧ ∃ d', d = d' + 1 ∧ ∀ n ∈ items, n.readable d' := by
  cases d with
  | zero => simp [readable]
  | succ d => simp [readable, readableItems_iff, and_comm]

theorem readable_object {d : Nat} {members : List (Key × Node)} {closed : Bool} :
    (object members closed).readable d ↔
      closed ∧ ∃ d', d = d' + 1 ∧ ∀ m ∈ members, (∃ s, m.1 = .name s) ∧ m.2.readable d' := by
  cases d with
  | zero => simp [readable]
  | succ d => simp [readable, readableMembers_iff, and_comm]

theorem readable_mono {n : Node} {d d' : Nat} (h : n.readable d) (hle : d ≤ d') :
    n.readable d' := by
  induction n using induction generalizing d d' with
  | null => rfl
  | bool b => rfl
  | number n => exact h
  | string s => exact h
  | array items closed ih =>
    obtain ⟨hclosed, d, rfl, hitems⟩ := readable_array.1 h
    exact readable_array.2 ⟨hclosed, d' - 1, by omega, fun n hn =>
      ih n hn (hitems n hn) (by omega)⟩
  | object members closed ih =>
    obtain ⟨hclosed, d, rfl, hmembers⟩ := readable_object.1 h
    exact readable_object.2 ⟨hclosed, d' - 1, by omega, fun m hm =>
      ⟨(hmembers m hm).1, ih m hm (hmembers m hm).2 (by omega)⟩⟩
  | cut => cases h

/-- Members that are readable at some depth each make an object that is readable at some depth. -/
theorem exists_readable_object {members : List (Key × Node)}
    (h : ∀ m ∈ members, (∃ s, m.1 = .name s) ∧ ∃ d, m.2.readable d) :
    ∃ d, (object members true).readable d := by
  suffices hall : ∃ d, ∀ m ∈ members, m.2.readable d by
    obtain ⟨d, hd⟩ := hall
    exact ⟨d + 1, readable_object.2 ⟨rfl, d, rfl, fun m hm => ⟨(h m hm).1, hd m hm⟩⟩⟩
  induction members with
  | nil => exact ⟨0, nofun⟩
  | cons m members ih =>
    obtain ⟨⟨-, d, hd⟩, hmembers⟩ := List.forall_mem_cons.1 h
    obtain ⟨d', hd'⟩ := ih hmembers
    refine ⟨max d d', List.forall_mem_cons.2 ⟨readable_mono hd (Nat.le_max_left d d'), ?_⟩⟩
    exact fun m hm => readable_mono (hd' m hm) (Nat.le_max_right d d')

theorem itemValues_eq (items : List Node) : itemValues items = items.map value := by
  induction items with
  | nil => rfl
  | cons n items ih => rw [itemValues, ih, List.map_cons]

theorem ofItems_eq (items : List Value) : ofItems items = items.map ofValue := by
  induction items with
  | nil => rfl
  | cons v items ih => rw [ofItems, ih, List.map_cons]

theorem ofMembers_eq (members : List (String × Value)) :
    ofMembers members = members.map fun m => (.name m.1, ofValue m.2) := by
  induction members with
  | nil => rfl
  | cons m members ih =>
    obtain ⟨s, v⟩ := m
    rw [ofMembers, ih, List.map_cons]

/-! ### Reading again -/

mutual

/-- What the text of a document is read back as: the same, with its numbers read again. -/
def reread : Node → Node
  | null => null
  | bool b => bool b
  | number n => number (n.bind Number.reread)
  | string s => string s
  | array items closed => array (rereadItems items) closed
  | object members closed => object (rereadMembers members) closed
  | cut => cut

/-- The items with their numbers read again. -/
def rereadItems : List Node → List Node
  | [] => []
  | n :: r => n.reread :: rereadItems r

/-- The members with their numbers read again. -/
def rereadMembers : List (Key × Node) → List (Key × Node)
  | [] => []
  | (k, n) :: r => (k, n.reread) :: rereadMembers r

end

theorem rereadItems_eq (items : List Node) : rereadItems items = items.map reread := by
  induction items with
  | nil => rfl
  | cons n items ih => rw [rereadItems, ih, List.map_cons]

theorem rereadMembers_eq (members : List (Key × Node)) :
    rereadMembers members = members.map fun m => (m.1, m.2.reread) := by
  induction members with
  | nil => rfl
  | cons m members ih =>
    obtain ⟨k, n⟩ := m
    rw [rereadMembers, ih, List.map_cons]

theorem reread_array (items : List Node) (closed : Bool) :
    (array items closed).reread = array (items.map reread) closed := by
  rw [reread, rereadItems_eq]

theorem reread_object (members : List (Key × Node)) (closed : Bool) :
    (object members closed).reread =
      object (members.map fun m => (m.1, m.2.reread)) closed := by
  rw [reread, rereadMembers_eq]

/-- What is read back from a readable document is whole. -/
theorem whole_reread {n : Node} {d : Nat} (h : n.readable d) : n.reread.whole := by
  induction n using induction generalizing d with
  | null => rfl
  | bool b => rfl
  | number n => rfl
  | string s => rfl
  | array items closed ih =>
    obtain ⟨hclosed, d, rfl, hitems⟩ := readable_array.1 h
    have hwhole : wholeItems (items.map reread) :=
      wholeItems_iff.2 (List.forall_mem_map.2 fun n hn => ih n hn (hitems n hn))
    rw [reread_array, whole, hwhole, hclosed]
    rfl
  | object members closed ih =>
    obtain ⟨hclosed, d, rfl, hmembers⟩ := readable_object.1 h
    have hwhole : wholeMembers (members.map fun m => (m.1, m.2.reread)) :=
      wholeMembers_iff.2 (List.forall_mem_map.2 fun m hm => ih m hm (hmembers m hm).2)
    rw [reread_object, whole, hwhole, hclosed]
    rfl
  | cut => cases h

end Node

/-! ### Plain values -/

/-- Values without doubles, with whole numbers in range and objects in order. -/
inductive Value.Plain : Value → Prop
  | null : Plain null
  | bool (b : Bool) : Plain (bool b)
  | whole (n : Int) (h : (Number.whole n).Fits) : Plain (number (.whole n))
  | string (s : String) : Plain (string s)
  | array (items : List Value) (h : ∀ v ∈ items, Plain v) : Plain (array items)
  | object (members : List (String × Value))
      (order : members.Pairwise fun a b => compare a.1 b.1 = .lt)
      (h : ∀ m ∈ members, Plain m.2) : Plain (object members)

theorem Value.Plain.canonical {v : Value} (h : v.Plain) : v.Canonical := by
  induction h with
  | null => exact .null
  | bool b => exact .bool b
  | whole n hn => exact .number _ hn
  | string s => exact .string s
  | array items _ ih => exact .array items ih
  | object members order _ ih => exact .object members order ih

namespace Node

/-- The document of a plain value is read back as itself. -/
theorem reread_ofValue {v : Value} (h : v.Plain) : (ofValue v).reread = ofValue v := by
  induction h with
  | null => rfl
  | bool b => rfl
  | whole n hn => rw [ofValue, reread, Option.bind_some, Number.reread_whole hn]
  | string s => rfl
  | array items _ ih =>
    rw [ofValue, reread_array, ofItems_eq, List.map_map]
    exact congrArg (array · true) (List.map_congr_left ih)
  | object members _ _ ih =>
    rw [ofValue, reread_object, ofMembers_eq, List.map_map]
    refine congrArg (object · true) (List.map_congr_left fun m hm => ?_)
    exact congrArg (Prod.mk _) (ih m hm)

end Node

end VideoCall.Json
