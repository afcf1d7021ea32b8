import Mathlib.Data.List.Forall2
import Mathlib.Data.List.Nodup
import VideoCall.Proofs.Json.Nodes
import VideoCall.Table

/-!
# Documents and the values they have

A value puts the members of every object in the order of their names. The document of a value so has
the same parts as a document that has the value, and only its members may stand in another order.
Whoever reads a document by the names of its members reads either in the same way.

## Main definitions

* `Json.Node.sorted`, `Json.Node.sortedMembers` : a document with all members in the order of their
  names.
* `Json.Node.Arranged` : a document as it stands, or sorted.

## Main results

* `Json.Value.ofMembers_eq` : the object of a list of members is their table.
* `Json.Node.value_ofValue` : a value in order comes back from its document.
* `Json.Node.sorted_array`, `Json.Node.sorted_object` : sorted documents, part by part.
* `Json.Node.Arranged.array`, `Json.Node.Arranged.object` : the parts of an arranged document.
-/

namespace VideoCall.Json

/-! ### Objects are tables -/

namespace Value

theorem insertMember_eq (name : String) (v : Value) (l : List (String × Value)) :
    insertMember name v l = Entries.insert name v l := by
  induction l with
  | nil => rfl
  | cons m l ih =>
    obtain ⟨a, w⟩ := m
    rw [insertMember, ih]
    rfl

/-- The object of a list of members is their table. -/
theorem ofMembers_eq (members : List (String × Value)) :
    ofMembers members = object (Table.ofList members).entries := by
  have hfold : ∀ t : Table String Value,
      members.foldl (fun done m => insertMember m.1 m.2 done) t.entries =
        (t.insertAll members).entries := by
    induction members with
    | nil => exact fun t => rfl
    | cons m members ih =>
      intro t
      rw [List.foldl_cons, insertMember_eq]
      exact ih (t.insert m.1 m.2)
  exact congrArg object (hfold Table.empty)

end Value

namespace Node

/-- Every member has a name, and no two members have the same. -/
structure Distinct (members : List (Key × Node)) : Prop where
  named : ∀ m ∈ members, ∃ s, m.1 = .name s
  nodup : (members.map Prod.fst).Nodup

/-- Members with names, as they are and as the pairs of names and values they have. -/
theorem map_memberValues {α : Type} {members : List (Key × Node)}
    (h : ∀ m ∈ members, ∃ s, m.1 = .name s) (f : Key → Value → α) :
    (memberValues members).map (fun m => f (.name m.1) m.2) =
      members.map fun m => f m.1 m.2.value := by
  induction members with
  | nil => rfl
  | cons m members ih =>
    obtain ⟨⟨s, hs⟩, hmembers⟩ := List.forall_mem_cons.1 h
    obtain ⟨k, n⟩ := m
    obtain rfl : k = .name s := hs
    rw [memberValues, List.map_cons, List.map_cons, ih hmembers]

theorem memberValues_ofMembers (members : List (String × Value)) :
    memberValues (ofMembers members) = members.map fun m => (m.1, (ofValue m.2).value) := by
  induction members with
  | nil => rfl
  | cons m members ih =>
    obtain ⟨s, v⟩ := m
    rw [ofMembers, memberValues, ih, List.map_cons]

/-- A value in order comes back from its document. -/
theorem value_ofValue {v : Value} (h : v.Canonical) : (ofValue v).value = v := by
  induction h with
  | null => rfl
  | bool b => rfl
  | number n _ => rfl
  | string s => rfl
  | array items _ ih =>
    rw [ofValue, value, itemValues_eq, ofItems_eq, List.map_map]
    exact congrArg Value.array ((List.map_congr_left ih).trans (List.map_id items))
  | object members order _ ih =>
    have hvalues : memberValues (ofMembers members) = members := by
      rw [memberValues_ofMembers]
      refine (List.map_congr_left fun m hm => ?_).trans (List.map_id members)
      exact congrArg (Prod.mk m.1) (ih m hm)
    have htable : Table.ofList members = ⟨members, order⟩ :=
      Table.ofList_of_perm (List.Perm.refl members)
    rw [ofValue, value, hvalues, Value.ofMembers_eq, htable]

/-! ### Arranged documents -/

/-- A document with all members in the order of their names. -/
def sorted (n : Node) : Node := ofValue n.value

/-- The members of an object in the order of their names, of each name the last one. -/
def sortedMembers (members : List (Key × Node)) : List (Key × Node) :=
  ofMembers (Table.ofList (memberValues members)).entries

theorem sorted_array (items : List Node) (closed : Bool) :
    (array items closed).sorted = array (items.map sorted) true := by
  rw [sorted, value, ofValue, itemValues_eq, ofItems_eq, List.map_map]
  rfl

theorem sorted_object (members : List (Key × Node)) (closed : Bool) :
    (object members closed).sorted = object (sortedMembers members) true := by
  rw [sorted, value, Value.ofMembers_eq, ofValue, sortedMembers]

/-- A document as it stands, or with all members in the order of their names. -/
def Arranged (n m : Node) : Prop := m = n ∨ m = n.sorted

namespace Arranged

theorem refl (n : Node) : Arranged n n := Or.inl rfl

theorem string {s : String} {m : Node} (h : Arranged (string (some s)) m) :
    m = .string (some s) := h.elim id id

theorem bool {b : Bool} {m : Node} (h : Arranged (bool b) m) : m = .bool b := h.elim id id

/-- A value in order is found in its document either way. -/
theorem ofValue {v : Value} (hv : v.Canonical) {m : Node} (h : Arranged (ofValue v) m) :
    m.value = v := by
  rcases h with rfl | rfl
  · exact value_ofValue hv
  · rw [sorted, value_ofValue hv, value_ofValue hv]

/-- The items of an arranged array are arranged. -/
theorem array {items : List Node} {m : Node} (h : Arranged (array items true) m) :
    ∃ items', m = .array items' true ∧ List.Forall₂ Arranged items items' := by
  rcases h with rfl | rfl
  · exact ⟨items, rfl, List.forall₂_same.2 fun n _ => refl n⟩
  · exact ⟨items.map sorted, sorted_array items true,
      List.forall₂_map_right_iff.2 (List.forall₂_same.2 fun n _ => Or.inr rfl)⟩

/-- The members of an arranged object are arranged, in some order. -/
theorem object {members : List (Key × Node)} (hmembers : Distinct members) {m : Node}
    (h : Arranged (object members true) m) :
    ∃ members' parts, m = .object members' true ∧ members'.Perm parts ∧
      List.Forall₂ (fun a b => b.1 = a.1 ∧ Arranged a.2 b.2) members parts := by
  rcases h with rfl | rfl
  · exact ⟨members, members, rfl, List.Perm.refl _, List.forall₂_same.2 fun m _ => ⟨rfl, refl m.2⟩⟩
  · have hparts := map_memberValues hmembers.named fun k v => (k, Node.ofValue v)
    have hnodup : ((memberValues members).map Prod.fst).Nodup := by
      have hkeys := map_memberValues hmembers.named fun k _ => k
      refine List.Nodup.of_map Key.name ?_
      rw [List.map_map]
      exact hkeys ▸ hmembers.nodup
    have hperm := (Table.entries_ofList_perm hnodup).map fun m => (Key.name m.1, Node.ofValue m.2)
    refine ⟨_, members.map fun m => (m.1, m.2.sorted), ?_, hparts ▸ hperm,
      List.forall₂_map_right_iff.2 (List.forall₂_same.2 fun m _ => ⟨rfl, Or.inr rfl⟩)⟩
    rw [sorted_object, sortedMembers, ofMembers_eq]

end Arranged

end Node

end VideoCall.Json
