import VideoCall.Proofs.Json.Values

/-!
# Sorted documents

A free-form value keeps what a document holds and forgets how it was put: the order of members, and
all but the last of several members with one name. The document of the value is the sorted document.
It has the same value, and every part of the document that is named once is in it, sorted in turn.

## Main definitions

* `Json.Related` : entries of one key with related values.

## Main results

* `Json.Node.value_sorted` : a sorted document has the value of the document.
* `Json.Node.exists_sortedMembers_perm` : members whose names nobody else has are kept.
* `Json.forall₂_ofList` : lists that name the same keys have related tables.
-/

namespace VideoCall.Json

/-! ### Tables of related lists -/

section Tables

variable {κ μ ν : Type} [Ord κ]

/-- Entries of one key with related values. -/
def Related (R : ν → μ → Prop) (x : κ × ν) (y : κ × μ) : Prop := x.1 = y.1 ∧ R x.2 y.2

theorem forall₂_insert {R : ν → μ → Prop} {l : List (κ × ν)} {m : List (κ × μ)} {v : ν} {w : μ}
    (k : κ) (h : R v w) (hl : List.Forall₂ (Related R) l m) :
    List.Forall₂ (Related R) (Entries.insert k v l) (Entries.insert k w m) := by
  induction hl with
  | nil => exact .cons ⟨rfl, h⟩ .nil
  | @cons x y l m hxy hrest ih =>
    obtain ⟨a, v'⟩ := x
    obtain ⟨b, w'⟩ := y
    obtain rfl : a = b := hxy.1
    simp only [Entries.insert]
    split
    · exact .cons ⟨rfl, h⟩ (.cons hxy hrest)
    · exact .cons ⟨rfl, h⟩ hrest
    · exact .cons hxy ih

/-- Lists that name the same keys, with related values, have related tables. -/
theorem forall₂_ofList [Std.TransOrd κ] [Std.LawfulEqOrd κ] {R : ν → μ → Prop}
    {l : List (κ × ν)} {m : List (κ × μ)} (h : List.Forall₂ (Related R) l m) :
    List.Forall₂ (Related R) (Table.ofList l).entries (Table.ofList m).entries := by
  have hinsert : ∀ (t : Table κ ν) (u : Table κ μ),
      List.Forall₂ (Related R) t.entries u.entries →
        List.Forall₂ (Related R) (t.insertAll l).entries (u.insertAll m).entries := by
    induction h with
    | nil => exact fun _ _ htu => htu
    | @cons x y l m hxy _ ih =>
      obtain ⟨a, v⟩ := x
      obtain ⟨b, w⟩ := y
      obtain rfl : a = b := hxy.1
      exact fun t u htu => ih (t.insert a v) (u.insert a w) (forall₂_insert a hxy.2 htu)
  exact hinsert .empty .empty .nil

end Tables

/-! ### Sorted documents -/

namespace Node

theorem mem_memberValues_iff {members : List (Key × Node)} {s : String} {v : Value} :
    (s, v) ∈ memberValues members ↔ ∃ n, (Key.name s, n) ∈ members ∧ n.value = v := by
  induction members with
  | nil => simp [memberValues]
  | cons m members ih =>
    obtain ⟨k, n⟩ := m
    cases k with
    | name s' => simp only [memberValues, List.mem_cons, ih, Prod.mk.injEq, Key.name.injEq]; grind
    | unreadable => simp [memberValues, ih]

theorem nodup_sortedMembers (members : List (Key × Node)) :
    ((sortedMembers members).map Prod.fst).Nodup := by
  rw [sortedMembers, ofMembers_eq, List.map_map]
  have hkeys := (Table.ofList (memberValues members)).nodup_keys.map (f := Key.name)
    fun _ _ => Key.name.inj
  rwa [Table.keys, List.map_map] at hkeys

/-- A member of a sorted object is a sorted member. -/
theorem exists_of_mem_sortedMembers {members : List (Key × Node)} {m : Key × Node}
    (h : m ∈ sortedMembers members) :
    ∃ s n, (Key.name s, n) ∈ members ∧ m = (.name s, n.sorted) := by
  rw [sortedMembers, ofMembers_eq] at h
  obtain ⟨⟨s, v⟩, hentry, rfl⟩ := List.mem_map.1 h
  rw [Table.mem_entries_iff, Table.get?_ofList] at hentry
  have hmem := List.mem_reverse.1 (Entries.mem_of_lookup hentry)
  obtain ⟨n, hn, rfl⟩ := mem_memberValues_iff.1 hmem
  exact ⟨s, n, hn, rfl⟩

/-- The only member of a name is in the sorted object. -/
theorem mem_sortedMembers_of_unique {members : List (Key × Node)} {s : String} {n : Node}
    (hmem : (Key.name s, n) ∈ members) (honly : ∀ n', (Key.name s, n') ∈ members → n' = n) :
    (Key.name s, n.sorted) ∈ sortedMembers members := by
  rw [sortedMembers, ofMembers_eq]
  refine List.mem_map.2 ⟨(s, n.value), ?_, rfl⟩
  rw [Table.mem_entries_iff, Table.get?_ofList]
  cases hlookup : Entries.lookup s (memberValues members).reverse with
  | none =>
    have hvalue := List.mem_reverse.2 (mem_memberValues_iff.2 ⟨n, hmem, rfl⟩)
    exact absurd hvalue (Entries.lookup_eq_none_iff.1 hlookup n.value)
  | some v =>
    have hvalue := List.mem_reverse.1 (Entries.mem_of_lookup hlookup)
    obtain ⟨n', hn', rfl⟩ := mem_memberValues_iff.1 hvalue
    rw [honly n' hn']

/-- A sorted document has the value of the document. -/
theorem value_sorted (n : Node) : n.sorted.value = n.value := by
  induction n using induction with
  | null => rfl
  | bool b => rfl
  | number n => cases n <;> rfl
  | string s => cases s <;> rfl
  | array items closed ih =>
    rw [sorted_array, value, value, itemValues_eq, itemValues_eq, List.map_map]
    exact congrArg Value.array (List.map_congr_left ih)
  | object members closed ih =>
    rw [sorted_object, value, value, Value.ofMembers_eq, Value.ofMembers_eq]
    have hvalues : memberValues (sortedMembers members) =
        (Table.ofList (memberValues members)).entries := by
      rw [sortedMembers, memberValues_ofMembers]
      refine (List.map_congr_left fun m hm => ?_).trans (List.map_id _)
      have hentry := List.mem_map_of_mem (f := fun m => (Key.name m.1, ofValue m.2)) hm
      rw [← ofMembers_eq] at hentry
      have hlookup := Table.mem_entries_iff.1 hm
      rw [Table.get?_ofList] at hlookup
      have hmem := List.mem_reverse.1 (Entries.mem_of_lookup hlookup)
      obtain ⟨n, hn, hvalue⟩ := mem_memberValues_iff.1 hmem
      rw [← hvalue]
      exact Prod.ext rfl ((ih _ hn).trans hvalue)
    rw [hvalues, Table.ofList_of_perm (List.Perm.refl _)]
  | cut => rfl

/-- Nothing is missing in a sorted document. -/
theorem whole_sorted (n : Node) : n.sorted.whole := by
  induction n using induction with
  | null => rfl
  | bool b => rfl
  | number n => cases n <;> rfl
  | string s => cases s <;> rfl
  | array items closed ih =>
    rw [sorted_array, whole, wholeItems_iff.2 (List.forall_mem_map.2 ih)]
    rfl
  | object members closed ih =>
    have hmembers : ∀ m ∈ sortedMembers members, m.2.whole := fun m hm => by
      obtain ⟨s, n, hn, rfl⟩ := exists_of_mem_sortedMembers hm
      exact ih _ hn
    rw [sorted_object, whole, wholeMembers_iff.2 hmembers]
    rfl
  | cut => rfl

/-- Members whose names nobody else has are kept when an object is sorted. -/
theorem exists_sortedMembers_perm {members parts others : List (Key × Node)}
    (hperm : members.Perm (parts ++ others)) (hnodup : (parts.map Prod.fst).Nodup)
    (hnamed : ∀ m ∈ parts, ∃ s, m.1 = .name s)
    (hothers : ∀ m ∈ others, m.1 ∉ parts.map Prod.fst) :
    ∃ others', (sortedMembers members).Perm (parts.map (fun m => (m.1, m.2.sorted)) ++ others') ∧
      ∀ m ∈ others', m.2.whole ∧ ∃ m' ∈ others, m'.1 = m.1 := by
  have hunique : ∀ k n n', (k, n) ∈ parts → (k, n') ∈ members → n' = n := by
    intro k n n' hn hn'
    rcases List.mem_append.1 (hperm.mem_iff.1 hn') with hn' | hn'
    · exact congrArg Prod.snd (List.inj_on_of_nodup_map hnodup hn' hn rfl)
    · exact absurd (List.mem_map.2 ⟨_, hn, rfl⟩) (hothers (k, n') hn')
  let kept := (sortedMembers members).filter fun m => m.1 ∈ parts.map Prod.fst
  have hkept : kept.Perm (parts.map fun m => (m.1, m.2.sorted)) := by
    refine (List.perm_ext_iff_of_nodup ?_ ?_).2 fun m => ⟨fun hm => ?_, fun hm => ?_⟩
    · exact ((nodup_sortedMembers members).of_map _).filter _
    · refine List.Nodup.of_map Prod.fst ?_
      rw [List.map_map]
      exact hnodup
    · obtain ⟨hsorted, hkey⟩ := List.mem_filter.1 hm
      obtain ⟨s, n, hn, rfl⟩ := exists_of_mem_sortedMembers hsorted
      obtain ⟨⟨k, n'⟩, hpart, rfl⟩ := List.mem_map.1 (of_decide_eq_true hkey)
      rw [hunique _ _ _ hpart hn]
      exact List.mem_map.2 ⟨_, hpart, rfl⟩
    · obtain ⟨⟨k, n⟩, hpart, rfl⟩ := List.mem_map.1 hm
      obtain ⟨s, rfl⟩ := hnamed _ hpart
      have hmem := hperm.mem_iff.2 (List.mem_append_left others hpart)
      exact List.mem_filter.2 ⟨mem_sortedMembers_of_unique hmem fun n' => hunique _ _ _ hpart,
        decide_eq_true (List.mem_map.2 ⟨_, hpart, rfl⟩)⟩
  refine ⟨_, (List.filter_append_perm _ _).symm.trans (hkept.append_right _), fun m hm => ?_⟩
  obtain ⟨hsorted, hkey⟩ := List.mem_filter.1 hm
  obtain ⟨s, n, hn, rfl⟩ := exists_of_mem_sortedMembers hsorted
  refine ⟨whole_sorted n, ?_⟩
  rcases List.mem_append.1 (hperm.mem_iff.1 hn) with hpart | hother
  · have hkept : Key.name s ∈ parts.map Prod.fst := List.mem_map.2 ⟨_, hpart, rfl⟩
    simp only [hkept, decide_true, Bool.not_true, Bool.false_eq_true] at hkey
  · exact ⟨_, hother, rfl⟩

end Node

end VideoCall.Json
