/-!
# Tables in key order

A table holds one value per key, and its entries stand in increasing order of their keys. The order
is part of the type, so two tables with the same look-ups are equal (`Table.ext_get?`), and whatever
is read off the entries (names, rosters, answers) comes out in one order whatever the history of the
table.

## Main definitions

* `Table` : a list of entries whose keys increase.
* `Table.get?`, `Table.insert`, `Table.erase`, `Table.filter` : the operations.
* `Table.ofList` : a table from a list of pairs, where the last pair for a key counts.

## Main results

* `Table.ext_get?` : tables that answer every look-up alike are equal.
* `Table.get?_insert`, `Table.get?_erase`, `Table.get?_filter`, `Table.get?_insertAll` : the
  look-ups after each operation.
* `Table.entries_insert_perm`, `Table.entries_perm_of_get?`, `Table.entries_ofList_perm` : the
  entries up to their order.
-/

namespace VideoCall

open Std (TransOrd LawfulEqOrd TransCmp)

/-! ### Entry lists -/

namespace Entries

variable {κ ν : Type} [Ord κ]

/-- The keys of the list increase strictly. -/
def Increasing (l : List (κ × ν)) : Prop :=
  l.Pairwise fun a b => compare a.1 b.1 = .lt

/-- The value that stands beside `k`, if there is one. -/
def lookup (k : κ) : List (κ × ν) → Option ν
  | [] => none
  | (a, v) :: r => if compare k a = .eq then some v else lookup k r

/-- Puts `v` beside `k`: in the place of the old value, or where `k` belongs by the order. -/
def insert (k : κ) (v : ν) : List (κ × ν) → List (κ × ν)
  | [] => [(k, v)]
  | (a, w) :: r =>
    match compare k a with
    | .lt => (k, v) :: (a, w) :: r
    | .eq => (k, v) :: r
    | .gt => (a, w) :: insert k v r

theorem mem_insert {k : κ} {v : ν} {e : κ × ν} {l : List (κ × ν)} (h : e ∈ insert k v l) :
    e = (k, v) ∨ e ∈ l := by
  induction l with
  | nil => simp_all [insert]
  | cons x r ih =>
    obtain ⟨a, w⟩ := x
    simp only [insert] at h
    split at h <;> simp only [List.mem_cons] at h ⊢
    · exact h
    · exact h.imp_right Or.inr
    · rcases h with h | h
      · exact Or.inr (Or.inl h)
      · exact (ih h).imp_right Or.inr

variable [TransOrd κ] [LawfulEqOrd κ]

theorem increasing_insert (k : κ) (v : ν) {l : List (κ × ν)} (h : Increasing l) :
    Increasing (insert k v l) := by
  induction l with
  | nil => simp [insert, Increasing]
  | cons x r ih =>
    obtain ⟨a, w⟩ := x
    obtain ⟨ha, hr⟩ := List.pairwise_cons.1 h
    simp only [insert]
    split
    · rename_i hlt
      refine List.pairwise_cons.2 ⟨fun e he => ?_, h⟩
      rcases List.mem_cons.1 he with rfl | he
      · exact hlt
      · exact TransCmp.lt_trans hlt (ha e he)
    · rename_i heq
      have hk : k = a := LawfulEqOrd.eq_of_compare heq
      exact List.pairwise_cons.2 ⟨fun e he => hk ▸ ha e he, hr⟩
    · rename_i hgt
      refine List.pairwise_cons.2 ⟨fun e he => ?_, ih hr⟩
      rcases mem_insert he with rfl | he
      · exact Std.OrientedCmp.lt_of_gt hgt
      · exact ha e he

omit [TransOrd κ] in
theorem lookup_insert (k q : κ) (v : ν) (l : List (κ × ν)) :
    lookup q (insert k v l) = if compare q k = .eq then some v else lookup q l := by
  induction l with
  | nil => simp [insert, lookup]
  | cons x r ih =>
    obtain ⟨a, w⟩ := x
    simp only [insert]
    split
    · simp [lookup]
    · rename_i heq
      have hk : k = a := LawfulEqOrd.eq_of_compare heq
      subst hk
      simp only [lookup]
      split <;> rfl
    · rename_i hgt
      simp only [lookup, ih]
      by_cases hq : compare q k = .eq
      · have : q = k := LawfulEqOrd.eq_of_compare hq
        subst this
        simp [hgt]
      · simp [hq]

omit [TransOrd κ] [LawfulEqOrd κ] in
theorem lookup_eq_none_of_lt {q : κ} {l : List (κ × ν)} (h : ∀ e ∈ l, compare q e.1 = .lt) :
    lookup q l = none := by
  induction l with
  | nil => rfl
  | cons x r ih =>
    obtain ⟨a, w⟩ := x
    have h₁ := h (a, w) List.mem_cons_self
    simp only [lookup]
    rw [if_neg (by simp [h₁]), ih fun e he => h e (List.mem_cons_of_mem _ he)]

omit [TransOrd κ] in
theorem lookup_eq_some_iff {k : κ} {v : ν} {l : List (κ × ν)} (h : Increasing l) :
    lookup k l = some v ↔ (k, v) ∈ l := by
  induction l with
  | nil => simp [lookup]
  | cons x r ih =>
    obtain ⟨a, w⟩ := x
    obtain ⟨ha, hr⟩ := List.pairwise_cons.1 h
    simp only [lookup, List.mem_cons, Prod.mk.injEq]
    split
    · rename_i heq
      have hk : k = a := LawfulEqOrd.eq_of_compare heq
      subst hk
      constructor
      · intro hv
        exact Or.inl ⟨rfl, (Option.some.inj hv).symm⟩
      · rintro (⟨-, rfl⟩ | hm)
        · rfl
        · simpa using ha _ hm
    · rename_i hne
      rw [ih hr]
      constructor
      · exact Or.inr
      · rintro (⟨rfl, -⟩ | hm)
        · simp at hne
        · exact hm

omit [TransOrd κ] [LawfulEqOrd κ] in
theorem lookup_append (k : κ) (l m : List (κ × ν)) :
    lookup k (l ++ m) = (lookup k l).or (lookup k m) := by
  induction l with
  | nil => rfl
  | cons x r ih =>
    simp only [List.cons_append, lookup, ih]
    split <;> rfl

omit [TransOrd κ] in
theorem mem_of_lookup {k : κ} {v : ν} {l : List (κ × ν)} (h : lookup k l = some v) :
    (k, v) ∈ l := by
  induction l with
  | nil => simp [lookup] at h
  | cons x r ih =>
    simp only [lookup] at h
    split at h
    · rename_i heq
      obtain rfl : k = x.1 := LawfulEqOrd.eq_of_compare heq
      exact List.mem_cons.2 (Or.inl (by rw [← Option.some.inj h]))
    · exact List.mem_cons_of_mem _ (ih h)

omit [TransOrd κ] in
/-- In a list with one pair per key every pair is found. -/
theorem lookup_of_mem {k : κ} {v : ν} {l : List (κ × ν)} (h : (l.map Prod.fst).Nodup)
    (hm : (k, v) ∈ l) : lookup k l = some v := by
  induction l with
  | nil => cases hm
  | cons x r ih =>
    obtain ⟨hx, hr⟩ := List.nodup_cons.1 h
    simp only [lookup]
    rcases List.mem_cons.1 hm with rfl | hm
    · simp
    · have hk : compare k x.1 ≠ .eq := fun he => by
        obtain rfl : k = x.1 := LawfulEqOrd.eq_of_compare he
        exact hx (List.mem_map.2 ⟨(x.1, v), hm, rfl⟩)
      rw [if_neg hk, ih hr hm]

omit [TransOrd κ] in
theorem lookup_eq_none_iff {k : κ} {l : List (κ × ν)} : lookup k l = none ↔ ∀ v, (k, v) ∉ l := by
  induction l with
  | nil => simp [lookup]
  | cons x r ih =>
    simp only [lookup, List.mem_cons, not_or]
    split
    · rename_i heq
      obtain rfl : k = x.1 := LawfulEqOrd.eq_of_compare heq
      exact ⟨fun h => by simp at h, fun h => absurd rfl (h x.2).1⟩
    · rename_i hne
      rw [ih]
      refine ⟨fun h v => ⟨?_, h v⟩, fun h v => (h v).2⟩
      rintro rfl
      simp at hne

omit [TransOrd κ] in
/-- In an increasing list it does not matter from which end one looks. -/
theorem lookup_reverse {l : List (κ × ν)} (h : Increasing l) (k : κ) :
    lookup k l.reverse = lookup k l := by
  cases hk : lookup k l with
  | none =>
    rw [lookup_eq_none_iff] at hk ⊢
    exact fun v hv => hk v (List.mem_reverse.1 hv)
  | some v =>
    cases hr : lookup k l.reverse with
    | none => exact absurd (List.mem_reverse.2 (mem_of_lookup hk)) (lookup_eq_none_iff.1 hr v)
    | some w =>
      have hw := (lookup_eq_some_iff h).2 (List.mem_reverse.1 (mem_of_lookup hr))
      exact hw.symm.trans hk

theorem eq_of_lookup {l m : List (κ × ν)} (hl : Increasing l) (hm : Increasing m)
    (h : ∀ k, lookup k l = lookup k m) : l = m := by
  have hlt : ∀ {e : κ × ν} {r : List (κ × ν)} {x : κ × ν}, (∀ y ∈ r, compare e.1 y.1 = .lt) →
      x ∈ e :: r → compare x.1 e.1 ≠ .lt := by
    intro e r x hr hx
    rcases List.mem_cons.1 hx with rfl | hx
    · simp
    · have := Std.OrientedCmp.gt_of_lt (hr x hx)
      simp [this]
  induction l generalizing m with
  | nil =>
    cases m with
    | nil => rfl
    | cons y s => have := h y.1; simp [lookup] at this
  | cons x r ih =>
    cases m with
    | nil => have := h x.1; simp [lookup] at this
    | cons y s =>
      obtain ⟨hx, hr⟩ := List.pairwise_cons.1 hl
      obtain ⟨hy, hs⟩ := List.pairwise_cons.1 hm
      have hxm : x ∈ y :: s := (lookup_eq_some_iff hm).1 (by rw [← h x.1]; simp [lookup])
      have hyl : y ∈ x :: r := (lookup_eq_some_iff hl).1 (by rw [h y.1]; simp [lookup])
      have hxy : x = y := by
        rcases List.mem_cons.1 hxm with rfl | hxs
        · rfl
        · rcases List.mem_cons.1 hyl with rfl | hyr
          · rfl
          · have h₁ := hy x hxs
            have h₂ := hx y hyr
            have := Std.OrientedCmp.gt_of_lt h₁
            simp [this] at h₂
      subst hxy
      refine congrArg _ (ih hr hs fun k => ?_)
      have hk := h k
      simp only [lookup] at hk
      by_cases he : compare k x.1 = .eq
      · have : k = x.1 := LawfulEqOrd.eq_of_compare he
        subst this
        rw [lookup_eq_none_of_lt hx, lookup_eq_none_of_lt hy]
      · simpa [he] using hk

end Entries

/-! ### Tables -/

/-- One value per key, with the entries in increasing order of the keys. -/
structure Table (κ ν : Type) [Ord κ] where
  /-- The entries, first the one with the least key. -/
  entries : List (κ × ν)
  increasing : Entries.Increasing entries

namespace Table

variable {κ ν : Type} [Ord κ]

/-- The table without an entry. -/
def empty : Table κ ν := ⟨[], List.Pairwise.nil⟩

instance : Inhabited (Table κ ν) := ⟨empty⟩

instance : EmptyCollection (Table κ ν) := ⟨empty⟩

instance [DecidableEq κ] [DecidableEq ν] : DecidableEq (Table κ ν) := fun s t =>
  decidable_of_iff (s.entries = t.entries)
    ⟨fun h => by cases s; cases t; cases h; rfl, fun h => h ▸ rfl⟩

/-- The value at `k`. -/
def get? (t : Table κ ν) (k : κ) : Option ν := Entries.lookup k t.entries

/-- Whether there is a value at `k`. -/
def contains (t : Table κ ν) (k : κ) : Bool := (t.get? k).isSome

/-- The keys, in increasing order. -/
def keys (t : Table κ ν) : List κ := t.entries.map (·.1)

/-- The values, in the order of their keys. -/
def values (t : Table κ ν) : List ν := t.entries.map (·.2)

/-- The number of entries. -/
def size (t : Table κ ν) : Nat := t.entries.length

/-- Whether there is no entry. -/
def isEmpty (t : Table κ ν) : Bool := t.entries.isEmpty

/-- The entries that `keep` admits. -/
def filter (t : Table κ ν) (keep : κ → ν → Bool) : Table κ ν :=
  ⟨t.entries.filter fun e => keep e.1 e.2, t.increasing.filter _⟩

/-- The table without the entry at `k`. -/
def erase (t : Table κ ν) (k : κ) : Table κ ν := t.filter fun q _ => compare q k != .eq

variable [TransOrd κ] [LawfulEqOrd κ]

/-- The table with `v` at `k`. -/
def insert (t : Table κ ν) (k : κ) (v : ν) : Table κ ν :=
  ⟨Entries.insert k v t.entries, Entries.increasing_insert k v t.increasing⟩

/-- The table with `f` of the value at `k` in its place; the same table if there is none. -/
def modify (t : Table κ ν) (k : κ) (f : ν → ν) : Table κ ν :=
  match t.get? k with
  | some v => t.insert k (f v)
  | none => t

/-- All entries of the list, put in one after the other, onto the table. -/
def insertAll (t : Table κ ν) (l : List (κ × ν)) : Table κ ν :=
  l.foldl (fun u e => u.insert e.1 e.2) t

/-- The table of a list of pairs: of several pairs with one key the last one counts. -/
def ofList (l : List (κ × ν)) : Table κ ν := empty.insertAll l

/-! ### Look-ups -/

omit [TransOrd κ] [LawfulEqOrd κ] in
@[simp]
theorem get?_empty (k : κ) : (empty : Table κ ν).get? k = none := rfl

@[simp]
theorem get?_insert (t : Table κ ν) (k q : κ) (v : ν) :
    (t.insert k v).get? q = if compare q k = .eq then some v else t.get? q :=
  Entries.lookup_insert k q v t.entries

omit [TransOrd κ] in
theorem mem_entries_iff {t : Table κ ν} {k : κ} {v : ν} :
    (k, v) ∈ t.entries ↔ t.get? k = some v :=
  (Entries.lookup_eq_some_iff t.increasing).symm

omit [TransOrd κ] in
theorem mem_keys_iff {t : Table κ ν} {k : κ} : k ∈ t.keys ↔ ∃ v, t.get? k = some v := by
  simp only [keys, List.mem_map, Prod.exists, exists_eq_right, exists_and_right, mem_entries_iff]

omit [TransOrd κ] in
theorem get?_filter (t : Table κ ν) (keep : κ → ν → Bool) (k : κ) :
    (t.filter keep).get? k = (t.get? k).filter (keep k) := by
  ext v
  rw [← mem_entries_iff, Option.filter_eq_some_iff, ← mem_entries_iff]
  exact List.mem_filter

omit [TransOrd κ] in
theorem get?_erase (t : Table κ ν) (k q : κ) :
    (t.erase k).get? q = if compare q k = .eq then none else t.get? q := by
  rw [erase, get?_filter]
  by_cases h : compare q k = .eq <;> cases t.get? q <;> simp [h, Option.filter]

theorem get?_modify (t : Table κ ν) (k q : κ) (f : ν → ν) :
    (t.modify k f).get? q = if compare q k = .eq then (t.get? q).map f else t.get? q := by
  unfold modify
  by_cases h : compare q k = .eq
  · have hq : q = k := LawfulEqOrd.eq_of_compare h
    subst hq
    cases hk : t.get? q <;> simp [hk]
  · cases hk : t.get? k <;> simp [h]

/-- Of several pairs with one key the last one counts, and a pair of the list counts before the
table. -/
theorem get?_insertAll (t : Table κ ν) (l : List (κ × ν)) (k : κ) :
    (t.insertAll l).get? k = (Entries.lookup k l.reverse).or (t.get? k) := by
  induction l generalizing t with
  | nil => rfl
  | cons x r ih =>
    have h := ih (t.insert x.1 x.2)
    rw [get?_insert] at h
    rw [List.reverse_cons, Entries.lookup_append, Option.or_assoc]
    refine h.trans (congrArg _ ?_)
    simp only [Entries.lookup]
    split <;> rfl

theorem get?_insertAll_entries (t u : Table κ ν) (k : κ) :
    (t.insertAll u.entries).get? k = (u.get? k).or (t.get? k) := by
  rw [get?_insertAll, Entries.lookup_reverse u.increasing]
  rfl

theorem get?_ofList (l : List (κ × ν)) (k : κ) :
    (ofList l).get? k = Entries.lookup k l.reverse := by
  rw [ofList, get?_insertAll, get?_empty, Option.or_none]

/-- Tables that answer every look-up alike are equal. -/
theorem ext_get? {s t : Table κ ν} (h : ∀ k, s.get? k = t.get? k) : s = t := by
  have := Entries.eq_of_lookup s.increasing t.increasing h
  cases s; cases t; cases this; rfl

/-! ### Entries up to order -/

omit [LawfulEqOrd κ] in
theorem nodup_entries (t : Table κ ν) : t.entries.Nodup :=
  t.increasing.imp fun h e => by subst e; simp at h

omit [LawfulEqOrd κ] in
theorem nodup_keys (t : Table κ ν) : t.keys.Nodup :=
  List.pairwise_map.2 (t.increasing.imp fun h e => by rw [e] at h; simp at h)

/-- A table is one of its entries with all the others. -/
theorem entries_perm_of_get? {t : Table κ ν} {k : κ} {v : ν} (h : t.get? k = some v) :
    t.entries.Perm ((k, v) :: (t.erase k).entries) := by
  refine (List.perm_ext_iff_of_nodup t.nodup_entries (List.nodup_cons.2 ⟨?_, nodup_entries _⟩)).2 ?_
  · simp [mem_entries_iff, get?_erase]
  · rintro ⟨q, w⟩
    rw [List.mem_cons, mem_entries_iff, mem_entries_iff, get?_erase, Prod.mk.injEq]
    by_cases hq : compare q k = .eq
    · obtain rfl : q = k := LawfulEqOrd.eq_of_compare hq
      simp [h, eq_comm]
    · have hne : q ≠ k := fun e => hq (by simp [e])
      simp [hne]

theorem erase_insert (t : Table κ ν) (k : κ) (v : ν) : (t.insert k v).erase k = t.erase k := by
  refine ext_get? fun q => ?_
  rw [get?_erase, get?_erase, get?_insert]
  split <;> rfl

/-- A table with an entry put in is that entry with all others of the table. -/
theorem entries_insert_perm (t : Table κ ν) (k : κ) (v : ν) :
    (t.insert k v).entries.Perm ((k, v) :: (t.erase k).entries) := by
  have h : (t.insert k v).get? k = some v := by simp
  simpa [erase_insert] using entries_perm_of_get? h

/-- The order in which the entries of a table are put in does not matter. -/
theorem ofList_of_perm {t : Table κ ν} {l : List (κ × ν)} (h : l.Perm t.entries) :
    ofList l = t := by
  refine ext_get? fun k => ?_
  rw [get?_ofList]
  have hmem : ∀ v, (k, v) ∈ l.reverse ↔ t.get? k = some v := fun v => by
    rw [List.mem_reverse, h.mem_iff, mem_entries_iff]
  cases hk : Entries.lookup k l.reverse with
  | none =>
    have hnone := Entries.lookup_eq_none_iff.1 hk
    exact (Option.eq_none_iff_forall_ne_some.2 fun v hv => hnone v ((hmem v).2 hv)).symm
  | some v => exact ((hmem v).1 (Entries.mem_of_lookup hk)).symm

/-- A list with one pair per key is, up to order, the entries of its table. -/
theorem entries_ofList_perm {l : List (κ × ν)} (h : (l.map Prod.fst).Nodup) :
    (ofList l).entries.Perm l := by
  have hpairs : l.Nodup := (List.pairwise_map.1 h).imp fun hne he => hne (congrArg Prod.fst he)
  have hreverse : (l.reverse.map Prod.fst).Nodup :=
    ((List.reverse_perm l).map Prod.fst).nodup_iff.2 h
  refine (List.perm_ext_iff_of_nodup (nodup_entries _) hpairs).2 ?_
  rintro ⟨k, v⟩
  rw [mem_entries_iff, get?_ofList]
  constructor
  · exact fun hk => List.mem_reverse.1 (Entries.mem_of_lookup hk)
  · exact fun hm => Entries.lookup_of_mem hreverse (List.mem_reverse.2 hm)

theorem values_perm_of_get? {t : Table κ ν} {k : κ} {v : ν} (h : t.get? k = some v) :
    t.values.Perm (v :: (t.erase k).values) :=
  (entries_perm_of_get? h).map Prod.snd

theorem values_insert_perm (t : Table κ ν) (k : κ) (v : ν) :
    (t.insert k v).values.Perm (v :: (t.erase k).values) :=
  (entries_insert_perm t k v).map Prod.snd

theorem erase_of_get?_eq_none {t : Table κ ν} {k : κ} (h : t.get? k = none) : t.erase k = t := by
  refine ext_get? fun q => ?_
  rw [get?_erase]
  split
  · rename_i hq
    obtain rfl : q = k := LawfulEqOrd.eq_of_compare hq
    exact h.symm
  · rfl

theorem insert_of_get? {t : Table κ ν} {k : κ} {v : ν} (h : t.get? k = some v) :
    t.insert k v = t := by
  refine ext_get? fun q => ?_
  rw [get?_insert]
  split
  · rename_i hq
    obtain rfl : q = k := LawfulEqOrd.eq_of_compare hq
    exact h.symm
  · rfl

end Table

end VideoCall
