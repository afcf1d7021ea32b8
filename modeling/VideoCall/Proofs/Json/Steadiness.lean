import VideoCall.Proofs.Json.Formats
import VideoCall.Proofs.Json.Sorting
import VideoCall.Proofs.Result

/-!
# What a document says, its value says

Whoever makes a free-form value of a document first and reads the value afterwards finds there
whatever can be read from the document itself, on the spot or after it was held back. Every format
has this property if the formats of its parts do. The converse fails: a value names nothing twice,
so a record may be found in it where the document names a field twice.

## Main definitions

* `Json.Format.Steady` : a format reads from the value what it reads from the document.
* `Json.Fields.Steady` : the formats of all fields do.

## Main results

* `Json.Format.steady_list`, `Json.Format.steady_pairs`, `Json.Format.steady_record` : a format is
  steady if those of its parts are.
* `Json.Fields.exists_parts` : members that make a record are its fields and others.
* `Json.Tagged.exists_of_read_object`, `Json.Tagged.exists_of_read_array` : the type and the payload
  from which tagged data was read.
-/

namespace VideoCall.Json

open Node

variable {α β ε : Type}

/-! ### Formats -/

namespace Format

/-- Whatever is read from a document that stands for something is read from its sorted document as
well, when that was held back. -/
structure Steady (f : Format α) : Prop where
  sorted : ∀ {o : Origin} {n : Node} {depth : Nat} {a : α}, n.readable depth →
    f.read o n = .ok a → f.read .held n.sorted = .ok a

theorem steady_text : text.Steady where
  sorted {_ n _ _} _ h := by
    cases n with
    | string s =>
      cases s with
      | none => cases h
      | some s => exact h
    | _ => cases h

theorem steady_flag : flag.Steady where
  sorted {_ n _ _} _ h := by
    cases n with
    | bool b => exact h
    | _ => cases h

theorem steady_free (outside : Nat) : (free outside).Steady where
  sorted {o n _ v} _ h := by
    have hvalue : n.value = v := by
      cases o with
      | text =>
        simp only [free] at h
        split at h
        · exact Except.ok.inj h
        · cases h
      | value => exact Except.ok.inj h
      | held => exact Except.ok.inj h
    exact congrArg Except.ok ((value_sorted n).trans hvalue)

/-- Nothing is found in a document that is `null`, or was held back and has no members. -/
theorem readUnit_sorted {o : Origin} {n : Node} (h : readUnit o n = .ok ()) :
    readUnit .held n.sorted = .ok () := by
  unfold readUnit at h
  split at h
  · rfl
  · rfl
  · cases h

/-- A choice that is an object has one member, which is named for it. -/
theorem exists_of_pickMember_eq_ok {options : List (String × α)} {o : Origin}
    {members : List (Key × Node)} {closed : Bool} {a : α}
    (h : pickMember options o members closed = .ok a) :
    ∃ s n, members = [(.name s, n)] ∧ pick options s = .ok a ∧ readUnit o n = .ok () := by
  unfold pickMember at h
  split at h
  · rename_i s n r
    obtain ⟨a', hpick, h⟩ := exists_of_bind_eq_ok h
    obtain ⟨⟨⟩, hunit, h⟩ := exists_of_bind_eq_ok h
    split at h
    · rename_i hend
      obtain rfl := Except.ok.inj h
      obtain rfl : r = [] := List.isEmpty_iff.1 (Bool.and_eq_true_iff.1 hend).1
      exact ⟨s, n, rfl, hpick, hunit⟩
    · cases h
  · cases h
  · rename_i s n _
    obtain ⟨a', hpick, h⟩ := exists_of_bind_eq_ok h
    obtain ⟨⟨⟩, hunit, h⟩ := exists_of_bind_eq_ok h
    obtain rfl := Except.ok.inj h
    exact ⟨s, n, rfl, hpick, hunit⟩
  · cases h

theorem steady_choice (options : List (String × α)) (name : α → String) :
    (choice options name).Steady where
  sorted {o n _ a} _ h := by
    cases n with
    | string s =>
      cases s with
      | some s => exact h
      | none => cases o <;> cases h
    | object members closed =>
      obtain ⟨s, n, rfl, hpick, hunit⟩ := exists_of_pickMember_eq_ok h
      rw [sorted_object]
      change (do
        let a ← pick options s
        readUnit .held n.sorted
        .ok a) = _
      rw [hpick, readUnit_sorted hunit]
      rfl
    | _ => cases o <;> cases h

/-- The same data under another type. -/
theorem Steady.read_map {f : Format α} (hf : f.Steady) (into : α → β) {o : Origin} {n : Node}
    {depth : Nat} {b : β} (hreadable : n.readable depth) (h : (f.read o n).map into = .ok b) :
    (f.read .held n.sorted).map into = .ok b := by
  obtain ⟨a, ha, rfl⟩ := exists_of_map_eq_ok h
  rw [hf.sorted hreadable ha]
  rfl

theorem Steady.map {f : Format α} (hf : f.Steady) (into : α → β) (back : β → α) :
    (f.map into back).Steady where
  sorted hreadable h := hf.read_map into hreadable h

theorem steady_list {f : Format α} (hf : f.Steady) : (list f).Steady where
  sorted {o n _ as} hreadable h := by
    cases n with
    | array items closed =>
      obtain ⟨rfl, d, rfl, hitems⟩ := readable_array.1 hreadable
      obtain ⟨as', hread, has⟩ := exists_of_bind_eq_ok h
      obtain rfl : as' = as := Except.ok.inj has
      have hsorted : (items.map sorted).mapM (f.read .held) = .ok as' := by
        refine mapM_eq_ok_iff.2 (List.forall₂_map_left_iff.2 ?_)
        exact ((List.forall₂_and_left _ _).2 ⟨hitems, mapM_eq_ok_iff.1 hread⟩).imp
          fun n a hn => hf.sorted hn.1 hn.2
      rw [sorted_array]
      simp only [list]
      rw [hsorted]
      rfl
    | _ => cases h

/-! ### Names with values -/

theorem forall₂_memberValues {members : List (Key × Node)} {as : List (String × α)}
    {P : Node → α → Prop} {R : Value → α → Prop} (hP : ∀ n a, P n a → R n.value a)
    (h : List.Forall₂ (fun m a => m.1 = .name a.1 ∧ P m.2 a.2) members as) :
    List.Forall₂ (Related R) (memberValues members) as := by
  induction h with
  | nil => exact .nil
  | @cons m a members as hm _ ih =>
    obtain ⟨k, n⟩ := m
    obtain rfl : k = .name a.1 := hm.1
    exact .cons ⟨rfl, hP n a.2 hm.2⟩ ih

/-- The names and values that are read from a sorted object are the table of those that are read
from the object. -/
theorem read_pairs_sorted {f : Format α} (hf : f.Steady) {o : Origin} {n : Node} {depth : Nat}
    {as : List (String × α)} (hreadable : n.readable depth) (h : (pairs f).read o n = .ok as) :
    (pairs f).read .held n.sorted = .ok (Table.ofList as).entries := by
  cases n with
  | object members closed =>
    obtain ⟨-, d, rfl, hmembers⟩ := readable_object.1 hreadable
    have hread := (List.forall₂_and_left _ _).2 ⟨hmembers, (read_pairs_object_iff.1 h).2⟩
    have hvalues : List.Forall₂ (Related fun v a => f.read .held (ofValue v) = .ok a)
        (memberValues members) as :=
      forall₂_memberValues (P := fun n a => n.readable d ∧ f.read o n = .ok a)
        (fun n a hn => hf.sorted hn.1 hn.2) (hread.imp fun m a hm => ⟨hm.2.1, hm.1.2, hm.2.2⟩)
    have hentries := forall₂_ofList hvalues
    rw [sorted_object, sortedMembers, ofMembers_eq, read_pairs_object_iff]
    exact ⟨rfl, List.forall₂_map_left_iff.2
      (hentries.imp fun v a hv => ⟨congrArg Key.name hv.1, hv.2⟩)⟩
  | _ => cases h

/-- Names with values under a type for which only the last value of a name counts. -/
theorem steady_pairs {f : Format α} (hf : f.Steady) {into : List (String × α) → β}
    {back : β → List (String × α)} (hinto : ∀ as, into (Table.ofList as).entries = into as) :
    ((pairs f).map into back).Steady where
  sorted {o n _ b} hreadable h := by
    obtain ⟨as, has, rfl⟩ := exists_of_map_eq_ok h
    change ((pairs f).read .held n.sorted).map into = _
    rw [read_pairs_sorted hf hreadable has, ← hinto as]
    rfl

end Format

/-! ### Records -/

namespace Fields

variable {τ σ : Type} {o : Origin}

/-- The formats of all fields are steady. -/
def Steady : {τ : Type} → Fields τ → Prop
  | _, nil => True
  | _, cons _ format _ _ rest => format.Steady ∧ rest.Steady

theorem steady_nil : nil.Steady := trivial

theorem steady_field {format : Format α} {rest : Fields τ} (name : String)
    (hformat : format.Steady) (hrest : rest.Steady) : (field name format rest).Steady :=
  ⟨hformat, hrest⟩

theorem steady_fieldOr {format : Format α} {rest : Fields τ} (name : String) (fallback : α)
    (hformat : format.Steady) (hrest : rest.Steady) :
    (fieldOr name format fallback rest).Steady :=
  ⟨hformat, hrest⟩

theorem Reads.keys_sublist {fs : Fields τ} {t : τ} {parts : List (Key × Node)}
    (h : fs.Reads o t parts) : (parts.map Prod.fst).Sublist (fs.names.map Key.name) := by
  induction fs generalizing parts with
  | nil =>
    obtain rfl : parts = [] := h
    exact .slnil
  | cons name format fallback written rest ih =>
    obtain ⟨a, as⟩ := t
    rcases h with ⟨n, more, rfl, -, hmore⟩ | ⟨-, hrest⟩
    · exact (ih hmore).cons_cons _
    · exact (ih hrest).cons _

/-- The fields are found among the sorted members as well. -/
theorem Steady.reads {fs : Fields τ} (hfs : fs.Steady) {t : τ} {parts : List (Key × Node)}
    {depth : Nat} (hreadable : ∀ m ∈ parts, m.2.readable depth) (h : fs.Reads o t parts) :
    fs.Reads .held t (parts.map fun m => (m.1, m.2.sorted)) := by
  induction fs generalizing parts with
  | nil =>
    obtain rfl : parts = [] := h
    rfl
  | cons name format fallback written rest ih =>
    obtain ⟨hformat, hrest⟩ := hfs
    obtain ⟨a, as⟩ := t
    rcases h with ⟨n, more, rfl, hn, hmore⟩ | ⟨hfallback, hmore⟩
    · obtain ⟨hreadable, hreadable'⟩ := List.forall_mem_cons.1 hreadable
      exact Or.inl ⟨_, _, rfl, hformat.sorted hreadable hn, ih hrest hreadable' hmore⟩
    · exact Or.inr ⟨hfallback, ih hrest hreadable hmore⟩

/-- The fields are found among the sorted items as well. -/
theorem Steady.readItems {fs : Fields τ} (hfs : fs.Steady) {expected : String} {index depth : Nat}
    {items left : List Node} {closed : Bool} {t : τ} (hreadable : ∀ n ∈ items, n.readable depth)
    (h : fs.readItems o expected index items closed = .ok (t, left)) :
    fs.readItems .held expected index (items.map sorted) true = .ok (t, left.map sorted) := by
  induction fs generalizing index items with
  | nil =>
    obtain ⟨rfl, rfl⟩ := Prod.mk.inj (Except.ok.inj h)
    rfl
  | cons name format fallback written rest ih =>
    obtain ⟨hformat, hrest⟩ := hfs
    cases items with
    | nil =>
      cases closed with
      | false => cases h
      | true =>
        cases fallback with
        | none => cases h
        | some a =>
          obtain ⟨⟨as, left'⟩, has, heq⟩ := exists_of_bind_eq_ok h
          obtain ⟨rfl, rfl⟩ := Prod.mk.inj (Except.ok.inj heq)
          have hmore := ih hrest hreadable has
          simp only [List.map_nil, Fields.readItems] at hmore ⊢
          rw [hmore]
          rfl
    | cons n items =>
      obtain ⟨hn, hitems⟩ := List.forall_mem_cons.1 hreadable
      obtain ⟨a, ha, h⟩ := exists_of_bind_eq_ok h
      obtain ⟨⟨as, left'⟩, has, heq⟩ := exists_of_bind_eq_ok h
      obtain ⟨rfl, rfl⟩ := Prod.mk.inj (Except.ok.inj heq)
      simp only [List.map_cons, Fields.readItems]
      rw [hformat.sorted hn ha, ih hrest hitems has]
      rfl

/-- A field that was read is not among the members behind it. -/
theorem ne_of_readMembers_cons {name : String} {format : Format α} {fallback : Option α}
    {written : α → Bool} {rest : Fields τ} {members : List (Key × Node)} {a : α}
    {more : rest.Draft} {draft : (cons name format fallback written rest).Draft}
    (h : (cons name format fallback written rest).readMembers o members (some a, more) =
      .ok draft) : ∀ m ∈ members, m.1 ≠ .name name := by
  induction members generalizing more with
  | nil => exact nofun
  | cons m members ih =>
    obtain ⟨k, n⟩ := m
    cases k with
    | unreadable => cases h
    | name s =>
      simp only [readMembers, set] at h
      by_cases hs : s = name
      · simp [hs] at h
      · refine List.forall_mem_cons.2 ⟨fun heq => hs (Key.name.inj heq), ?_⟩
        rw [if_neg hs] at h
        cases hset : rest.set o s n more with
        | none =>
          simp only [hset, Option.map_none] at h
          split at h
          · exact ih h
          · cases h
        | some r =>
          cases r with
          | error e => simp [hset, Except.map] at h
          | ok more' =>
            simp only [hset, Option.map_some, Except.map] at h
            exact ih h

/-- Members of which none is a field are passed over. -/
theorem foreign_of_readMembers_nil {members : List (Key × Node)} {draft : nil.Draft}
    (h : nil.readMembers o members () = .ok draft) : nil.Foreign members := by
  induction members with
  | nil => exact nofun
  | cons m members ih =>
    obtain ⟨k, n⟩ := m
    cases k with
    | unreadable => cases h
    | name s =>
      simp only [readMembers, set] at h
      split at h
      · exact List.forall_mem_cons.2 ⟨⟨s, rfl, List.not_mem_nil⟩, ih h⟩
      · cases h

theorem Foreign.cons {name : String} {format : Format α} {fallback : Option α}
    {written : α → Bool} {rest : Fields τ} {members : List (Key × Node)}
    (h : rest.Foreign members) (hne : ∀ m ∈ members, m.1 ≠ .name name) :
    (cons name format fallback written rest).Foreign members := fun m hm => by
  obtain ⟨s, hs, hrest⟩ := h m hm
  refine ⟨s, hs, fun hmem => ?_⟩
  rcases List.mem_cons.1 hmem with rfl | hmem
  · exact hne m hm hs
  · exact hrest hmem

/-- The first field of a record stands among members of other names, or is none of them. -/
theorem readMembers_cons_cases {name : String} {format : Format α} {fallback : Option α}
    {written : α → Bool} {rest : Fields τ} {members : List (Key × Node)} {value : Option α}
    {more : rest.Draft}
    (h : (cons name format fallback written rest).readMembers o members
      (cons name format fallback written rest).blank = .ok (value, more)) :
    (value = none ∧ (∀ m ∈ members, m.1 ≠ .name name) ∧
      rest.readMembers o members rest.blank = .ok more) ∨
    ∃ before n behind a, members = before ++ (.name name, n) :: behind ∧ value = some a ∧
      format.read o n = .ok a ∧ (∀ m ∈ before ++ behind, m.1 ≠ .name name) ∧
      rest.readMembers o (before ++ behind) rest.blank = .ok more := by
  cases hfind : members.find? fun m => m.1 = .name name with
  | none =>
    have hne : ∀ m ∈ members, m.1 ≠ .name name := fun m hm =>
      of_decide_eq_false (Bool.eq_false_iff.2 (List.find?_eq_none.1 hfind m hm))
    rw [blank, readMembers_cons hne] at h
    obtain ⟨more', hmore, heq⟩ := exists_of_map_eq_ok h
    obtain ⟨rfl, rfl⟩ := Prod.mk.inj heq
    exact Or.inl ⟨rfl, hne, hmore⟩
  | some m =>
    obtain ⟨hname, before, behind, rfl, hbefore⟩ := List.find?_eq_some_iff_append.1 hfind
    obtain ⟨k, n⟩ := m
    obtain rfl : k = .name name := of_decide_eq_true hname
    have hbefore' : ∀ m ∈ before, m.1 ≠ .name name := fun m hm => by simpa using hbefore m hm
    rw [readMembers_append, blank, readMembers_cons hbefore'] at h
    obtain ⟨_, hfirst, h⟩ := exists_of_bind_eq_ok h
    obtain ⟨more', hmore, rfl⟩ := exists_of_map_eq_ok hfirst
    cases hn : format.read o n with
    | error e => simp [readMembers, set, hn, Except.map] at h
    | ok a =>
      have hset : (cons name format fallback written rest).set o name n (none, more') =
          some (.ok (some a, more')) := by simp [set, hn, Except.map]
      simp only [readMembers, hset] at h
      have hbehind := ne_of_readMembers_cons h
      rw [readMembers_cons hbehind] at h
      obtain ⟨more'', hlast, heq⟩ := exists_of_map_eq_ok h
      obtain ⟨rfl, rfl⟩ := Prod.mk.inj heq
      refine Or.inr ⟨before, n, behind, a, rfl, rfl, hn,
        List.forall_mem_append.2 ⟨hbefore', hbehind⟩, ?_⟩
      rw [readMembers_append, hmore]
      exact hlast

/-- Members that make a record are its fields, in some order, and others that are no fields. -/
theorem exists_parts {fs : Fields τ} {members : List (Key × Node)} {draft : fs.Draft} {t : τ}
    (hread : fs.readMembers o members fs.blank = .ok draft) (hfinish : fs.finish draft = .ok t) :
    ∃ parts others, members.Perm (parts ++ others) ∧ fs.Reads o t parts ∧ fs.Foreign others := by
  induction fs generalizing members with
  | nil => exact ⟨[], members, List.Perm.refl _, rfl, foreign_of_readMembers_nil hread⟩
  | cons name format fallback written rest ih =>
    obtain ⟨value, more⟩ := draft
    rcases readMembers_cons_cases hread with
      ⟨rfl, hne, hmore⟩ | ⟨before, n, behind, a, rfl, rfl, hn, hne, hmore⟩
    · cases fallback with
      | none => cases hfinish
      | some a =>
        obtain ⟨as, has, rfl⟩ := exists_of_map_eq_ok hfinish
        obtain ⟨parts, others, hperm, hparts, hothers⟩ := ih hmore has
        refine ⟨parts, others, hperm, Or.inr ⟨rfl, hparts⟩, hothers.cons fun m hm => ?_⟩
        exact hne m (hperm.mem_iff.2 (List.mem_append_right parts hm))
    · obtain ⟨as, has, rfl⟩ := exists_of_map_eq_ok hfinish
      obtain ⟨parts, others, hperm, hparts, hothers⟩ := ih hmore has
      refine ⟨(.name name, n) :: parts, others, List.perm_middle.trans (hperm.cons _),
        Or.inl ⟨n, parts, rfl, hn, hparts⟩, hothers.cons fun m hm => ?_⟩
      exact hne m (hperm.mem_iff.2 (List.mem_append_right parts hm))

end Fields

namespace Format

variable {τ σ : Type} {fields : Fields τ}

/-- An array that a record is read from is complete. -/
theorem checkEnd_eq_ok_iff {o : Origin} {taken : Nat} {left : List Node} {closed : Bool} :
    checkEnd o taken left closed = .ok () ↔ left = [] ∧ closed := by
  unfold checkEnd
  cases left <;> cases closed <;> cases o <;> simp

theorem steady_record (title : String) (make : τ → σ) (split : σ → τ) (hnames : fields.names.Nodup)
    (hfields : fields.Steady) : (record title fields make split).Steady where
  sorted {o n _ s} hreadable h := by
    cases n with
    | array items closed =>
      obtain ⟨-, d, rfl, hitems⟩ := readable_array.1 hreadable
      obtain ⟨⟨t, left⟩, hread, h⟩ := exists_of_bind_eq_ok h
      obtain ⟨⟨⟩, hend, heq⟩ := exists_of_bind_eq_ok h
      obtain ⟨rfl, -⟩ := checkEnd_eq_ok_iff.1 hend
      obtain rfl := Except.ok.inj heq
      rw [sorted_array]
      simp only [record]
      rw [hfields.readItems hitems hread]
      rfl
    | object members closed =>
      obtain ⟨rfl, d, rfl, hmembers⟩ := readable_object.1 hreadable
      obtain ⟨draft, hread, h⟩ := exists_of_bind_eq_ok h
      obtain ⟨t, hfinish, heq⟩ := exists_of_bind_eq_ok h
      obtain rfl := Except.ok.inj heq
      obtain ⟨parts, others, hperm, hparts, hothers⟩ := Fields.exists_parts hread hfinish
      have hnodup : (parts.map Prod.fst).Nodup :=
        hparts.keys_sublist.nodup (hnames.map fun _ _ => Key.name.inj)
      have hnamed : ∀ m ∈ parts, ∃ s, m.1 = .name s := fun m hm =>
        (hparts.named m hm).imp fun _ hs => hs.2
      have hdisjoint : ∀ m ∈ others, m.1 ∉ parts.map Prod.fst := fun m hm hmem => by
        obtain ⟨s, hs, hnot⟩ := hothers m hm
        obtain ⟨s', hs', heq⟩ := List.mem_map.1 (hparts.keys_sublist.subset hmem)
        exact hnot (Key.name.inj (heq.trans hs) ▸ hs')
      obtain ⟨others', hsorted, hothers'⟩ :=
        exists_sortedMembers_perm hperm hnodup hnamed hdisjoint
      have hparts' := hfields.reads (fun m hm =>
        (hmembers m (hperm.mem_iff.2 (List.mem_append_left others hm))).2) hparts
      have hforeign : fields.Foreign others' := fun m hm => by
        obtain ⟨-, m', hm', hkey⟩ := hothers' m hm
        exact hkey ▸ hothers m' hm'
      rw [sorted_object]
      exact read_record title make split hnames hparts' hforeign (fun m hm => (hothers' m hm).1)
        hsorted
    | _ => cases h

end Format

/-! ### Tagged data -/

namespace Tagged

variable {κ : Type} {t : Tagged κ ε} {o : Origin} {e : ε}

/-- One of the two members that count is found where it stands. -/
theorem mem_of_next {closed : Bool} {members rest : List (Key × Node)} {p : Part} {n : Node}
    (h : next closed members = .ok (some (p, n, rest))) :
    (.name p.name, n) ∈ members ∧ rest ⊆ members := by
  induction members with
  | nil => cases closed <;> cases h
  | cons m members ih =>
    obtain ⟨k, n'⟩ := m
    cases k with
    | unreadable => cases h
    | name s =>
      simp only [next] at h
      split at h
      · rename_i p' hp
        cases h
        have hname : p.name = s := by
          unfold Part.ofName? at hp
          grind [Part.name]
        exact ⟨hname ▸ List.mem_cons_self, List.subset_cons_self _ _⟩
      · split at h
        · obtain ⟨hmem, hrest⟩ := ih h
          exact ⟨List.mem_cons_of_mem _ hmem, fun x hx => List.mem_cons_of_mem _ (hrest hx)⟩
        · cases h

/-- Tagged data in an object is read from its type and its payload. -/
theorem exists_of_read_object {members : List (Key × Node)} {closed : Bool}
    (h : t.read o (.object members closed) = .ok e) :
    ∃ k n o' p, (.name "type", n) ∈ members ∧ (.name "payload", p) ∈ members ∧
      t.kindFormat.read o n = .ok k ∧ t.payload k o' p = .ok e := by
  obtain ⟨first, hfirst, h⟩ := exists_of_bind_eq_ok h
  rcases first with _ | ⟨_ | _, n, rest⟩
  · cases h
  · obtain ⟨k, hk, h⟩ := exists_of_bind_eq_ok h
    obtain ⟨second, hsecond, h⟩ := exists_of_bind_eq_ok h
    rcases second with _ | ⟨_ | _, p, rest'⟩
    · cases h
    · cases h
    · obtain ⟨e', he, h⟩ := exists_of_bind_eq_ok h
      obtain ⟨-, -, heq⟩ := exists_of_bind_eq_ok h
      obtain rfl := Except.ok.inj heq
      obtain ⟨hn, hrest⟩ := mem_of_next hfirst
      exact ⟨k, n, o, p, hn, hrest (mem_of_next hsecond).1, hk, he⟩
  · obtain ⟨-, -, h⟩ := exists_of_bind_eq_ok h
    obtain ⟨second, hsecond, h⟩ := exists_of_bind_eq_ok h
    rcases second with _ | ⟨_ | _, n', rest'⟩
    · cases h
    · obtain ⟨k, hk, h⟩ := exists_of_bind_eq_ok h
      obtain ⟨e', he, h⟩ := exists_of_bind_eq_ok h
      obtain ⟨-, -, heq⟩ := exists_of_bind_eq_ok h
      obtain rfl := Except.ok.inj heq
      obtain ⟨hn, hrest⟩ := mem_of_next hfirst
      exact ⟨k, n', .held, n, hrest (mem_of_next hsecond).1, hn, hk, he⟩
    · cases h

/-- Tagged data in an array is read from its two items. -/
theorem exists_of_read_array {items : List Node} {closed : Bool}
    (h : t.read o (.array items closed) = .ok e) :
    ∃ k n p, items = [n, p] ∧ t.bareKindFormat.read o n = .ok k ∧ t.payload k o p = .ok e := by
  match items with
  | [] => cases closed <;> cases h
  | [n] =>
    obtain ⟨k, -, h⟩ := exists_of_bind_eq_ok h
    cases closed <;> cases h
  | n :: p :: rest =>
    obtain ⟨k, hk, h⟩ := exists_of_bind_eq_ok h
    obtain ⟨e', he, h⟩ := exists_of_bind_eq_ok h
    obtain ⟨⟨⟩, hend, heq⟩ := exists_of_bind_eq_ok h
    obtain rfl := Except.ok.inj heq
    obtain ⟨rfl, -⟩ := Format.checkEnd_eq_ok_iff.1 hend
    exact ⟨k, n, p, rfl, hk, he⟩

end Tagged

end VideoCall.Json
