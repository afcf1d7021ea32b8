import Mathlib.Data.List.Perm.Basic
import VideoCall.Json.Tagged
import VideoCall.Proofs.Json.Values

/-!
# Data comes back from its document

Data is carried by a format if it is read back from the document that the format writes, also when
that document went through a text or through a free-form value on its way. The formats of texts,
flags, lists and choices carry everything, a free-form value must be plain, and a record carries
what its fields carry. The members of a record may come in any order, and others among them.

## Main definitions

* `Json.Format.Carries` : a format does not lose the given data.
* `Json.Fields.Reads` : members that are the fields of a record, in their order.
* `Json.Fields.Carries` : every field carries its part of a record.
* `Json.Tagged.Carries` : tagged data is not lost.

## Main results

* `Json.Format.carries_list`, `Json.Format.carries_pairs` : lists and tables carry what their parts
  carry.
* `Json.Fields.readMembers_of_perm` : the order of members, and members that are no fields, do not
  count.
* `Json.Format.carries_record` : a record carries what its fields carry.
* `Json.Tagged.Carries.of_format` : tagged data is carried if its payload is.
-/

namespace VideoCall.Json

open Node

variable {α β : Type}

/-! ### Parts -/

namespace Format

/-- The document of some data has at most `depth` brackets open at once, is read back from its text
as it is, and gives the data again when it was held back, with its members in any of the two orders
they may come in. -/
structure Carries (f : Format α) (depth : Nat) (a : α) : Prop where
  readable : (f.write a).readable depth
  reread : (f.write a).reread = f.write a
  read : ∀ {n}, Arranged (f.write a) n → f.read .held n = .ok a

theorem carries_text (depth : Nat) (s : String) : text.Carries depth s where
  readable := rfl
  reread := rfl
  read h := by
    rw [h.string]
    rfl

theorem carries_flag (depth : Nat) (b : Bool) : flag.Carries depth b where
  readable := rfl
  reread := rfl
  read h := by
    rw [h.bool]
    rfl

/-- A choice carries whatever its name picks. -/
theorem carries_choice {options : List (String × α)} {name : α → String} {a : α}
    (h : options.lookup (name a) = some a) (depth : Nat) :
    (choice options name).Carries depth a where
  readable := rfl
  reread := rfl
  read hn := by
    rw [hn.string]
    simp [choice, pick, h]

/-- A plain value is carried as it is. -/
theorem carries_free {v : Value} (h : v.Plain) {depth : Nat} (hdepth : (ofValue v).readable depth)
    (outside : Nat) : (free outside).Carries depth v where
  readable := hdepth
  reread := reread_ofValue h
  read hn := congrArg Except.ok (hn.ofValue h.canonical)

/-- The same data under another type is carried. -/
theorem Carries.map {f : Format α} {into : α → β} {back : β → α} {depth : Nat} {b : β}
    (h : f.Carries depth (back b)) (hb : into (back b) = b) :
    (f.map into back).Carries depth b where
  readable := h.readable
  reread := h.reread
  read hn := by
    change (f.read .held _).map into = _
    rw [h.read hn]
    exact congrArg Except.ok hb

/-- What stands in brackets counts if they are closed. -/
theorem closing_eq_ok_iff {x : Except Fault α} {closed : Bool} {a : α} :
    (do
      let a ← x
      if closed then .ok a else .error .garbled) = .ok a ↔ closed ∧ x = .ok a := by
  cases x <;> cases closed <;> simp [bind, Except.bind]

theorem mapM_eq_ok_iff {ε : Type} {g : α → Except ε β} {as : List α} {bs : List β} :
    as.mapM g = .ok bs ↔ List.Forall₂ (fun a b => g a = .ok b) as bs := by
  induction as generalizing bs with
  | nil =>
    rw [List.forall₂_nil_left_iff]
    exact ⟨fun h => (Except.ok.inj h).symm, fun h => h ▸ rfl⟩
  | cons a as ih =>
    rw [List.mapM_cons, List.forall₂_cons_left_iff]
    constructor
    · intro h
      cases ha : g a with
      | error e => simp [ha, bind, Except.bind] at h
      | ok b =>
        cases has : as.mapM g with
        | error e => simp [ha, has, bind, Except.bind] at h
        | ok bs' =>
          rw [ha, has] at h
          exact ⟨b, bs', rfl, ih.1 has, (Except.ok.inj h).symm⟩
    · rintro ⟨b, bs', hab, hbs, rfl⟩
      rw [hab, ih.2 hbs]
      rfl

/-- A list carries what its items carry. -/
theorem carries_list {f : Format α} {depth : Nat} {as : List α}
    (h : ∀ a ∈ as, f.Carries depth a) : (list f).Carries (depth + 1) as where
  readable := by
    refine readable_array.2 ⟨rfl, depth, rfl, List.forall_mem_map.2 fun a ha => ?_⟩
    exact (h a ha).readable
  reread := by
    change (Node.array (as.map f.write) true).reread = _
    rw [reread_array, List.map_map]
    exact congrArg (Node.array · true) (List.map_congr_left fun a ha => (h a ha).reread)
  read hn := by
    obtain ⟨items, rfl, hitems⟩ := hn.array
    have hread : items.mapM (f.read .held) = .ok as := by
      have hcarried := (List.forall₂_and_left _ _).2 ⟨h, List.forall₂_map_left_iff.1 hitems⟩
      exact mapM_eq_ok_iff.2 (hcarried.imp fun a n hn => hn.1.read hn.2).flip
    exact closing_eq_ok_iff.2 ⟨rfl, hread⟩

theorem distinct_pairs {f : Format α} {as : List (String × α)} (h : (as.map Prod.fst).Nodup) :
    Distinct (as.map fun a => (Key.name a.1, f.write a.2)) where
  named := List.forall_mem_map.2 fun a _ => ⟨a.1, rfl⟩
  nodup := by
    have hkeys : (as.map fun a => (Key.name a.1, f.write a.2)).map Prod.fst =
        (as.map Prod.fst).map Key.name := by
      rw [List.map_map, List.map_map]
      rfl
    rw [hkeys]
    exact h.map fun _ _ => Key.name.inj

/-- The names and values of an object are read one by one. -/
theorem read_pairs_object_iff {f : Format α} {o : Origin} {members : List (Key × Node)}
    {closed : Bool} {as : List (String × α)} :
    (pairs f).read o (.object members closed) = .ok as ↔
      closed ∧ List.Forall₂ (fun m a => m.1 = .name a.1 ∧ f.read o m.2 = .ok a.2) members as := by
  refine closing_eq_ok_iff.trans (and_congr_right fun _ => mapM_eq_ok_iff.trans
    ⟨fun h => h.imp ?_, fun h => h.imp ?_⟩)
  · rintro ⟨k, n⟩ ⟨s, a⟩ h
    cases k with
    | unreadable => cases h
    | name s' =>
      cases hn : f.read o n with
      | error e => simp [hn, bind, Except.bind] at h
      | ok a' =>
        obtain ⟨rfl, rfl⟩ : s' = s ∧ a' = a := by
          simpa [hn, bind, Except.bind, pure, Except.pure] using h
        exact ⟨rfl, rfl⟩
  · rintro ⟨k, n⟩ ⟨s, a⟩ ⟨rfl, hn⟩
    simp only [show f.read o n = .ok a from hn]
    rfl

/-- The names and values of an arranged object are read, in some order. -/
theorem read_pairs {f : Format α} {depth : Nat} {as : List (String × α)}
    (hnames : (as.map Prod.fst).Nodup) (h : ∀ a ∈ as, f.Carries depth a.2) {n : Node}
    (hn : Arranged ((pairs f).write as) n) :
    ∃ as', as'.Perm as ∧ (pairs f).read .held n = .ok as' := by
  obtain ⟨members, parts, rfl, hperm, hparts⟩ := hn.object (distinct_pairs hnames)
  have hread : List.Forall₂ (fun m a => m.1 = .name a.1 ∧ f.read .held m.2 = .ok a.2) parts as := by
    have hcarried := (List.forall₂_and_left _ _).2 ⟨h, List.forall₂_map_left_iff.1 hparts⟩
    exact (hcarried.imp fun a m hm => ⟨hm.2.1, hm.1.read hm.2.2⟩).flip
  obtain ⟨as', hmembers, has'⟩ := List.perm_comp_forall₂ hperm hread
  exact ⟨as', has', read_pairs_object_iff.2 ⟨rfl, hmembers⟩⟩

/-- Names with values are carried under a type that does not keep their order. -/
theorem carries_pairs {f : Format α} {into : List (String × α) → β}
    {back : β → List (String × α)} {depth : Nat} {b : β}
    (hnames : ((back b).map Prod.fst).Nodup) (h : ∀ a ∈ back b, f.Carries depth a.2)
    (hinto : ∀ {as}, as.Perm (back b) → into as = b) :
    ((pairs f).map into back).Carries (depth + 1) b where
  readable := readable_object.2 ⟨rfl, depth, rfl,
    List.forall_mem_map.2 fun a ha => ⟨⟨a.1, rfl⟩, (h a ha).readable⟩⟩
  reread := by
    change (Node.object ((back b).map fun a => (Key.name a.1, f.write a.2)) true).reread = _
    rw [reread_object, List.map_map]
    refine congrArg (Node.object · true) (List.map_congr_left fun a ha => ?_)
    exact congrArg (Prod.mk (Key.name a.1)) (h a ha).reread
  read hn := by
    obtain ⟨as, has, hread⟩ := read_pairs hnames h hn
    change ((pairs f).read .held _).map into = _
    rw [hread]
    exact congrArg Except.ok (hinto has)

end Format

/-! ### Records -/

namespace Fields

/-- The names of the fields, in their order. -/
def names : {τ : Type} → Fields τ → List String
  | _, nil => []
  | _, cons name _ _ _ rest => name :: rest.names

/-- Members that are the fields of a record, in their order. A field may be missing if its value is
the one that stands in for it. -/
def Reads (o : Origin) : {τ : Type} → Fields τ → τ → List (Key × Node) → Prop
  | _, nil, _, parts => parts = []
  | _, cons name format fallback _ rest, (a, as), parts =>
    (∃ n more, parts = (.name name, n) :: more ∧ format.read o n = .ok a ∧ rest.Reads o as more) ∨
      (fallback = some a ∧ rest.Reads o as parts)

/-- Every field carries its part of a record, or is left out when something stands in for it. -/
def Carries (depth : Nat) : {τ : Type} → Fields τ → τ → Prop
  | _, nil, _ => True
  | _, cons _ format fallback written rest, (a, as) =>
    (if written a then format.Carries depth a else fallback = some a) ∧ rest.Carries depth as

variable {τ σ : Type} {o : Origin}

theorem carries_nil (depth : Nat) : nil.Carries depth () := trivial

theorem carries_field {format : Format α} {rest : Fields τ} {depth : Nat} {a : α} {t : τ}
    (name : String) (ha : format.Carries depth a) (ht : rest.Carries depth t) :
    (field name format rest).Carries depth (a, t) := ⟨ha, ht⟩

theorem carries_fieldOr {format : Format α} {rest : Fields τ} {depth : Nat} {a : α} {t : τ}
    (name : String) (fallback : α) (ha : format.Carries depth a) (ht : rest.Carries depth t) :
    (fieldOr name format fallback rest).Carries depth (a, t) := ⟨ha, ht⟩

theorem Reads.named {fs : Fields τ} {t : τ} {parts : List (Key × Node)} (h : fs.Reads o t parts) :
    ∀ m ∈ parts, ∃ s ∈ fs.names, m.1 = .name s := by
  induction fs generalizing parts with
  | nil =>
    obtain rfl : parts = [] := h
    exact nofun
  | cons name format fallback written rest ih =>
    obtain ⟨a, as⟩ := t
    rcases h with ⟨n, more, rfl, -, hmore⟩ | ⟨-, hrest⟩
    · refine List.forall_mem_cons.2 ⟨⟨name, List.mem_cons_self, rfl⟩, fun m hm => ?_⟩
      obtain ⟨s, hs, hm⟩ := ih hmore m hm
      exact ⟨s, List.mem_cons_of_mem _ hs, hm⟩
    · intro m hm
      obtain ⟨s, hs, hm⟩ := ih hrest m hm
      exact ⟨s, List.mem_cons_of_mem _ hs, hm⟩

theorem readMembers_append (fs : Fields τ) (xs ys : List (Key × Node)) (draft : fs.Draft) :
    fs.readMembers o (xs ++ ys) draft =
      (fs.readMembers o xs draft).bind (fs.readMembers o ys) := by
  induction xs generalizing draft with
  | nil => rfl
  | cons m xs ih =>
    obtain ⟨k, n⟩ := m
    cases k with
    | unreadable => rfl
    | name s =>
      simp only [List.cons_append, readMembers]
      split
      · exact ih _
      · rfl
      · split
        · exact ih _
        · rfl

/-- Members that are no fields. -/
def Foreign (fs : Fields τ) (members : List (Key × Node)) : Prop :=
  ∀ m ∈ members, ∃ s, m.1 = .name s ∧ s ∉ fs.names

/-- A field takes nothing from members of other names. -/
theorem readMembers_cons {name : String} {format : Format α} {fallback : Option α}
    {written : α → Bool} {rest : Fields τ} {members : List (Key × Node)}
    (h : ∀ m ∈ members, m.1 ≠ .name name) (value : Option α) (more : rest.Draft) :
    (cons name format fallback written rest).readMembers o members (value, more) =
      (rest.readMembers o members more).map fun more => (value, more) := by
  induction members generalizing more with
  | nil => rfl
  | cons m members ih =>
    obtain ⟨hm, hmembers⟩ := List.forall_mem_cons.1 h
    obtain ⟨k, n⟩ := m
    cases k with
    | unreadable => rfl
    | name s =>
      have hs : s ≠ name := fun he => hm (congrArg Key.name he)
      have hset : (cons name format fallback written rest).set o s n (value, more) =
          (rest.set o s n more).map fun r => r.map fun more => (value, more) := if_neg hs
      simp only [readMembers, hset]
      rcases rest.set o s n more with _ | (e | more)
      · by_cases hwhole : n.whole
        · simp only [Option.map_none, if_pos hwhole]
          exact ih hmembers more
        · simp only [Option.map_none, if_neg hwhole]
          rfl
      · rfl
      · exact ih hmembers more

/-- A field is read where it stands among members of other names. -/
theorem readMembers_insert {name : String} {format : Format α} {fallback : Option α}
    {written : α → Bool} {rest : Fields τ} {before behind : List (Key × Node)} {n : Node} {a : α}
    {draft : rest.Draft} (hne : ∀ m ∈ before ++ behind, m.1 ≠ .name name)
    (hn : format.read o n = .ok a)
    (hread : rest.readMembers o (before ++ behind) rest.blank = .ok draft) :
    (cons name format fallback written rest).readMembers o (before ++ (.name name, n) :: behind)
      (cons name format fallback written rest).blank = .ok (some a, draft) := by
  obtain ⟨hbefore, hbehind⟩ := List.forall_mem_append.1 hne
  rw [readMembers_append] at hread ⊢
  rw [blank, readMembers_cons hbefore]
  cases hfirst : rest.readMembers o before rest.blank with
  | error e =>
    rw [hfirst] at hread
    cases hread
  | ok draft' =>
    rw [hfirst] at hread
    have hlast : rest.readMembers o behind draft' = .ok draft := hread
    have hset : (cons name format fallback written rest).set o name n (none, draft') =
        some (.ok (some a, draft')) := by
      simp [set, hn, Except.map]
    change (cons name format fallback written rest).readMembers o
      ((.name name, n) :: behind) (none, draft') = _
    simp only [readMembers, hset]
    rw [readMembers_cons hbehind, hlast]
    rfl

theorem readMembers_nil {members : List (Key × Node)} (hnamed : nil.Foreign members)
    (hwhole : ∀ m ∈ members, m.2.whole) : nil.readMembers o members () = .ok () := by
  induction members with
  | nil => rfl
  | cons m members ih =>
    obtain ⟨⟨s, hs, -⟩, hnamed'⟩ := List.forall_mem_cons.1 hnamed
    obtain ⟨hm, hwhole'⟩ := List.forall_mem_cons.1 hwhole
    obtain ⟨k, n⟩ := m
    obtain rfl : k = .name s := hs
    exact (if_pos hm).trans (ih hnamed' hwhole')

/-- A field is found among no members but its own. -/
theorem Reads.ne_name {name : String} {fs : Fields τ} {t : τ} {parts others : List (Key × Node)}
    (h : fs.Reads o t parts) (hname : name ∉ fs.names)
    (hothers : ∀ m ∈ others, m.1 ≠ .name name) : ∀ m ∈ parts ++ others, m.1 ≠ .name name := by
  refine List.forall_mem_append.2 ⟨fun m hm heq => ?_, hothers⟩
  obtain ⟨s, hs, hm⟩ := h.named m hm
  obtain rfl : s = name := Key.name.inj (hm.symm.trans heq)
  exact hname hs

/-- The members of a record are read in any order. Members that are no fields are passed over, as
long as they are whole. -/
theorem readMembers_of_perm {fs : Fields τ} {t : τ} {members parts others : List (Key × Node)}
    (hnames : fs.names.Nodup) (hparts : fs.Reads o t parts)
    (hforeign : fs.Foreign others) (hwhole : ∀ m ∈ others, m.2.whole)
    (hperm : members.Perm (parts ++ others)) :
    ∃ draft, fs.readMembers o members fs.blank = .ok draft ∧ fs.finish draft = .ok t := by
  induction fs generalizing members parts with
  | nil =>
    obtain rfl : parts = [] := hparts
    rw [List.nil_append] at hperm
    exact ⟨(), readMembers_nil (fun m hm => hforeign m (hperm.mem_iff.1 hm))
      (fun m hm => hwhole m (hperm.mem_iff.1 hm)), rfl⟩
  | cons name format fallback written rest ih =>
    obtain ⟨a, as⟩ := t
    obtain ⟨hname, hrest⟩ := List.nodup_cons.1 hnames
    have hforeign' : rest.Foreign others := fun m hm => by
      obtain ⟨s, hs, hmem⟩ := hforeign m hm
      exact ⟨s, hs, fun h => hmem (List.mem_cons_of_mem _ h)⟩
    have hothers : ∀ m ∈ others, m.1 ≠ .name name := fun m hm heq => by
      obtain ⟨s, hm, hs⟩ := hforeign m hm
      obtain rfl : s = name := Key.name.inj (hm.symm.trans heq)
      exact hs List.mem_cons_self
    rcases hparts with ⟨n, more, rfl, hn, hmore⟩ | ⟨hfallback, hmore⟩
    · obtain ⟨before, behind, rfl⟩ := List.append_of_mem (hperm.mem_iff.2 List.mem_cons_self)
      have hperm' := (List.perm_middle.symm.trans hperm).cons_inv
      obtain ⟨draft, hread, hfinish⟩ := ih hrest hmore hforeign' hperm'
      have hne : ∀ m ∈ before ++ behind, m.1 ≠ .name name := fun m hm =>
        hmore.ne_name hname hothers m (hperm'.mem_iff.1 hm)
      exact ⟨(some a, draft), readMembers_insert hne hn hread, by
        simp [finish, hfinish, Except.map]⟩
    · obtain ⟨draft, hread, hfinish⟩ := ih hrest hmore hforeign' hperm
      have hne : ∀ m ∈ members, m.1 ≠ .name name := fun m hm =>
        hmore.ne_name hname hothers m (hperm.mem_iff.1 hm)
      refine ⟨(none, draft), ?_, by simp [finish, hfallback, hfinish, Except.map]⟩
      rw [blank, readMembers_cons hne, hread]
      rfl

/-! ### Writing records -/

/-- The members that are written are named after fields, in their order. -/
theorem keys_write_sublist (fs : Fields τ) (t : τ) :
    ((fs.write t).map Prod.fst).Sublist (fs.names.map Key.name) := by
  induction fs with
  | nil => exact List.Sublist.slnil
  | cons name format fallback written rest ih =>
    obtain ⟨a, as⟩ := t
    rw [write, names, List.map_cons]
    split
    · exact (ih as).cons_cons _
    · exact (ih as).cons _

theorem distinct_write {fs : Fields τ} (hnames : fs.names.Nodup) (t : τ) :
    Distinct (fs.write t) where
  named m hm := by
    have hkey : m.1 ∈ fs.names.map Key.name :=
      (fs.keys_write_sublist t).subset (List.mem_map_of_mem hm)
    obtain ⟨s, -, hs⟩ := List.mem_map.1 hkey
    exact ⟨s, hs.symm⟩
  nodup := (fs.keys_write_sublist t).nodup (hnames.map fun _ _ => Key.name.inj)

/-- Every member that is written is readable and is read back from its text as it is. -/
theorem Carries.write {fs : Fields τ} {depth : Nat} {t : τ} (h : fs.Carries depth t) :
    ∀ m ∈ fs.write t, m.2.readable depth ∧ m.2.reread = m.2 := by
  induction fs with
  | nil => exact nofun
  | cons name format fallback written rest ih =>
    obtain ⟨a, as⟩ := t
    obtain ⟨ha, has⟩ := h
    rw [Fields.write]
    by_cases hw : written a
    · rw [if_pos hw] at ha ⊢
      exact List.forall_mem_cons.2 ⟨⟨ha.readable, ha.reread⟩, ih has⟩
    · rw [if_neg hw]
      exact ih has

/-- The members that are written are the fields, also when they are arranged. -/
theorem Carries.reads {fs : Fields τ} {depth : Nat} {t : τ} (h : fs.Carries depth t)
    {parts : List (Key × Node)}
    (hparts : List.Forall₂ (fun a b => b.1 = a.1 ∧ Arranged a.2 b.2) (fs.write t) parts) :
    fs.Reads .held t parts := by
  induction fs generalizing parts with
  | nil => exact List.forall₂_nil_left_iff.1 hparts
  | cons name format fallback written rest ih =>
    obtain ⟨a, as⟩ := t
    obtain ⟨ha, has⟩ := h
    rw [Fields.write] at hparts
    by_cases hw : written a
    · rw [if_pos hw] at ha hparts
      obtain ⟨⟨k, n⟩, more, ⟨rfl, hn⟩, hmore, rfl⟩ := List.forall₂_cons_left_iff.1 hparts
      exact Or.inl ⟨n, more, rfl, ha.read hn, ih has hmore⟩
    · rw [if_neg hw] at ha hparts
      exact Or.inr ⟨ha, ih has hparts⟩

end Fields

namespace Format

variable {τ σ : Type} {fields : Fields τ} {make : τ → σ} {split : σ → τ}

/-- A record is read from its fields in any order, with other members among them. -/
theorem read_record {o : Origin} {t : τ} {members parts others : List (Key × Node)}
    (title : String) (make : τ → σ) (split : σ → τ) (hnames : fields.names.Nodup)
    (hparts : fields.Reads o t parts) (hforeign : fields.Foreign others)
    (hwhole : ∀ m ∈ others, m.2.whole) (hperm : members.Perm (parts ++ others)) :
    (record title fields make split).read o (.object members true) = .ok (make t) := by
  obtain ⟨draft, hread, hfinish⟩ :=
    Fields.readMembers_of_perm hnames hparts hforeign hwhole hperm
  have hdraft : (record title fields make split).read o (.object members true) =
      (fields.finish draft).map make := by
    simp only [record, hread]
    rfl
  rw [hdraft, hfinish]
  rfl

/-- A record carries what its fields carry. -/
theorem carries_record {depth : Nat} {s : σ} (title : String) (hnames : fields.names.Nodup)
    (h : fields.Carries depth (split s)) (hmake : make (split s) = s) :
    (record title fields make split).Carries (depth + 1) s where
  readable := by
    have hdistinct := Fields.distinct_write hnames (split s)
    exact readable_object.2 ⟨rfl, depth, rfl, fun m hm =>
      ⟨hdistinct.named m hm, (h.write m hm).1⟩⟩
  reread := by
    change (Node.object (fields.write (split s)) true).reread = _
    rw [reread_object]
    have hsame : ∀ m ∈ fields.write (split s), (m.1, m.2.reread) = id m := fun m hm =>
      congrArg (Prod.mk m.1) (h.write m hm).2
    exact congrArg (Node.object · true) ((List.map_congr_left hsame).trans (List.map_id _))
  read hn := by
    obtain ⟨members, parts, rfl, hperm, hparts⟩ := hn.object (Fields.distinct_write hnames _)
    have hperm' : members.Perm (parts ++ []) := by rwa [List.append_nil]
    have hforeign : fields.Foreign [] := fun _ hm => absurd hm List.not_mem_nil
    have hwhole : ∀ m ∈ ([] : List (Key × Node)), m.2.whole := fun _ hm =>
      absurd hm List.not_mem_nil
    rw [read_record title make split hnames (h.reads hparts) hforeign hwhole hperm', hmake]

end Format

/-! ### Tagged data -/

namespace Tagged

variable {κ ε : Type} {t : Tagged κ ε} {k : κ} {p : Node} {e : ε}

theorem read_kindFormat (hk : t.kinds.lookup (t.nameOf k) = some k) (o : Origin) :
    t.kindFormat.read o (.string (some (t.nameOf k))) = .ok k := by
  simp [kindFormat, Format.choice, Format.pick, hk]

/-- Tagged data is read from its members as they are written. -/
theorem read_members (hk : t.kinds.lookup (t.nameOf k) = some k) {o : Origin}
    (hp : t.payload k o p = .ok e) :
    t.read o (.object [(.name "type", .string (some (t.nameOf k))), (.name "payload", p)] true) =
      .ok e := by
  have htype : Part.ofName? "type" = some .type := rfl
  have hpayload : Part.ofName? "payload" = some .payload := rfl
  have hkind := read_kindFormat hk o
  simp only [read, readMembers, next, htype, hpayload, hkind, hp, checkRest, bind, Except.bind]
  rfl

/-- A payload that comes before the type is held back. -/
theorem read_members_reverse (hk : t.kinds.lookup (t.nameOf k) = some k)
    (hp : t.payload k .held p = .ok e) :
    t.read .value
      (.object [(.name "payload", p), (.name "type", .string (some (t.nameOf k)))] true) =
      .ok e := by
  have htype : Part.ofName? "type" = some .type := rfl
  have hpayload : Part.ofName? "payload" = some .payload := rfl
  have hkind := read_kindFormat hk .value
  simp only [read, readMembers, next, htype, hpayload, hold, hkind, hp, checkRest, bind,
    Except.bind]
  rfl

/-- Tagged data is carried if its kind has a name and its payload is carried. -/
structure Carries (t : Tagged κ ε) (depth : Nat) (e : ε) : Prop where
  kind : t.kinds.lookup (t.nameOf (t.write e).1) = some (t.write e).1
  readable : (t.write e).2.readable depth
  reread : (t.write e).2.reread = (t.write e).2
  read : ∀ {n}, Arranged (t.write e).2 n → t.payload (t.write e).1 .held n = .ok e

/-- A payload is carried by its format. -/
theorem Carries.of_format {α : Type} {f : Format α} {a : α} {depth : Nat} (make : α → ε)
    (hkind : t.kinds.lookup (t.nameOf k) = some k) (hwrite : t.write (make a) = (k, f.write a))
    (hread : ∀ n, t.payload k .held n = (f.read .held n).map make) (h : f.Carries depth a) :
    t.Carries depth (make a) := by
  refine ⟨?_, ?_, ?_, fun hn => ?_⟩
  · rwa [hwrite]
  · rw [hwrite]
    exact h.readable
  · rw [hwrite]
    exact h.reread
  · rw [hwrite] at hn ⊢
    rw [hread, h.read hn]
    rfl

end Tagged

end VideoCall.Json
