import Mathlib.Data.List.Chain
import Mathlib.Data.List.Perm.Subperm
import Mathlib.Logic.Relation
import PostRun.Proofs.Bib.Lookup

/-!
# Fields that entries take over

An entry is completed by the entries that it refers to, which are completed first.  For the text of
one field this says: the entry has its own text, or if it has none and takes the field over, that
of the first entry it refers to that has one in the same way (`Bibliography.textFor?`).  No other
field and no other entry is looked at.

## Chains of references

Completion counts down the length of the chain of references, from the number of entries.  Chains
that do not go in a circle end before that.  So for an entry without circles the number makes no
difference (`Bibliography.textFor?_of_size_le`), and the entries that are not referred to make none
either, even by being there (`Bibliography.IsMatching.textFor?_eq`).

The date is left out.  It is the one field that an entry is given without taking it over.
-/

namespace PostRun
namespace Bib

/-! ## Lists side by side and chains -/

theorem rel_getElem? {α β : Type} {R : α → β → Prop} {xs : List α} {ys : List β}
    (h : List.Forall₂ R xs ys) (i : Nat) : Option.Rel R xs[i]? ys[i]? := by
  induction h generalizing i with
  | nil => exact .none
  | cons hxy _ ih => cases i with
    | zero => exact .some hxy
    | succ i => exact ih i

theorem rel_find? {α β : Type} {R : α → β → Prop} {p : α → Bool} {q : β → Bool} {xs : List α}
    {ys : List β} (h : List.Forall₂ R xs ys) (hpq : ∀ x y, R x y → p x = q y) :
    Option.Rel R (xs.find? p) (ys.find? q) := by
  induction h with
  | nil => exact .none
  | @cons x y xs ys hxy _ ih =>
    rw [List.find?_cons, List.find?_cons, hpq x y hxy]
    cases q y
    · exact ih
    · exact .some hxy

theorem findSome?_eq_of_forall₂ {α β γ : Type} {r : α → β → Prop} {f : α → Option γ}
    {g : β → Option γ} {xs : List α} {ys : List β} (h : List.Forall₂ r xs ys)
    (hfg : ∀ x y, r x y → f x = g y) : xs.findSome? f = ys.findSome? g := by
  induction h with
  | nil => rfl
  | cons hxy _ ih => rw [List.findSome?_cons, List.findSome?_cons, hfg _ _ hxy, ih]

/-- What has no endless descent below it is not below itself. -/
theorem not_rel_self {α : Type} {r : α → α → Prop} {a : α} (h : Acc r a) : ¬ r a a := by
  intro hself
  induction h with
  | intro a _ ih => exact ih a hself hself

theorem pairwise_transGen {α : Type} {r : α → α → Prop} {xs : List α} (h : xs.IsChain r) :
    xs.Pairwise (Relation.TransGen r) := by
  have htrans : xs.IsChain (Relation.TransGen r) := h.imp fun _ _ => .single
  exact htrans.pairwise

/-! ## One entry and one parent -/

namespace Entry

/-- What is bound after new names are bound in order. -/
theorem find?_foldl_alter (fields : List (String × Content)) (m : NameMap Content) (name : String) :
    (fields.foldl (fun m f => m.alter f.1 fun old => old.getD f.2) m).find? name =
      (m.find? name).or ((fields.find? fun f => f.1 == name).map (·.2)) := by
  induction fields generalizing m with
  | nil => simp
  | cons first fields ih =>
    rw [List.foldl_cons, ih, NameMap.find?_alter]
    by_cases hname : name = first.1
    · subst hname
      cases m.find? first.1 <;> simp
    · have hne : ¬ first.1 = name := Ne.symm hname
      simp [hname, hne]

/-- **An entry keeps its own texts and takes over some of those that it lacks.** -/
theorem text?_inherit (e parent : Entry) (name : String) :
    (e.inherit parent).text? name =
      (e.text? name).or (if e.takesOver name then parent.text? name else none) := by
  have hfilter : ((parent.fields.entries.filter fun f => e.takesOver f.1).find? fun f =>
      f.1 == name) = if e.takesOver name then parent.fields.entries.find? fun f => f.1 == name
        else none := by
    rw [List.find?_filter]
    split_ifs with htakes
    · congr 1
      funext f
      by_cases hname : f.1 = name
      · subst hname
        simp [htakes]
      · simp [hname]
    · rw [List.find?_eq_none]
      rintro f - hf
      simp only [decide_eq_true_iff, beq_iff_eq] at hf
      exact htakes (hf.2 ▸ hf.1)
  have hfields : (e.inherit parent).fields = (parent.fields.entries.filter fun f =>
      e.takesOver f.1).foldl (fun m f => m.alter f.1 fun old => old.getD f.2) e.fields := rfl
  rw [text?, field?, hfields, find?_foldl_alter, hfilter, text?, text?, field?, field?]
  cases e.fields.find? name with
  | some content => rfl
  | none =>
    split_ifs
    · rfl
    · rfl

/-- An entry that was completed by others.  It has the same kind and key, and the given texts. -/
structure IsCompletion (e completed : Entry) (text? : String → Option (List Char)) : Prop where
  kind : completed.kind = e.kind
  key : completed.key = e.key
  text : ∀ name, name ≠ "date" → completed.text? name = text? name

theorem IsCompletion.takesOver {e completed : Entry} {text? : String → Option (List Char)}
    (h : e.IsCompletion completed text?) (name : String) :
    completed.takesOver name = e.takesOver name := by
  simp only [Entry.takesOver, isData, canBePreprint, isOf, h.kind]

theorem isCompletion_completeBy {e parent completed : Entry}
    (h : e.completeBy parent = .ok completed) :
    e.IsCompletion completed (e.inherit parent).text? := by
  rw [completeBy] at h
  have hdated : ∀ name, name ≠ "date" →
      (e.inherit parent).setDated.text? name = (e.inherit parent).text? name := by
    intro name hname
    rw [Entry.text?, Entry.text?, field?, field?, setDated, NameMap.find?_insert, if_neg hname]
  by_cases hneeds : (e.inherit parent).needsDate
  · rw [if_pos hneeds] at h
    obtain ⟨-, -, h⟩ := bind_eq_ok_iff.1 h
    split_ifs at h
    · cases h
      exact ⟨rfl, rfl, hdated⟩
    · cases h
      exact ⟨rfl, rfl, fun _ _ => rfl⟩
  · rw [if_neg hneeds] at h
    cases h
    exact ⟨rfl, rfl, fun _ _ => rfl⟩

end Entry

namespace Bibliography

/-! ## What a field is completed to -/

/-- The entries that an entry refers to. -/
def parents (b : Bibliography) (e : Entry) : List Entry := e.references.filterMap b.get?

/-- The text of a field of an entry, or what the entry takes over in its place through chains of at
most some number of references. -/
def textFor? (b : Bibliography) (name : String) : Nat → Entry → Option (List Char)
  | 0, e => e.text? name
  | n + 1, e => (e.text? name).or
      (if e.takesOver name then (b.parents e).findSome? (b.textFor? name n) else none)

/-- **An entry is completed to what it takes over.** -/
theorem isCompletion_complete {b : Bibliography} {n : Nat} {e completed : Entry}
    (h : b.complete n e = .ok completed) :
    e.IsCompletion completed fun name => b.textFor? name n e := by
  induction n generalizing e completed with
  | zero =>
    cases h
    exact ⟨rfl, rfl, fun _ _ => rfl⟩
  | succ n ih =>
    have hrun : ∀ (parents : List Entry) (f : Entry),
        parents.foldlM (fun e parent => do e.completeBy (← b.complete n parent)) f =
          .ok completed →
        f.IsCompletion completed fun name => (f.text? name).or
          (if f.takesOver name then parents.findSome? (b.textFor? name n) else none) := by
      intro parents
      induction parents with
      | nil =>
        intro f h
        cases h
        exact ⟨rfl, rfl, fun _ _ => by simp⟩
      | cons parent parents ihparents =>
        intro f h
        rw [List.foldlM_cons] at h
        obtain ⟨g, hcompleted, h⟩ := bind_eq_ok_iff.1 h
        obtain ⟨p, hparent, hcompleted⟩ := bind_eq_ok_iff.1 hcompleted
        have hg := Entry.isCompletion_completeBy hcompleted
        obtain ⟨hkind, hkey, htext⟩ := ihparents g h
        refine ⟨hkind.trans hg.kind, hkey.trans hg.key, fun name hname => ?_⟩
        rw [htext name hname, hg.text name hname, hg.takesOver, Entry.text?_inherit,
          (ih hparent).text name hname, List.findSome?_cons]
        cases f.text? name with
        | some text => rfl
        | none =>
          split_ifs
          · cases b.textFor? name n parent <;> rfl
          · rfl
    exact hrun _ e h

/-- Entries of a bibliography that is completed. -/
theorem forall₂_of_completed {b completed : Bibliography} (h : b.completed = .ok completed) :
    completed.index = b.index ∧ List.Forall₂ (fun e f => b.complete b.entries.size e = .ok f)
      b.entries.toList completed.entries.toList := by
  rw [Bibliography.completed, Array.mapM_eq_mapM_toList] at h
  obtain ⟨entries, hentries, h⟩ := bind_eq_ok_iff.1 h
  cases h
  obtain ⟨list, hlist, rfl⟩ := map_eq_ok_iff.1 hentries
  exact ⟨rfl, by simpa using mapM_eq_ok_iff.1 hlist⟩

/-- **What is found in a completed bibliography** is what was found before, completed. -/
theorem find?_of_completed {b completed : Bibliography} (h : b.completed = .ok completed)
    (key : String) :
    Option.Rel (fun e f => b.complete b.entries.size e = .ok f) (b.find? key)
      (completed.find? key) := by
  obtain ⟨hindex, hentries⟩ := forall₂_of_completed h
  have hget : Option.Rel (fun e f => b.complete b.entries.size e = .ok f) (b.get? key)
      (completed.get? key) := by
    rw [get?, get?, hindex]
    cases b.index.find? key with
    | none => exact .none
    | some place => simpa using rel_getElem? hentries place
  have hlike := rel_find? (p := fun e => Text.sameIgnoringCase e.key.toList key.toList)
    (q := fun e => Text.sameIgnoringCase e.key.toList key.toList) hentries fun e f hef => by
      rw [(isCompletion_complete hef).key]
  rw [find?, find?]
  revert hget
  cases b.get? key <;> cases completed.get? key <;> intro hget
  · rwa [← Array.find?_toList, ← Array.find?_toList]
  · cases hget
  · cases hget
  · exact hget

/-! ## Chains of references -/

theorem mem_entries_of_mem_parents {b : Bibliography} {e parent : Entry}
    (h : parent ∈ b.parents e) : parent ∈ b.entries.toList := by
  obtain ⟨key, -, hget⟩ := List.mem_filterMap.1 h
  obtain ⟨place, -, hplace⟩ := Option.bind_eq_some_iff.1 hget
  exact Array.mem_toList_iff.2 (Array.mem_of_getElem? hplace)

/-- The chains of references from an entry do not go in a circle. -/
def IsGrounded (b : Bibliography) (e : Entry) : Prop :=
  Acc (fun parent e => parent ∈ b.parents e) e

/-- **No entry is twice on a chain** that does not go in a circle. -/
theorem IsGrounded.nodup {b : Bibliography} {e : Entry} (he : b.IsGrounded e) {chain : List Entry}
    (hchain : (e :: chain).IsChain fun e parent => parent ∈ b.parents e) : chain.Nodup := by
  have hacc := Acc.transGen he
  obtain ⟨hbelow, hpairs⟩ := List.pairwise_cons.1 (pairwise_transGen hchain)
  refine hpairs.imp_of_mem fun {x y} hx _ hxy heq => ?_
  subst heq
  exact not_rel_self (hacc.inv (Relation.transGen_swap.1 (hbelow x hx)))
    (Relation.transGen_swap.1 hxy)

theorem IsGrounded.length_le {b : Bibliography} {e : Entry} (he : b.IsGrounded e)
    {chain : List Entry} (hchain : (e :: chain).IsChain fun e parent => parent ∈ b.parents e) :
    chain.length ≤ b.entries.size := by
  obtain ⟨hbelow, -⟩ := List.pairwise_cons.1 (pairwise_transGen hchain)
  have hsubset : chain ⊆ b.entries.toList := by
    intro x hx
    cases hbelow x hx with
    | single hparent => exact mem_entries_of_mem_parents hparent
    | tail _ hparent => exact mem_entries_of_mem_parents hparent
  have hlength := (List.subperm_of_subset (he.nodup hchain) hsubset).length_le
  rwa [Array.length_toList] at hlength

/-- Longer chains than there are make no difference. -/
theorem textFor?_of_length_le {b : Bibliography} {name : String} {n m : Nat} {e : Entry}
    (h : ∀ chain : List Entry, (e :: chain).IsChain (fun e parent => parent ∈ b.parents e) →
      chain.length ≤ n) (hm : n ≤ m) : b.textFor? name m e = b.textFor? name n e := by
  induction n generalizing m e with
  | zero =>
    have hparents : b.parents e = [] := by
      refine List.eq_nil_iff_forall_not_mem.2 fun parent hparent => ?_
      have hlength := h [parent] (by simpa using hparent)
      simp at hlength
    cases m with
    | zero => rfl
    | succ m => simp [textFor?, hparents]
  | succ n ih =>
    cases m with
    | zero => cases hm
    | succ m =>
      have hparents : ∀ parent ∈ b.parents e,
          b.textFor? name m parent = b.textFor? name n parent := by
        refine fun parent hparent => ih (fun chain hchain => ?_) (Nat.le_of_succ_le_succ hm)
        exact Nat.le_of_succ_le_succ (h (parent :: chain) (.cons_cons hparent hchain))
      rw [textFor?, textFor?, findSome?_eq_of_forall₂ (List.forall₂_same.2 hparents)
        fun _ _ hsame => hsame]

/-- **For an entry without circles** the number of entries bounds the chains that matter. -/
theorem textFor?_of_size_le {b : Bibliography} {name : String} {n : Nat} {e : Entry}
    (he : b.IsGrounded e) (hn : b.entries.size ≤ n) :
    b.textFor? name n e = b.textFor? name b.entries.size e :=
  textFor?_of_length_le (fun _ => he.length_le) hn

/-! ## Entries that are alike -/

/-- A way to match entries of two bibliographies for the sake of one field.  Entries that are
matched have the same text in the field, take it over or not, and refer to entries that are
matched.  Nothing is said of their other fields or of any other entries. -/
structure IsMatching (b c : Bibliography) (name : String) (r : Entry → Entry → Prop) : Prop where
  text : ∀ e f, r e f → e.text? name = f.text? name
  takesOver : ∀ e f, r e f → e.takesOver name = f.takesOver name
  parents : ∀ e f, r e f → List.Forall₂ r (b.parents e) (c.parents f)

/-- Matched entries take over the same text through chains of the same length. -/
theorem IsMatching.textFor?_eq_of_length {b c : Bibliography} {name : String}
    {r : Entry → Entry → Prop} (hr : IsMatching b c name r) (n : Nat) {e f : Entry} (h : r e f) :
    b.textFor? name n e = c.textFor? name n f := by
  induction n generalizing e f with
  | zero => exact hr.text e f h
  | succ n ih =>
    rw [textFor?, textFor?, hr.text e f h, hr.takesOver e f h,
      findSome?_eq_of_forall₂ (hr.parents e f h) fun _ _ => ih]

/-- What is matched with an entry without circles has none. -/
theorem IsMatching.isGrounded {b c : Bibliography} {name : String} {r : Entry → Entry → Prop}
    (hr : IsMatching b c name r) {e f : Entry} (he : b.IsGrounded e) (h : r e f) :
    c.IsGrounded f := by
  induction he generalizing f with
  | intro e _ ih =>
    refine .intro f fun parent hparent => ?_
    obtain ⟨i, hi⟩ := List.mem_iff_getElem?.1 hparent
    have hrel := rel_getElem? (hr.parents e f h) i
    rw [hi] at hrel
    cases hother : (b.parents e)[i]? with
    | none =>
      rw [hother] at hrel
      cases hrel
    | some other =>
      rw [hother] at hrel
      cases hrel with
      | some hmatched => exact ih other (List.mem_of_getElem? hother) hmatched

/-- **Matched entries take over the same text**, however many entries there are besides. -/
theorem IsMatching.textFor?_eq {b c : Bibliography} {name : String} {r : Entry → Entry → Prop}
    (hr : IsMatching b c name r) {e f : Entry} (he : b.IsGrounded e) (h : r e f) :
    b.textFor? name b.entries.size e = c.textFor? name c.entries.size f := by
  calc b.textFor? name b.entries.size e
      = b.textFor? name (max b.entries.size c.entries.size) e :=
        (textFor?_of_size_le he (Nat.le_max_left ..)).symm
    _ = c.textFor? name (max b.entries.size c.entries.size) f := hr.textFor?_eq_of_length _ h
    _ = c.textFor? name c.entries.size f :=
        textFor?_of_size_le (hr.isGrounded he h) (Nat.le_max_right ..)

end Bibliography
end Bib
end PostRun
