import Mathlib.Logic.Basic
import PostRun.Volume.File

/-!
# Files made of insertions

A file is made by inserting observations, one after another.  If their names are distinct, nothing
is replaced, and an insertion adds its observation to those that are there (`NameMap.insert_perm`).
So the entries of the file are the insertions in some order (`File.ofItems_perm`).  The order is
that of the names and not that of the insertions, and a map is known by its entries in whatever
order (`NameMap.eq_of_perm`).  Therefore insertions in another order make the same file
(`File.ofItems_congr`).
-/

namespace PostRun

namespace NameMap

variable {β : Type u}

/-- A name that is not bound gets a place of its own. -/
theorem alterList_perm {name : String} (f : Option β → β) {es : List (String × β)}
    (h : ∀ e ∈ es, e.1 ≠ name) : (alterList name f es).Perm ((name, f none) :: es) := by
  induction es with
  | nil => exact .refl _
  | cons e es ih =>
    obtain ⟨hfirst, hrest⟩ := List.forall_mem_cons.1 h
    unfold alterList
    split
    · exact .refl _
    · rw [if_neg hfirst.symm]
      exact ((ih hrest).cons e).trans (.swap _ _ _)

theorem insert_perm {m : NameMap β} {name : String} (h : ∀ e ∈ m.entries, e.1 ≠ name) (value : β) :
    (m.insert name value).entries.Perm ((name, value) :: m.entries) :=
  alterList_perm (fun _ => value) h

/-- Maps with the same entries in some order are the same: both are in order of the names. -/
theorem eq_of_perm {m m' : NameMap β} (h : m.entries.Perm m'.entries) : m = m' := by
  have hentries : m.entries = m'.entries :=
    h.eq_of_pairwise (fun _ _ _ _ hab hba => absurd hba (String.lt_asymm hab)) m.sorted m'.sorted
  cases m
  cases m'
  cases hentries
  rfl

end NameMap

namespace Volume
namespace File

variable {α : Type u}

/-- The file that insertions make. -/
def ofItems (path : String) (items : List (String × ObservationData α)) : File α :=
  items.foldl (fun f o => f.insert o.1 o.2) (ofPath path)

theorem path_foldl_insert (items : List (String × ObservationData α)) (f : File α) :
    (items.foldl (fun f o => f.insert o.1 o.2) f).path = f.path := by
  induction items generalizing f with
  | nil => rfl
  | cons o items ih => rw [List.foldl_cons, ih, insert_path]

/-- Insertions of distinct new names are added to what is there. -/
theorem foldl_insert_perm {items : List (String × ObservationData α)} {f : File α}
    (hdistinct : (items.map (·.1)).Nodup)
    (hnew : ∀ e ∈ f.contents.entries, ∀ o ∈ items, e.1 ≠ o.1) :
    (items.foldl (fun f o => f.insert o.1 o.2) f).contents.entries.Perm
      (items ++ f.contents.entries) := by
  induction items generalizing f with
  | nil => exact .refl _
  | cons o items ih =>
    rw [List.map_cons, List.nodup_cons] at hdistinct
    have hinsert : (f.insert o.1 o.2).contents.entries.Perm (o :: f.contents.entries) :=
      NameMap.insert_perm (fun e he => hnew e he o List.mem_cons_self) o.2
    have hnext : ∀ e ∈ (f.insert o.1 o.2).contents.entries, ∀ p ∈ items, e.1 ≠ p.1 := by
      intro e he p hp heq
      rcases List.mem_cons.1 (hinsert.subset he) with rfl | he
      · exact hdistinct.1 (heq ▸ List.mem_map_of_mem hp)
      · exact hnew e he p (List.mem_cons_of_mem _ hp) heq
    exact (ih hdistinct.2 hnext).trans ((hinsert.append_left items).trans List.perm_middle)

/-- The entries of a file are the insertions in some order. -/
theorem ofItems_perm {items : List (String × ObservationData α)}
    (h : (items.map (·.1)).Nodup) (path : String) :
    (ofItems path items).contents.entries.Perm items := by
  have hperm := foldl_insert_perm (f := ofPath path) h fun e he => absurd he List.not_mem_nil
  rwa [show (ofPath path : File α).contents.entries = [] from rfl, List.append_nil] at hperm

/-- **The order of insertions does not matter**, if their names are distinct. -/
theorem ofItems_congr {items items' : List (String × ObservationData α)}
    (h : (items.map (·.1)).Nodup) (hperm : items.Perm items') (path : String) :
    ofItems path items = ofItems path items' := by
  have h' : (items'.map (·.1)).Nodup := (hperm.map (·.1)).nodup_iff.1 h
  have hcontents : (ofItems path items).contents = (ofItems path items').contents :=
    NameMap.eq_of_perm
      ((ofItems_perm h path).trans (hperm.trans (ofItems_perm h' path).symm))
  have hpath : (ofItems path items).path = (ofItems path items').path := by
    rw [ofItems, ofItems, path_foldl_insert, path_foldl_insert]
  exact congrArg₂ File.mk hpath hcontents

end File
end Volume
end PostRun
