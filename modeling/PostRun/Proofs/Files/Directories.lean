import PostRun.Proofs.Attempts
import PostRun.Proofs.Files.Expansion

/-!
# Directories that a pattern names

Without a wildcard a component stands for itself.  So a pattern that has wildcards in its last
component only looks into one directory, which it names
(`Surroundings.replacesAll_append_singleton`).

On its way the search asks whether each component leads to a directory.  It need not have asked:
what is listed at the end lies behind all of them, and nothing is listed behind a file
(`Surroundings.Coherent`).  That holds of trees, since a tree is walked component by component
(`Tree.coherent_surroundings`).
-/

namespace PostRun
namespace Files

/-! ## Paths that go through a directory -/

theorem Tree.components_append_slash (before after : String) :
    components (before ++ "/" ++ after) = components before ++ components after := by
  have hslash : "/".toList = ['/'] := rfl
  rw [components, String.toList_append, String.toList_append, hslash, List.append_assoc,
    List.singleton_append, Text.pieces_append_sep_cons, List.map_append]
  rfl

theorem Tree.walk_append (t : Tree) (here : Place) (names others : List String) :
    t.walk here (names ++ others) = t.walk here names >>= fun place => t.walk place others := by
  induction names generalizing here with
  | nil => rfl
  | cons name names ih =>
    simp only [List.cons_append, walk, bind_assoc, ih]

/-- A walk goes on from directories only. -/
theorem Tree.at?_of_walk {t : Tree} {here there : Place} {names : List String} (hne : names ≠ [])
    (h : t.walk here names = .ok there) : t.at? here = some .directory := by
  obtain ⟨name, rest, rfl⟩ := List.exists_cons_of_ne_nil hne
  obtain ⟨next, hstep, -⟩ := bind_eq_ok_iff.1 h
  rw [step] at hstep
  cases hat : t.at? here with
  | none => simp [hat] at hstep
  | some content => cases content with
    | file => simp [hat] at hstep
    | directory => rfl

/-- A path that leads somewhere behind a slash leads to a directory before it. -/
theorem Tree.kind?_of_place {t : Tree} {before after : String} {there : Place}
    (h : t.place (before ++ "/" ++ after) = .ok there) (hne : before ≠ "") :
    t.kind? before = some .directory := by
  have hlist : (before ++ "/" ++ after).toList = before.toList ++ ("/" ++ after).toList := by
    rw [String.append_assoc, String.toList_append]
  have hsize : before.utf8ByteSize ≤ (before ++ "/" ++ after).utf8ByteSize := by
    rw [String.append_assoc, String.utf8ByteSize_append]
    exact Nat.le_add_right ..
  rw [place] at h
  split_ifs at h with hnul hstart hlong
  have hnul' : ¬ before.toList.contains '\x00' := by
    rw [hlist] at hnul
    simp only [List.contains_eq_mem, List.mem_append, decide_eq_true_eq, not_or] at hnul ⊢
    exact hnul.1
  have hstart' : ¬ (before = "" ∨ before.toList.head? = some '/') := by
    rw [hlist] at hstart
    rintro (rfl | hhead)
    · exact hne rfl
    · exact hstart (.inr (by rw [List.head?_append, hhead]; rfl))
  rw [components_append_slash, walk_append] at h
  obtain ⟨here, hwalk, hbehind⟩ := bind_eq_ok_iff.1 h
  have hafter : components after ≠ [] := by simp [components, Text.pieces_ne_nil]
  rw [kind?, lookup, place, if_neg hnul', if_neg hstart', if_neg (by omega), hwalk]
  simp only [bind, Except.bind, at?_of_walk hafter hbehind]
  rfl

namespace Surroundings

variable (s : Surroundings)

/-- Surroundings that list a directory only behind directories. -/
structure Coherent : Prop extends Lawful s where
  kind?_of_names : ∀ before after names, s.names (before ++ "/" ++ after) = .ok names →
    before ≠ "" → s.kind? before = some .directory

/-! ## Directories without wildcards -/

@[simp] theorem directoryOf_nil : directoryOf [] = "" := rfl

theorem intercalate_append_singleton (names : List String) (name : String) :
    "/".intercalate (names ++ [name]) = directoryOf names ++ name := by
  induction names with
  | nil => simp
  | cons first names ih =>
    rw [List.cons_append, String.intercalate_cons_of_ne_nil (by simp), ih, directoryOf_cons]
    simp only [String.append_assoc]

/-- The text in front of a name is that of some directories. -/
theorem exists_eq_directoryOf {directory : String}
    (h : directory = "" ∨ ∃ above, directory = above ++ "/") :
    ∃ names, (∀ name ∈ names, '/' ∉ name.toList) ∧ directory = directoryOf names := by
  rcases h with rfl | ⟨above, rfl⟩
  · exact ⟨[], by simp, rfl⟩
  · refine ⟨Tree.components above, fun _ => Tree.slash_not_mem_of_mem_components, ?_⟩
    have hjoin := intercalate_append_singleton (Tree.components above) ""
    rw [String.append_empty] at hjoin
    have hslash : "/".intercalate (Tree.components above ++ [""]) = above ++ "/" := by
      have hcomponents : Tree.components (above ++ "/" ++ "") = Tree.components above ++ [""] :=
        Tree.components_append_slash above ""
      rw [← hcomponents, Tree.intercalate_components, String.append_empty]
    rw [← hjoin, hslash]

/-- Every one of some directories is there, behind those before it. -/
def LeadsThrough : String → List String → Prop
  | _, [] => True
  | directory, name :: names =>
      (name ≠ "" → s.kind? (directory ++ name) = some .directory) ∧
        LeadsThrough (directory ++ name ++ "/") names

/-- **Directories are there if something is listed behind them.** -/
theorem Coherent.leadsThrough {s : Surroundings} (hs : s.Coherent) {directory : String}
    {names listed : List String} (h : s.names (directory ++ directoryOf names) = .ok listed) :
    s.LeadsThrough directory names := by
  induction names generalizing directory with
  | nil => trivial
  | cons name names ih =>
    have hsplit : directory ++ directoryOf (name :: names) =
        directory ++ name ++ "/" ++ directoryOf names := by
      simp only [directoryOf_cons, String.append_assoc]
    rw [hsplit] at h
    refine ⟨fun hname => hs.kind?_of_names _ _ listed h fun hempty => hname ?_, ih h⟩
    exact (String.append_eq_empty_iff.1 hempty).2

theorem Coherent.leadsThrough_of_lists {s : Surroundings} (hs : s.Coherent) {names : List String}
    {name : String} (h : s.Lists (listedAs (directoryOf names)) name) :
    s.LeadsThrough "" names := by
  obtain ⟨listed, hlisted, -⟩ := h
  cases names with
  | nil => trivial
  | cons first names =>
    have hne : directoryOf (first :: names) ≠ "" := by simp [directoryOf_cons]
    rw [listedAs, if_neg hne] at hlisted
    exact hs.leadsThrough (by rwa [String.empty_append])

/-- Only the component itself stands for one without a wildcard. -/
theorem replaces_iff_of_not_isPattern {directory component name : String} {isLast : Bool}
    (h : ¬ Glob.isPattern component) :
    s.Replaces directory component isLast name ↔ name = component ∧ (component ≠ "" →
      s.kind? (directory ++ component) = some (if isLast then .file else .directory)) := by
  constructor
  · intro hreplaces
    obtain rfl := hreplaces.kept h
    exact ⟨rfl, hreplaces.kind⟩
  · rintro ⟨rfl, hkind⟩
    exact ⟨fun _ => rfl, fun hpattern => absurd hpattern h, hkind⟩

theorem replacesAll_nil (directory : String) : s.ReplacesAll directory [] [] :=
  ⟨rfl, fun i component name h => by simp at h⟩

/-- **A component behind directories without wildcards** is replaced in these directories. -/
theorem replacesAll_append_singleton {directory component : String} {names chosen : List String}
    (hnames : ∀ name ∈ names, ¬ Glob.isPattern name) :
    s.ReplacesAll directory (names ++ [component]) chosen ↔
      ∃ name, chosen = names ++ [name] ∧ s.LeadsThrough directory names ∧
        s.Replaces (directory ++ directoryOf names) component true name := by
  induction names generalizing directory chosen with
  | nil =>
    simp only [List.nil_append, directoryOf_nil, String.append_empty, LeadsThrough, true_and]
    constructor
    · intro h
      obtain ⟨name, rfl⟩ := List.length_eq_one_iff.1 h.1
      exact ⟨name, rfl, (s.replacesAll_cons.1 h).1⟩
    · rintro ⟨name, rfl, hreplaces⟩
      exact s.replacesAll_cons.2 ⟨hreplaces, s.replacesAll_nil _⟩
  | cons first names ih =>
    obtain ⟨hfirst, hrest⟩ := List.forall_mem_cons.1 hnames
    have hmore : (names ++ [component]).isEmpty = false := by simp
    have hsplit : directory ++ directoryOf (first :: names) =
        directory ++ first ++ "/" ++ directoryOf names := by
      simp only [directoryOf_cons, String.append_assoc]
    rw [hsplit, List.cons_append]
    constructor
    · intro h
      obtain ⟨name, others, rfl⟩ := List.exists_cons_of_length_eq_add_one h.1
      obtain ⟨hname, hothers⟩ := s.replacesAll_cons.1 h
      rw [hmore, s.replaces_iff_of_not_isPattern hfirst] at hname
      obtain ⟨rfl, hkind⟩ := hname
      obtain ⟨last, rfl, hleads, hreplaces⟩ := (ih hrest).1 hothers
      exact ⟨last, rfl, ⟨hkind, hleads⟩, hreplaces⟩
    · rintro ⟨last, rfl, ⟨hkind, hleads⟩, hreplaces⟩
      refine s.replacesAll_cons.2 ⟨?_, (ih hrest).2 ⟨last, rfl, hleads, hreplaces⟩⟩
      rw [hmore, s.replaces_iff_of_not_isPattern hfirst]
      exact ⟨rfl, hkind⟩

end Surroundings

/-- **A tree lists a directory only behind directories.** -/
theorem Tree.coherent_surroundings (t : Tree) : t.surroundings.Coherent where
  toLawful := t.lawful_surroundings
  kind?_of_names := by
    intro before after names h hne
    have hnames : t.names (before ++ "/" ++ after) = .ok names := h
    obtain ⟨there, hplace, -⟩ := bind_eq_ok_iff.1 hnames
    exact Tree.kind?_of_place hplace hne

end Files
end PostRun
