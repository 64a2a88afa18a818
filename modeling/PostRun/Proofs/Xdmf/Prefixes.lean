import PostRun.Proofs.Files.Braces
import PostRun.Proofs.Files.Directories
import PostRun.Proofs.Xdmf.Discovery

/-!
# Stems without wildcards

A run is given by a stem, and its volume files are those whose names start with the stem.  A stem
that holds none of the characters `*`, `?` and `[` is meant to stand for itself.  Its directories
do, since a component without wildcards is not read as a pattern.  The rest of it is read as one
all the same, because of the `*` behind it.

## What that changes

Only braces have a meaning in a pattern besides the wildcards.  A stem without braces stands for
itself, and discovery finds what the stem says.  A brace never does: a stem with a brace that has
no partner is refused, and otherwise it stands for its alternatives, which have no braces.  So
there is always a file that the stem names and discovery misses, or the other way round
(`not_finds_of_not_hasNoBraces`).  If the pattern does not match the stem itself with its ending,
the file is this one; if it does, an alternative is the front of the stem, and the file is one that
goes on differently behind it.
-/

namespace PostRun
namespace Xdmf

open Files Files.Surroundings

/-! ## The files of one directory -/

/-- A file of a directory that starts with one of some words and ends as volume files do.  A dot in
front is only for a stem that starts with a dot. -/
structure IsVolumeFile (s : Surroundings) (directory stem : String) (IsStart : String → Prop)
    (name : String) : Prop where
  listed : s.Lists (listedAs directory) name
  kind : s.kind? (directory ++ name) = some .file
  named : ∃ word middle, IsStart word ∧ name = word ++ middle ++ ".h5"
  dotted : isDotted name → isDotted stem

/-- Discovery finds the files of a directory that start with one of some words, in ascending order,
or fails for there being none. -/
def Finds (s : Surroundings) (directory stem : String) (IsStart : String → Prop) : Prop :=
  ∃ paths : List String,
    (∀ path, path ∈ paths ↔
      ∃ name, IsVolumeFile s directory stem IsStart name ∧ path = directory ++ name) ∧
    paths.Pairwise (fun a b => Text.bytes a < Text.bytes b) ∧
    (discover s (directory ++ stem)).value =
      if paths = [] then .error (.noVolumeFiles (directory ++ stem)) else .ok paths

/-- What is found does not depend on how it is said. -/
theorem Finds.isVolumeFile_iff {s : Surroundings} {directory stem : String}
    {IsStart IsOther : String → Prop} (h : Finds s directory stem IsStart)
    (hother : Finds s directory stem IsOther) (name : String) :
    IsVolumeFile s directory stem IsStart name ↔ IsVolumeFile s directory stem IsOther name := by
  obtain ⟨paths, hmem, -, hvalue⟩ := h
  obtain ⟨others, hmem', -, hvalue'⟩ := hother
  have hsame : paths = others := by
    rw [hvalue] at hvalue'
    split_ifs at hvalue' with hpaths hothers hothers
    · rw [hpaths, hothers]
    · exact Except.ok.inj hvalue'
  have hpath : ∀ IsStart, (∃ other, IsVolumeFile s directory stem IsStart other ∧
      directory ++ name = directory ++ other) ↔ IsVolumeFile s directory stem IsStart name := by
    intro IsStart
    constructor
    · rintro ⟨other, hother, heq⟩
      rwa [(String.append_right_inj _).1 heq]
    · exact fun h => ⟨name, h, rfl⟩
  rw [← hpath, ← hmem, hsame, hmem', hpath]

theorem Finds.value_ne_pattern {s : Surroundings} {directory stem : String}
    {IsStart : String → Prop} (h : Finds s directory stem IsStart) (e : PatternError) :
    (discover s (directory ++ stem)).value ≠ .error (.pattern e) := by
  obtain ⟨paths, -, -, hvalue⟩ := h
  rw [hvalue]
  split_ifs <;> simp

/-! ## The pattern of a stem -/

theorem isPlain_h5 : Glob.IsPlain ".h5" where
  not_isWildcard := Glob.not_isPattern_iff.1 (by decide)
  hasNoBraces := ⟨by decide, by decide⟩
  comma_not_mem := by decide

theorem stem_append (stem : String) : stem ++ "*.h5" = stem ++ "*" ++ ".h5" := by
  rw [String.append_assoc]
  rfl

theorem isDotted_append (text ending : String) :
    isDotted (text ++ ending) = if text = "" then isDotted ending else isDotted text := by
  rw [isDotted, String.toList_append, List.head?_append]
  split_ifs with hempty
  · subst hempty
    rfl
  · obtain ⟨c, cs, hcs⟩ := List.exists_cons_of_ne_nil (mt String.toList_eq_nil_iff.1 hempty)
    rw [isDotted, hcs]
    rfl

/-- The component of a stem starts with a dot if the stem does. -/
theorem isDotted_append_run (stem : String) : isDotted (stem ++ "*.h5") = isDotted stem := by
  rw [isDotted_append]
  split_ifs with hempty
  · rw [hempty]
    decide
  · rfl

section Stem

variable {above : List String} {stem : String}

theorem patternComponents_directoryOf (habove : ∀ name ∈ above, '/' ∉ name.toList)
    (hstem : '/' ∉ stem.toList) :
    patternComponents (directoryOf above ++ stem) = above ++ [stem ++ "*.h5"] := by
  have hend : '/' ∉ "*.h5".toList := by decide
  have hnames : ∀ name ∈ above ++ [stem ++ "*.h5"], '/' ∉ name.toList := by
    simp only [List.mem_append, List.mem_singleton]
    rintro name (hname | rfl)
    · exact habove name hname
    · rw [String.toList_append, List.mem_append, not_or]
      exact ⟨hstem, hend⟩
  rw [patternComponents, String.append_assoc, ← intercalate_append_singleton]
  exact Tree.components_intercalate (by simp) hnames

/-- Where the last component is a pattern, its matches in the directory are found. -/
theorem finds_of_parse (habove : ∀ name ∈ above, '/' ∉ name.toList) (hstem : '/' ∉ stem.toList)
    (hplain : ∀ name ∈ above, ¬ Glob.isPattern name) {glob : Glob} {IsStart : String → Prop}
    (hparse : Glob.parse (stem ++ "*.h5") = .ok glob)
    (haccepts : ∀ name, glob.accepts name ↔
      ∃ word middle, IsStart word ∧ name = word ++ middle ++ ".h5")
    {s : Surroundings} (hs : s.Coherent) : Finds s (directoryOf above) stem IsStart := by
  have hcomponents := patternComponents_directoryOf habove hstem
  have hpattern : Glob.isPattern (stem ++ "*.h5") := by simp [Glob.isPattern]
  have haccepted : ∀ component ∈ patternComponents (directoryOf above ++ stem), ∀ cause,
      ¬ Refuses component cause := by
    rw [hcomponents]
    simp only [List.mem_append, List.mem_singleton]
    rintro component (hcomponent | rfl) cause hrefused
    · exact hplain component hcomponent hrefused.1
    · cases hparse.symm.trans hrefused.2
  obtain ⟨paths, hmem, hascending, hvalue⟩ := discover_value_of_accepted hs.toLawful haccepted
  refine ⟨paths, fun path => ?_, hascending, hvalue⟩
  rw [hmem, IsVolumePath, hcomponents]
  simp only [s.replacesAll_append_singleton hplain, String.empty_append]
  constructor
  · rintro ⟨_, ⟨name, rfl, -, hreplaces⟩, rfl⟩
    obtain ⟨hlisted, ⟨glob', hglob', hname⟩, hdotted⟩ := hreplaces.matched hpattern
    obtain rfl : glob = glob' := Except.ok.inj (hparse.symm.trans hglob')
    rw [isDotted_append_run] at hdotted
    have hkind := hreplaces.kind fun hempty => by simp [hempty, Glob.isPattern] at hpattern
    exact ⟨name, ⟨hlisted, hkind, (haccepts name).1 hname, hdotted⟩,
      intercalate_append_singleton above name⟩
  · rintro ⟨name, h, rfl⟩
    refine ⟨above ++ [name], ⟨name, rfl, ?_, ?_⟩, (intercalate_append_singleton above name).symm⟩
    · exact hs.leadsThrough_of_lists h.listed
    · refine ⟨fun hnot => absurd hpattern hnot, fun _ => ⟨h.listed, ?_, ?_⟩, fun _ => h.kind⟩
      · exact ⟨glob, hparse, (haccepts name).2 h.named⟩
      · rw [isDotted_append_run]
        exact h.dotted

/-- Where the last component is refused, so is the stem. -/
theorem discover_value_of_parse (habove : ∀ name ∈ above, '/' ∉ name.toList)
    (hstem : '/' ∉ stem.toList) (hplain : ∀ name ∈ above, ¬ Glob.isPattern name)
    {cause : GlobError} (hparse : Glob.parse (stem ++ "*.h5") = .error cause) (s : Surroundings) :
    (discover s (directoryOf above ++ stem)).value =
      .error (.pattern ⟨stem ++ "*.h5", cause⟩) := by
  have hpattern : Glob.isPattern (stem ++ "*.h5") := by simp [Glob.isPattern]
  refine discover_value_of_firstRefused s ⟨above, [], patternComponents_directoryOf habove hstem,
    fun name hname cause hrefused => hplain name hname hrefused.1, hpattern, hparse⟩

/-- Without wildcards neither the directories nor the stem are patterns. -/
theorem not_isPattern_of_append (h : ¬ Glob.isPattern (directoryOf above ++ stem)) :
    (∀ name ∈ above, ¬ Glob.isPattern name) ∧ ∀ c ∈ stem.toList, ¬ Glob.IsWildcard c := by
  simp only [Glob.not_isPattern_iff, String.toList_append, List.mem_append] at h ⊢
  refine ⟨?_, fun c hc => h c (.inr hc)⟩
  replace h : ∀ c ∈ (directoryOf above).toList, ¬ Glob.IsWildcard c := fun c hc => h c (.inl hc)
  induction above with
  | nil => simp
  | cons first above ih =>
    simp only [directoryOf_cons, String.toList_append, List.mem_append] at h
    exact List.forall_mem_cons.2 ⟨fun c hc => h c (.inl (.inl hc)), ih fun c hc => h c (.inr hc)⟩

end Stem

/-! ## A directory with one file -/

/-- Surroundings with nothing but one file in one directory. -/
def holding (directory name : String) : Surroundings where
  kind? path := some (if path = directory ++ name then .file else .directory)
  names path := if path = listedAs directory then .ok [name] else .error .notFound

theorem coherent_holding (directory : String) {name : String} (hname : '/' ∉ name.toList) :
    (holding directory name).Coherent where
  nodup := by
    intro path names h
    simp only [holding] at h
    split_ifs at h
    cases h
    exact List.nodup_singleton name
  slash_not_mem := by
    intro path names h
    simp only [holding] at h
    split_ifs at h
    cases h
    simpa using hname
  kind?_of_names := by
    intro before after names h hne
    simp only [holding] at h
    split_ifs at h with hlisted
    have hother : before ≠ directory ++ name := by
      rintro rfl
      rw [listedAs] at hlisted
      split_ifs at hlisted with hempty
      · have hslash : '/' ∈ ".".toList := by
          rw [← hlisted]
          simp
        exact absurd hslash (by decide)
      · have hlength := congrArg String.length hlisted
        simp only [String.length_append] at hlength
        have hone : "/".length = 1 := by decide
        omega
    simp only [holding, if_neg hother]

theorem isVolumeFile_holding {directory stem name : String} {IsStart : String → Prop} :
    IsVolumeFile (holding directory name) directory stem IsStart name ↔
      (∃ word middle, IsStart word ∧ name = word ++ middle ++ ".h5") ∧
        (isDotted name → isDotted stem) := by
  constructor
  · exact fun h => ⟨h.named, h.dotted⟩
  · exact fun h => ⟨⟨[name], by simp [holding], by simp⟩, by simp [holding], h.1, h.2⟩

/-! ## Stems that are found as they are -/

/-- **A stem with a brace does not stand for itself**, if it stands for anything. -/
theorem not_finds_of_not_hasNoBraces {directory stem : String} {front : Glob}
    (hslash : '/' ∉ stem.toList) (hfront : front.IsBraceless)
    (hbrace : ¬ Glob.HasNoBraces stem.toList)
    (hfinds : ∀ s : Surroundings, s.Coherent →
      Finds s directory stem fun word => front.accepts word) :
    ¬ ∀ s : Surroundings, s.Coherent → Finds s directory stem (· = stem) := by
  intro hliteral
  have hsame : ∀ name : String, '/' ∉ name.toList → (isDotted name → isDotted stem) →
      ((∃ middle, name = stem ++ middle ++ ".h5") ↔
        ∃ word middle, front.accepts word ∧ name = word ++ middle ++ ".h5") := by
    intro name hname hdotted
    have hs := coherent_holding directory hname
    have hiff := (hliteral _ hs).isVolumeFile_iff (hfinds _ hs) name
    rw [isVolumeFile_holding, isVolumeFile_holding, and_iff_left hdotted,
      and_iff_left hdotted] at hiff
    simpa only [exists_and_left, exists_eq_left] using hiff
  have hne : stem ≠ "" := by
    rintro rfl
    exact hbrace Glob.hasNoBraces_nil
  -- the stem with the ending alone is matched, by some word in front of it
  obtain ⟨word, middle, hword, hsplit⟩ := (hsame (stem ++ ".h5")
    (by simpa using hslash) (by rw [isDotted_append, if_neg hne]; exact id)).1 ⟨"", by simp⟩
  obtain rfl : stem = word ++ middle := (String.append_left_inj _).1 hsplit
  rw [String.toList_append, List.mem_append, not_or] at hslash
  -- that word can go on in another way
  have hdotted : isDotted (word ++ "x" ++ ".h5") → isDotted (word ++ middle) := by
    have hx : ¬ isDotted ("x" ++ ".h5") := by decide
    rw [String.append_assoc, isDotted_append, isDotted_append word]
    split_ifs
    · exact fun h => absurd h hx
    · exact id
  obtain ⟨middle', hother⟩ := (hsame (word ++ "x" ++ ".h5") (by simpa using hslash.1)
    hdotted).2 ⟨word, "x", hword, rfl⟩
  have hx : "x" = middle ++ middle' := by
    have h := (String.append_left_inj _).1 hother
    rw [String.append_assoc] at h
    exact (String.append_right_inj _).1 h
  have hmiddle : Glob.HasNoBraces (middle ++ middle').toList := hx ▸ ⟨by decide, by decide⟩
  rw [String.toList_append, Glob.hasNoBraces_append] at hmiddle hbrace
  exact hbrace ⟨hfront.hasNoBraces hword, hmiddle.1⟩

/-- Nothing is found for a stem that is refused. -/
theorem not_finds_of_refused {directory stem : String} {IsStart : String → Prop} {e : PatternError}
    (h : ∀ s : Surroundings, (discover s (directory ++ stem)).value = .error (.pattern e)) :
    ¬ ∀ s : Surroundings, s.Coherent → Finds s directory stem IsStart := fun hfinds =>
  (hfinds (holding "" "") (coherent_holding "" (by simp))).value_ne_pattern e (h _)

/-- **A stem without wildcards is found as it is if and only if it has no braces.**  It is refused
if one of its braces has no partner, whatever is on the disk.  If all of them have one, the files
are found that start with something the stem stands for as a pattern. -/
theorem discover_finds_stem_iff (directory stem : String)
    (hdirectory : directory = "" ∨ ∃ above, directory = above ++ "/")
    (hstem : '/' ∉ stem.toList) (hplain : ¬ Glob.isPattern (directory ++ stem)) :
    ((∀ s : Surroundings, s.Coherent → Finds s directory stem (· = stem)) ↔
      Glob.HasNoBraces stem.toList) ∧
    (∀ s : Surroundings, s.Coherent → ∀ e,
      (discover s (directory ++ stem)).value = .error (.pattern e) ↔
        e.component = stem ++ "*.h5" ∧ Glob.groupError? stem.toList = some e.cause) ∧
    (Glob.groupError? stem.toList = none → ∃ front, Glob.parse stem = .ok front ∧
      ∀ s : Surroundings, s.Coherent → Finds s directory stem fun word => front.accepts word) := by
  obtain ⟨above, habove, rfl⟩ := exists_eq_directoryOf hdirectory
  obtain ⟨hnames, hwild⟩ := not_isPattern_of_append hplain
  cases hgroups : Glob.groupError? stem.toList with
  | some cause =>
    have hparse := Glob.parse_of_groupError? hwild isPlain_h5 hgroups
    rw [← stem_append] at hparse
    have hvalue := discover_value_of_parse habove hstem hnames hparse
    refine ⟨⟨fun hfinds => absurd hfinds (not_finds_of_refused hvalue), fun hbraces => ?_⟩,
      fun s _ e => ?_, fun h => by cases h⟩
    · cases hgroups.symm.trans (Glob.groupError?_of_hasNoBraces hbraces)
    · rw [hvalue s]
      obtain ⟨component, cause'⟩ := e
      simp [eq_comm]
  | none =>
    obtain ⟨front, glob, hfront, hbraceless, hparse, haccepts⟩ :=
      Glob.exists_parse_of_groupError? hwild isPlain_h5 hgroups
    rw [← stem_append] at hparse
    have hfinds : ∀ s : Surroundings, s.Coherent →
        Finds s (directoryOf above) stem fun word => front.accepts word :=
      fun s hs => finds_of_parse habove hstem hnames hparse haccepts hs
    refine ⟨⟨fun hliteral => ?_, fun hbraces s hs => ?_⟩, fun s hs e => ?_,
      fun _ => ⟨front, hfront, hfinds⟩⟩
    · by_contra hbrace
      exact not_finds_of_not_hasNoBraces hstem hbraceless hbrace hfinds hliteral
    · have hword := Glob.accepts_of_parse_of_hasNoBraces hwild hbraces hfront
      simpa only [hword] using hfinds s hs
    · simp [(hfinds s hs).value_ne_pattern e]

/-- A run in a directory with a brace in its name.  One of its files has braces in its name, too. -/
def braced : Tree where
  contents := ⟨[("Run\x7b0", .directory), ("Run\x7b0/Volume02.h5", .file .empty),
    ("Run\x7b0/Volume\x7b0,1\x7d2.h5", .file .empty)], by decide⟩

/-- In that run a stem without braces is found as it is, with the brace of the directory.  A stem
with both braces is not found as it is, and one with a single brace is refused. -/
theorem discover_finds_stem_iff_braced :
    braced.surroundings.Coherent ∧
    (discover braced.surroundings "Run\x7b0/Volume0").value = .ok ["Run\x7b0/Volume02.h5"] ∧
    (¬ ∀ s : Surroundings, s.Coherent →
      Finds s "Run\x7b0/" "Volume\x7b0,1\x7d" (· = "Volume\x7b0,1\x7d")) ∧
    (discover braced.surroundings "Run\x7b0/Volume\x7b").value =
      .error (.pattern ⟨"Volume\x7b*.h5", .unclosedGroup⟩) := by
  have hcoherent := Tree.coherent_surroundings braced
  have hdirectory : "Run\x7b0/" = "" ∨ ∃ above, "Run\x7b0/" = above ++ "/" :=
    .inr ⟨"Run\x7b0", by decide⟩
  have hlists : ∀ name, braced.surroundings.Lists (listedAs "Run\x7b0/") name ↔
      name = "Volume02.h5" ∨ name = "Volume\x7b0,1\x7d2.h5" := by
    have hnames : braced.surroundings.names (listedAs "Run\x7b0/") =
        .ok ["Volume02.h5", "Volume\x7b0,1\x7d2.h5"] := by decide
    intro name
    simp [Surroundings.Lists, hnames]
  obtain ⟨hliteral, -, -⟩ := discover_finds_stem_iff _ "Volume0" hdirectory
    (by decide) (by decide)
  obtain ⟨paths, hmem, hascending, hvalue⟩ := hliteral.2 ⟨by decide, by decide⟩ _ hcoherent
  have hpaths : paths = ["Run\x7b0/Volume02.h5"] := by
    refine eq_of_ascending hascending (by decide) fun path => ?_
    rw [hmem, List.mem_singleton]
    constructor
    · rintro ⟨name, hname, rfl⟩
      rcases (hlists name).1 hname.listed with rfl | rfl
      · rfl
      · obtain ⟨word, middle, rfl, hsplit⟩ := hname.named
        have hsixth := congrArg (fun text => text.toList[6]?) hsplit
        simp at hsixth
    · rintro rfl
      exact ⟨"Volume02.h5", ⟨(hlists _).2 (.inl rfl), by decide, ⟨_, "2", rfl, by decide⟩,
        by decide⟩, rfl⟩
  obtain ⟨hbraces, -, -⟩ := discover_finds_stem_iff _ "Volume\x7b0,1\x7d" hdirectory
    (by decide) (by decide)
  obtain ⟨-, hrefused, -⟩ := discover_finds_stem_iff _ "Volume\x7b" hdirectory
    (by decide) (by decide)
  refine ⟨hcoherent, ?_, fun hfinds => ?_, ?_⟩
  · rw [hpaths] at hvalue
    exact hvalue
  · exact absurd (hbraces.1 hfinds).1 (by decide)
  · exact (hrefused _ hcoherent ⟨"Volume\x7b*.h5", .unclosedGroup⟩).2 ⟨by decide, by decide⟩

end Xdmf
end PostRun
