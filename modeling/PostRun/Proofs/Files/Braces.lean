import PostRun.Proofs.Files.Matching

/-!
# Braces in a pattern

Three characters make text a pattern.  In a pattern two more have a meaning: braces hold
alternatives.  So text in front of a `*` stands for itself only as long as it has no braces in it.

What braces do is followed character by character.  Only how many groups are open decides whether
the reading goes on (`Glob.openGroups`), and whatever was read stands for text without braces,
since a brace is never taken as it is (`Glob.Part.IsBraceless`).  One step keeps both
(`Glob.Part.step_of_not_isWildcard`), and so does the reading of any text without wildcards.

Behind the text stands a `*` and an ending of plain characters.  Then a name is matched if it begins
with something that the text stands for, and ends as the ending does behind that
(`Glob.exists_parse_of_groupError?`).
-/

namespace PostRun
namespace Files
namespace Glob

/-! ## What the parts of a pattern stand for -/

theorem denotes_andThen {p q : Glob} {bytes : List UInt8} :
    (p.andThen q).Denotes bytes ↔
      ∃ front back, p.Denotes front ∧ q.Denotes back ∧ bytes = front ++ back := by
  have hleft : ∀ q : Glob, q.Denotes bytes ↔
      ∃ front back, nothing.Denotes front ∧ q.Denotes back ∧ bytes = front ++ back := by
    refine fun q => ⟨fun h => ⟨[], bytes, rfl, h, rfl⟩, ?_⟩
    rintro ⟨_, back, rfl, h, rfl⟩
    exact h
  have hright : ∀ p : Glob, p.Denotes bytes ↔
      ∃ front back, p.Denotes front ∧ nothing.Denotes back ∧ bytes = front ++ back := by
    refine fun p => ⟨fun h => ⟨bytes, [], h, rfl, (List.append_nil bytes).symm⟩, ?_⟩
    rintro ⟨front, _, h, rfl, rfl⟩
    rwa [List.append_nil]
  cases p with
  | nothing => exact hleft q
  | _ => cases q with
    | nothing => exact hright _
    | _ => exact Iff.rfl

theorem denotes_single {b : UInt8} {bytes : List UInt8} :
    (one (.single b)).Denotes bytes ↔ bytes = [b] := by
  have haccepts : ∀ byte, (ByteClass.single b).accepts byte ↔ byte = b := by
    intro byte
    simp only [ByteClass.accepts, ByteClass.single, ByteRange.holds, ByteRange.single,
      List.any_cons, List.any_nil, Bool.or_false, Bool.bne_false, Bool.and_eq_true,
      decide_eq_true_iff]
    exact ⟨fun h => UInt8.le_antisymm h.2 h.1, fun h => h ▸ ⟨UInt8.le_refl _, UInt8.le_refl _⟩⟩
  simp only [Denotes, haccepts, exists_eq_left]

/-- A character that stands for itself stands for its bytes. -/
theorem denotes_literal {c : Char} {bytes : List UInt8} :
    (literal c).Denotes bytes ↔ bytes = charBytes c := by
  have hfold : ∀ (bs : List UInt8) (p : Glob) (bytes : List UInt8),
      (bs.foldl (fun p b => p.andThen (one (.single b))) p).Denotes bytes ↔
        ∃ front, p.Denotes front ∧ bytes = front ++ bs := by
    intro bs
    induction bs with
    | nil => simp
    | cons b bs ih =>
      intro p bytes
      rw [List.foldl_cons, ih]
      simp only [denotes_andThen, denotes_single]
      constructor
      · rintro ⟨_, ⟨front, _, hfront, rfl, rfl⟩, rfl⟩
        exact ⟨front, hfront, by simp⟩
      · rintro ⟨front, hfront, rfl⟩
        exact ⟨_, ⟨front, [b], hfront, rfl, rfl⟩, by simp⟩
  rw [literal, hfold]
  simp [Denotes]

/-- A group stands for nothing that none of its alternatives stands for, save the empty name. -/
theorem denotes_of_denotes_group {alternatives : List Glob} {bytes : List UInt8}
    (h : (group alternatives).Denotes bytes) :
    bytes = [] ∨ ∃ p ∈ alternatives, p.Denotes bytes := by
  have hfold : ∀ (qs : List Glob) (p : Glob), (qs.foldl either p).Denotes bytes →
      ∃ q ∈ p :: qs, q.Denotes bytes := by
    intro qs
    induction qs with
    | nil => simp
    | cons q qs ih =>
      intro p hp
      obtain ⟨r, hr, hdenotes⟩ := ih _ hp
      rcases List.mem_cons.1 hr with rfl | hr
      · rcases hdenotes with hp | hq
        · exact ⟨p, by simp, hp⟩
        · exact ⟨q, by simp, hq⟩
      · exact ⟨r, by simp [hr], hdenotes⟩
  rw [group] at h
  split at h
  · exact .inl h
  · next p ps hfilter =>
    obtain ⟨q, hq, hdenotes⟩ := hfold ps p h
    rw [← hfilter] at hq
    exact .inr ⟨q, (List.mem_filter.1 hq).1, hdenotes⟩

/-! ## Text without braces -/

/-- Text that has no braces. -/
def HasNoBraces (cs : List Char) : Prop := '{' ∉ cs ∧ '}' ∉ cs

@[simp] theorem hasNoBraces_nil : HasNoBraces [] := ⟨List.not_mem_nil, List.not_mem_nil⟩

@[simp] theorem hasNoBraces_cons {c : Char} {cs : List Char} :
    HasNoBraces (c :: cs) ↔ (c ≠ '{' ∧ c ≠ '}') ∧ HasNoBraces cs := by
  simp only [HasNoBraces, List.mem_cons, not_or, ne_eq, eq_comm]
  exact and_and_and_comm

@[simp] theorem hasNoBraces_append {as bs : List Char} :
    HasNoBraces (as ++ bs) ↔ HasNoBraces as ∧ HasNoBraces bs := by
  simp only [HasNoBraces, List.mem_append, not_or]
  exact and_and_and_comm

/-- A pattern that stands for text without braces only. -/
def IsBraceless (p : Glob) : Prop :=
  ∀ bytes, p.Denotes bytes → ∃ word, HasNoBraces word ∧ bytes = textBytes word

theorem isBraceless_nothing : nothing.IsBraceless := fun _ h => ⟨[], hasNoBraces_nil, h⟩

theorem isBraceless_literal {c : Char} (hopen : c ≠ '{') (hclose : c ≠ '}') :
    (literal c).IsBraceless := fun _ h =>
  ⟨[c], by simp [hopen, hclose], by simp [denotes_literal.1 h]⟩

theorem IsBraceless.andThen {p q : Glob} (hp : p.IsBraceless) (hq : q.IsBraceless) :
    (p.andThen q).IsBraceless := by
  intro bytes h
  obtain ⟨front, back, hfront, hback, rfl⟩ := denotes_andThen.1 h
  obtain ⟨word, hword, rfl⟩ := hp front hfront
  obtain ⟨word', hword', rfl⟩ := hq back hback
  exact ⟨word ++ word', hasNoBraces_append.2 ⟨hword, hword'⟩, (textBytes_append _ _).symm⟩

theorem isBraceless_group {alternatives : List Glob} (h : ∀ p ∈ alternatives, p.IsBraceless) :
    (group alternatives).IsBraceless := by
  intro bytes hdenotes
  rcases denotes_of_denotes_group hdenotes with rfl | ⟨p, hp, hdenotes⟩
  · exact ⟨[], hasNoBraces_nil, rfl⟩
  · exact h p hp bytes hdenotes

/-! ## Groups -/

/-- The characters that make text a pattern. -/
def IsWildcard (c : Char) : Prop := c = '*' ∨ c = '?' ∨ c = '['

theorem not_isPattern_iff {text : String} :
    ¬ isPattern text ↔ ∀ c ∈ text.toList, ¬ IsWildcard c := by
  simp [isPattern, IsWildcard, and_assoc]

/-- How many groups are open behind one more character; none if it closes one and none is open. -/
def afterBrace (depth : Nat) (c : Char) : Option Nat :=
  if c = '{' then some (depth + 1)
  else if c = '}' then if depth = 0 then none else some (depth - 1)
  else some depth

/-- How many groups are open behind a text. -/
def openGroups (depth : Nat) (cs : List Char) : Option Nat := cs.foldlM afterBrace depth

theorem openGroups_of_hasNoBraces {cs : List Char} (h : HasNoBraces cs) (depth : Nat) :
    openGroups depth cs = some depth := by
  induction cs with
  | nil => rfl
  | cons c cs ih =>
    obtain ⟨⟨hopen, hclose⟩, hrest⟩ := hasNoBraces_cons.1 h
    rw [openGroups, List.foldlM_cons, afterBrace, if_neg hopen, if_neg hclose]
    exact ih hrest

/-- Why the groups of a text are refused, if they are: one is closed that is not open, or one is
left open. -/
def groupError? (cs : List Char) : Option GlobError :=
  match openGroups 0 cs with
  | none => some .unopenedGroup
  | some 0 => none
  | some (_ + 1) => some .unclosedGroup

theorem groupError?_of_hasNoBraces {cs : List Char} (h : HasNoBraces cs) :
    groupError? cs = none := by
  rw [groupError?, openGroups_of_hasNoBraces h]

namespace Part

/-- Nothing that was read stands for a brace. -/
structure IsBraceless (s : Part) : Prop where
  inClass : s.inClass = none
  current : s.current.IsBraceless
  before : ∀ g ∈ s.groups, g.before.IsBraceless
  alternatives : ∀ g ∈ s.groups, ∀ p ∈ g.alternatives, p.IsBraceless

theorem isBraceless_start : start.IsBraceless where
  inClass := rfl
  current := isBraceless_nothing
  before := by simp [start]
  alternatives := by simp [start]

theorem step_literal {s : Part} {c : Char} (hclass : s.inClass = none) (hwild : ¬ IsWildcard c)
    (hopen : c ≠ '{') (hclose : c ≠ '}') (hcomma : c = ',' → s.groups = []) :
    s.step c = .ok (s.append (literal c)) := by
  obtain ⟨hrun, hany, hbracket⟩ : c ≠ '*' ∧ c ≠ '?' ∧ c ≠ '[' := by simpa [IsWildcard] using hwild
  rw [step, hclass]
  simp only [stepText, hrun, hany, hbracket, hopen, hclose, if_false]
  split_ifs with h
  · rw [hcomma h]
  · rfl

/-- The alternatives of a group, with the last one. -/
theorem IsBraceless.forall_mem_alternatives {s : Part} {g : Opened} {gs : List Opened}
    (hs : s.IsBraceless) (hgroups : s.groups = g :: gs) :
    ∀ p ∈ g.alternatives ++ [s.current], p.IsBraceless := by
  simp only [List.mem_append, List.mem_singleton]
  rintro p (hp | rfl)
  · exact hs.alternatives g (hgroups ▸ List.mem_cons_self) p hp
  · exact hs.current

/-- **One character without a wildcard** opens or closes a group, or leaves the groups as they are.
It is refused only if it closes a group that is not open. -/
theorem step_of_not_isWildcard {s : Part} (hs : s.IsBraceless) {c : Char} (hwild : ¬ IsWildcard c) :
    (afterBrace s.groups.length c = none ∧ s.step c = .error .unopenedGroup) ∨
      ∃ s', s.step c = .ok s' ∧ s'.IsBraceless ∧
        afterBrace s.groups.length c = some s'.groups.length := by
  obtain ⟨hrun, hany, hbracket⟩ : c ≠ '*' ∧ c ≠ '?' ∧ c ≠ '[' := by simpa [IsWildcard] using hwild
  have hstep : s.step c = s.stepText c := by rw [step, hs.inClass]
  rw [hstep, stepText, if_neg hany, if_neg hrun, if_neg hbracket, afterBrace]
  by_cases hopen : c = '{'
  · rw [if_pos hopen, if_pos hopen]
    refine .inr ⟨_, rfl, ⟨rfl, isBraceless_nothing, ?_, ?_⟩, rfl⟩
    · exact List.forall_mem_cons.2 ⟨hs.current, hs.before⟩
    · exact List.forall_mem_cons.2 ⟨by simp, hs.alternatives⟩
  · rw [if_neg hopen, if_neg hopen]
    by_cases hclose : c = '}'
    · rw [if_pos hclose, if_pos hclose]
      cases hgroups : s.groups with
      | nil => exact .inl ⟨rfl, rfl⟩
      | cons g gs =>
        have hbefore := hs.before
        have halternatives := hs.alternatives
        rw [hgroups, List.forall_mem_cons] at hbefore halternatives
        have hgroup := isBraceless_group (hs.forall_mem_alternatives hgroups)
        exact .inr ⟨_, rfl, ⟨rfl, hbefore.1.andThen hgroup, hbefore.2, halternatives.2⟩, rfl⟩
    · rw [if_neg hclose, if_neg hclose]
      have hliteral : (s.append (literal c)).IsBraceless :=
        ⟨hs.inClass, hs.current.andThen (isBraceless_literal hopen hclose), hs.before,
          hs.alternatives⟩
      by_cases hcomma : c = ','
      · rw [if_pos hcomma]
        cases hgroups : s.groups with
        | nil => exact .inr ⟨_, rfl, hliteral, by simp [append, hgroups]⟩
        | cons g gs =>
          have hbefore := hs.before
          have halternatives := hs.alternatives
          rw [hgroups, List.forall_mem_cons] at hbefore halternatives
          refine .inr ⟨_, rfl, ⟨rfl, isBraceless_nothing, ?_, ?_⟩, rfl⟩
          · exact List.forall_mem_cons.2 hbefore
          · exact List.forall_mem_cons.2 ⟨hs.forall_mem_alternatives hgroups, halternatives.2⟩
      · rw [if_neg hcomma]
        exact .inr ⟨_, rfl, hliteral, rfl⟩

/-- **Text without wildcards** is refused at the first brace that closes a group and finds none. -/
theorem foldlM_step_of_not_isWildcard {cs : List Char} (hwild : ∀ c ∈ cs, ¬ IsWildcard c)
    {s : Part} (hs : s.IsBraceless) :
    (openGroups s.groups.length cs = none ∧ cs.foldlM step s = .error .unopenedGroup) ∨
      ∃ s', cs.foldlM step s = .ok s' ∧ s'.IsBraceless ∧
        openGroups s.groups.length cs = some s'.groups.length := by
  induction cs generalizing s with
  | nil => exact .inr ⟨s, rfl, hs, rfl⟩
  | cons c cs ih =>
    obtain ⟨hfirst, hrest⟩ := List.forall_mem_cons.1 hwild
    simp only [openGroups, List.foldlM_cons]
    rcases step_of_not_isWildcard hs hfirst with ⟨hdepth, hstep⟩ | ⟨s', hstep, hs', hdepth⟩
    · rw [hdepth, hstep]
      exact .inl ⟨rfl, rfl⟩
    · rw [hdepth, hstep]
      exact ih hrest hs'

/-- Text that stands for itself is read as such. -/
theorem foldlM_step_literal {cs : List Char} (hwild : ∀ c ∈ cs, ¬ IsWildcard c)
    (hbraces : HasNoBraces cs) {s : Part} (hclass : s.inClass = none)
    (hcomma : ',' ∈ cs → s.groups = []) :
    ∃ p, cs.foldlM step s = .ok ⟨p, s.groups, none⟩ ∧ ∀ bytes,
      p.Denotes bytes ↔ ∃ front, s.current.Denotes front ∧ bytes = front ++ textBytes cs := by
  induction cs generalizing s with
  | nil =>
    obtain ⟨current, groups, inClass⟩ := s
    obtain rfl : inClass = none := hclass
    exact ⟨current, rfl, by simp⟩
  | cons c cs ih =>
    obtain ⟨⟨hopen, hclose⟩, hbraces⟩ := hasNoBraces_cons.1 hbraces
    obtain ⟨hfirst, hrest⟩ := List.forall_mem_cons.1 hwild
    have hstep := step_literal hclass hfirst hopen hclose fun h => hcomma (by simp [h])
    obtain ⟨p, hp, hdenotes⟩ := ih hrest hbraces (s := s.append (literal c)) hclass
      fun h => hcomma (List.mem_cons_of_mem _ h)
    refine ⟨p, ?_, fun bytes => ?_⟩
    · rw [List.foldlM_cons, hstep]
      exact hp
    · rw [hdenotes]
      simp only [append, denotes_andThen, denotes_literal]
      constructor
      · rintro ⟨_, ⟨front, _, hfront, rfl, rfl⟩, rfl⟩
        exact ⟨front, hfront, by simp⟩
      · rintro ⟨front, hfront, rfl⟩
        exact ⟨_, ⟨front, _, hfront, rfl, rfl⟩, by simp⟩

end Part

/-! ## Text in front of a star -/

/-- Text whose characters stand for themselves wherever it is found. -/
structure IsPlain (text : String) : Prop where
  not_isWildcard : ∀ c ∈ text.toList, ¬ IsWildcard c
  hasNoBraces : HasNoBraces text.toList
  comma_not_mem : ',' ∉ text.toList

/-- A star and an ending behind a text.  They leave the groups as they are. -/
theorem parse_append_run {stem ending : String} {s : Part}
    (hstem : stem.toList.foldlM Part.step .start = .ok s) (hclass : s.inClass = none)
    (hending : IsPlain ending) :
    ∃ p, parse (stem ++ "*" ++ ending) = Part.finish ⟨p, s.groups, none⟩ ∧
      ∀ bytes, p.Denotes bytes ↔
        ∃ front middle, s.current.Denotes front ∧
          bytes = front ++ middle ++ textBytes ending.toList := by
  have hstar : s.step '*' = .ok (s.append run) := by
    rw [Part.step, hclass]
    rfl
  obtain ⟨p, hp, hdenotes⟩ := Part.foldlM_step_literal hending.not_isWildcard hending.hasNoBraces
    (s := s.append run) hclass fun h => absurd h hending.comma_not_mem
  refine ⟨p, ?_, fun bytes => ?_⟩
  · have hlist : "*".toList = ['*'] := rfl
    rw [parse, String.toList_append, String.toList_append, hlist, List.foldlM_append,
      List.foldlM_append, hstem]
    simp only [bind, Except.bind, List.foldlM_cons, List.foldlM_nil, hstar, pure, Except.pure, hp]
    rfl
  · rw [hdenotes]
    simp only [Part.append, denotes_andThen, Denotes, true_and]
    constructor
    · rintro ⟨_, ⟨front, middle, hfront, rfl⟩, rfl⟩
      exact ⟨front, middle, hfront, rfl⟩
    · rintro ⟨front, middle, hfront, rfl⟩
      exact ⟨_, ⟨front, middle, hfront, rfl⟩, rfl⟩

section Stem

variable {stem ending : String}

/-- **Text whose groups are refused** is refused whatever stands behind it. -/
theorem parse_of_groupError? (hwild : ∀ c ∈ stem.toList, ¬ IsWildcard c)
    (hending : IsPlain ending) {cause : GlobError} (h : groupError? stem.toList = some cause) :
    parse (stem ++ "*" ++ ending) = .error cause := by
  rcases Part.foldlM_step_of_not_isWildcard hwild Part.isBraceless_start with
    ⟨hdepth, hstem⟩ | ⟨s, hstem, hs, hdepth⟩
  · rw [parse, String.toList_append, String.toList_append, List.append_assoc, List.foldlM_append,
      hstem]
    obtain rfl : GlobError.unopenedGroup = cause := by
      rw [groupError?, show openGroups 0 stem.toList = none from hdepth] at h
      exact Option.some.inj h
    rfl
  · obtain ⟨p, hparse, -⟩ := parse_append_run hstem hs.inClass hending
    rw [groupError?, show openGroups 0 stem.toList = some s.groups.length from hdepth] at h
    rw [hparse]
    cases hgroups : s.groups with
    | nil => simp [hgroups] at h
    | cons g gs =>
      rw [hgroups] at h
      exact congrArg Except.error (Option.some.inj h)

/-- **Text whose groups are all closed is read as a pattern of its own.**  With a star and an ending
behind it, it stands for the names that begin with something it stands for and end as the
ending does behind that. -/
theorem exists_parse_of_groupError? (hwild : ∀ c ∈ stem.toList, ¬ IsWildcard c)
    (hending : IsPlain ending) (h : groupError? stem.toList = none) :
    ∃ front glob, parse stem = .ok front ∧ front.IsBraceless ∧
      parse (stem ++ "*" ++ ending) = .ok glob ∧
      ∀ name, glob.accepts name ↔
        ∃ word middle, front.accepts word ∧ name = word ++ middle ++ ending := by
  rcases Part.foldlM_step_of_not_isWildcard hwild Part.isBraceless_start with
    ⟨hdepth, -⟩ | ⟨s, hstem, hs, hdepth⟩
  · rw [groupError?, show openGroups 0 stem.toList = none from hdepth] at h
    cases h
  · have hgroups : s.groups = [] := by
      rw [groupError?, show openGroups 0 stem.toList = some s.groups.length from hdepth] at h
      cases hgroups : s.groups with
      | nil => rfl
      | cons g gs => simp [hgroups] at h
    obtain ⟨glob, hparse, hdenotes⟩ := parse_append_run hstem hs.inClass hending
    refine ⟨s.current, glob, ?_, hs.current, by rw [hparse, hgroups]; rfl, fun name => ?_⟩
    · rw [parse, hstem]
      simp only [bind, Except.bind, Part.finish, hs.inClass, hgroups]
    · rw [accepts_iff, hdenotes]
      simp only [accepts_iff]
      constructor
      · rintro ⟨front, middle, hfront, hname⟩
        obtain ⟨word, -, rfl⟩ := hs.current front hfront
        rw [List.append_assoc] at hname
        obtain ⟨rest, hsplit, hrest⟩ := exists_append_of_textBytes_eq_append hname
        obtain ⟨middle, rfl, -⟩ := exists_append_of_textBytes_eq_append_right hrest.symm
        refine ⟨.ofList word, .ofList middle, by simpa using hfront, String.toList_injective ?_⟩
        simp [hsplit]
      · rintro ⟨word, middle, hword, rfl⟩
        exact ⟨_, textBytes middle.toList, hword, by simp⟩

/-- Text without braces stands for itself. -/
theorem accepts_of_parse_of_hasNoBraces {front : Glob} (hwild : ∀ c ∈ stem.toList, ¬ IsWildcard c)
    (hbraces : HasNoBraces stem.toList) (h : parse stem = .ok front) (word : String) :
    front.accepts word ↔ word = stem := by
  obtain ⟨p, hp, hdenotes⟩ := Part.foldlM_step_literal hwild hbraces (s := .start) rfl fun _ => rfl
  obtain rfl : p = front := by
    rw [parse, hp] at h
    exact Except.ok.inj h
  rw [accepts_iff, hdenotes]
  constructor
  · rintro ⟨_, rfl, hword⟩
    exact String.toList_injective (textBytes_injective hword)
  · rintro rfl
    exact ⟨[], rfl, rfl⟩

/-- A word that text stands for has no braces. -/
theorem IsBraceless.hasNoBraces {p : Glob} (hp : p.IsBraceless) {word : String}
    (h : p.accepts word) : HasNoBraces word.toList := by
  obtain ⟨cs, hcs, hbytes⟩ := hp _ (accepts_iff.1 h)
  rwa [textBytes_injective hbytes]

end Stem

end Glob
end Files
end PostRun
