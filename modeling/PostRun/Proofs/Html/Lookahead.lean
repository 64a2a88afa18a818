import Mathlib.Data.List.TakeWhile
import PostRun.Proofs.Html.Content

/-!
# How far a token is looked for

Whether a text starts with a tag, a comment or the end of a script is told from what stands up to
the next closing bracket.  So what has been read up to a bracket is read in the same way whatever
follows it.  This is shown here for each of the readers that tokens are cut with: for the inside of
a tag (`Inside.read_append`), for text without markup (`rawText_congr`, `scriptText_congr`), for
stretches that are no tags (`declaration_congr`) and for the names of tags
(`Front.ofText_congr_startTag`, `Front.ofText_congr_endTag`).

Plain text is the exception.  It has no bracket at its end, and stops where the next one opens, so
what follows it has to begin alike.
-/

namespace PostRun
namespace Html

/-! ## Names and prefixes -/

theorem prefix_append_cons_iff {p : List Char} (hp : '>' ∉ p) (u r : List Char) :
    p <+: u ++ '>' :: r ↔ p <+: u := by
  induction u generalizing p with
  | nil =>
    cases p with
    | nil => simp
    | cons d ds => simp [Ne.symm (List.ne_of_not_mem_cons hp)]
  | cons c u ih =>
    cases p with
    | nil => simp
    | cons d ds => simp [List.cons_prefix_cons, ih (List.not_mem_of_not_mem_cons hp)]

/-- A name ends before a bracket. -/
theorem startsWithName_congr {name : List Char} (hname : '>' ∉ name) (u r r' : List Char) :
    startsWithName name (u ++ '>' :: r) = startsWithName name (u ++ '>' :: r') := by
  induction u generalizing name with
  | nil =>
    cases name with
    | nil => rfl
    | cons n ns =>
      have hn : (n == '>'.toLower) = false :=
        beq_false_of_ne (Ne.symm (List.ne_of_not_mem_cons hname))
      rw [List.nil_append, List.nil_append, startsWithName, startsWithName, hn]
      rfl
  | cons c u ih =>
    cases name with
    | nil => rfl
    | cons n ns => simp [startsWithName, ih (List.not_mem_of_not_mem_cons hname)]

theorem startsWithEndTag_congr {name : List Char} (hname : '>' ∉ name) (u r r' : List Char) :
    startsWithEndTag name (u ++ '>' :: r) = startsWithEndTag name (u ++ '>' :: r') := by
  rcases u with _ | ⟨c, _ | ⟨d, u⟩⟩
  · rfl
  · by_cases hc : c = '<' <;> simp [startsWithEndTag, hc]
  · by_cases hc : c = '<'
    · by_cases hd : d = '/'
      · subst hc hd
        exact startsWithName_congr hname u r r'
      · simp [startsWithEndTag, hd]
    · simp [startsWithEndTag, hc]

/-! ## The inside of a tag -/

/-- A tag ends with a bracket. -/
theorem Place.step_eq_stop {p : Place} {c : Char} {completed : Option Attribute} {closing : Bool}
    (h : p.step c = .stop completed closing) : c = '>' := by
  by_contra hc
  cases p <;> simp only [Place.step, Place.start, hc, ↓reduceIte] at h <;> split_ifs at h

theorem Inside.exists_raw_eq {p : Place} {cs : List Char} {tag : Inside}
    (h : read p cs = some tag) : ∃ w, tag.raw = w ++ ['>'] := by
  induction cs generalizing p tag with
  | nil => cases h
  | cons c cs ih =>
    unfold read at h
    split at h
    · next hstep =>
      cases h
      exact ⟨[], by rw [Place.step_eq_stop hstep]; rfl⟩
    · obtain ⟨inner, hinner, rfl⟩ := Option.map_eq_some_iff.1 h
      obtain ⟨w, hw⟩ := ih hinner
      exact ⟨c :: w, by simp [cons, hw]⟩

/-- **A tag is read in the same way whatever follows it.** -/
theorem Inside.read_append {p : Place} {cs : List Char} {tag : Inside} (h : read p cs = some tag)
    (rest : List Char) : read p (tag.raw ++ rest) = some { tag with rest := rest } := by
  induction cs generalizing p tag with
  | nil => cases h
  | cons c cs ih =>
    unfold read at h
    split at h
    · next hstep =>
      cases h
      simp [read, hstep]
    · next hstep =>
      obtain ⟨inner, hinner, rfl⟩ := Option.map_eq_some_iff.1 h
      have hrest := ih hinner
      simp only [cons, List.cons_append, read, hstep, hrest, Option.map_some]

/-! ## Text without markup -/

section Text

variable {name : List Char}

theorem rawText_eq_nil_iff {cs : List Char} (hcs : cs ≠ []) :
    rawText name cs = ([], cs) ↔ startsWithEndTag name cs := by
  obtain ⟨c, cs, rfl⟩ := List.exists_cons_of_ne_nil hcs
  rw [rawText]
  split
  · next hend => exact iff_of_true rfl hend
  · next hend => exact iff_of_false (fun h => by cases h) hend

theorem rawText_congr (hname : '>' ∉ name) {text u r : List Char}
    (h : rawText name (text ++ (u ++ '>' :: r)) = (text, u ++ '>' :: r)) (r' : List Char) :
    rawText name (text ++ (u ++ '>' :: r')) = (text, u ++ '>' :: r') := by
  induction text with
  | nil =>
    have hne : ∀ r, u ++ '>' :: r ≠ [] := by simp
    rw [List.nil_append] at h ⊢
    rw [rawText_eq_nil_iff (hne r')]
    rwa [rawText_eq_nil_iff (hne r), startsWithEndTag_congr hname u r r'] at h
  | cons c text ih =>
    have hend := startsWithEndTag_congr hname (c :: (text ++ u)) r r'
    rw [List.cons_append, List.append_assoc, List.cons_append, List.append_assoc] at hend
    rw [List.cons_append, rawText] at h ⊢
    rw [← hend]
    split at h
    · cases h
    · next hnot =>
      rw [if_neg hnot]
      rw [Prod.mk.injEq, List.cons.injEq] at h
      rw [ih (Prod.ext h.1.2 h.2)]

theorem Escape.step_never (c : Char) (cs : List Char) :
    never.step c cs = if c = '<' ∧ ['!', '-', '-'] <+: cs then once 0 else never := by
  by_cases h : c = '<' ∧ ['!', '-', '-'] <+: cs
  · obtain ⟨rfl, rest, rfl⟩ := h
    rfl
  · rw [if_neg h, step]
    rintro rest rfl rfl
    exact h ⟨rfl, rest, rfl⟩

/-- The escape behind a character is told from what stands up to the next bracket. -/
theorem Escape.step_congr (e : Escape) (c : Char) (u r r' : List Char) :
    e.step c (u ++ '>' :: r) = e.step c (u ++ '>' :: r') := by
  have hscript : '>' ∉ Escape.script := by decide
  have hname := startsWithName_congr hscript u r r'
  have hend := startsWithEndTag_congr hscript (c :: u) r r'
  rw [List.cons_append, List.cons_append] at hend
  have hopening : '>' ∉ ['!', '-', '-'] := by decide
  cases e with
  | never =>
    simp only [step_never, prefix_append_cons_iff hopening]
  | once n => rw [step, step, hname]
  | twice n => rw [step, step, hend]

theorem scriptText_eq_nil_iff {e : Escape} {cs : List Char} (hcs : cs ≠ []) :
    scriptText e cs = ([], cs) ↔ e.isOpen ∧ startsWithEndTag Escape.script cs := by
  obtain ⟨c, cs, rfl⟩ := List.exists_cons_of_ne_nil hcs
  rw [scriptText, ← Bool.and_eq_true]
  split
  · next hend => exact iff_of_true rfl hend
  · next hend => exact iff_of_false (fun h => by cases h) hend

theorem scriptText_congr {e : Escape} {text u r : List Char}
    (h : scriptText e (text ++ (u ++ '>' :: r)) = (text, u ++ '>' :: r)) (r' : List Char) :
    scriptText e (text ++ (u ++ '>' :: r')) = (text, u ++ '>' :: r') := by
  have hscript : '>' ∉ Escape.script := by decide
  induction text generalizing e with
  | nil =>
    have hne : ∀ r, u ++ '>' :: r ≠ [] := by simp
    rw [List.nil_append] at h ⊢
    rw [scriptText_eq_nil_iff (hne r')]
    rwa [scriptText_eq_nil_iff (hne r), startsWithEndTag_congr hscript u r r'] at h
  | cons c text ih =>
    have hend := startsWithEndTag_congr hscript (c :: (text ++ u)) r r'
    have hstep := e.step_congr c (text ++ u) r r'
    rw [List.cons_append, List.append_assoc, List.cons_append, List.append_assoc] at hend
    rw [List.append_assoc, List.append_assoc] at hstep
    rw [List.cons_append, scriptText] at h ⊢
    rw [← hend, ← hstep]
    split at h
    · cases h
    · next hnot =>
      rw [if_neg hnot]
      rw [Prod.mk.injEq, List.cons.injEq] at h
      rw [ih (Prod.ext h.1.2 h.2)]

end Text

/-! ## Stretches that are no tags -/

/-- An end that is looked for holds one bracket, as its last character, and is told from what stands
up to the next bracket. -/
structure EndsAtBracket (isStop : List Char → Option (List Char × List Char)) : Prop where
  append : ∀ {cs r}, isStop cs = some r → r.1 ++ r.2 = cs
  ends : ∀ {cs r}, isStop cs = some r → ∃ w, r.1 = w ++ ['>']
  eq_map : ∀ u r, isStop (u ++ '>' :: r) = (isStop (u ++ ['>'])).map fun q => (q.1, q.2 ++ r)

theorem endsAtBracket_bracket : EndsAtBracket bracket where
  append := bracket_append
  ends {cs r} h := by
    unfold bracket at h
    split at h
    · cases h
      exact ⟨[], rfl⟩
    · cases h
  eq_map u r := by
    rcases u with _ | ⟨c, u⟩
    · rfl
    · by_cases hc : c = '>'
      · simp [bracket, hc]
      · simp [bracket, hc]

theorem endsAtBracket_sectionEnd : EndsAtBracket sectionEnd where
  append := sectionEnd_append
  ends {cs r} h := by
    unfold sectionEnd at h
    split at h
    · cases h
      exact ⟨[']', ']'], rfl⟩
    · cases h
  eq_map u r := by
    rcases u with _ | ⟨c, _ | ⟨d, _ | ⟨e, u⟩⟩⟩
    · rfl
    · simp [sectionEnd]
    · by_cases hc : c = ']' <;> by_cases hd : d = ']' <;> simp [sectionEnd, hc, hd]
    · by_cases hc : c = ']' <;> by_cases hd : d = ']' <;> by_cases he : e = '>' <;>
        simp [sectionEnd, hc, hd, he]

theorem endsAtBracket_commentEnd : EndsAtBracket commentEnd where
  append := commentEnd_append
  ends {cs r} h := by
    unfold commentEnd at h
    split at h
    · cases h
      exact ⟨['-', '-'], rfl⟩
    · cases h
      exact ⟨['-', '-', '!'], rfl⟩
    · cases h
  eq_map u r := by
    rcases u with _ | ⟨c, _ | ⟨d, _ | ⟨e, _ | ⟨f, u⟩⟩⟩⟩
    · rfl
    · simp [commentEnd]
    · by_cases hc : c = '-' <;> by_cases hd : d = '-' <;> simp [commentEnd, hc, hd]
    · by_cases hc : c = '-' <;> by_cases hd : d = '-' <;> by_cases he : e = '>' <;>
        by_cases he' : e = '!' <;> simp [commentEnd, hc, hd, he, he']
    · by_cases hc : c = '-' <;> by_cases hd : d = '-' <;> by_cases he : e = '>' <;>
        by_cases he' : e = '!' <;> by_cases hf : f = '>' <;>
          simp [commentEnd, hc, hd, he, he', hf]

/-- A reader takes text up to a bracket, and takes it whatever follows. -/
structure IsLocal (read : List Char → Option (List Char × List Char)) : Prop where
  append : ∀ {cs r}, read cs = some r → r.1 ++ r.2 = cs
  ends : ∀ {cs r}, read cs = some r → ∃ w, r.1 = w ++ ['>']
  congr : ∀ {w r}, read (w ++ '>' :: r) = some (w ++ ['>'], r) →
    ∀ r', read (w ++ '>' :: r') = some (w ++ ['>'], r')

theorem EndsAtBracket.ends_upTo {isStop : List Char → Option (List Char × List Char)}
    (hstop : EndsAtBracket isStop) {cs : List Char} {r : List Char × List Char}
    (h : upTo isStop cs = some r) : ∃ w, r.1 = w ++ ['>'] := by
  induction cs generalizing r with
  | nil => cases h
  | cons c cs ih =>
    unfold upTo at h
    split at h
    · next q hq =>
      cases h
      exact hstop.ends hq
    · obtain ⟨q, hq, rfl⟩ := Option.map_eq_some_iff.1 h
      obtain ⟨w, hw⟩ := ih hq
      exact ⟨c :: w, by simp [hw]⟩

theorem EndsAtBracket.isLocal_upTo {isStop : List Char → Option (List Char × List Char)}
    (hstop : EndsAtBracket isStop) : IsLocal (upTo isStop) where
  append := upTo_append hstop.append
  ends := hstop.ends_upTo
  congr {w r} h r' := by
    induction w with
    | nil =>
      rw [List.nil_append] at h ⊢
      rw [upTo, ← List.nil_append ('>' :: r), hstop.eq_map] at h
      rw [upTo, ← List.nil_append ('>' :: r'), hstop.eq_map]
      cases hq : isStop ([] ++ ['>']) with
      | none =>
        -- the reader goes on behind the bracket, and takes another one
        rw [hq, Option.map_none] at h
        obtain ⟨q, hq, heq⟩ := Option.map_eq_some_iff.1 h
        obtain ⟨v, hv⟩ := hstop.ends_upTo hq
        simp [hv] at heq
      | some q =>
        rw [hq] at h
        have hrest : q.1 = ['>'] ∧ q.2 = [] := by simpa using h
        simp [hrest]
    | cons c w ih =>
      rw [List.cons_append] at h ⊢
      rw [upTo, ← List.cons_append, hstop.eq_map] at h
      rw [upTo, ← List.cons_append, hstop.eq_map]
      cases hq : isStop (c :: w ++ ['>']) with
      | none =>
        rw [hq, Option.map_none] at h
        obtain ⟨q, hq, heq⟩ := Option.map_eq_some_iff.1 h
        obtain ⟨hfirst, hsecond⟩ : q.1 = w ++ ['>'] ∧ q.2 = r := by simpa using heq
        have hrest := ih (hq.trans (congrArg some (Prod.ext hfirst hsecond)))
        simp [hrest]
      | some q =>
        rw [hq] at h
        have hrest : q.1 = c :: w ++ ['>'] ∧ q.2 = [] := by simpa using h
        simp [hrest]

theorem commentText_eq_upTo {cs : List Char} (hclosed : ∀ rest, cs ≠ '>' :: rest)
    (hdashed : ∀ rest, cs ≠ '-' :: '>' :: rest) : commentText cs = upTo commentEnd cs := by
  unfold commentText
  split
  · exact absurd rfl (hclosed _)
  · exact absurd rfl (hdashed _)
  · rfl

theorem isLocal_commentText : IsLocal commentText where
  append := commentText_append
  ends {cs r} h := by
    unfold commentText at h
    split at h
    · cases h
      exact ⟨[], rfl⟩
    · cases h
      exact ⟨['-'], rfl⟩
    · exact endsAtBracket_commentEnd.ends_upTo h
  congr {w r} h r' := by
    have hlocal := endsAtBracket_commentEnd.isLocal_upTo
    rcases w with _ | ⟨c, _ | ⟨d, w⟩⟩
    · rfl
    · by_cases hgt : c = '>'
      · subst hgt
        cases h
      · by_cases hdash : c = '-'
        · subst hdash
          rfl
        · have hupTo : ∀ r, commentText ([c] ++ '>' :: r) = upTo commentEnd ([c] ++ '>' :: r) :=
            fun r => commentText_eq_upTo (by simp [hgt]) (by simp [hdash])
          rw [hupTo] at h ⊢
          exact hlocal.congr h r'
    · by_cases hgt : c = '>'
      · subst hgt
        simp [commentText] at h
      · by_cases hdash : c = '-' ∧ d = '>'
        · obtain ⟨rfl, rfl⟩ := hdash
          simp [commentText] at h
        · have hupTo : ∀ r, commentText (c :: d :: w ++ '>' :: r) =
              upTo commentEnd (c :: d :: w ++ '>' :: r) := fun r =>
            commentText_eq_upTo (by simp [hgt]) fun rest heq => by
              simp only [List.cons_append, List.cons.injEq] at heq
              exact hdash ⟨heq.1, heq.2.1⟩
          rw [hupTo] at h ⊢
          exact hlocal.congr h r'

/-- What a reader takes behind an opening. -/
theorem IsLocal.of_behind {read : List Char → Option (List Char × List Char)} (hread : IsLocal read)
    {opening cs raw rest : List Char} (h : behind opening (read cs) = some (raw, rest)) :
    ∃ w, raw = opening ++ (w ++ ['>']) ∧ cs = w ++ '>' :: rest ∧
      ∀ r', behind opening (read (w ++ '>' :: r')) = some (raw, r') := by
  obtain ⟨⟨text, rest'⟩, hq, heq⟩ := Option.map_eq_some_iff.1 h
  obtain ⟨w, hw⟩ := hread.ends hq
  have happend := hread.append hq
  simp only [Prod.mk.injEq] at heq hw happend
  obtain ⟨rfl, rfl⟩ := heq
  subst hw
  rw [List.append_assoc, List.singleton_append] at happend
  refine ⟨w, rfl, happend.symm, fun r' => ?_⟩
  rw [← happend] at hq
  rw [hread.congr hq r']
  rfl

/-! ## The front of a text -/

/-- Whether a text begins as a tag does. -/
def opensTag : List Char → Bool
  | '<' :: '/' :: c :: _ => c.isAlpha
  | '<' :: c :: _ => c.isAlpha
  | _ => false

theorem Front.ofText_eq_other_iff (cs : List Char) : ofText cs = .other ↔ opensTag cs = false := by
  unfold ofText opensTag
  split
  · split <;> simp [*]
  · split <;> simp [*]
  · simp

/-- Whether a text begins as a comment, a section or an end tag does. -/
def opensStretch : List Char → Bool
  | '<' :: '!' :: _ => true
  | '<' :: '?' :: _ => true
  | '<' :: '/' :: _ => true
  | _ => false

theorem declaration_bang (inForeign : Bool) (cs : List Char) :
    declaration inForeign ('<' :: '!' :: cs) =
      if ['-', '-'] <+: cs then behind ['<', '!', '-', '-'] (commentText (cs.drop 2))
      else if "[CDATA[".toList <+: cs then
        behind "<![CDATA[".toList (upTo (if inForeign then sectionEnd else bracket) (cs.drop 7))
      else behind ['<', '!'] (upTo bracket cs) := by
  by_cases hcomment : ['-', '-'] <+: cs
  · obtain ⟨rest, rfl⟩ := hcomment
    rfl
  · rw [if_neg hcomment]
    by_cases hsection : "[CDATA[".toList <+: cs
    · rw [if_pos hsection]
      obtain ⟨rest, rfl⟩ := hsection
      cases inForeign <;> rfl
    · rw [if_neg hsection, declaration]
      · rintro rest rfl
        exact hcomment ⟨rest, rfl⟩
      · rintro rest rfl
        exact hsection ⟨rest, rfl⟩

theorem declaration_of_plain {inForeign : Bool} {c : Char} {cs : List Char}
    (h : opensStretch (c :: cs) = false) :
    declaration inForeign (c :: cs) =
      some (c :: cs.takeWhile (· != '<'), cs.dropWhile (· != '<')) := by
  unfold declaration
  split <;> simp_all [opensStretch]

/-- A stretch up to a bracket is taken whatever follows it. -/
theorem declaration_congr_of_opensStretch {inForeign : Bool} {raw rest : List Char}
    (hopens : opensStretch (raw ++ rest) = true)
    (h : declaration inForeign (raw ++ rest) = some (raw, rest)) (rest' : List Char) :
    opensTag (raw ++ rest') = opensTag (raw ++ rest) ∧
      declaration inForeign (raw ++ rest') = some (raw, rest') := by
  generalize hcs : raw ++ rest = cs at hopens h
  have hsection := endsAtBracket_sectionEnd.isLocal_upTo
  have hbracket := endsAtBracket_bracket.isLocal_upTo
  -- where the stretch ends is told by its opening, and that is part of it
  have hassoc : ∀ opening w : List Char,
      opening ++ (w ++ ['>']) ++ rest' = opening ++ (w ++ '>' :: rest') := by simp
  unfold opensStretch at hopens
  split at hopens
  · next cs =>
    rw [declaration_bang] at h
    split at h
    · next hcomment =>
      obtain ⟨cs, rfl⟩ := hcomment
      obtain ⟨w, rfl, -, htext⟩ := isLocal_commentText.of_behind h
      rw [hassoc]
      exact ⟨rfl, htext rest'⟩
    · next hcomment =>
      split at h
      · next hcdata =>
        obtain ⟨cs, rfl⟩ := hcdata
        cases inForeign with
        | false =>
          obtain ⟨w, rfl, -, htext⟩ := hbracket.of_behind h
          rw [hassoc]
          exact ⟨rfl, htext rest'⟩
        | true =>
          obtain ⟨w, rfl, -, htext⟩ := hsection.of_behind h
          rw [hassoc]
          exact ⟨rfl, htext rest'⟩
      · next hcdata =>
        obtain ⟨w, rfl, rfl, htext⟩ := hbracket.of_behind h
        have hcomment' : ¬ ['-', '-'] <+: w ++ '>' :: rest' := by
          rwa [prefix_append_cons_iff (by decide)] at hcomment ⊢
        have hcdata' : ¬ "[CDATA[".toList <+: w ++ '>' :: rest' := by
          rwa [prefix_append_cons_iff (by decide)] at hcdata ⊢
        have hdecl := declaration_bang inForeign (w ++ '>' :: rest')
        rw [if_neg hcomment', if_neg hcdata', htext] at hdecl
        rw [hassoc]
        exact ⟨rfl, hdecl⟩
  · obtain ⟨w, rfl, -, htext⟩ := hbracket.of_behind h
    rw [hassoc]
    exact ⟨rfl, htext rest'⟩
  · obtain ⟨w, rfl, rfl, htext⟩ := hbracket.of_behind h
    rw [hassoc]
    refine ⟨?_, htext rest'⟩
    cases w <;> rfl
  · cases hopens

theorem opensStretch_cons (c : Char) (cs : List Char) :
    opensStretch (c :: cs) = (c == '<' && cs.head?.any ['!', '?', '/'].contains) := by
  unfold opensStretch
  split <;> rcases cs with _ | ⟨d, cs⟩ <;> simp_all

theorem opensTag_cons {c : Char} {cs : List Char} (h : opensStretch (c :: cs) = false) :
    opensTag (c :: cs) = (c == '<' && cs.head?.any Char.isAlpha) := by
  unfold opensTag
  split <;> rcases cs with _ | ⟨d, cs⟩ <;> simp_all [opensStretch]

/-- Text without brackets is taken up to the bracket that opens the next tag. -/
theorem takeWhile_append_of_plain {text rest : List Char} (htext : ∀ d ∈ text, d ≠ '<')
    (hrest : ∀ d ∈ rest.head?, d = '<') :
    (text ++ rest).takeWhile (· != '<') = text ∧ (text ++ rest).dropWhile (· != '<') = rest := by
  have hplain : ∀ d ∈ text, (d != '<') = true := fun d hd => bne_iff_ne.2 (htext d hd)
  rw [List.takeWhile_append_of_pos hplain, List.dropWhile_append_of_pos hplain]
  cases rest with
  | nil => simp
  | cons d ds => simp [hrest d rfl]

/-- **A stretch that is no tag is taken whatever follows it**, as long as that begins alike. -/
theorem declaration_congr {inForeign : Bool} {raw rest rest' : List Char}
    (h : declaration inForeign (raw ++ rest) = some (raw, rest))
    (hhead : rest'.head? = rest.head?) (hother : opensTag (raw ++ rest) = false) :
    opensTag (raw ++ rest') = false ∧
      declaration inForeign (raw ++ rest') = some (raw, rest') := by
  cases hopens : opensStretch (raw ++ rest) with
  | true =>
    obtain ⟨htag, hdecl⟩ := declaration_congr_of_opensStretch hopens h rest'
    exact ⟨htag.trans hother, hdecl⟩
  | false =>
    obtain ⟨c, text, rfl⟩ := List.exists_cons_of_ne_nil (declaration_ne_nil h)
    rw [List.cons_append] at h hopens hother ⊢
    rw [declaration_of_plain hopens] at h
    obtain ⟨htake, hdrop⟩ : (text ++ rest).takeWhile (· != '<') = text ∧
        (text ++ rest).dropWhile (· != '<') = rest := by simpa using h
    have hsecond : (text ++ rest').head? = (text ++ rest).head? := by
      rw [List.head?_append, List.head?_append, hhead]
    have hopens' : opensStretch (c :: (text ++ rest')) = false := by
      rw [opensStretch_cons] at hopens ⊢
      rwa [hsecond]
    have hplain : ∀ d ∈ text, d ≠ '<' := by
      intro d hd
      rw [← htake] at hd
      exact bne_iff_ne.1 (List.mem_takeWhile_imp (p := (· != '<')) hd)
    have hstop : ∀ d ∈ rest'.head?, d = '<' := by
      intro d hd
      have hnot := List.head?_dropWhile_not (· != '<') (text ++ rest)
      rw [hdrop, ← hhead, hd] at hnot
      simpa using hnot
    obtain ⟨htake', hdrop'⟩ := takeWhile_append_of_plain hplain hstop
    rw [opensTag_cons hopens] at hother
    rw [opensTag_cons hopens', hsecond, declaration_of_plain hopens', htake', hdrop']
    exact ⟨hother, rfl⟩

/-! ## The names of tags -/

namespace Front

variable {cs chars inner : List Char} {tag : Inside}

theorem exists_name_of_startTag (h : ofText cs = .startTag chars inner) :
    ∃ c ds, c.isAlpha ∧ cs = '<' :: c :: ds ∧ name (c :: ds) = (chars, inner) := by
  unfold ofText at h
  split at h
  · split at h <;> cases h
  · next c ds _ =>
    split at h
    · next hc =>
      cases h
      exact ⟨c, ds, hc, rfl, rfl⟩
    · cases h
  · cases h

theorem exists_name_of_endTag (h : ofText cs = .endTag chars inner) :
    ∃ c ds, c.isAlpha ∧ cs = '<' :: '/' :: c :: ds ∧ name (c :: ds) = (chars, inner) := by
  unfold ofText at h
  split at h
  · next c ds =>
    split at h
    · next hc =>
      cases h
      exact ⟨c, ds, hc, rfl, rfl⟩
    · cases h
  · split at h <;> cases h
  · cases h

/-- The name of a tag that is closed, whatever follows the tag. -/
theorem name_congr {c : Char} {ds : List Char} (hc : c.isAlpha)
    (hname : name (c :: ds) = (chars, inner)) (htag : Inside.read .beforeName inner = some tag) :
    ∃ more, chars = c :: more ∧
      ∀ rest, name (c :: (more ++ (tag.raw ++ rest))) = (chars, tag.raw ++ rest) := by
  have hstays : ∀ d ∈ (name (c :: ds)).1, endsName d = false := fun d hd => by
    simpa using List.mem_takeWhile_imp (p := fun d => !endsName d) hd
  have hends : ∀ e ∈ (name (c :: ds)).2.head?, endsName e := fun e he => by
    have hnot := List.head?_dropWhile_not (fun d => !endsName d) (c :: ds)
    rw [show ((c :: ds).dropWhile fun d => !endsName d).head? = some e from he] at hnot
    simpa using hnot
  have hmore : (name (c :: ds)).1 = c :: ds.takeWhile fun d => !endsName d := by
    simp [name, endsName_eq_false_of_isAlpha hc]
  rw [hname] at hstays hends hmore
  obtain ⟨w, hw⟩ := Inside.exists_raw_eq htag
  obtain ⟨e, raw, hraw⟩ := List.exists_cons_of_ne_nil (show tag.raw ≠ [] by simp [hw])
  rw [← Inside.raw_append_rest htag, hraw] at hends
  refine ⟨_, hmore, fun rest => ?_⟩
  rw [← List.cons_append, ← hmore, hraw]
  exact name_append_of_endsName hstays (hends e rfl) _

/-- **A start tag is found whatever follows it.** -/
theorem ofText_congr_startTag (h : ofText cs = .startTag chars inner)
    (htag : Inside.read .beforeName inner = some tag) (rest : List Char) :
    ofText ('<' :: chars ++ tag.raw ++ rest) = .startTag chars (tag.raw ++ rest) := by
  obtain ⟨c, ds, hc, -, hname⟩ := exists_name_of_startTag h
  obtain ⟨more, rfl, hrest⟩ := name_congr hc hname htag
  have hassoc : '<' :: (c :: more) ++ tag.raw ++ rest =
      '<' :: c :: (more ++ (tag.raw ++ rest)) := by simp
  rw [hassoc, ofText_startTag hc, hrest]

/-- **An end tag is found whatever follows it.** -/
theorem ofText_congr_endTag (h : ofText cs = .endTag chars inner)
    (htag : Inside.read .beforeName inner = some tag) (rest : List Char) :
    ofText ('<' :: '/' :: chars ++ tag.raw ++ rest) = .endTag chars (tag.raw ++ rest) := by
  obtain ⟨c, ds, hc, -, hname⟩ := exists_name_of_endTag h
  obtain ⟨more, rfl, hrest⟩ := name_congr hc hname htag
  have hassoc : '<' :: '/' :: (c :: more) ++ tag.raw ++ rest =
      '<' :: '/' :: c :: (more ++ (tag.raw ++ rest)) := by simp
  rw [hassoc, ofText, if_pos hc, hrest]

end Front

end Html
end PostRun
