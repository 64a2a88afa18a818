import PostRun.Proofs.Html.Lookahead

/-!
# Cutting step by step

A page is cut by taking tokens off its front.  `CutStep` says what is taken and what is left, with
the state on both sides, and has one constructor for each way in which tokens are taken.  Text
without markup is taken together with the end tag behind it, because nothing that is written between
the two is markup.

* `CutStep.cutAt_eq`: what is left is cut as if nothing had stood before it.
* `CutStep.congr`: the same tokens are taken whatever is left, as long as it begins alike.
* `exists_cutStep`: unless a text has no tags any more, there is a step.
* `cutAt_induction`: what every step keeps holds of all tokens of a text.
-/

namespace PostRun
namespace Html

/-! ## Cutting off several tokens -/

namespace Cut

/-- Puts tokens in front. -/
def prepend (ts : List Token) (c : Cut) : Cut := { c with tokens := ts ++ c.tokens }

theorem prepend_append (ts us : List Token) (c : Cut) :
    prepend (ts ++ us) c = prepend ts (prepend us c) :=
  congrArg (Cut.mk · c.doubtful) (List.append_assoc ts us c.tokens)

@[simp] theorem tokens_prepend (ts : List Token) (c : Cut) :
    (prepend ts c).tokens = ts ++ c.tokens := rfl

@[simp] theorem doubtful_prepend (ts : List Token) (c : Cut) :
    (prepend ts c).doubtful = c.doubtful :=
  rfl

end Cut

namespace TextMode

/-- The element whose text this is. -/
def element? : TextMode → Option String
  | raw name => some name
  | script => some "script"
  | _ => none

/-- Text without markup, and what follows from the end tag of its element on. -/
def split : TextMode → List Char → List Char × List Char
  | raw name, cs => rawText name.toList cs
  | script, cs => scriptText .never cs
  | _, cs => ([], cs)

end TextMode

/-- The token of a text, which may be empty. -/
def textTokens (text : List Char) : List Token := (Cut.ofText text).tokens

section Equations

variable {s : State} {cs rest : List Char}

/-- Text in front of a tag. -/
theorem cutAt_plainText (hmode : s.mode = .markup) (t : PlainText) (hne : t.chars ≠ [])
    (hrest : rest.head? = some '<') :
    cutAt s (t.chars ++ rest) = (cutAt s rest).cons (.other t.chars) := by
  obtain ⟨chars, hchars⟩ := t
  obtain ⟨c, text, rfl⟩ := List.exists_cons_of_ne_nil hne
  obtain ⟨rest, rfl⟩ := List.head?_eq_some_iff.1 hrest
  obtain ⟨hc, htext⟩ := not_or.1 (mt List.mem_cons.2 hchars)
  have hstretch : opensStretch (c :: (text ++ '<' :: rest)) = false := by
    simp [opensStretch_cons, Ne.symm hc]
  have hfront : Front.ofText (c :: (text ++ '<' :: rest)) = .other := by
    rw [Front.ofText_eq_other_iff, opensTag_cons hstretch]
    simp [Ne.symm hc]
  have hplain : ∀ d ∈ text, d ≠ '<' := fun d hd => ne_of_mem_of_not_mem hd htext
  have hstop : ∀ d ∈ ('<' :: rest).head?, d = '<' := by simp
  obtain ⟨htake, hdrop⟩ := takeWhile_append_of_plain hplain hstop
  refine cutAt_of_other hmode hfront ?_
  rw [List.cons_append, declaration_of_plain hstretch, htake, hdrop]

theorem TextMode.split_append (mode : TextMode) (cs : List Char) :
    (mode.split cs).1 ++ (mode.split cs).2 = cs := by
  cases mode with
  | raw name => exact rawText_append name.toList cs
  | script => exact scriptText_append .never cs
  | markup => rfl
  | plain => rfl

theorem prepend_textTokens (text : List Char) (c : Cut) :
    c.prepend (textTokens text) = if text.isEmpty then c else c.cons (.other text) := by
  unfold textTokens Cut.ofText
  split <;> rfl

theorem cutAt_nil (s : State) : cutAt s [] = ⟨[], none⟩ := by
  unfold cutAt
  cases need s [] <;> rfl

/-- Text without markup is followed by markup. -/
theorem cutAt_of_element {name : String} (hname : s.mode.element? = some name)
    (cs : List Char) :
    cutAt s cs =
      (cutAt { s with mode := .markup } (s.mode.split cs).2).prepend
        (textTokens (s.mode.split cs).1) := by
  have happend := TextMode.split_append s.mode cs
  obtain _ | ⟨c, cs⟩ := cs
  · obtain ⟨htext, hrest⟩ := List.append_eq_nil_iff.1 happend
    rw [htext, hrest, cutAt_nil, cutAt_nil]
    rfl
  · obtain ⟨fuel, hfuel, hrest⟩ := exists_cutFrom_eq_cutAt s (List.cons_ne_nil c cs)
    have hmode : s.mode ≠ .markup := by
      intro hmode
      rw [hmode] at hname
      cases hname
    rw [hfuel, cutFrom, prepend_textTokens, ← hrest (need_lt_of_mode hmode rfl happend)]
    unfold TextMode.element? at hname
    split at hname
    · next hraw => rw [hraw]; rfl
    · next hscript => rw [hscript]; rfl
    · cases hname

end Equations

/-! ## Steps -/

/-- What is taken off the front of a text, and what is left of it.  The state is that at the front,
first of all of the text and then of what is left. -/
inductive CutStep : State → List Char → List Token → State → List Char → Prop where
  | start {s : State} {cs chars inner : List Char} {guard : Guard} {tag : Inside}
      (hmode : s.mode = .markup) (hfront : Front.ofText cs = .startTag chars inner)
      (hguard : s.guard.behindStart (nameOf chars) = some guard)
      (htag : Inside.read .beforeName inner = some tag) :
      CutStep s cs [.start (s.startTag guard chars tag)]
        (s.behindStart guard (nameOf chars) tag) tag.rest
  | stop {s : State} {cs chars inner : List Char} {tag : Inside}
      (hmode : s.mode = .markup) (hfront : Front.ofText cs = .endTag chars inner)
      (htag : Inside.read .beforeName inner = some tag) :
      CutStep s cs [.stop (s.endTag chars tag)] (s.behindEnd (nameOf chars)) tag.rest
  | other {s : State} {cs text rest : List Char}
      (hmode : s.mode = .markup) (hfront : Front.ofText cs = .other)
      (hdecl : declaration (s.vocabularies.current != .plain) cs = some (text, rest)) :
      CutStep s cs [.other text] s rest
  | text {s next : State} {cs text behind rest : List Char} {name : String} {tag : EndTag}
      (hname : s.mode.element? = some name) (hsplit : s.mode.split cs = (text, behind))
      (htag : tag.name = name)
      (hstop : CutStep { s with mode := .markup } behind [.stop tag] next rest) :
      CutStep s cs (textTokens text ++ [.stop tag]) next rest

@[simp] theorem flatMap_raw_textTokens (text : List Char) :
    (textTokens text).flatMap Token.raw = text := by
  unfold textTokens Cut.ofText
  split
  · next hempty => simp [List.isEmpty_iff.1 hempty]
  · simp [Token.raw]

namespace TextMode

/-- Behind plain markup, a start tag opens the text of its own element. -/
theorem eq_of_element?_ofName {name name' : String} (h : (ofName name).element? = some name') :
    name' = name ∧ isTextName name := by
  unfold isTextName
  unfold ofName at h ⊢
  split at h
  · cases h
  · split at h
    · next hscript =>
      cases h
      simp [hscript]
    · split at h
      · next hplain hscript hraw =>
        cases h
        rw [if_neg hplain, if_neg hscript, if_pos hraw]
        exact ⟨rfl, rfl⟩
      · cases h

/-- The names of the elements whose text is not markup. -/
def textNames : List String :=
  ["plaintext", "script", "textarea", "title", "style", "iframe", "xmp", "noembed", "noframes",
    "noscript"]

theorem mem_textNames {name : String} (h : isTextName name) : name ∈ textNames := by
  unfold isTextName TextMode.ofName at h
  split at h
  · simp [textNames, *]
  · split at h
    · simp [textNames, *]
    · split at h
      · next hraw => exact List.mem_cons_of_mem _ (List.mem_cons_of_mem _ (by simpa using hraw))
      · cases h

/-- They are made of small letters. -/
theorem isLower_of_isTextName {name : String} (h : isTextName name) :
    name.toList ≠ [] ∧ ∀ c ∈ name.toList, c.isLower := by
  have hall : ∀ name ∈ textNames, (!name.toList.isEmpty && name.toList.all Char.isLower) := by
    decide
  simpa using hall name (mem_textNames h)

/-- They have content, and are none of drawings and formulas. -/
theorem ne_of_isTextName {name : String} (h : isTextName name) :
    isVoid name = false ∧ name ≠ "svg" ∧ name ≠ "math" ∧ name ≠ "p" := by
  have hall : ∀ name ∈ textNames,
      isVoid name = false ∧ name ≠ "svg" ∧ name ≠ "math" ∧ name ≠ "p" := by decide
  exact hall name (mem_textNames h)

/-- Text without markup is the same whatever follows the end tag behind it. -/
theorem split_congr {mode : TextMode} {name : String} (hname : mode.element? = some name)
    (htext : isTextName name) {text u r : List Char}
    (h : mode.split (text ++ (u ++ '>' :: r)) = (text, u ++ '>' :: r)) (r' : List Char) :
    mode.split (text ++ (u ++ '>' :: r')) = (text, u ++ '>' :: r') := by
  have hgt : '>' ∉ name.toList := fun hmem =>
    absurd ((isLower_of_isTextName htext).2 _ hmem) (by decide)
  cases mode with
  | raw name =>
    cases hname
    exact rawText_congr hgt h r'
  | script => exact scriptText_congr h r'
  | markup => cases hname
  | plain => cases hname

end TextMode

/-- Text without markup stands only in elements that hold such text. -/
def State.IsValid (s : State) : Prop := ∀ name, s.mode.element? = some name → isTextName name

theorem State.isValid_start : State.start.IsValid := fun _ h => by cases h

namespace CutStep

variable {s next : State} {cs rest : List Char} {ts : List Token}

/-- **Nothing is lost at a step.** -/
theorem flatMap_raw_append (h : CutStep s cs ts next rest) :
    ts.flatMap Token.raw ++ rest = cs := by
  induction h with
  | start _ hfront _ htag =>
    simp [Token.raw, State.startTag, Inside.raw_append_rest htag, Front.eq_of_startTag hfront]
  | stop _ hfront htag =>
    simp [Token.raw, State.endTag, Inside.raw_append_rest htag, Front.eq_of_endTag hfront]
  | other _ _ hdecl => simp [Token.raw, declaration_append hdecl]
  | @text s _ cs _ _ _ _ _ _ hsplit _ _ ih =>
    have happend := TextMode.split_append s.mode cs
    rw [hsplit] at happend
    rw [List.flatMap_append, flatMap_raw_textTokens, List.append_assoc, ih, happend]

/-- **Something is taken at every step.** -/
theorem flatMap_raw_ne_nil (h : CutStep s cs ts next rest) : ts.flatMap Token.raw ≠ [] := by
  induction h with
  | start => simp [Token.raw, State.startTag]
  | stop => simp [Token.raw, State.endTag]
  | other _ _ hdecl => simpa [Token.raw] using declaration_ne_nil hdecl
  | text _ _ _ _ ih => simpa using fun _ => ih

/-- **What is left is cut as if it stood alone.** -/
theorem cutAt_eq (h : CutStep s cs ts next rest) : cutAt s cs = (cutAt next rest).prepend ts := by
  induction h with
  | start hmode hfront hguard htag => exact cutAt_of_startTag hmode hfront hguard htag
  | stop hmode hfront htag => exact cutAt_of_endTag hmode hfront htag
  | other hmode hfront hdecl => exact cutAt_of_other hmode hfront hdecl
  | text hname hsplit _ _ ih => rw [cutAt_of_element hname, hsplit, ih, Cut.prepend_append]

/-- In front of an end tag there is no text without markup. -/
theorem exists_raw_eq_of_stop {tag : EndTag} (hmode : s.mode = .markup)
    (h : CutStep s cs [.stop tag] next rest) : ∃ w, tag.raw = w ++ ['>'] := by
  generalize hts : [Token.stop tag] = ts at h
  cases h with
  | start => cases hts
  | stop _ _ htag =>
    cases hts
    obtain ⟨w, hw⟩ := Inside.exists_raw_eq htag
    exact ⟨_ ++ w, by rw [State.endTag, hw, List.append_assoc]⟩
  | other => cases hts
  | text hname =>
    rw [hmode] at hname
    cases hname

/-- **The same is taken whatever is left**, as long as that begins alike. -/
theorem congr (h : CutStep s cs ts next rest) (hs : s.IsValid) {rest' : List Char}
    (hhead : rest'.head? = rest.head?) :
    CutStep s (ts.flatMap Token.raw ++ rest') ts next rest' := by
  induction h with
  | start hmode hfront hguard htag =>
    have hread := Inside.read_append htag rest'
    have hfront' := Front.ofText_congr_startTag hfront htag rest'
    rw [List.flatMap_singleton]
    exact .start hmode hfront' hguard hread
  | stop hmode hfront htag =>
    have hread := Inside.read_append htag rest'
    have hfront' := Front.ofText_congr_endTag hfront htag rest'
    rw [List.flatMap_singleton]
    exact .stop hmode hfront' hread
  | other hmode hfront hdecl =>
    have happend := declaration_append hdecl
    rw [← happend] at hfront hdecl
    rw [Front.ofText_eq_other_iff] at hfront
    obtain ⟨hfront', hdecl'⟩ := declaration_congr hdecl hhead hfront
    rw [List.flatMap_singleton]
    exact .other hmode ((Front.ofText_eq_other_iff _).2 hfront') hdecl'
  | @text s _ cs text behind _ _ tag hname hsplit htag hstop ih =>
    have hstep := ih (fun _ hnone => by cases hnone) hhead
    have hbehind := hstop.flatMap_raw_append
    obtain ⟨w, hw⟩ := exists_raw_eq_of_stop rfl hstop
    have happend := TextMode.split_append s.mode cs
    rw [hsplit] at happend
    rw [List.flatMap_singleton] at hstep hbehind
    rw [← happend, ← hbehind, Token.raw, hw, List.append_assoc] at hsplit
    have hsplit' := TextMode.split_congr hname (hs _ hname) hsplit rest'
    rw [List.flatMap_append, flatMap_raw_textTokens, List.flatMap_singleton, List.append_assoc]
    refine .text hname ?_ htag hstep
    rw [Token.raw, hw, List.append_assoc]
    exact hsplit'

end CutStep

/-! ## Texts that have tags -/

theorem isAlpha_of_isLower_toLower {c : Char} (h : c.toLower.isLower) : c.isAlpha := by
  refine Bool.or_eq_true_iff.2 (or_iff_not_imp_left.2 fun hupper => ?_)
  unfold Char.toLower at h
  split at h
  · next hbounds => exact absurd (decide_eq_true hbounds) hupper
  · exact h

theorem lower_name_of_startsWithName {name : List Char} (hname : ∀ c ∈ name, c.isLower)
    {cs : List Char} (h : startsWithName name cs) : Text.lower (Front.name cs).1 = name := by
  induction name generalizing cs with
  | nil =>
    obtain _ | ⟨c, cs⟩ := cs
    · cases h
    · have hends : endsName c = true := h
      simp [Front.name, hends, Text.lower]
  | cons n name ih =>
    obtain _ | ⟨c, cs⟩ := cs
    · cases h
    · obtain ⟨hn, hrest⟩ : n = c.toLower ∧ startsWithName name cs := by
        simpa [startsWithName] using h
      have hlower : c.toLower.isLower := hn ▸ hname n List.mem_cons_self
      have hstays := endsName_eq_false_of_isAlpha (isAlpha_of_isLower_toLower hlower)
      have hmore := ih (fun d hd => hname d (List.mem_cons_of_mem _ hd)) hrest
      simp only [Front.name, Text.lower] at hmore
      simp [Front.name, hstays, Text.lower, hn, hmore]

/-- The end tag that text without markup ends with is found as the end tag of its element. -/
theorem exists_ofText_of_startsWithEndTag {name : String} (hname : isTextName name) {cs : List Char}
    (h : startsWithEndTag name.toList cs) :
    ∃ chars inner, Front.ofText cs = .endTag chars inner ∧ nameOf chars = name := by
  obtain ⟨hne, hlower⟩ := TextMode.isLower_of_isTextName hname
  unfold startsWithEndTag at h
  split at h
  · next cs =>
    have hchars := lower_name_of_startsWithName hlower h
    obtain ⟨n, ns, hcons⟩ := List.exists_cons_of_ne_nil hne
    rw [hcons] at h hlower
    obtain _ | ⟨c, cs⟩ := cs
    · cases h
    · have hn : n = c.toLower := by
        have hboth : n = c.toLower ∧ startsWithName ns cs := by simpa [startsWithName] using h
        exact hboth.1
      have hc := isAlpha_of_isLower_toLower (hn ▸ hlower n List.mem_cons_self)
      refine ⟨_, _, if_pos hc, ?_⟩
      rw [nameOf, hchars, String.ofList_toList]
  · cases h

theorem rawText_snd (name cs : List Char) :
    (rawText name cs).2 = [] ∨ startsWithEndTag name (rawText name cs).2 := by
  induction cs with
  | nil => exact .inl rfl
  | cons c cs ih =>
    unfold rawText
    split
    · next hend => exact .inr hend
    · exact ih

theorem scriptText_snd (e : Escape) (cs : List Char) :
    (scriptText e cs).2 = [] ∨ startsWithEndTag Escape.script (scriptText e cs).2 := by
  induction cs generalizing e with
  | nil => exact .inl rfl
  | cons c cs ih =>
    unfold scriptText
    split
    · next hend => exact .inr (Bool.and_eq_true_iff.1 hend).2
    · exact ih _

theorem TextMode.split_snd {mode : TextMode} {name : String} (hname : mode.element? = some name)
    (cs : List Char) :
    (mode.split cs).2 = [] ∨ startsWithEndTag name.toList (mode.split cs).2 := by
  unfold TextMode.element? at hname
  split at hname
  · cases hname
    exact rawText_snd _ cs
  · cases hname
    exact scriptText_snd .never cs
  · cases hname

/-- Tokens that are no tags. -/
def AreStretches (ts : List Token) : Prop := ∀ t ∈ ts, ∃ raw, t = .other raw

theorem areStretches_ofText (cs : List Char) : AreStretches (Cut.ofText cs).tokens :=
  fun _ ht => Cuts.eq_other_of_mem_ofText ht

section Markup

variable {s : State} {cs chars inner : List Char}

theorem cutAt_of_unclosed (hmode : s.mode = .markup)
    (hfront : Front.ofText cs = .endTag chars inner)
    (htag : Inside.read .beforeName inner = none) : cutAt s cs = .ofText cs := by
  have hne : cs ≠ [] := by simp [Front.eq_of_endTag hfront]
  obtain ⟨c, cs, rfl⟩ := List.exists_cons_of_ne_nil hne
  obtain ⟨fuel, hfuel, -⟩ := exists_cutFrom_eq_cutAt s hne
  rw [hfuel, cutFrom]
  simp only [hmode, hfront, htag]

theorem exists_cutStep_of_startTag (hmode : s.mode = .markup)
    (hfront : Front.ofText cs = .startTag chars inner) (hclear : (cutAt s cs).doubtful = none) :
    AreStretches (cutAt s cs).tokens ∨ ∃ ts next rest, CutStep s cs ts next rest := by
  have hne : cs ≠ [] := by simp [Front.eq_of_startTag hfront]
  obtain ⟨c, cs, rfl⟩ := List.exists_cons_of_ne_nil hne
  obtain ⟨fuel, hfuel, -⟩ := exists_cutFrom_eq_cutAt s hne
  rw [hfuel, cutFrom] at hclear ⊢
  simp only [hmode, hfront] at hclear ⊢
  split at hclear
  · next hempty =>
    rw [if_pos hempty]
    exact .inl (areStretches_ofText _)
  · next hempty =>
    rw [if_neg hempty]
    cases hguard : s.guard.behindStart (nameOf chars) with
    | none => simp [hguard] at hclear
    | some guard =>
      cases htag : Inside.read .beforeName inner with
      | none => exact .inl (areStretches_ofText _)
      | some tag => exact .inr ⟨_, _, _, .start hmode hfront hguard htag⟩

theorem exists_cutStep_of_markup (hmode : s.mode = .markup)
    (hclear : (cutAt s cs).doubtful = none) :
    AreStretches (cutAt s cs).tokens ∨ ∃ ts next rest, CutStep s cs ts next rest := by
  cases hfront : Front.ofText cs with
  | startTag chars inner => exact exists_cutStep_of_startTag hmode hfront hclear
  | endTag chars inner =>
    cases htag : Inside.read .beforeName inner with
    | none =>
      rw [cutAt_of_unclosed hmode hfront htag]
      exact .inl (areStretches_ofText _)
    | some tag => exact .inr ⟨_, _, _, .stop hmode hfront htag⟩
  | other =>
    cases hdecl : declaration (s.vocabularies.current != .plain) cs with
    | none =>
      obtain _ | ⟨c, cs⟩ := cs
      · exact .inl (by simp [cutAt_nil, AreStretches])
      · obtain ⟨fuel, hfuel, -⟩ := exists_cutFrom_eq_cutAt s (List.cons_ne_nil c cs)
        rw [hfuel, cutFrom]
        simp only [hmode, hfront, hdecl]
        exact .inl (areStretches_ofText _)
    | some r => exact .inr ⟨_, _, _, .other hmode hfront hdecl⟩

end Markup

theorem areStretches_textTokens (text : List Char) : AreStretches (textTokens text) :=
  areStretches_ofText text

/-- **Unless there are no tags any more, there is a step.** -/
theorem exists_cutStep {s : State} {cs : List Char} (hs : s.IsValid)
    (hclear : (cutAt s cs).doubtful = none) :
    AreStretches (cutAt s cs).tokens ∨ ∃ ts next rest, CutStep s cs ts next rest := by
  cases hname : s.mode.element? with
  | none =>
    cases hmode : s.mode with
    | markup => exact exists_cutStep_of_markup hmode hclear
    | raw name => simp [hmode, TextMode.element?] at hname
    | script => simp [hmode, TextMode.element?] at hname
    | plain =>
      obtain _ | ⟨c, cs⟩ := cs
      · exact .inl (by simp [cutAt_nil, AreStretches])
      · obtain ⟨fuel, hfuel, -⟩ := exists_cutFrom_eq_cutAt s (List.cons_ne_nil c cs)
        rw [hfuel, cutFrom]
        simp only [hmode]
        exact .inl (areStretches_ofText _)
  | some name =>
    rcases TextMode.split_snd hname cs with hnil | hend
    · rw [cutAt_of_element hname, hnil, cutAt_nil]
      exact .inl fun t ht => areStretches_textTokens _ t (by simpa using ht)
    · obtain ⟨chars, inner, hfront, hchars⟩ :=
        exists_ofText_of_startsWithEndTag (hs name hname) hend
      cases htag : Inside.read .beforeName inner with
      | none =>
        rw [cutAt_of_element hname, cutAt_of_unclosed rfl hfront htag]
        refine .inl fun t ht => ?_
        rcases List.mem_append.1 ht with ht | ht
        · exact areStretches_textTokens _ t ht
        · exact areStretches_ofText _ t ht
      | some tag =>
        exact .inr ⟨_, _, _, .text hname (Prod.eta _).symm hchars (.stop rfl hfront htag)⟩

/-! ## Text without markup, step by step -/

namespace State

variable {s : State}

/-- Text without markup follows the start tag of its element, and that opens the element. -/
theorem of_element?_behindStart {guard : Guard} {chars : List Char} {tag : Inside} {name : String}
    (h : (s.behindStart guard (nameOf chars) tag).mode.element? = some name) :
    isTextName name ∧ (s.startTag guard chars tag).name = name ∧
      (s.startTag guard chars tag).opens ∧ (s.startTag guard chars tag).byName := by
  unfold behindStart at h
  split at h
  · next hplain =>
    obtain ⟨rfl, htext⟩ := TextMode.eq_of_element?_ofName h
    obtain ⟨hvoid, hsvg, hmath, -⟩ := TextMode.ne_of_isTextName htext
    have hsame : s.vocabularies.behindStart (nameOf chars) tag = s.vocabularies := by
      simp [Vocabularies.behindStart, hsvg, hmath, hplain]
    refine ⟨htext, rfl, ?_, ?_⟩
    · simp [startTag, opens, behindStart, hsame, hplain, hvoid]
    · simp [startTag, Vocabularies.needsInside, hplain]
  · cases h

end State

/-- **Text without markup comes after the start tag of its element.** -/
theorem CutStep.of_element? {s next : State} {cs rest : List Char} {ts : List Token}
    (h : CutStep s cs ts next rest) {name : String} (hname : next.mode.element? = some name) :
    isTextName name ∧ ∃ tag, ts = [.start tag] ∧ tag.name = name ∧ tag.opens ∧ tag.byName := by
  induction h with
  | start _ _ _ _ =>
    obtain ⟨htext, htag⟩ := State.of_element?_behindStart hname
    exact ⟨htext, _, rfl, htag⟩
  | stop => cases hname
  | other hmode =>
    rw [hmode] at hname
    cases hname
  | text _ _ _ hstop ih =>
    obtain ⟨-, tag, hts, -⟩ := ih hname
    cases hts

theorem CutStep.isValid {s next : State} {cs rest : List Char} {ts : List Token}
    (h : CutStep s cs ts next rest) : next.IsValid := fun _ hname => (h.of_element? hname).1

/-! ## Along a page -/

/-- **What a step keeps holds of all tokens.**  A text without tags is where the steps end. -/
theorem cutAt_induction {P : State → List Char → List Token → Prop}
    (plain : ∀ s cs ts, AreStretches ts → P s cs ts)
    (step : ∀ s next cs rest ts us, CutStep s cs ts next rest → P next rest us →
      P s cs (ts ++ us))
    {s : State} {cs : List Char} (hs : s.IsValid) (hclear : (cutAt s cs).doubtful = none) :
    P s cs (cutAt s cs).tokens := by
  -- every step takes a character at least, so what is left is shorter
  induction hn : cs.length using Nat.strong_induction_on generalizing s cs with
  | _ n ih =>
    rcases exists_cutStep hs hclear with hplain | ⟨ts, next, rest, hstep⟩
    · exact plain s cs _ hplain
    · have hlength : rest.length < n := by
        have hpos := List.length_pos_iff.2 hstep.flatMap_raw_ne_nil
        rw [← hn, ← hstep.flatMap_raw_append, List.length_append]
        omega
      have hrest : (cutAt next rest).doubtful = none := by simpa [hstep.cutAt_eq] using hclear
      rw [hstep.cutAt_eq, Cut.tokens_prepend]
      exact step s next cs rest ts _ hstep (ih rest.length hlength hstep.isValid hrest rfl)

end Html
end PostRun
