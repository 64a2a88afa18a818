import PostRun.Html.Token

/-!
# What cutting a page keeps

`Html.cut` takes a page apart along a state that is followed from tag to tag, with fuel to
bound it.  What is proved about its tokens mostly depends on neither, and so the shape of
a cut is stated once, without state and fuel, as the relation `Cuts`: a page is cut by
taking tokens off its front, until the rest is text or begins with a doubtful tag.

* `cuts_cut`: the function produces cuts of that shape.
* `Cuts.flatMap_raw`: the tokens put together are the page, unless there is a doubtful tag.
* `Cuts.isPrefix_of_stop_mem`: the text of an end tag begins as an end tag.
* `Cuts.byName_of_start_mem`: a tag that ends drawings and formulas is understood by its
  name alone, wherever it stands.

## The fuel

Every token takes a character at least, and text without markup ends with a step that may
take none.  `need` measures this, and `cutFrom_eq_of_need_le` says that fuel beyond it
makes no difference.  So a text can be cut without fuel (`cutAt`), and in markup it is one
token and a text again: `cutAt_of_startTag`, `cutAt_of_endTag` and `cutAt_of_other`.  In
plain markup the state does not matter either (`cut_of_startTag` and the others).
-/

namespace PostRun
namespace Html

/-! ## Parts of a text -/

theorem upTo_append {isStop : List Char → Option (List Char × List Char)}
    (hstop : ∀ {cs r}, isStop cs = some r → r.1 ++ r.2 = cs) {cs : List Char}
    {r : List Char × List Char} (h : upTo isStop cs = some r) : r.1 ++ r.2 = cs := by
  induction cs generalizing r with
  | nil => simp [upTo] at h
  | cons c cs ih =>
    unfold upTo at h
    split at h
    · next r' hr =>
      cases h
      exact hstop hr
    · obtain ⟨r', hr', rfl⟩ := Option.map_eq_some_iff.1 h
      simpa using ih hr'

theorem bracket_append {cs : List Char} {r : List Char × List Char} (h : bracket cs = some r) :
    r.1 ++ r.2 = cs := by
  unfold bracket at h
  split at h
  · cases h; rfl
  · cases h

theorem commentEnd_append {cs : List Char} {r : List Char × List Char}
    (h : commentEnd cs = some r) : r.1 ++ r.2 = cs := by
  unfold commentEnd at h
  split at h
  · cases h; rfl
  · cases h; rfl
  · cases h

theorem sectionEnd_append {cs : List Char} {r : List Char × List Char}
    (h : sectionEnd cs = some r) : r.1 ++ r.2 = cs := by
  unfold sectionEnd at h
  split at h
  · cases h; rfl
  · cases h

theorem commentText_append {cs : List Char} {r : List Char × List Char}
    (h : commentText cs = some r) : r.1 ++ r.2 = cs := by
  unfold commentText at h
  split at h
  · cases h; rfl
  · cases h; rfl
  · exact upTo_append commentEnd_append h

theorem behind_append {opening cs : List Char} {q : Option (List Char × List Char)}
    {r : List Char × List Char} (hq : ∀ {r}, q = some r → r.1 ++ r.2 = cs)
    (h : behind opening q = some r) : r.1 ++ r.2 = opening ++ cs := by
  obtain ⟨r', hr', rfl⟩ := Option.map_eq_some_iff.1 h
  simp [hq hr']

/-- A stretch that is no tag and what follows it are the text again. -/
theorem declaration_append {inForeign : Bool} {cs : List Char} {r : List Char × List Char}
    (h : declaration inForeign cs = some r) : r.1 ++ r.2 = cs := by
  unfold declaration at h
  split at h
  · exact behind_append commentText_append h
  · split at h
    · exact behind_append (upTo_append sectionEnd_append) h
    · exact behind_append (upTo_append bracket_append) h
  · exact behind_append (upTo_append bracket_append) h
  · exact behind_append (upTo_append bracket_append) h
  · exact behind_append (upTo_append bracket_append) h
  · cases h
    simp
  · cases h

theorem behind_ne_nil {opening : List Char} {q : Option (List Char × List Char)}
    {r : List Char × List Char} (ho : opening ≠ []) (h : behind opening q = some r) :
    r.1 ≠ [] := by
  obtain ⟨r', -, rfl⟩ := Option.map_eq_some_iff.1 h
  simp [ho]

/-- A stretch that is no tag takes a character at least. -/
theorem declaration_ne_nil {inForeign : Bool} {cs : List Char} {r : List Char × List Char}
    (h : declaration inForeign cs = some r) : r.1 ≠ [] := by
  unfold declaration at h
  split at h
  · exact behind_ne_nil (by simp) h
  · split at h
    · exact behind_ne_nil (by decide) h
    · exact behind_ne_nil (by decide) h
  · exact behind_ne_nil (by simp) h
  · exact behind_ne_nil (by simp) h
  · exact behind_ne_nil (by simp) h
  · cases h
    simp
  · cases h

theorem Front.name_append (cs : List Char) : (Front.name cs).1 ++ (Front.name cs).2 = cs :=
  List.takeWhile_append_dropWhile

theorem Front.eq_of_startTag {cs name rest : List Char}
    (h : Front.ofText cs = .startTag name rest) : cs = '<' :: name ++ rest := by
  unfold Front.ofText at h
  split at h
  · split at h <;> cases h
  · split at h
    · cases h
      rw [List.cons_append, Front.name_append]
    · cases h
  · cases h

theorem Front.eq_of_endTag {cs name rest : List Char}
    (h : Front.ofText cs = .endTag name rest) : cs = '<' :: '/' :: name ++ rest := by
  unfold Front.ofText at h
  split at h
  · split at h
    · cases h
      rw [List.cons_append, List.cons_append, Front.name_append]
    · cases h
  · split at h <;> cases h
  · cases h

/-! ## The shape of a cut -/

/-- The shape of a cut: tokens are taken off the front of a page, until the rest is text or begins
with a doubtful tag. -/
inductive Cuts : List Char → Cut → Prop where
  | text (cs : List Char) : Cuts cs (.ofText cs)
  | doubtful (cs : List Char) (name : String) : Cuts cs ⟨[], some name⟩
  | other {cs text rest : List Char} {c : Cut} (happend : text ++ rest = cs) (h : Cuts rest c) :
      Cuts cs (c.cons (.other text))
  | start {cs rest : List Char} {tag : StartTag} {c : Cut} (vs : Vocabularies)
      (happend : tag.raw ++ rest = cs) (hname : tag.byName = !vs.needsInside tag.name)
      (h : Cuts rest c) : Cuts cs (c.cons (.start tag))
  | stop {cs rest : List Char} {tag : EndTag} {c : Cut} (happend : tag.raw ++ rest = cs)
      (hraw : ['<', '/'] <+: tag.raw) (h : Cuts rest c) : Cuts cs (c.cons (.stop tag))

/-- A stretch of text in front, left out when it is empty. -/
theorem Cuts.other_of_append {text rest cs : List Char} {c : Cut} (happend : text ++ rest = cs)
    (h : Cuts rest c) : Cuts cs (if text.isEmpty then c else c.cons (.other text)) := by
  split
  · next hempty =>
    rw [← happend, List.isEmpty_iff.1 hempty]
    exact h
  · exact .other happend h

/-- **Cutting has this shape**, whatever is known at the front and however much fuel there is. -/
theorem cuts_cutFrom (fuel : Nat) (s : State) (cs : List Char) :
    Cuts cs (cutFrom fuel s cs) := by
  induction fuel generalizing s cs with
  | zero => exact .text cs
  | succ fuel ih =>
    obtain _ | ⟨c, cs⟩ := cs
    · exact .text []
    simp only [cutFrom]
    split
    · exact .text _
    · exact .other_of_append (rawText_append _ _) (ih _ _)
    · exact .other_of_append (scriptText_append _ _) (ih _ _)
    · split
      · next chars rest hfront =>
        split
        · exact .text _
        · split
          · exact .doubtful _ _
          · split
            · exact .text _
            · next tag htag =>
              refine .start s.vocabularies ?_ rfl (ih _ _)
              rw [Front.eq_of_startTag hfront, ← Inside.raw_append_rest htag, List.append_assoc]
      · next chars rest hfront =>
        split
        · exact .text _
        · next tag htag =>
          refine .stop ?_ ⟨chars ++ tag.raw, rfl⟩ (ih _ _)
          rw [Front.eq_of_endTag hfront, ← Inside.raw_append_rest htag, List.append_assoc]
      · split
        · exact .text _
        · next text rest hdecl => exact .other (declaration_append hdecl) (ih _ _)

theorem cuts_cut (page : List Char) : Cuts page (cut page) := cuts_cutFrom _ _ _

namespace Cuts

variable {page : List Char} {c : Cut}

/-- **Nothing of a page is lost.**  Without a doubtful tag, the tokens put together are the page. -/
theorem flatMap_raw (h : Cuts page c) (hd : c.doubtful = none) :
    c.tokens.flatMap Token.raw = page := by
  induction h with
  | text cs =>
    unfold Cut.ofText
    split
    · next hempty => simpa using (List.isEmpty_iff.1 hempty).symm
    · simp [Token.raw]
  | doubtful => cases hd
  | other happend _ ih => simp [Cut.cons, Token.raw, ih hd, happend]
  | start _ happend _ _ ih => simp [Cut.cons, Token.raw, ih hd, happend]
  | stop happend _ _ ih => simp [Cut.cons, Token.raw, ih hd, happend]

/-- The text that ends a page has no tags. -/
theorem eq_other_of_mem_ofText {cs : List Char} {t : Token} (ht : t ∈ (Cut.ofText cs).tokens) :
    ∃ raw, t = .other raw := by
  unfold Cut.ofText at ht
  split at ht
  · simp at ht
  · exact ⟨cs, by simpa using ht⟩

theorem isPrefix_of_stop_mem (h : Cuts page c) {tag : EndTag} (ht : .stop tag ∈ c.tokens) :
    ['<', '/'] <+: tag.raw := by
  induction h with
  | text cs =>
    obtain ⟨raw, hraw⟩ := eq_other_of_mem_ofText ht
    cases hraw
  | doubtful => simp at ht
  | other _ _ ih => exact ih (by simpa [Cut.cons] using ht)
  | start _ _ _ _ ih => exact ih (by simpa [Cut.cons] using ht)
  | stop _ hraw _ ih =>
    rcases List.mem_cons.1 ht with heq | ht
    · cases heq
      exact hraw
    · exact ih ht

theorem byName_of_start_mem (h : Cuts page c) {tag : StartTag} (ht : .start tag ∈ c.tokens)
    (hforeign : endsForeign tag.name) : tag.byName := by
  induction h with
  | text cs =>
    obtain ⟨raw, hraw⟩ := eq_other_of_mem_ofText ht
    cases hraw
  | doubtful => simp at ht
  | other _ _ ih => exact ih (by simpa [Cut.cons] using ht)
  | start vs _ hname _ ih =>
    rcases List.mem_cons.1 ht with heq | ht
    · cases heq
      simp [hname, Vocabularies.needsInside, hforeign]
    · exact ih ht
  | stop _ _ _ ih => exact ih (by simpa [Cut.cons] using ht)

end Cuts

/-! ## The fuel -/

/-- The fuel that a text takes at most. -/
def need (s : State) (cs : List Char) : Nat :=
  2 * cs.length + if s.mode = .markup then 0 else 1

theorem need_le (s : State) (cs : List Char) : need s cs ≤ 2 * cs.length + 1 := by
  unfold need
  split <;> omega

theorem need_of_markup {s : State} (hmode : s.mode = .markup) (cs : List Char) :
    need s cs = 2 * cs.length := by
  simp [need, hmode]

/-- Behind a character at least, less fuel is needed. -/
theorem need_lt_of_append {s next : State} {text rest cs : List Char} (htext : text ≠ [])
    (happend : text ++ rest = cs) : need next rest < need s cs := by
  have hlength : text.length + rest.length = cs.length := by rw [← happend, List.length_append]
  have hpos : 0 < text.length := List.length_pos_iff.2 htext
  have hnext := need_le next rest
  unfold need at hnext ⊢
  omega

/-- Behind text without markup, too: what follows is markup. -/
theorem need_lt_of_mode {s next : State} {text rest cs : List Char} (hmode : s.mode ≠ .markup)
    (hnext : next.mode = .markup) (happend : text ++ rest = cs) : need next rest < need s cs := by
  have hlength : text.length + rest.length = cs.length := by rw [← happend, List.length_append]
  rw [need_of_markup hnext]
  simp only [need, hmode, ↓reduceIte]
  omega

/-- **Fuel beyond the need makes no difference.** -/
theorem cutFrom_eq_of_need_le {fuel fuel' : Nat} {s : State} {cs : List Char}
    (h : need s cs ≤ fuel) (h' : need s cs ≤ fuel') : cutFrom fuel s cs = cutFrom fuel' s cs := by
  induction fuel generalizing fuel' s cs with
  | zero =>
    have hnil : cs = [] := by
      unfold need at h
      exact List.eq_nil_of_length_eq_zero (by omega)
    subst hnil
    cases fuel' <;> rfl
  | succ fuel ih =>
    obtain _ | ⟨c, cs⟩ := cs
    · cases fuel' <;> rfl
    obtain _ | fuel' := fuel'
    · simp [need] at h'
    -- behind a token less is needed, and both sides have as much
    have hrest : ∀ {next : State} {rest : List Char}, need next rest < need s (c :: cs) →
        cutFrom fuel next rest = cutFrom fuel' next rest :=
      fun hlt => ih (by omega) (by omega)
    have hmarkup : ∀ {next : State} {text rest : List Char}, text ≠ [] → text ++ rest = c :: cs →
        cutFrom fuel next rest = cutFrom fuel' next rest :=
      fun htext happend => hrest (need_lt_of_append htext happend)
    simp only [cutFrom]
    split
    · rfl
    · next name hmode =>
      rw [hrest (need_lt_of_mode (by simp [hmode]) rfl (rawText_append _ _))]
    · next hmode =>
      rw [hrest (need_lt_of_mode (by simp [hmode]) rfl (scriptText_append _ _))]
    · split
      · next chars rest hfront =>
        split
        · rfl
        · split
          · rfl
          · split
            · rfl
            · next tag htag =>
              refine congrArg _ (hmarkup (List.cons_ne_nil '<' (chars ++ tag.raw)) ?_)
              rw [Front.eq_of_startTag hfront, ← Inside.raw_append_rest htag]
              simp
      · next chars rest hfront =>
        split
        · rfl
        · next tag htag =>
          refine congrArg _ (hmarkup (List.cons_ne_nil '<' ('/' :: chars ++ tag.raw)) ?_)
          rw [Front.eq_of_endTag hfront, ← Inside.raw_append_rest htag]
          simp
      · split
        · rfl
        · next text rest hdecl =>
          rw [hmarkup (declaration_ne_nil hdecl) (declaration_append hdecl)]

/-! ## Cutting without fuel -/

/-- The tokens of a text, given the state at its front. -/
def cutAt (s : State) (cs : List Char) : Cut := cutFrom (need s cs) s cs

theorem cutAt_start (page : List Char) : cutAt .start page = cut page := by
  have hneed : need .start page = 2 * page.length := need_of_markup rfl page
  exact cutFrom_eq_of_need_le (Nat.le_refl _) (by omega)

theorem cuts_cutAt (s : State) (cs : List Char) : Cuts cs (cutAt s cs) := cuts_cutFrom _ s cs

theorem cutFrom_eq_cutAt {fuel : Nat} {s : State} {cs : List Char} (h : need s cs ≤ fuel) :
    cutFrom fuel s cs = cutAt s cs :=
  cutFrom_eq_of_need_le h (Nat.le_refl _)

/-- A text is cut with fuel that leaves enough for what needs less. -/
theorem exists_cutFrom_eq_cutAt (s : State) {cs : List Char} (hcs : cs ≠ []) :
    ∃ fuel, cutAt s cs = cutFrom (fuel + 1) s cs ∧
      ∀ {next : State} {rest : List Char}, need next rest < need s cs →
        cutFrom fuel next rest = cutAt next rest := by
  have hpos : 0 < need s cs := by
    have hlength : 0 < cs.length := List.length_pos_iff.2 hcs
    unfold need
    omega
  refine ⟨need s cs - 1, cutFrom_eq_of_need_le (by omega) (by omega), fun hlt => ?_⟩
  exact cutFrom_eq_cutAt (by omega)

/-! ## One token in markup -/

namespace State

/-- The start tag of a name, given what is inside of it. -/
def startTag (s : State) (guard : Guard) (chars : List Char) (tag : Inside) : StartTag where
  raw := '<' :: chars ++ tag.raw
  name := nameOf chars
  id := tag.value? "id"
  idText := tag.textOf? "id"
  opens := (s.behindStart guard (nameOf chars) tag).opens (nameOf chars) tag
  byName := !s.vocabularies.needsInside (nameOf chars)

/-- The end tag of a name. -/
def endTag (s : State) (chars : List Char) (tag : Inside) : EndTag where
  raw := '<' :: '/' :: chars ++ tag.raw
  name := nameOf chars
  byName := !s.vocabularies.needsInsideOfEnd (nameOf chars)

end State

section Markup

variable {s : State} {cs chars inner text rest : List Char} {guard : Guard} {tag : Inside}

/-- **A start tag.** -/
theorem cutAt_of_startTag (hmode : s.mode = .markup)
    (hfront : Front.ofText cs = .startTag chars inner)
    (hguard : s.guard.behindStart (nameOf chars) = some guard)
    (htag : Inside.read .beforeName inner = some tag) :
    cutAt s cs =
      (cutAt (s.behindStart guard (nameOf chars) tag) tag.rest).cons
        (.start (s.startTag guard chars tag)) := by
  have happend : ('<' :: chars ++ tag.raw) ++ tag.rest = cs := by
    rw [List.append_assoc, Inside.raw_append_rest htag, Front.eq_of_startTag hfront]
  have hne : inner.isEmpty = false := by
    cases inner with
    | nil => cases htag
    | cons d ds => rfl
  obtain ⟨c, cs, rfl⟩ := List.exists_cons_of_ne_nil (show cs ≠ [] by simp [← happend])
  obtain ⟨fuel, hfuel, hrest⟩ := exists_cutFrom_eq_cutAt s (List.cons_ne_nil c cs)
  rw [hfuel, cutFrom, ← hrest (need_lt_of_append (List.cons_ne_nil _ _) happend)]
  simp only [hmode, hfront, hne, Bool.false_eq_true, ↓reduceIte, hguard, htag]
  rfl

/-- **An end tag.** -/
theorem cutAt_of_endTag (hmode : s.mode = .markup)
    (hfront : Front.ofText cs = .endTag chars inner)
    (htag : Inside.read .beforeName inner = some tag) :
    cutAt s cs =
      (cutAt (s.behindEnd (nameOf chars)) tag.rest).cons (.stop (s.endTag chars tag)) := by
  have happend : ('<' :: '/' :: chars ++ tag.raw) ++ tag.rest = cs := by
    rw [List.append_assoc, Inside.raw_append_rest htag, Front.eq_of_endTag hfront]
  obtain ⟨c, cs, rfl⟩ := List.exists_cons_of_ne_nil (show cs ≠ [] by simp [← happend])
  obtain ⟨fuel, hfuel, hrest⟩ := exists_cutFrom_eq_cutAt s (List.cons_ne_nil c cs)
  rw [hfuel, cutFrom, ← hrest (need_lt_of_append (List.cons_ne_nil _ _) happend)]
  simp only [hmode, hfront, htag]
  rfl

/-- **A stretch that is no tag.** -/
theorem cutAt_of_other (hmode : s.mode = .markup) (hfront : Front.ofText cs = .other)
    (hdecl : declaration (s.vocabularies.current != .plain) cs = some (text, rest)) :
    cutAt s cs = (cutAt s rest).cons (.other text) := by
  have happend := declaration_append hdecl
  have hne := declaration_ne_nil hdecl
  obtain ⟨c, cs, rfl⟩ := List.exists_cons_of_ne_nil (show cs ≠ [] by simp [← happend, hne])
  obtain ⟨fuel, hfuel, hrest⟩ := exists_cutFrom_eq_cutAt s (List.cons_ne_nil c cs)
  rw [hfuel, cutFrom, ← hrest (need_lt_of_append hne happend)]
  simp only [hmode, hfront, hdecl]

end Markup

/-! ## One token in plain markup -/

section PlainMarkup

variable {page chars text rest : List Char} {tag : Inside}

/-- **A start tag**, if a page goes on behind it as it began. -/
theorem cut_of_startTag {guard : Guard} (hfront : Front.ofText page = .startTag chars rest)
    (htag : Inside.read .beforeName rest = some tag)
    (hguard : State.start.guard.behindStart (nameOf chars) = some guard)
    (hnext : State.start.behindStart guard (nameOf chars) tag = .start) :
    cut page =
      (cut tag.rest).cons
        (.start ⟨'<' :: chars ++ tag.raw, nameOf chars, tag.value? "id", tag.textOf? "id",
          State.start.opens (nameOf chars) tag,
          !State.start.vocabularies.needsInside (nameOf chars)⟩) := by
  have hmode : State.start.mode = .markup := rfl
  have hcut := cutAt_of_startTag hmode hfront hguard htag
  rw [State.startTag, hnext, cutAt_start, cutAt_start] at hcut
  exact hcut

/-- **An end tag** leads nowhere else. -/
theorem cut_of_endTag (hfront : Front.ofText page = .endTag chars rest)
    (htag : Inside.read .beforeName rest = some tag) :
    cut page =
      (cut tag.rest).cons (.stop ⟨'<' :: '/' :: chars ++ tag.raw, nameOf chars, true⟩) := by
  have hnext : State.start.behindEnd (nameOf chars) = .start := rfl
  have hmode : State.start.mode = .markup := rfl
  have hcut := cutAt_of_endTag hmode hfront htag
  rw [hnext, cutAt_start, cutAt_start] at hcut
  exact hcut

/-- **A stretch that is no tag.** -/
theorem cut_of_other (hfront : Front.ofText page = .other)
    (hdecl : declaration false page = some (text, rest)) :
    cut page = (cut rest).cons (.other text) := by
  have hmode : State.start.mode = .markup := rfl
  have hcut := cutAt_of_other hmode hfront hdecl
  rw [cutAt_start, cutAt_start] at hcut
  exact hcut

end PlainMarkup

end Html
end PostRun
