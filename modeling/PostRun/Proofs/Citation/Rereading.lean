import PostRun.Proofs.Citation.Conservation
import PostRun.Proofs.Citation.WellNested
import PostRun.Proofs.Html.Steps

/-!
# Reading a page with its links

A page that was passed on is read again, by the reader that the page was cut with.  Of a link it
reads three tokens, wherever the link stands in markup, and behind the link nothing is different
(`Link.cutAt_markup`): an `a` enters and leaves no vocabulary, no list of choices and no text.

The page around the links is read as it was for two reasons.  What is taken at a step does not
depend on what is left, as long as that begins alike (`CutStep.congr`); and it does, because links
stand in front of end tags and begin with a bracket as well.  And links stand in markup: in text
without markup its element is the innermost that is open and holds no links (`Progress.IsInside`),
so nothing is written in front of the end tag.

`exists_rereads` follows a run step by step, and `exists_weave_of_appendLinks` reads it on a page.
A `Weave` is what the reader finds: the tokens of the page in pieces, and the links in front of
them.
-/

namespace PostRun
namespace Citation

open Html (State CutStep Guard Vocabularies Inside Token StartTag cutAt)

variable {b : Bib.Bibliography}

/-! ## Links in any surroundings -/

/-- The start tag of a link changes nothing of what surrounds a place. -/
theorem behindStart_link {s : State} (hmode : s.mode = .markup) (tag : Inside) :
    s.guard.behindStart "a" = some s.guard ∧ s.behindStart s.guard "a" tag = s := by
  obtain ⟨vs, guard, mode⟩ := s
  have hvocabularies : Vocabularies.behindStart vs "a" tag = vs := by
    have hforeign : Html.endsForeign "a" = false := by decide
    have hdrawing : Html.holdsMarkupInDrawing "a" = false := by decide
    have hformula : Html.holdsMarkupInFormula "a" = false := by decide
    rcases vs with _ | ⟨_ | _ | _, vs⟩ <;>
      simp [Vocabularies.behindStart, Vocabularies.current, Vocabularies.entersPlain, hforeign,
        hdrawing, hformula]
  have htext : Html.TextMode.ofName "a" = .markup := by decide
  constructor
  · cases guard <;> simp [Guard.behindStart, Html.isTextName, htext]
  · simp only at hmode
    simp [State.behindStart, hvocabularies, htext, hmode]

/-- Neither does its end tag. -/
theorem behindEnd_link {s : State} (hmode : s.mode = .markup) : s.behindEnd "a" = s := by
  obtain ⟨vs, guard, mode⟩ := s
  have hvocabularies : Vocabularies.behindEnd vs "a" = vs := by
    have hdrawing : Html.holdsMarkupInDrawing "a" = false := by decide
    have hformula : Html.holdsMarkupInFormula "a" = false := by decide
    rcases vs with _ | ⟨_ | _ | _, _ | ⟨_ | _ | _, vs⟩⟩ <;>
      simp [Vocabularies.behindEnd, hdrawing, hformula]
  have hguard : guard.behindEnd "a" = guard := by
    cases guard <;> simp [Guard.behindEnd]
  simp only at hmode
  simp [State.behindEnd, hvocabularies, hguard, hmode]

theorem needsInside_link (vs : Vocabularies) : vs.needsInside "a" = false := by
  have hdrawing : Html.holdsMarkupInDrawing "a" = false := by decide
  have hformula : Html.holdsMarkupInFormula "a" = false := by decide
  have hshort : Html.isShortName "a" = true := by decide
  rcases vs with _ | ⟨_ | _ | _, vs⟩ <;>
    simp [Vocabularies.needsInside, Vocabularies.current, hdrawing, hformula, hshort]

theorem needsInsideOfEnd_link (vs : Vocabularies) : vs.needsInsideOfEnd "a" = false := by
  have hshort : Html.isShortName "a" = true := by decide
  unfold Vocabularies.needsInsideOfEnd
  split
  · rw [hshort]
    rfl
  · rfl

namespace Link

/-- The tokens of a link. -/
def tokens (l : Link) : List Token :=
  [.start l.element.startTag, .other l.plainText.chars, .stop l.element.endTag]

theorem nameOf_element (l : Link) : Html.nameOf l.element.chars = "a" := by
  change Html.nameOf ['a'] = "a"
  decide

theorem startTag_eq {s : State} (hmode : s.mode = .markup) (l : Link) (rest : List Char) :
    s.startTag s.guard ['a'] (l.element.inside rest) = l.element.startTag := by
  have hname : Html.nameOf ['a'] = "a" := by decide
  have hopens : s.opens "a" (l.element.inside rest) = true := by
    have hvoid : Html.isVoid "a" = false := by decide
    simp [State.opens, Html.Element.inside, hvoid]
  simp only [State.startTag, hname, (behindStart_link hmode _).2, hopens, needsInside_link]
  simp [Html.Element.startTag, Html.Element.startMarkup, Html.Element.inside, Html.Element.name,
    Html.Element.chars, element, hname, Inside.value?, Inside.textOf?]

theorem endTag_eq (s : State) (l : Link) (rest : List Char) :
    s.endTag ['a'] ⟨[], false, ['>'], rest⟩ = l.element.endTag := by
  have hname : Html.nameOf ['a'] = "a" := by decide
  simp only [State.endTag, hname, needsInsideOfEnd_link]
  simp [Html.Element.endTag, Html.Element.endMarkup, Html.Element.name, Html.Element.chars, element,
    hname]

theorem cutAt_startMarkup {s : State} (hmode : s.mode = .markup) (l : Link) (rest : List Char) :
    cutAt s (l.element.startMarkup ++ rest) =
      (cutAt s rest).prepend [.start l.element.startTag] := by
  have hname : Html.nameOf l.element.chars = "a" := nameOf_element l
  have hchars : l.element.chars = ['a'] := rfl
  obtain ⟨hguard, hbehind⟩ := behindStart_link hmode (l.element.inside rest)
  rw [← hname] at hguard
  rw [Html.cutAt_of_startTag hmode (l.element.ofText_startMarkup rest) hguard
    (Inside.read_inside l.element rest), hname, hbehind, hchars, startTag_eq hmode]
  rfl

theorem cutAt_endMarkup {s : State} (hmode : s.mode = .markup) (l : Link) (rest : List Char) :
    cutAt s (l.element.endMarkup ++ rest) =
      (cutAt s rest).prepend [.stop l.element.endTag] := by
  have hname : Html.nameOf l.element.chars = "a" := nameOf_element l
  have hchars : l.element.chars = ['a'] := rfl
  have htag : Inside.read .beforeName ('>' :: rest) = some ⟨[], false, ['>'], rest⟩ := rfl
  rw [Html.cutAt_of_endTag hmode (l.element.ofText_endMarkup rest) htag, hname,
    behindEnd_link hmode, hchars, endTag_eq]
  rfl

theorem toList_text (l : Link) : l.text.toList = "arXiv:".toList ++ l.eprint.toList :=
  String.toList_append

theorem plainText_ne_nil (l : Link) : l.plainText.chars ≠ [] := by
  have hchars : l.plainText.chars =
      Text.escape "arXiv:".toList ++ Text.escape l.eprint.toList := by
    rw [← Text.escape_append, ← toList_text]
    rfl
  rw [hchars]
  exact List.append_ne_nil_of_left_ne_nil (by decide) _

/-- **A link is read as itself wherever it stands between tags**, and what follows it is read as if
it were not there. -/
theorem cutAt_markup {s : State} (hmode : s.mode = .markup) (l : Link) (rest : List Char) :
    cutAt s (l.markup ++ rest) = (cutAt s rest).prepend l.tokens := by
  rw [markup_eq_element, List.append_assoc, List.append_assoc, cutAt_startMarkup hmode,
    Html.cutAt_plainText hmode l.plainText l.plainText_ne_nil (by simp [Html.Element.endMarkup]),
    cutAt_endMarkup hmode]
  rfl

end Link

namespace Pending

/-- The tokens of a link and of the full stop behind it. -/
def tokens (p : Pending) : List Token := p.link.tokens ++ [.other fullStop.chars]

theorem head?_markup (p : Pending) : p.markup.head? = some '<' := by
  rw [markup, Link.markup_eq_element, Html.Element.startMarkup]
  rfl

theorem head?_flatMap_markup_append (ps : List Pending) {rest : List Char}
    (hrest : rest.head? = some '<') : (ps.flatMap markup ++ rest).head? = some '<' := by
  cases ps with
  | nil => exact hrest
  | cons p ps => simp [head?_markup]

/-- Links in front of a tag. -/
theorem cutAt_flatMap_markup {s : State} (hmode : s.mode = .markup) (ps : List Pending)
    {rest : List Char} (hrest : rest.head? = some '<') :
    cutAt s (ps.flatMap markup ++ rest) = (cutAt s rest).prepend (ps.flatMap tokens) := by
  induction ps with
  | nil => rfl
  | cons p ps ih =>
    have hstop := Html.cutAt_plainText hmode fullStop (by simp [fullStop])
      (head?_flatMap_markup_append ps hrest)
    have hassoc : (p :: ps).flatMap markup ++ rest =
        p.link.markup ++ (fullStop.chars ++ (ps.flatMap markup ++ rest)) := by
      simp [markup, fullStop]
    rw [hassoc, Link.cutAt_markup hmode, hstop, ih, List.flatMap_cons, Html.Cut.prepend_append,
      tokens, Html.Cut.prepend_append]
    rfl

end Pending

/-! ## Weaves -/

/-- Tokens in pieces, with the links that stand in front of each piece. -/
abbrev Weave := List (List Pending × List Token)

namespace Weave

/-- The tokens of the pieces alone. -/
def page (w : Weave) : List Token := w.flatMap (·.2)

/-- The tokens of the pieces and of the links in front of them. -/
def tokens (w : Weave) : List Token :=
  w.flatMap fun piece => piece.1.flatMap Pending.tokens ++ piece.2

/-- The text of the pieces and of the links in front of them. -/
def text (w : Weave) : List Char :=
  w.flatMap fun piece => piece.1.flatMap Pending.markup ++ piece.2.flatMap Token.raw

/-- The links, in the order in which they stand. -/
def links (w : Weave) : List Pending := w.flatMap (·.1)

/-- Links stand in front of end tags only. -/
def IsAtEndTags (w : Weave) : Prop :=
  ∀ piece ∈ w, piece.1 ≠ [] → ∃ tag, piece.2 = [.stop tag] ∧ tag.raw.head? = some '<'

variable {w : Weave}

section Cons

variable (links : List Pending) (ts : List Token) (w : Weave)

@[simp] theorem page_cons : page ((links, ts) :: w) = ts ++ w.page := rfl

@[simp] theorem tokens_cons :
    tokens ((links, ts) :: w) = links.flatMap Pending.tokens ++ ts ++ w.tokens := rfl

@[simp] theorem text_cons :
    text ((links, ts) :: w) =
      links.flatMap Pending.markup ++ ts.flatMap Token.raw ++ w.text := rfl

@[simp] theorem links_cons : Weave.links ((links, ts) :: w) = links ++ w.links := rfl

end Cons

/-- A text with links begins as the text without them. -/
theorem head?_text (h : w.IsAtEndTags) : w.text.head? = (w.page.flatMap Token.raw).head? := by
  induction w with
  | nil => rfl
  | cons piece w ih =>
    obtain ⟨links, ts⟩ := piece
    have hrest := ih fun piece hpiece => h piece (List.mem_cons_of_mem _ hpiece)
    cases links with
    | nil => simpa [text, page] using congrArg (Option.or _) hrest
    | cons p ps =>
      obtain ⟨tag, rfl, hraw⟩ := h _ List.mem_cons_self (List.cons_ne_nil p ps)
      simp [text, page, Token.raw, hraw, Pending.head?_markup]

end Weave

/-! ## Passing tokens on -/

namespace Progress

variable {p : Progress} {held : List (List Pending)}

/-- Tokens are passed on as they are, with links in front of the first.  The links that the open
elements hold are `held` at first and `held'` in the end, and no link comes from elsewhere. -/
structure PutsInFront (b : Bib.Bibliography) (p : Progress) (held : List (List Pending))
    (links : List Pending) (ts : List Token) (held' : List (List Pending)) : Prop where
  written : p.writtenAll b ts = links.flatMap Pending.markup ++ ts.flatMap Token.raw
  holds : Holds (p.advanceAll b ts).elements held'
  mem : ∀ q ∈ links ++ held'.flatten, q ∈ held.flatten ++ p.handedAll b ts

/-- What is no tag is passed on as it is, and changes nothing. -/
theorem passes_areStretches {ts : List Token} (h : Html.AreStretches ts) (p : Progress) :
    p.writtenAll b ts = ts.flatMap Token.raw ∧ p.advanceAll b ts = p ∧ p.handedAll b ts = [] := by
  induction ts with
  | nil => exact ⟨rfl, rfl, rfl⟩
  | cons t ts ih =>
    obtain ⟨raw, rfl⟩ := h t List.mem_cons_self
    obtain ⟨hwritten, hadvance, hhanded⟩ := ih fun u hu => h u (List.mem_cons_of_mem _ hu)
    have hover : p.overlooks (.other raw) = false := rfl
    have hsame : p.advance b (.other raw) = p := by simp [advance, hover]
    refine ⟨?_, ?_, ?_⟩
    · rw [writtenAll_cons, hsame, hwritten]
      simp [written, hover, Token.raw]
    · rw [advanceAll_cons, hsame, hadvance]
    · rw [handedAll_cons, hsame, hhanded, handed_eq_nil_of_startTag? rfl, List.append_nil]

/-- In text without markup, its element is the innermost that is open, and nothing is appended to
it. -/
def IsInside (p : Progress) (s : State) : Prop :=
  ∀ name, s.mode.element? = some name → ∃ es, p.elements = ⟨name, []⟩ :: es

/-- Nothing is written in front of the end tag that ends text without markup. -/
theorem written_of_innermost {tag : Html.EndTag} {es : Html.OpenElements}
    (h : p.elements = ⟨tag.name, []⟩ :: es) : p.written (.stop tag) = tag.raw := by
  unfold written
  split
  · rfl
  · simp [visitEnd, h, Html.OpenElements.close, Html.OpenElements.split?,
      Html.OpenElements.outermostText]

/-- Behind the start tag of text without markup, its element is innermost. -/
theorem isInside_advanceAll {s next : State} {cs rest : List Char} {ts : List Token}
    (h : CutStep s cs ts next rest) (p : Progress) : (p.advanceAll b ts).IsInside next := by
  intro name hname
  obtain ⟨htext, tag, rfl, htag, hopens, hbyName⟩ := h.of_element? hname
  obtain ⟨-, -, -, hparagraph⟩ := Html.TextMode.ne_of_isTextName htext
  have hover : p.overlooks (.start tag) = false := by simp [overlooks, hbyName]
  have hnot : startsParagraph tag = false := by simp [startsParagraph, htag, hparagraph]
  refine ⟨p.elements, ?_⟩
  have helements := advanceStart_elements (b := b) p tag
  rw [if_pos hopens, hnot] at helements
  simpa [advance, hover, htag] using helements

/-- Links are put in front of end tags only. -/
theorem exists_putsInFront_singleton (t : Token) (hholds : Holds p.elements held) :
    ∃ links held', p.PutsInFront b held links [t] held' ∧ (links ≠ [] → ∃ tag, t = .stop tag) := by
  obtain ⟨links, lost, held', hheld, hwritten, hwhere, hperm, -⟩ :=
    exists_splice_step (b := b) t hholds
  refine ⟨links, held', ⟨by simpa using hwritten, hheld, fun q hq => ?_⟩, hwhere⟩
  have hmem : q ∈ held.flatten ++ p.handed t := hperm.mem_iff.2 <| by
    rcases List.mem_append.1 hq with hq | hq
    · exact List.mem_append_left _ (List.mem_append_left _ hq)
    · exact List.mem_append_right _ hq
  simpa using hmem

/-- Nothing is put in front of text without markup, nor in front of the end tag behind it. -/
theorem exists_putsInFront_text {text : List Char} {tag : Html.EndTag} {es : Html.OpenElements}
    (helements : p.elements = ⟨tag.name, []⟩ :: es) (hholds : Holds p.elements held) :
    ∃ held', p.PutsInFront b held [] (Html.textTokens text ++ [.stop tag]) held' := by
  obtain ⟨hwritten, hsame, hhanded⟩ :=
    passes_areStretches (b := b) (Html.areStretches_textTokens text) p
  obtain ⟨links, held', hputs, -⟩ := exists_putsInFront_singleton (b := b) (.stop tag) hholds
  refine ⟨held', ⟨?_, ?_, fun q hq => ?_⟩⟩
  · rw [writtenAll_append, hwritten, hsame, writtenAll_cons, written_of_innermost helements]
    simp [Token.raw]
  · rw [advanceAll_append, hsame]
    exact hputs.holds
  · rw [handedAll_append, hsame, hhanded]
    exact hputs.mem q (List.mem_append_right _ hq)

/-- **A step is passed on as it is**, with links in front of it if it is an end tag in markup. -/
theorem exists_putsInFront {s next : State} {cs rest : List Char} {ts : List Token}
    (h : CutStep s cs ts next rest) (hinside : p.IsInside s) (hholds : Holds p.elements held) :
    ∃ links held', p.PutsInFront b held links ts held' ∧
      (links ≠ [] → s.mode = .markup ∧ ∃ tag, ts = [.stop tag]) := by
  have hone : s.mode = .markup → ∀ t, ∃ links held', p.PutsInFront b held links [t] held' ∧
      (links ≠ [] → s.mode = .markup ∧ ∃ tag, [t] = [Token.stop tag]) := by
    intro hmode t
    obtain ⟨links, held', hputs, hwhere⟩ := exists_putsInFront_singleton (b := b) t hholds
    refine ⟨links, held', hputs, fun hne => ⟨hmode, ?_⟩⟩
    obtain ⟨tag, rfl⟩ := hwhere hne
    exact ⟨tag, rfl⟩
  cases h with
  | start hmode => exact hone hmode _
  | stop hmode => exact hone hmode _
  | other hmode => exact hone hmode _
  | text hname _ htag =>
    obtain ⟨es, helements⟩ := hinside _ hname
    obtain ⟨held', hputs⟩ := exists_putsInFront_text (htag ▸ helements) hholds
    exact ⟨[], held', hputs, fun hne => absurd rfl hne⟩

end Progress

/-! ## Reading what was written -/

/-- A page with links is cut into its own tokens and those of the links. -/
structure Rereads (b : Bib.Bibliography) (s : State) (p : Progress) (held : List (List Pending))
    (cs : List Char) (w : Weave) : Prop where
  page : w.page = (cutAt s cs).tokens
  text : w.text = p.writtenAll b (cutAt s cs).tokens
  isAtEndTags : w.IsAtEndTags
  reread : cutAt s w.text = ⟨w.tokens, none⟩
  mem : ∀ q ∈ w.links, q ∈ held.flatten ++ p.handedAll b (cutAt s cs).tokens

section Rereads

variable {s next : State} {cs rest : List Char} {ts : List Token} {p : Progress}
  {held : List (List Pending)}

/-- What has no tags is passed on as it is. -/
theorem Rereads.of_areStretches (hclear : (cutAt s cs).doubtful = none)
    (h : Html.AreStretches (cutAt s cs).tokens) :
    Rereads b s p held cs [([], (cutAt s cs).tokens)] := by
  obtain ⟨hwritten, -⟩ := Progress.passes_areStretches (b := b) h p
  have hraw : (cutAt s cs).tokens.flatMap Token.raw = cs :=
    (Html.cuts_cutAt s cs).flatMap_raw hclear
  have htext : Weave.text [([], (cutAt s cs).tokens)] = cs := by simpa [Weave.text] using hraw
  refine ⟨by simp [Weave.page], by rw [htext, hwritten, hraw], ?_, ?_, by simp [Weave.links]⟩
  · intro piece hpiece hne
    rw [List.mem_singleton.1 hpiece] at hne
    exact absurd rfl hne
  · rw [htext, ← hclear]
    simp [Weave.tokens]

/-- **A step in front.** -/
theorem Rereads.of_cutStep {links : List Pending} {held' : List (List Pending)} {w : Weave}
    (h : CutStep s cs ts next rest) (hs : s.IsValid) (hclear : (cutAt s cs).doubtful = none)
    (hputs : p.PutsInFront b held links ts held')
    (hwhere : links ≠ [] → s.mode = .markup ∧ ∃ tag, ts = [.stop tag])
    (hw : Rereads b next (p.advanceAll b ts) held' rest w) :
    Rereads b s p held cs ((links, ts) :: w) := by
  have hcut := h.cutAt_eq
  have hends : links ≠ [] → ∃ tag, ts = [.stop tag] ∧ tag.raw.head? = some '<' := by
    intro hne
    obtain ⟨-, tag, rfl⟩ := hwhere hne
    have hmem : Token.stop tag ∈ (cutAt s cs).tokens := by simp [hcut]
    obtain ⟨raw, hraw⟩ := (Html.cuts_cutAt s cs).isPrefix_of_stop_mem hmem
    exact ⟨tag, rfl, by simp [← hraw]⟩
  have hrest : (cutAt next rest).doubtful = none := by simpa [hcut] using hclear
  have hhead : w.text.head? = rest.head? := by
    rw [Weave.head?_text hw.isAtEndTags, hw.page,
      (Html.cuts_cutAt next rest).flatMap_raw hrest]
  have hstep := (h.congr hs hhead).cutAt_eq
  refine ⟨?_, ?_, ?_, ?_, ?_⟩
  · rw [Weave.page_cons, hcut, hw.page, Html.Cut.tokens_prepend]
  · rw [Weave.text_cons, hcut, Html.Cut.tokens_prepend, Progress.writtenAll_append, hputs.written,
      hw.text]
  · intro piece hpiece hne
    rcases List.mem_cons.1 hpiece with rfl | hpiece
    · exact hends hne
    · exact hw.isAtEndTags piece hpiece hne
  · rw [Weave.text_cons, Weave.tokens_cons, List.append_assoc, List.append_assoc]
    by_cases hne : links = []
    · rw [hne, List.flatMap_nil, List.nil_append, hstep, hw.reread]
      rfl
    · obtain ⟨tag, rfl, hraw⟩ := hends hne
      rw [Pending.cutAt_flatMap_markup (hwhere hne).1 links (by simp [Token.raw, hraw]), hstep,
        hw.reread]
      rfl
  · intro q hq
    rw [hcut, Html.Cut.tokens_prepend, Progress.handedAll_append, ← List.append_assoc]
    rcases List.mem_append.1 (Weave.links_cons links ts w ▸ hq) with hq | hq
    · exact List.mem_append_left _ (hputs.mem q (List.mem_append_left _ hq))
    · rcases List.mem_append.1 (hw.mem q hq) with hq | hq
      · exact List.mem_append_left _ (hputs.mem q (List.mem_append_right _ hq))
      · exact List.mem_append_right _ hq

end Rereads

/-- **A page with links is read as the page and the links.**  Wherever a run stands, what it writes
is cut into the tokens that it passes on and those of the links in front of them. -/
theorem exists_rereads {s : State} {cs : List Char} {p : Progress} {held : List (List Pending)}
    (hs : s.IsValid) (hclear : (cutAt s cs).doubtful = none) (hinside : p.IsInside s)
    (hholds : Holds p.elements held) : ∃ w, Rereads b s p held cs w := by
  -- every step takes a character at least, so what is left is shorter
  induction hn : cs.length using Nat.strong_induction_on generalizing s cs p held with
  | _ n ih =>
    rcases Html.exists_cutStep hs hclear with hplain | ⟨ts, next, rest, hstep⟩
    · exact ⟨_, .of_areStretches hclear hplain⟩
    · obtain ⟨links, held', hputs, hwhere⟩ :=
        Progress.exists_putsInFront (b := b) hstep hinside hholds
      have hlength : rest.length < n := by
        have hpos := List.length_pos_iff.2 hstep.flatMap_raw_ne_nil
        rw [← hn, ← hstep.flatMap_raw_append, List.length_append]
        omega
      have hrest : (cutAt next rest).doubtful = none := by simpa [hstep.cutAt_eq] using hclear
      obtain ⟨w, hw⟩ := ih rest.length hlength hstep.isValid hrest
        (Progress.isInside_advanceAll hstep p) hputs.holds rfl
      exact ⟨_, .of_cutStep hstep hs hclear hputs hwhere hw⟩

/-! ## A page with its links -/

/-- The start tag of a link is no anchor, and starts no paragraph. -/
theorem citationKey?_link (l : Link) : citationKey? l.element.startTag = none := by
  have hid : l.element.startTag.id = none := by
    have hname : Html.nameOf ['h', 'r', 'e', 'f'] = "href" := by decide
    simp [Html.Element.startTag, Html.Element.inside, Inside.value?, Link.element, Link.quotedUrl,
      Html.QuotedAttribute.asRead, hname]
  simp [citationKey?, hid]

theorem filterMap_citationKey?_links (ps : List Pending) :
    (startTags (ps.flatMap Pending.tokens)).filterMap citationKey? = [] := by
  induction ps with
  | nil => rfl
  | cons p ps ih =>
    rw [List.flatMap_cons, startTags_append, List.filterMap_append, ih, List.append_nil]
    simp [Pending.tokens, Link.tokens, startTag?, citationKey?_link]

/-- The links bring no anchors with them. -/
theorem Weave.filterMap_citationKey? (w : Weave) :
    (startTags w.tokens).filterMap citationKey? = (startTags w.page).filterMap citationKey? := by
  induction w with
  | nil => rfl
  | cons piece w ih =>
    obtain ⟨links, ts⟩ := piece
    simp only [tokens_cons, page_cons, startTags_append, List.filterMap_append,
      filterMap_citationKey?_links, ih, List.nil_append]

/-- **A page that was passed on is read as the page and the links in front of its end tags.** -/
theorem exists_weave_of_appendLinks {page out : List Char} {n : Nat}
    (h : (appendLinks b page).value = .ok (out, n)) :
    ∃ w : Weave, w.page = (Html.cut page).tokens ∧ w.text = out ∧ w.IsAtEndTags ∧
      Html.cut out = ⟨w.tokens, none⟩ ∧
      ∀ p ∈ w.links, ∃ tag ∈ startTags (Html.cut page).tokens, supported? b tag = some p := by
  obtain ⟨hclear, hwait, rfl, -⟩ := of_appendLinks_eq_ok h
  rw [← Html.cutAt_start] at hclear
  have hinside : Progress.start.IsInside .start := fun _ hnone => by cases hnone
  have hholds : Holds Progress.start.elements [] := rfl
  obtain ⟨w, hw⟩ := exists_rereads (b := b) State.isValid_start hclear hinside hholds
  have hpage := hw.page
  have htext := hw.text
  have hreread := hw.reread
  have hmem := hw.mem
  rw [Html.cutAt_start] at hpage htext hmem
  rw [htext, Html.cutAt_start] at hreread
  refine ⟨w, hpage, htext, hw.isAtEndTags, hreread, fun p hp => ?_⟩
  have hhanded := hmem p hp
  rw [List.flatten_nil, List.nil_append, handedAll_of_waiting_eq_nil hwait] at hhanded
  obtain ⟨tag, htag, hsupp⟩ := List.mem_filterMap.1 hhanded
  exact ⟨tag, (Progress.sublist_seen _ _).subset htag, hsupp⟩

end Citation
end PostRun
