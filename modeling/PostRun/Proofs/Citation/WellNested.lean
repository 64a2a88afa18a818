import PostRun.Proofs.Citation.Queue
import PostRun.Proofs.Html.Content

/-!
# Citation lists that are well-nested

On well-nested markup the links can be told from the tree.  A paragraph takes the links
that wait in front of its start tag, and they stand behind all that it holds, as elements
of the tree themselves (`withLinks`).  `appendLinks_markup` says when the page of a tree is
passed on, and that what is passed on is the page of the tree with its links.

## How a run passes a tree

Text and tags are cut off a page one by one, and so a run is followed from one place of a
page to another: `Passes` says what is written and looked at on the way.  The way through
a tree leaves the open elements as they were, because each end tag finds its own element
innermost; what it appends to the queue are the links of the tags that it looked at
(`exists_passes`).  The induction is on the tree, and what carries it is that the queue
holds the links that wait behind the tags so far.
-/

namespace PostRun
namespace Citation

open Html (Content Element PlainText QuotedAttribute StartTag Token)

variable {b : Bib.Bibliography}

/-! ## Links as elements -/

namespace Link

/-- The address of a link, as an attribute. -/
def quotedUrl (l : Link) : QuotedAttribute where
  name := ['h', 'r', 'e', 'f']
  value := Text.escape l.url.toList
  name_ne_nil := by simp
  staysInName := by simp [Html.staysInName, Html.endsName, Html.isSpace]
  noQuote := Text.not_mem_escape (by simp) _

/-- The element of a link. -/
def element (l : Link) : Element where
  first := 'a'
  more := []
  attributes := [l.quotedUrl]
  isAlpha := by rfl
  noEnd := by simp
  uniform := by decide

/-- The text in the element of a link. -/
def plainText (l : Link) : PlainText :=
  ⟨Text.escape l.text.toList, Text.not_mem_escape (by simp) _⟩

end Link

/-- The text behind a link. -/
def fullStop : PlainText := ⟨['.'], by decide⟩

/-- Links with a full stop behind each. -/
def linkContent : List Pending → Content
  | [] => .nil
  | p :: ps =>
      .element p.link.element (.text p.link.plainText .nil)
        (.text fullStop (linkContent ps))

theorem Link.startMarkup_element (l : Link) : l.element.startMarkup =
    "<a href=\"".toList ++ Text.escape l.url.toList ++ "\">".toList := by
  simp [Element.startMarkup, Element.chars, Link.element, QuotedAttribute.markup, Link.quotedUrl]

theorem Link.endMarkup_element (l : Link) : l.element.endMarkup = "</a>".toList := by
  simp [Element.endMarkup, Element.chars, Link.element]

/-- A link as markup is its element with its text. -/
theorem Link.markup_eq_element (l : Link) :
    l.markup = l.element.startMarkup ++ l.plainText.chars ++ l.element.endMarkup := by
  have htext : l.plainText.chars = Text.escape l.text.toList := rfl
  unfold markup
  rw [startMarkup_element, endMarkup_element, htext]

theorem markup_linkContent (ps : List Pending) :
    (linkContent ps).markup = ps.flatMap Pending.markup := by
  induction ps with
  | nil => simp only [linkContent, Content.markup, List.flatMap_nil]
  | cons p ps ih =>
    rw [List.flatMap_cons, ← ih, Pending.markup, Link.markup_eq_element]
    simp [linkContent, Content.markup, fullStop]

/-- **The tree with its links.**  Behind what it holds, each paragraph has the links that wait in
front of its start tag.  The start tags in front of the tree are `before`. -/
def withLinks (b : Bib.Bibliography) : List StartTag → Content → Content
  | _, .nil => .nil
  | before, .text t next => .text t (withLinks b before next)
  | before, .element e inner next =>
      .element e
        ((withLinks b (before ++ [e.startTag]) inner).append
          (linkContent (if startsParagraph e.startTag then waiting b before else [])))
        (withLinks b (before ++ e.startTag :: inner.startTags) next)

/-! ## Passing text and tags -/

/-- A run that stands at `cs` with progress `s` gets to `rest` with progress `s'`.  On the way it
writes `text` and looks at `tags`. -/
structure Passes (b : Bib.Bibliography) (s : Progress) (cs : List Char) (s' : Progress)
    (rest text : List Char) (tags : List StartTag) : Prop where
  doubtful : (Html.cut cs).doubtful = (Html.cut rest).doubtful
  seen : s.seen b (Html.cut cs).tokens = tags ++ s'.seen b (Html.cut rest).tokens
  written : s.writtenAll b (Html.cut cs).tokens = text ++ s'.writtenAll b (Html.cut rest).tokens
  advanceAll : s.advanceAll b (Html.cut cs).tokens = s'.advanceAll b (Html.cut rest).tokens

namespace Passes

theorem refl (s : Progress) (cs : List Char) : Passes b s cs s cs [] [] := ⟨rfl, rfl, rfl, rfl⟩

theorem trans {s₁ s₂ s₃ : Progress} {cs₁ cs₂ cs₃ text text' : List Char}
    {tags tags' : List StartTag} (h : Passes b s₁ cs₁ s₂ cs₂ text tags)
    (h' : Passes b s₂ cs₂ s₃ cs₃ text' tags') :
    Passes b s₁ cs₁ s₃ cs₃ (text ++ text') (tags ++ tags') where
  doubtful := h.doubtful.trans h'.doubtful
  seen := by rw [h.seen, h'.seen, List.append_assoc]
  written := by rw [h.written, h'.written, List.append_assoc]
  advanceAll := h.advanceAll.trans h'.advanceAll

/-- A token that is cut off the front. -/
theorem of_cut_eq_cons {cs rest : List Char} {t : Token}
    (hcut : Html.cut cs = (Html.cut rest).cons t) (s : Progress) :
    Passes b s cs (s.advance b t) rest (s.written t) (s.lookedAt t).toList := by
  constructor <;> rw [hcut] <;> rfl

/-- A character of text.  More text behind it is part of the same token, so that the text up to the
next tag is passed in one step or in several. -/
theorem cons_of_ne {c : Char} (hc : c ≠ '<') (s : Progress) (cs : List Char) :
    Passes b s (c :: cs) s cs [c] [] := by
  have hcut := Html.cut_cons_of_ne hc cs
  obtain _ | ⟨d, ds⟩ := cs
  · exact of_cut_eq_cons hcut s
  · by_cases hd : d = '<'
    · rw [hd] at hcut ⊢
      exact of_cut_eq_cons hcut s
    · have hmore := Html.cut_cons_of_ne hd ds
      have hd' : (d != '<') = true := by simpa using hd
      rw [List.takeWhile_cons_of_pos (p := (· != '<')) hd',
        List.dropWhile_cons_of_pos (p := (· != '<')) hd'] at hcut
      constructor <;> rw [hcut, hmore] <;> rfl

theorem plainText (t : PlainText) (s : Progress) (cs : List Char) :
    Passes b s (t.chars ++ cs) s cs t.chars [] := by
  obtain ⟨chars, hchars⟩ := t
  induction chars with
  | nil => exact refl s cs
  | cons c chars ih =>
    obtain ⟨hc, hchars⟩ := not_or.1 (mt List.mem_cons.2 hchars)
    exact (cons_of_ne (Ne.symm hc) s (chars ++ cs)).trans (ih hchars)

theorem startMarkup (e : Element) (s : Progress) (cs : List Char) :
    Passes b s (e.startMarkup ++ cs) (s.advanceStart b e.startTag) cs e.startMarkup
      [e.startTag] := by
  have hover : s.overlooks (.start e.startTag) = false := Bool.and_false _
  have hraw : e.startTag.raw = e.startMarkup := rfl
  have hpasses := of_cut_eq_cons (b := b) (e.cut_startMarkup cs) s
  simpa [Progress.advance, Progress.written, Progress.lookedAt, hover, startTag?, Token.raw, hraw]
    using hpasses

theorem endMarkup (e : Element) (s : Progress) (cs : List Char) :
    Passes b s (e.endMarkup ++ cs) (s.visitEnd e.endTag).1 cs (s.visitEnd e.endTag).2 [] := by
  have hover : s.overlooks (.stop e.endTag) = false := Bool.and_false _
  have hpasses := of_cut_eq_cons (b := b) (e.cut_endMarkup cs) s
  simpa [Progress.advance, Progress.written, Progress.lookedAt, hover, startTag?] using hpasses

end Passes

/-- The end tag of the innermost element closes that element alone. -/
theorem visitEnd_of_elements {s : Progress} {e : Element} {text : List Char}
    {es : Html.OpenElements} (h : s.elements = ⟨e.name, text⟩ :: es) :
    (s.visitEnd e.endTag).1.elements = es ∧ (s.visitEnd e.endTag).1.pending = s.pending ∧
      (s.visitEnd e.endTag).2 = text ++ e.endMarkup := by
  simp [Progress.visitEnd, h, Html.OpenElements.close, Html.OpenElements.split?,
    Html.OpenElements.outermostText, Element.endTag]

/-! ## Passing a tree -/

/-- **A run passes a tree**, and leaves the open elements as they were. -/
theorem exists_passes (c : Content) {before : List StartTag} {s : Progress}
    (h : s.pending = waiting b before) (rest : List Char) :
    ∃ s' : Progress, s'.elements = s.elements ∧
      s'.pending = waiting b (before ++ c.startTags) ∧
      Passes b s (c.markup ++ rest) s' rest (withLinks b before c).markup c.startTags := by
  induction c generalizing before s rest with
  | nil => exact ⟨s, rfl, by simpa [Content.startTags] using h, .refl s rest⟩
  | text t next ih =>
    obtain ⟨s', helements, hpending, hpasses⟩ := ih h rest
    refine ⟨s', helements, hpending, ?_⟩
    have htext := (Passes.plainText (b := b) t s (next.markup ++ rest)).trans hpasses
    simpa [Content.markup, Content.startTags, withLinks] using htext
  | element e inner next ihInner ihNext =>
    have hstart : (s.advanceStart b e.startTag).pending = waiting b (before ++ [e.startTag]) := by
      rw [Progress.advanceStart_pending, waiting_append_singleton, h]
    obtain ⟨s₂, helements₂, hpending₂, hinner⟩ :=
      ihInner hstart (e.endMarkup ++ (next.markup ++ rest))
    have hopen : s₂.elements =
        ⟨e.name, (if startsParagraph e.startTag then waiting b before else []).flatMap
          Pending.markup⟩ :: s.elements := by
      rw [helements₂, Progress.advanceStart_elements, h]
      rfl
    obtain ⟨helements₃, hpending₃, htext⟩ := visitEnd_of_elements hopen
    have hclosed : (s₂.visitEnd e.endTag).1.pending =
        waiting b (before ++ e.startTag :: inner.startTags) := by
      rw [hpending₃, hpending₂, List.append_assoc]
      rfl
    obtain ⟨s₄, helements₄, hpending₄, hnext⟩ := ihNext hclosed rest
    refine ⟨s₄, helements₄.trans helements₃, ?_, ?_⟩
    · rw [hpending₄, List.append_assoc]
      rfl
    · have hall := (((Passes.startMarkup e s _).trans hinner).trans
        (Passes.endMarkup e s₂ _)).trans hnext
      rw [htext] at hall
      simpa [Content.markup, Content.startTags, withLinks, Content.markup_append,
        markup_linkContent] using hall

/-- **The answer to a well-nested page.**  An anchor of an unknown key comes first, a link that
finds no paragraph second.  Otherwise the page of the tree with its links is passed on, and the
number is that of the anchors which ask for a link. -/
theorem appendLinks_markup (b : Bib.Bibliography) (c : Content) :
    (appendLinks b c.markup).value =
      match c.startTags.findSome? (unknown? b), waiting b c.startTags with
      | some key, _ => .error (.missingReference key)
      | none, p :: _ => .error (.missingCitationText p.key)
      | none, [] =>
          .ok ((withLinks b [] c).markup, (c.startTags.filterMap (supported? b)).length) := by
  have hstart : Progress.start.pending = waiting b [] := rfl
  obtain ⟨s', -, -, hpasses⟩ := exists_passes c hstart []
  rw [List.append_nil] at hpasses
  have hseen : reported b c.markup = c.startTags := hpasses.seen.trans (List.append_nil _)
  have hwritten : Progress.start.writtenAll b (Html.cut c.markup).tokens =
      (withLinks b [] c).markup := hpasses.written.trans (List.append_nil _)
  have hclear : (Html.cut c.markup).doubtful = none := hpasses.doubtful
  have hvalue := appendLinks_value_of_clear (b := b) hclear
  rw [hseen, hwritten] at hvalue
  exact hvalue

/-- A paragraph that is an anchor gives its link to the paragraph inside of it. -/
example :
    (appendLinks onePreprint "<p id=\"CITEREF_A\">x<p>y</p></p>".toList).value =
      .ok ("<p id=\"CITEREF_A\">x<p>y".toList ++
        "<a href=\"https://arxiv.org/abs/1\">arXiv:1</a>.</p></p>".toList, 1) := by
  rfl

end Citation
end PostRun
