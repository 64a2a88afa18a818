import Mathlib.Data.List.Basic
import PostRun.Proofs.Citation.Rereading
import PostRun.Proofs.Text.Unescape

/-!
# Links are inert

The identifier of a preprint is any text, and it may look like markup or like an entity.  Escaped
it is neither: a link is one element with one attribute and text inside, whatever the identifier,
and undoing the escaping gives back the address and the text (`Link.markup_is_inert`).

A reader of the page sees the same.  The link is cut into its three tokens wherever it stands
between tags, and what stands around it is read as if it were not there; so the tags, the attributes
and the anchors of a page with links are those of the page, and those of the links that were asked
for.
-/

namespace PostRun
namespace Citation

open Html (State Token StartTag EndTag Front Inside cutAt)

namespace Link

/-- A link as it is written. -/
theorem markup_eq (l : Link) :
    l.markup = "<a href=\"".toList ++ Text.escape l.url.toList ++ "\">".toList ++
      Text.escape l.text.toList ++ "</a>".toList := by
  unfold markup
  rfl

theorem toList_url (l : Link) :
    l.url.toList = "https://arxiv.org/abs/".toList ++ l.eprint.toList := String.toList_append

theorem nameOf_href : Html.nameOf ['h', 'r', 'e', 'f'] = "href" := by decide

/-- The one attribute of a link. -/
theorem attributes_inside (l : Link) (rest : List Char) :
    (l.element.inside rest).attributes = [⟨"href", Text.escape l.url.toList⟩] := by
  simp [Html.Element.inside, element, Html.QuotedAttribute.asRead, quotedUrl, nameOf_href]

/-- The tokens of a link, written out. -/
theorem tokens_eq (l : Link) :
    l.tokens =
      [.start ⟨"<a href=\"".toList ++ Text.escape l.url.toList ++ "\">".toList, "a", none, none,
          true, true⟩,
        .other (Text.escape l.text.toList), .stop ⟨"</a>".toList, "a", true⟩] := by
  have hunmarked : Text.unmarked "href".toList = "href".toList := by decide
  have hid : (l.element.inside []).value? "id" = none := by
    simp [Inside.value?, attributes_inside]
  have hidText : (l.element.inside []).textOf? "id" = none := by
    rw [Inside.textOf?, attributes_inside, List.find?_singleton, hunmarked]
    rfl
  have hname : l.element.name = "a" := nameOf_element l
  rw [tokens, Html.Element.startTag, Html.Element.endTag, startMarkup_element, endMarkup_element,
    hid, hidText, hname]
  rfl

/-- The start tag of a link has one attribute, whatever follows it. -/
theorem read_markup (l : Link) (rest : List Char) :
    ∃ inner tag, Front.ofText (l.markup ++ rest) = .startTag ['a'] inner ∧
      Inside.read .beforeName inner = some tag ∧
      tag.attributes = [⟨"href", Text.escape l.url.toList⟩] ∧
      tag.rest = Text.escape l.text.toList ++ "</a>".toList ++ rest := by
  have hassoc : l.markup ++ rest =
      l.element.startMarkup ++ (Text.escape l.text.toList ++ "</a>".toList ++ rest) := by
    rw [startMarkup_element, markup_eq]
    simp only [List.append_assoc]
  rw [hassoc]
  exact ⟨_, _, l.element.ofText_startMarkup _, Inside.read_inside l.element _,
    attributes_inside l _, rfl⟩

theorem hasOnlyEntities_markup (l : Link) : Text.HasOnlyEntities l.markup := by
  have hopening : Text.HasOnlyEntities "<a href=\"".toList := .of_not_mem (by decide)
  have hmiddle : Text.HasOnlyEntities "\">".toList := .of_not_mem (by decide)
  have hclosing : Text.HasOnlyEntities "</a>".toList := .of_not_mem (by decide)
  exact (((hopening.append (Text.hasOnlyEntities_escape _)).append hmiddle).append
    (Text.hasOnlyEntities_escape _)).append hclosing

/-- The quote behind the address ends it. -/
theorem markup_injective : Function.Injective markup := by
  intro l l' h
  have hquote : ∀ cs : List Char, '"' ∉ Text.escape cs := fun cs =>
    Text.not_mem_escape (by simp) cs
  have hrest : '"' ∉ '>' :: (Text.escape l.text.toList ++ "</a>".toList) := by
    simp [hquote]
  have hmiddle : "\">".toList = ['"', '>'] := by decide
  simp only [markup_eq, hmiddle, List.append_assoc, List.cons_append, List.nil_append] at h
  have haddress := (List.append_cons_inj_of_notMem (hquote _) hrest).1 (List.append_cancel_left h)
  have hurl := Text.escape_injective haddress.1
  rw [toList_url, toList_url] at hurl
  have heprint := List.append_cancel_left hurl
  exact congrArg Link.mk (String.toList_inj.1 heprint)

/-- **Links are inert.**  Whatever the identifier is, the markup of its link is the frame of one
element with one attribute, and in the frame stand an address and a text without brackets and
quotes.  Every ampersand begins an entity, and undoing the escaping gives back the address and the
text, so different identifiers have different markup.

Read again, the link is the start tag with its attribute, the text and the end tag, wherever it
stands in markup and whatever follows it, and what follows is read as if the link were not there.  A
page that was passed on is read as the tokens of the page and of links that its anchors ask for, in
front of end tags, and has the anchors of the page. -/
theorem markup_is_inert :
    (∀ l : Link, ∃ address shown : List Char,
      l.markup = "<a href=\"".toList ++ address ++ "\">".toList ++ shown ++ "</a>".toList ∧
      (∀ c ∈ address ++ shown, c ≠ '<' ∧ c ≠ '>' ∧ c ≠ '"' ∧ c ≠ '\'') ∧
      Text.HasOnlyEntities l.markup ∧
      Text.unescape address = some l.url.toList ∧ Text.unescape shown = some l.text.toList ∧
      l.url = "https://arxiv.org/abs/" ++ l.eprint ∧ l.text = "arXiv:" ++ l.eprint ∧
      (∀ rest : List Char, ∃ inner tag,
        Front.ofText (l.markup ++ rest) = .startTag ['a'] inner ∧
        Inside.read .beforeName inner = some tag ∧ tag.attributes = [⟨"href", address⟩] ∧
        tag.rest = shown ++ "</a>".toList ++ rest) ∧
      ∀ (s : State) (rest : List Char), s.mode = .markup →
        cutAt s (l.markup ++ rest) =
          (cutAt s rest).prepend
            [.start ⟨"<a href=\"".toList ++ address ++ "\">".toList, "a", none, none, true, true⟩,
              .other shown, .stop ⟨"</a>".toList, "a", true⟩]) ∧
    Function.Injective markup ∧
    ∀ (b : Bib.Bibliography) (page out : List Char) (n : Nat),
      (appendLinks b page).value = .ok (out, n) →
        (∃ w : Weave, w.page = (Html.cut page).tokens ∧ w.text = out ∧
          Html.cut out = ⟨w.tokens, none⟩ ∧ w.IsAtEndTags ∧
          ∀ p ∈ w.links, ∃ tag ∈ startTags (Html.cut page).tokens, supported? b tag = some p) ∧
        (startTags (Html.cut out).tokens).filterMap citationKey? =
          (startTags (Html.cut page).tokens).filterMap citationKey? := by
  refine ⟨fun l => ⟨Text.escape l.url.toList, Text.escape l.text.toList, l.markup_eq, ?_,
    l.hasOnlyEntities_markup, Text.unescape_escape _, Text.unescape_escape _, rfl, rfl,
    l.read_markup, fun s rest hmode => ?_⟩, markup_injective, fun b page out n h => ?_⟩
  · intro c hc
    have hescaped : ∃ cs : List Char, c ∈ Text.escape cs := by
      rcases List.mem_append.1 hc with hc | hc
      · exact ⟨_, hc⟩
      · exact ⟨_, hc⟩
    obtain ⟨cs, hc⟩ := hescaped
    have hnot : ∀ d, (d = '<' ∨ d = '>' ∨ d = '\'' ∨ d = '"') → c ≠ d := by
      rintro d hd rfl
      exact Text.not_mem_escape hd cs hc
    exact ⟨hnot _ (by simp), hnot _ (by simp), hnot _ (by simp), hnot _ (by simp)⟩
  · rw [← tokens_eq]
    exact l.cutAt_markup hmode rest
  · obtain ⟨w, hpage, htext, hends, hcut, hlinks⟩ := exists_weave_of_appendLinks h
    refine ⟨⟨w, hpage, htext, hcut, hends, hlinks⟩, ?_⟩
    rw [hcut, ← hpage]
    exact w.filterMap_citationKey?

/-- An identifier that looks like an anchor, with an entity behind it. -/
def anchorLike : String := "\"><a id=\"CITEREF_B\">&lt;"

/-- A bibliography of one entry, a preprint with that identifier. -/
def anchorLikePreprint : Bib.Bibliography :=
  Bib.Bibliography.empty.add
    ⟨"misc".toList, "A",
      (NameMap.empty.insert "archiveprefix" ⟨[⟨.plain, "arXiv".toList, .point 0⟩]⟩).insert
        "eprint" ⟨[⟨.plain, anchorLike.toList, .point 0⟩]⟩⟩

/-- The page has one anchor with the link and without it, and the link shows the entity. -/
theorem markup_is_inert_anchorLike :
    ∃ out, (appendLinks anchorLikePreprint "<a id=CITEREF_A></a><p>x</p>".toList).value =
        .ok (out, 1) ∧
      (startTags (Html.cut out).tokens).filterMap citationKey? = ["A"] ∧
      State.start.mode = .markup ∧
      ∃ address shown : List Char,
        Text.unescape shown = some "arXiv:\"><a id=\"CITEREF_B\">&lt;".toList ∧
        cutAt .start (Link.markup ⟨anchorLike⟩ ++ "</p>".toList) =
          (cutAt .start "</p>".toList).prepend
            [.start ⟨"<a href=\"".toList ++ address ++ "\">".toList, "a", none, none, true, true⟩,
              .other shown, .stop ⟨"</a>".toList, "a", true⟩] := by
  obtain ⟨hlink, -, hpage⟩ := markup_is_inert
  obtain ⟨address, shown, -, -, -, -, htext, -, -, -, hcut⟩ := hlink ⟨anchorLike⟩
  have hvalue : (appendLinks anchorLikePreprint "<a id=CITEREF_A></a><p>x</p>".toList).value =
      .ok ("<a id=CITEREF_A></a><p>x<a href=\"https://arxiv.org/abs/".toList ++
        "&quot;&gt;&lt;a id=&quot;CITEREF_B&quot;&gt;&amp;lt;\">arXiv:".toList ++
        "&quot;&gt;&lt;a id=&quot;CITEREF_B&quot;&gt;&amp;lt;</a>.</p>".toList, 1) := by
    decide +kernel
  obtain ⟨-, hkeys⟩ := hpage _ _ _ _ hvalue
  exact ⟨_, hvalue, hkeys.trans (by rfl), rfl, address, shown, htext, hcut .start _ rfl⟩

end Link

end Citation
end PostRun
