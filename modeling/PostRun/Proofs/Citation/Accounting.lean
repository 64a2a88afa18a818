import PostRun.Proofs.Citation.Overlooked
import PostRun.Proofs.Citation.Queue
import PostRun.Proofs.Html.Identifiers

/-!
# What a citation list is answered with

The answer to a page is settled by the start tags that are looked at, in order, and by
what each of them asks for.  An anchor of an unknown key comes before everything else: the
first such key is the answer, whatever the rest of the page holds.  Otherwise an anchor
that no paragraph follows is: the answer names the first link that still waits.  Otherwise
every link finds a paragraph.

`appendLinks_accounts` says this for all pages without a doubtful tag.  Its last part says
which paragraph takes which links: those of the tags from the last paragraph on.  As the
links of all paragraphs in a row are all links in a row, each link goes to the first
paragraph behind its anchor, and to no other.

## Where a page does not say it

Two things stand between these accounts and a page as it is written, and the first part of
the theorem says what they are.

* A start tag can be overlooked.  That takes a drawing or a formula, a tag that has to be
  read to its end, and in front of it an end tag that was left at its name.  An anchor in
  such a tag has no effect, not even if its key is unknown.  A paragraph is never overlooked.
* An identifier is read without the byte order mark in front of it, so it can be that of an
  anchor although it does not begin like one.

A page without such a tag and without such a mark is answered by what is written on it.
`answers_beyond_written_tags` has a page for each of the two, and one that has neither.
-/

namespace PostRun
namespace Citation

open Html (Token StartTag surroundings)

/-! ## Paragraphs are looked at -/

/-- A tag that starts a paragraph is understood by its name alone, on every page. -/
theorem byName_of_startsParagraph {page : List Char} {tag : StartTag}
    (hmem : tag ∈ startTags (Html.cut page).tokens) (hp : startsParagraph tag) : tag.byName := by
  have hname : tag.name = "p" := by simpa [startsParagraph] using hp
  refine (Html.cuts_cut page).byName_of_start_mem (mem_startTags.1 hmem) ?_
  rw [hname]
  decide

/-- A tag that is overlooked stands in a drawing or a formula, and starts no paragraph. -/
theorem of_isOverlooked {b : Bib.Bibliography} {page : List Char} {before after : List Token}
    {tag : StartTag} (hclear : (Html.cut page).doubtful = none)
    (htokens : (Html.cut page).tokens = before ++ .start tag :: after)
    (hover : IsOverlooked b before tag) :
    (surroundings before).current ≠ .plain ∧ ¬ startsParagraph tag := by
  constructor
  · have hknown : tag.byName = !(surroundings before).needsInside tag.name :=
      Html.isUnderstoodIn_surroundings hclear htokens
    rw [hover.1, eq_comm, Bool.not_eq_false'] at hknown
    exact Html.Vocabularies.current_ne_plain_of_needsInside hknown
  · intro hp
    have hmem : tag ∈ startTags (Html.cut page).tokens :=
      htokens ▸ mem_startTags_append_cons before after tag
    have hname := byName_of_startsParagraph hmem hp
    rw [hover.1] at hname
    cases hname

/-- **A paragraph takes the links that wait in front of it.** -/
theorem visitParagraph_advanceAll {b : Bib.Bibliography} {page : List Char}
    {before after : List Token} {tag : StartTag}
    (htokens : (Html.cut page).tokens = before ++ .start tag :: after)
    (hp : startsParagraph tag) :
    (∃ rest, reported b page = Progress.start.seen b before ++ tag :: rest) ∧
      ((Progress.start.advanceAll b before).visitParagraph tag).value.2 =
        (waiting b (Progress.start.seen b before)).flatMap Pending.markup := by
  have hmem : tag ∈ startTags (Html.cut page).tokens :=
    htokens ▸ mem_startTags_append_cons before after tag
  have hname : tag.byName := byName_of_startsParagraph hmem hp
  have hpending : (Progress.start.advanceAll b before).pending =
      waiting b (Progress.start.seen b before) :=
    Progress.pending_advanceAll [] rfl before
  constructor
  · rw [reported, htokens, Progress.seen_append, Progress.seen_cons]
    simp [Progress.lookedAt, Progress.overlooks, hname, startTag?]
  · simp [Progress.visitParagraph, hp, hpending]

/-! ## Anchors as they are written -/

theorem includes_of_isPrefixOf {part cs : List Char} (more : List Char)
    (h : (part ++ more).isPrefixOf cs) (hne : part ≠ []) : Text.includes part cs := by
  obtain ⟨rest, rfl⟩ := List.isPrefixOf_iff_prefix.1 h
  obtain ⟨c, part, rfl⟩ := List.exists_cons_of_ne_nil hne
  simp [Text.includes]

/-- An identifier that is read as it is written is that of an anchor if it begins like one. -/
theorem citationKey?_eq_bind {tag : StartTag} (h : tag.idText = tag.id) :
    citationKey? tag = tag.id.bind keyOf? := by
  rw [citationKey?, h]
  cases tag.id with
  | none => rfl
  | some name =>
    cases hstart : anchorStart.isPrefixOf name with
    | true =>
      have hword : Text.includes anchorWord name :=
        includes_of_isPrefixOf ['_'] hstart (by decide)
      simp [hword]
    | false => simp [keyOf?, hstart]

/-! ## The answer -/

variable (b : Bib.Bibliography) (page : List Char)

/-- **The accounts of a page.**

What is looked at are the start tags of the page but for those that are overlooked, which stand in a
drawing or a formula and start no paragraph; these are all of them exactly if none is overlooked.
Whether a tag is understood by its name is known from its surroundings.  On a page without byte
order marks an anchor is told by its identifier as it is written.

The first unknown key among the tags that are looked at is the answer.  Without one, a stranded
anchor is: the answer names the first link that waits at the end.  Without that either, the number
of links is that of the anchors which ask for one; each link is shown once, in order; and every
paragraph takes the links that wait in front of it. -/
theorem appendLinks_accounts (hclear : (Html.cut page).doubtful = none) :
    ((∀ before t after, (Html.cut page).tokens = before ++ t :: after →
        t.IsUnderstoodIn (surroundings before)) ∧
      (∀ before tag after, (Html.cut page).tokens = before ++ .start tag :: after →
        (IsOverlooked b before tag →
          (surroundings before).current ≠ .plain ∧ ¬ startsParagraph tag ∧
            Progress.start.seen b (before ++ [.start tag]) = Progress.start.seen b before) ∧
        (¬ IsOverlooked b before tag →
          Progress.start.seen b (before ++ [.start tag]) =
            Progress.start.seen b before ++ [tag])) ∧
      (reported b page = startTags (Html.cut page).tokens ↔
        ∀ before tag after, (Html.cut page).tokens = before ++ .start tag :: after →
          ¬ IsOverlooked b before tag) ∧
      ('\ufeff' ∉ page → ∀ tag ∈ startTags (Html.cut page).tokens,
        citationKey? tag = tag.id.bind keyOf?)) ∧
    ((reported b page).Sublist (startTags (Html.cut page).tokens) ∧
      (reported b page).filter (·.byName) =
        (startTags (Html.cut page).tokens).filter (·.byName) ∧
      ∀ tag ∈ startTags (Html.cut page).tokens, startsParagraph tag → tag.byName) ∧
    (∀ before tag after key, reported b page = before ++ tag :: after →
      (∀ u ∈ before, unknown? b u = none) → unknown? b tag = some key →
        (appendLinks b page).value = .error (.missingReference key)) ∧
    ((∀ tag ∈ reported b page, unknown? b tag = none) →
      (Stranded b (reported b page) →
        ∃ p, (waiting b (reported b page)).head? = some p ∧
          (appendLinks b page).value = .error (.missingCitationText p.key)) ∧
      (¬ Stranded b (reported b page) →
        (∃ out, (appendLinks b page).value =
          .ok (out, ((reported b page).filterMap (supported? b)).length)) ∧
        Logged.shown 1 (appendLinks b page).records =
          ((reported b page).filterMap (supported? b)).map Pending.report ∧
        ∀ before tag after, (Html.cut page).tokens = before ++ .start tag :: after →
          startsParagraph tag →
            (∃ rest, reported b page = Progress.start.seen b before ++ tag :: rest) ∧
            ∃ s text, (Progress.start.visitAll b before).value = .ok (s, text) ∧
              (s.visitParagraph tag).value.2 =
                (waiting b (Progress.start.seen b before)).flatMap Pending.markup)) := by
  refine ⟨⟨fun before t after htokens => Html.isUnderstoodIn_surroundings hclear htokens,
      fun before tag after htokens => ⟨fun hover => ?_, (Progress.seen_append_singleton _ _).2⟩,
      Progress.seen_eq_startTags_iff, fun hpage tag htag => ?_⟩,
    ⟨Progress.sublist_seen _ _, Progress.filter_byName_seen _ _,
      fun tag htag hp => byName_of_startsParagraph htag hp⟩, ?_, fun hknown => ?_⟩
  · obtain ⟨hforeign, hp⟩ := of_isOverlooked hclear htokens hover
    exact ⟨hforeign, hp, (Progress.seen_append_singleton before tag).1 hover⟩
  · exact citationKey?_eq_bind (Html.idText_eq_id_of_mem_cut hclear hpage (mem_startTags.1 htag))
  · intro before tag after key hsplit hbefore hkey
    have hfirst : (reported b page).findSome? (unknown? b) = some key := by
      rw [hsplit, List.findSome?_append, List.findSome?_eq_none_iff.2 hbefore]
      simp [hkey]
    rw [appendLinks_value_of_clear hclear, hfirst]
  · have hnone : (reported b page).findSome? (unknown? b) = none :=
      List.findSome?_eq_none_iff.2 hknown
    have hvalue := appendLinks_value_of_clear (b := b) hclear
    rw [hnone] at hvalue
    constructor
    · intro hstranded
      obtain ⟨p, ps, hwait⟩ := List.exists_cons_of_ne_nil ((stranded_iff _).1 hstranded)
      refine ⟨p, by rw [hwait]; rfl, ?_⟩
      rw [hvalue, hwait]
    · intro hstranded
      have hwait : waiting b (reported b page) = [] := by
        simpa using fun hne => hstranded ((stranded_iff _).2 hne)
      refine ⟨⟨Progress.start.writtenAll b (Html.cut page).tokens, ?_⟩, ?_, ?_⟩
      · rw [hvalue, hwait]
      · rw [← handedAll_of_waiting_eq_nil hwait]
        exact Progress.shown_visitAll hnone
      · intro before tag after htokens hp
        obtain ⟨⟨rest, hrest⟩, htaken⟩ := visitParagraph_advanceAll (b := b) htokens hp
        refine ⟨⟨rest, hrest⟩, Progress.start.advanceAll b before,
          Progress.start.writtenAll b before, ?_, htaken⟩
        have hbefore : (Progress.start.seen b before).findSome? (unknown? b) = none := by
          refine List.findSome?_eq_none_iff.2 fun u hu => hknown u ?_
          rw [hrest]
          exact List.mem_append_left _ hu
        rw [Progress.visitAll_value, hbefore]

/-- A page with one anchor and one paragraph. -/
def onePage : List Char := "<a id=CITEREF_A></a><p>x</p>".toList

/-- A drawing in which an anchor comes directly behind an end tag that closes nothing. -/
def drawing : List Char := "<svg></x><desc id=CITEREF_A>".toList

/-- The tags in front of that anchor, of which the last one is left at its name. -/
def beforeAnchor : List Token :=
  [.start ⟨"<svg>".toList, "svg", none, none, true, true⟩, .stop ⟨"</x>".toList, "x", true⟩]

/-- That anchor, which has to be read to its end. -/
def overlookedAnchor : StartTag :=
  ⟨"<desc id=CITEREF_A>".toList, "desc", some "CITEREF_A".toList, some "CITEREF_A".toList, true,
    false⟩

/-- A page whose anchor has a byte order mark in front of its identifier. -/
def markedPage : List Char := "<a id=\ufeffCITEREF_A></a><p>x</p>".toList

/-- **Pages and their answers.**  The first is answered by what is written on it.  On the second one
an anchor of an unknown key is overlooked: in a drawing, its tag has to be read to its end, and it
comes directly behind an end tag that is left at its name.  On the third one a link is appended
although the identifier does not begin like that of an anchor. -/
theorem answers_beyond_written_tags :
    ((Html.cut onePage).doubtful = none ∧
      reported onePreprint onePage = startTags (Html.cut onePage).tokens ∧
      ∃ out, (appendLinks onePreprint onePage).value = .ok (out, 1)) ∧
    ((Html.cut drawing).doubtful = none ∧
      (Html.cut drawing).tokens = beforeAnchor ++ [.start overlookedAnchor] ∧
      IsOverlooked .empty beforeAnchor overlookedAnchor ∧
      (surroundings beforeAnchor).current ≠ .plain ∧ unknown? .empty overlookedAnchor = some "A" ∧
      overlookedAnchor ∉ reported .empty drawing ∧
      (appendLinks .empty drawing).value = .ok (drawing, 0)) ∧
    (Html.cut markedPage).doubtful = none ∧
      (startTags (Html.cut markedPage).tokens).map (·.id) =
        [some "\ufeffCITEREF_A".toList, none] ∧
      (appendLinks onePreprint markedPage).value =
        .ok ("<a id=\ufeffCITEREF_A></a><p>x<a href=\"".toList ++
          "https://arxiv.org/abs/1\">arXiv:1</a>.</p>".toList, 1) := by
  refine ⟨⟨by rfl, by rfl, ?_⟩, ?_, by rfl, by rfl, by rfl⟩
  · have hwait : waiting onePreprint (reported onePreprint onePage) = [] := by rfl
    have hknown : (reported onePreprint onePage).findSome? (unknown? onePreprint) = none := by rfl
    obtain ⟨-, -, -, hanswer⟩ := appendLinks_accounts onePreprint onePage rfl
    exact ((hanswer (List.findSome?_eq_none_iff.1 hknown)).2
      fun hstranded => (stranded_iff _).1 hstranded hwait).1
  · have htokens : (Html.cut drawing).tokens = beforeAnchor ++ [.start overlookedAnchor] := by rfl
    have hover : IsOverlooked .empty beforeAnchor overlookedAnchor :=
      ⟨rfl, beforeAnchor.take 1, ⟨"</x>".toList, "x", true⟩, [], rfl,
        by simp [Html.AreStretches], rfl, rfl⟩
    obtain ⟨⟨-, htags, -⟩, -⟩ := appendLinks_accounts .empty drawing rfl
    obtain ⟨hforeign, -, hseen⟩ := (htags beforeAnchor overlookedAnchor [] htokens).1 hover
    refine ⟨by rfl, htokens, hover, hforeign, by rfl, ?_, by rfl⟩
    rw [reported, htokens, hseen]
    decide

end Citation
end PostRun
