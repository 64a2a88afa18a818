import PostRun.Proofs.Citation.Splice

/-!
# What becomes of the links of a page

A page that is passed on is the page with links in front of some of its end tags and
nothing else (`appendLinks_only_inserts`): every other character is where it was, whatever
the page holds.

The links that are in it are not always those that are counted.  A link is counted when a
paragraph starts, and it is written when an end tag closes the paragraph.  It is lost if
the paragraph opens no element, if it is closed together with an outer element that has
text, or if nothing closes it.  `KeepsLinks` says that none of this happens, and
`appendLinks_keeps_iff` that nothing else can go wrong: the page contains the counted
links exactly under this condition, and otherwise it is too short for them.
-/

namespace PostRun
namespace Citation

variable {b : Bib.Bibliography} {page out : List Char} {n : Nat}

/-- Nothing that is counted on a page is lost: every paragraph that is handed links opens an
element, no end tag closes two elements that have text, and no element that has text is open at the
end. -/
def KeepsLinks (b : Bib.Bibliography) (page : List Char) : Prop :=
  Progress.start.KeepsAll b (Html.cut page).tokens ∧
    ∀ e ∈ (progressAtEnd b page).elements, e.appended = []

/-- **The links of a page**: up to their order, those in the text that was passed on and those that
are lost. -/
theorem exists_splice_of_appendLinks (h : (appendLinks b page).value = .ok (out, n)) :
    ∃ (x : Splice) (lost : List Pending), x.page = page ∧ x.text = out ∧ x.IsAtEndTags ∧
      ((reported b page).filterMap (supported? b)).Perm (x.links ++ lost) ∧
      (lost = [] ↔ KeepsLinks b page) := by
  obtain ⟨hclear, hwait, hout, -⟩ := of_appendLinks_eq_ok h
  have hstart : Holds Progress.start.elements [] := rfl
  obtain ⟨x, lost, held, hpage, htext, hx, hholds, hperm, hlost⟩ :=
    Progress.exists_splice (b := b)
      (fun tag htag => (Html.cuts_cut page).isPrefix_of_stop_mem htag) hstart
  rw [handedAll_of_waiting_eq_nil hwait, List.flatten_nil, List.nil_append,
    List.append_assoc] at hperm
  refine ⟨x, lost ++ held.flatten, ?_, htext.trans hout.symm, hx, hperm, ?_⟩
  · rw [hpage, (Html.cuts_cut page).flatMap_raw hclear]
  · have hheld : held.flatten = [] ↔ ∀ e ∈ (progressAtEnd b page).elements, e.appended = [] := by
      have hempty : (∀ e ∈ (progressAtEnd b page).elements, e.appended = []) ↔
          ∀ text ∈ (progressAtEnd b page).elements.map (·.appended), text = [] := by
        simp
      have hlinks : (∀ text ∈ held.map (·.flatMap Pending.markup), text = []) ↔
          ∀ l ∈ held, l = [] := by
        simp only [List.forall_mem_map, ← List.isEmpty_iff, isEmpty_flatMap_markup]
      rw [hempty, List.flatten_eq_nil_iff, ← hlinks]
      exact iff_of_eq (congrArg (fun texts => ∀ text ∈ texts, text = []) hholds.symm)
    rw [List.append_eq_nil_iff, hlost, hheld, KeepsLinks]

/-! ## Nothing but links is written -/

/-- **A page only gains links.**  A page that was passed on is the page with links in front of end
tags; each is a link that an anchor of the page asks for.  If no anchor asks for one, the page is
unchanged. -/
theorem appendLinks_only_inserts (h : (appendLinks b page).value = .ok (out, n)) :
    (∃ x : Splice, x.page = page ∧ x.text = out ∧ x.IsAtEndTags ∧
      ∀ p ∈ x.links, ∃ tag ∈ startTags (Html.cut page).tokens, supported? b tag = some p) ∧
    ((∀ tag ∈ startTags (Html.cut page).tokens, supported? b tag = none) →
      out = page ∧ n = 0) := by
  obtain ⟨x, lost, hpage, htext, hx, hperm, -⟩ := exists_splice_of_appendLinks h
  have hsupported : ∀ p ∈ x.links,
      ∃ tag ∈ startTags (Html.cut page).tokens, supported? b tag = some p := by
    intro p hp
    have hmem : p ∈ (reported b page).filterMap (supported? b) :=
      hperm.mem_iff.2 (List.mem_append_left _ hp)
    obtain ⟨tag, htag, hsupp⟩ := List.mem_filterMap.1 hmem
    exact ⟨tag, (Progress.sublist_seen _ _).subset htag, hsupp⟩
  refine ⟨⟨x, hpage, htext, hx, hsupported⟩, fun hnone => ?_⟩
  have hlinks : x.links = [] := by
    refine List.eq_nil_iff_forall_not_mem.2 fun p hp => ?_
    obtain ⟨tag, htag, hsupp⟩ := hsupported p hp
    rw [hnone tag htag] at hsupp
    cases hsupp
  have hpieces : x.pieces = [] := by
    refine List.eq_nil_iff_forall_not_mem.2 fun piece hpiece => (hx piece hpiece).1 ?_
    exact List.flatMap_eq_nil_iff.1 hlinks piece hpiece
  constructor
  · rw [← htext, ← hpage, Splice.text, Splice.page, hpieces]
    rfl
  · obtain ⟨-, -, -, hn⟩ := of_appendLinks_eq_ok h
    rw [hn, List.length_eq_zero_iff]
    refine List.filterMap_eq_nil_iff.2 fun tag htag => hnone tag ?_
    exact (Progress.sublist_seen _ _).subset htag

/-- A page with a script, a comment and an anchor without quotes, and what it gains. -/
theorem appendLinks_only_inserts_script :
    (appendLinks onePreprint
        "<script></p></script><a id=CITEREF_A><!--<p>--><p>x</a>".toList).value =
      .ok ("<script></p></script><a id=CITEREF_A><!--<p>--><p>x<a href=\"".toList ++
        "https://arxiv.org/abs/1\">arXiv:1</a>.</a>".toList, 1) ∧
    ∃ x : Splice,
      x.page = "<script></p></script><a id=CITEREF_A><!--<p>--><p>x</a>".toList ∧
      x.text = "<script></p></script><a id=CITEREF_A><!--<p>--><p>x<a href=\"".toList ++
        "https://arxiv.org/abs/1\">arXiv:1</a>.</a>".toList ∧ x.IsAtEndTags := by
  have hvalue : (appendLinks onePreprint
        "<script></p></script><a id=CITEREF_A><!--<p>--><p>x</a>".toList).value =
      .ok ("<script></p></script><a id=CITEREF_A><!--<p>--><p>x<a href=\"".toList ++
        "https://arxiv.org/abs/1\">arXiv:1</a>.</a>".toList, 1) := by rfl
  obtain ⟨⟨x, hpage, htext, hx, -⟩, -⟩ := appendLinks_only_inserts hvalue
  exact ⟨hvalue, x, hpage, htext, hx⟩

/-! ## When the counted links are there -/

/-- **The counted links are there exactly when none is lost.**  The number is that of the anchors
which ask for a link.  The page is the page with exactly these links in it if and only if it keeps
its links, and this can be read off its length. -/
theorem appendLinks_keeps_iff (h : (appendLinks b page).value = .ok (out, n)) :
    n = ((reported b page).filterMap (supported? b)).length ∧
    (KeepsLinks b page ↔ ∃ x : Splice, x.page = page ∧ x.text = out ∧
      x.links.Perm ((reported b page).filterMap (supported? b))) ∧
    (KeepsLinks b page ↔ Text.byteLength out =
      Text.byteLength page + markupLength ((reported b page).filterMap (supported? b))) := by
  obtain ⟨x, lost, hpage, htext, -, hperm, hlost⟩ := exists_splice_of_appendLinks h
  obtain ⟨-, -, -, hcount⟩ := of_appendLinks_eq_ok h
  have hlength : Text.byteLength out = Text.byteLength page + markupLength x.links := by
    rw [← htext, ← hpage, Splice.byteLength_text]
  have hmarkup : markupLength ((reported b page).filterMap (supported? b)) =
      markupLength x.links + markupLength lost := by
    rw [markupLength_perm hperm, markupLength_append]
  have hshort : KeepsLinks b page ↔ Text.byteLength out =
      Text.byteLength page + markupLength ((reported b page).filterMap (supported? b)) := by
    rw [← hlost, ← markupLength_eq_zero_iff, hlength, hmarkup]
    omega
  refine ⟨hcount, ⟨fun hkeeps => ⟨x, hpage, htext, ?_⟩, ?_⟩, hshort⟩
  · rw [hlost.2 hkeeps, List.append_nil] at hperm
    exact hperm.symm
  · rintro ⟨y, hypage, hytext, hyperm⟩
    have hylength := y.byteLength_text
    rw [hytext, hypage, markupLength_perm hyperm] at hylength
    exact hshort.2 hylength

/-- **A counted link that is not there.**  The paragraph is never closed, the page is unchanged, and
one link is counted. -/
theorem appendLinks_keeps_iff_unclosed :
    (appendLinks onePreprint "<a id=CITEREF_A></a><p>x".toList).value =
      .ok ("<a id=CITEREF_A></a><p>x".toList, 1) ∧
    ¬ KeepsLinks onePreprint "<a id=CITEREF_A></a><p>x".toList := by
  have hvalue : (appendLinks onePreprint "<a id=CITEREF_A></a><p>x".toList).value =
      .ok ("<a id=CITEREF_A></a><p>x".toList, 1) := by rfl
  obtain ⟨hcount, -, hlength⟩ := appendLinks_keeps_iff hvalue
  refine ⟨hvalue, fun hkeeps => ?_⟩
  have hzero := (markupLength_eq_zero_iff _).1 (Nat.left_eq_add.1 (hlength.1 hkeeps))
  rw [hzero] at hcount
  cases hcount

end Citation
end PostRun
