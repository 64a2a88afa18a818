import PostRun.Citation.Page

/-!
# A run over a page, and where it fails

`Progress.visitAll` passes tokens on one after the other, and ends at the first anchor
whose key is unknown.  Everything else that can be said about a run is easier to say when
it does not end there.  So the run is taken apart here: `advance` is what one token makes
of the progress, with an unknown anchor counted as one without a link; `written` is the
text that is passed on for the token; and `lookedAt` is the start tag that it shows to the
two visitors, if it shows one.  None of the three can fail.

`visit_value` and `visitAll_value` put the run together again: it fails exactly when a tag
that it looks at is an anchor of an unknown key, with the first such key, and otherwise it
is the folding of `advance` and the joining of `written`.

## What is looked at

`Progress.seen` lists the start tags that a run looks at.  They are the start tags of the
page except for some that are overlooked (`sublist_seen`), and all tags that are understood
by their names are among them (`filter_byName_seen`).

## A page

`appendLinks_value` reads all this on a page: what it fails with, and what is left to be
seen at its end.
-/

namespace PostRun
namespace Citation

open Html (Token StartTag EndTag)

variable {b : Bib.Bibliography}

/-! ## What an anchor asks for -/

/-- The link that a start tag asks for: the tag is an anchor, and its key stands for an entry with a
supported preprint. -/
def supported? (b : Bib.Bibliography) (tag : StartTag) : Option Pending :=
  (citationKey? tag).bind fun key =>
    match Link.find b key with
    | .ok (some link) => some ⟨key, link⟩
    | _ => none

/-- The key of a start tag that is an anchor, if it stands for no entry. -/
def unknown? (b : Bib.Bibliography) (tag : StartTag) : Option String :=
  (citationKey? tag).filter fun key => (b.find? key).isNone

/-- A bibliography of one entry, a preprint. -/
def onePreprint : Bib.Bibliography :=
  Bib.Bibliography.empty.add
    ⟨"misc".toList, "A",
      (NameMap.empty.insert "archiveprefix" ⟨[⟨.plain, "arXiv".toList, .point 0⟩]⟩).insert
        "eprint" ⟨[⟨.plain, ['1'], .point 0⟩]⟩⟩

/-- The start tag in a token. -/
def startTag? : Token → Option StartTag
  | .start tag => some tag
  | _ => none

/-- The start tags among tokens. -/
def startTags (ts : List Token) : List StartTag := ts.filterMap startTag?

@[simp] theorem startTags_nil : startTags [] = [] := rfl

@[simp] theorem startTags_cons (t : Token) (ts : List Token) :
    startTags (t :: ts) = (startTag? t).toList ++ startTags ts := by
  cases t <;> rfl

theorem mem_startTags {ts : List Token} {tag : StartTag} :
    tag ∈ startTags ts ↔ .start tag ∈ ts := by
  rw [startTags, List.mem_filterMap]
  constructor
  · rintro ⟨t, ht, hstart⟩
    cases t with
    | other raw => cases hstart
    | stop tag' => cases hstart
    | start tag' =>
      cases hstart
      exact ht
  · intro ht
    exact ⟨.start tag, ht, rfl⟩

theorem mem_startTags_append_cons (before after : List Token) (tag : StartTag) :
    tag ∈ startTags (before ++ .start tag :: after) :=
  mem_startTags.2 (List.mem_append_right _ List.mem_cons_self)

theorem startTags_append (ts us : List Token) :
    startTags (ts ++ us) = startTags ts ++ startTags us := List.filterMap_append

namespace Progress

/-- The start tag that is looked at when a token is passed on. -/
def lookedAt (s : Progress) (t : Token) : Option StartTag :=
  if s.overlooks t then none else startTag? t

/-- Takes note of the link that a start tag asks for. -/
def enqueue (b : Bib.Bibliography) (s : Progress) (tag : StartTag) : Progress :=
  { s with pending := s.pending ++ (supported? b tag).toList }

/-- The progress behind a start tag that is looked at. -/
def advanceStart (b : Bib.Bibliography) (s : Progress) (tag : StartTag) : Progress :=
  let handed := (s.visitParagraph tag).value
  { (handed.1.enqueue b tag).openElement tag handed.2 with leftAtName := false }

/-- The progress behind a token, where an anchor of an unknown key counts as one without a link. -/
def advance (b : Bib.Bibliography) (s : Progress) (t : Token) : Progress :=
  if s.overlooks t then { s with leftAtName := false }
  else
    match t with
    | .other _ => s
    | .stop tag => (s.visitEnd tag).1
    | .start tag => s.advanceStart b tag

/-- The text that is passed on for a token. -/
def written (s : Progress) (t : Token) : List Char :=
  if s.overlooks t then t.raw
  else
    match t with
    | .stop tag => (s.visitEnd tag).2
    | t => t.raw

/-- The progress behind tokens. -/
def advanceAll (b : Bib.Bibliography) (s : Progress) (ts : List Token) : Progress :=
  ts.foldl (advance b) s

/-- The text that is passed on for tokens. -/
def writtenAll (b : Bib.Bibliography) : Progress → List Token → List Char
  | _, [] => []
  | s, t :: ts => s.written t ++ (s.advance b t).writtenAll b ts

/-- The start tags that are looked at, in order. -/
def seen (b : Bib.Bibliography) : Progress → List Token → List StartTag
  | _, [] => []
  | s, t :: ts => (s.lookedAt t).toList ++ (s.advance b t).seen b ts

@[simp] theorem advanceAll_nil (s : Progress) : s.advanceAll b [] = s := rfl

@[simp] theorem advanceAll_cons (s : Progress) (t : Token) (ts : List Token) :
    s.advanceAll b (t :: ts) = (s.advance b t).advanceAll b ts := rfl

@[simp] theorem writtenAll_nil (s : Progress) : s.writtenAll b [] = [] := rfl

@[simp] theorem writtenAll_cons (s : Progress) (t : Token) (ts : List Token) :
    s.writtenAll b (t :: ts) = s.written t ++ (s.advance b t).writtenAll b ts := rfl

@[simp] theorem seen_nil (s : Progress) : s.seen b [] = [] := rfl

@[simp] theorem seen_cons (s : Progress) (t : Token) (ts : List Token) :
    s.seen b (t :: ts) = (s.lookedAt t).toList ++ (s.advance b t).seen b ts := rfl

theorem advanceAll_append (s : Progress) (ts us : List Token) :
    s.advanceAll b (ts ++ us) = (s.advanceAll b ts).advanceAll b us := List.foldl_append

theorem writtenAll_append (s : Progress) (ts us : List Token) :
    s.writtenAll b (ts ++ us) = s.writtenAll b ts ++ (s.advanceAll b ts).writtenAll b us := by
  induction ts generalizing s with
  | nil => rfl
  | cons t ts ih => simp [ih]

theorem seen_append (s : Progress) (ts us : List Token) :
    s.seen b (ts ++ us) = s.seen b ts ++ (s.advanceAll b ts).seen b us := by
  induction ts generalizing s with
  | nil => rfl
  | cons t ts ih => simp [ih]

/-! ## One token -/

theorem visitAnchor_value (s : Progress) (tag : StartTag) :
    (s.visitAnchor b tag).value =
      match unknown? b tag with
      | some key => .error (.missingReference key)
      | none => .ok (s.enqueue b tag) := by
  unfold visitAnchor unknown? enqueue supported?
  cases citationKey? tag with
  | none => simp
  | some key =>
    cases hfind : b.find? key with
    | none => simp [Link.find, hfind, Option.filter]
    | some e => cases hlink : Link.givenBy? e <;> simp [Link.find, hfind, hlink, Option.filter]

theorem visitStart_value (s : Progress) (tag : StartTag) :
    (s.visitStart b tag).value =
      match unknown? b tag with
      | some key => .error (.missingReference key)
      | none => .ok (s.advanceStart b tag, tag.raw) := by
  simp only [visitStart, Logged.bind_value, visitAnchor_value]
  cases unknown? b tag <;> rfl

/-- **One token.**  It fails exactly when it shows an anchor of an unknown key. -/
theorem visit_value (s : Progress) (t : Token) :
    (s.visit b t).value =
      match (s.lookedAt t).bind (unknown? b) with
      | some key => .error (.missingReference key)
      | none => .ok (s.advance b t, s.written t) := by
  unfold visit lookedAt advance written
  by_cases hover : s.overlooks t
  · simp [hover]
  · cases t with
    | other raw => simp [hover, startTag?, Token.raw]
    | stop tag => simp [hover, startTag?]
    | start tag =>
      simp only [hover, Bool.false_eq_true, ↓reduceIte, startTag?, Option.bind_some]
      exact visitStart_value s tag

/-! ## All tokens -/

/-- **A run** fails with the first unknown key among the tags that it looks at, and otherwise it
folds the steps. -/
theorem visitAll_value (s : Progress) (ts : List Token) :
    (s.visitAll b ts).value =
      match (s.seen b ts).findSome? (unknown? b) with
      | some key => .error (.missingReference key)
      | none => .ok (s.advanceAll b ts, s.writtenAll b ts) := by
  induction ts generalizing s with
  | nil => rfl
  | cons t ts ih =>
    simp only [visitAll, Logged.bind_value, visit_value, seen_cons, List.findSome?_append,
      advanceAll_cons, writtenAll_cons]
    have hlooked : (s.lookedAt t).toList.findSome? (unknown? b) =
        (s.lookedAt t).bind (unknown? b) := by
      cases s.lookedAt t <;> simp
    rw [hlooked]
    cases (s.lookedAt t).bind (unknown? b) with
    | some key => rfl
    | none =>
      simp only [Logged.map_value, ih, Option.none_or]
      cases ((s.advance b t).seen b ts).findSome? (unknown? b) <;> rfl

/-! ## The tags that are looked at -/

/-- Nothing is looked at that is not a start tag of the page, and nothing twice. -/
theorem sublist_seen (s : Progress) (ts : List Token) :
    (s.seen b ts).Sublist (startTags ts) := by
  induction ts generalizing s with
  | nil => exact List.Sublist.refl []
  | cons t ts ih =>
    have hlooked : (s.lookedAt t).toList.Sublist (startTag? t).toList := by
      unfold lookedAt
      split
      · exact List.nil_sublist _
      · exact List.Sublist.refl _
    rw [seen_cons, startTags_cons]
    exact hlooked.append (ih _)

/-- **Only tags that have to be read to their end can be overlooked.** -/
theorem filter_byName_seen (s : Progress) (ts : List Token) :
    (s.seen b ts).filter (·.byName) = (startTags ts).filter (·.byName) := by
  induction ts generalizing s with
  | nil => rfl
  | cons t ts ih =>
    rw [seen_cons, startTags_cons, List.filter_append, List.filter_append, ih]
    congr 1
    unfold lookedAt
    split
    · next hover =>
      cases t with
      | other raw => rfl
      | stop tag => rfl
      | start tag =>
        have hname : s.leftAtName = true ∧ tag.byName = false := by
          simpa [overlooks] using hover
        simp [startTag?, hname.2]
    · rfl

end Progress

/-! ## A page -/

/-- The start tags of a page that are looked at, in order. -/
def reported (b : Bib.Bibliography) (page : List Char) : List StartTag :=
  Progress.start.seen b (Html.cut page).tokens

/-- The progress at the end of a page. -/
def progressAtEnd (b : Bib.Bibliography) (page : List Char) : Progress :=
  Progress.start.advanceAll b (Html.cut page).tokens

theorem appendLinks_value (page : List Char) :
    (appendLinks b page).value =
      match (reported b page).findSome? (unknown? b) with
      | some key => .error (.missingReference key)
      | none =>
          Progress.finish (Html.cut page).doubtful
            (progressAtEnd b page, Progress.start.writtenAll b (Html.cut page).tokens) := by
  simp only [appendLinks, Logged.map_value, Progress.visitAll_value, reported, progressAtEnd]
  cases (Progress.start.seen b (Html.cut page).tokens).findSome? (unknown? b) <;> rfl

end Citation
end PostRun
