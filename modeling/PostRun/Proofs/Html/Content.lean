import PostRun.Proofs.Html.Cut

/-!
# Well-nested markup

Markup in which everything is closed where it should be: text, and elements with a start
tag, what they hold, and an end tag of the same name.  The pieces carry what makes them
readable (`PlainText`, `QuotedAttribute`, `Element`), so that `Content` has no markup in
it that is cut in another way than it was put together.  Left out are only the elements
whose tags mean more than that: elements that are never closed, elements whose text is no
markup, and those that change how the tags inside of them are understood.

* `cut_cons_of_ne`, `cut_startMarkup`, `cut_endMarkup`: how text and the two tags of an
  element are cut, whatever follows them.

Behind each of them a page is cut as if it began there.  This holds because none of these
elements leads away from `State.start`, and because fuel does not matter.
-/

namespace PostRun
namespace Html

/-! ## Pieces of markup -/

/-- Text between tags. -/
structure PlainText where
  chars : List Char
  noTag : '<' ∉ chars

/-- Whether a character can stand in the name of an attribute that has a value. -/
def staysInName (c : Char) : Bool := !endsName c && c != '='

theorem staysInName_iff (c : Char) :
    staysInName c ↔ isSpace c = false ∧ c ≠ '/' ∧ c ≠ '>' ∧ c ≠ '=' := by
  simp [staysInName, endsName, and_assoc]

/-- An attribute with its value in double quotes. -/
structure QuotedAttribute where
  name : List Char
  value : List Char
  name_ne_nil : name ≠ []
  staysInName : ∀ c ∈ name, staysInName c
  noQuote : '"' ∉ value

namespace QuotedAttribute

/-- The attribute as it is written, behind a blank. -/
def markup (a : QuotedAttribute) : List Char :=
  ' ' :: a.name ++ '=' :: '"' :: a.value ++ ['"']

/-- The attribute as it is read. -/
def asRead (a : QuotedAttribute) : Attribute := ⟨nameOf a.name, a.value⟩

end QuotedAttribute

/-- Whether the tags of a name do nothing but open and close an element. -/
def isUniform (name : String) : Bool :=
  !(isVoid name || isTextName name || ["select", "frameset", "svg", "math"].contains name)

/-- The name and the attributes of an element. -/
structure Element where
  first : Char
  more : List Char
  attributes : List QuotedAttribute
  isAlpha : first.isAlpha
  noEnd : ∀ c ∈ more, endsName c = false
  uniform : isUniform (nameOf (first :: more))

namespace Element

/-- The name as it is written. -/
def chars (e : Element) : List Char := e.first :: e.more

/-- The name as it is read. -/
def name (e : Element) : String := nameOf e.chars

/-- The inside of the start tag. -/
def inside (e : Element) (rest : List Char) : Inside where
  attributes := e.attributes.map QuotedAttribute.asRead
  selfClosing := false
  raw := e.attributes.flatMap QuotedAttribute.markup ++ ['>']
  rest := rest

/-- The start tag as it is written. -/
def startMarkup (e : Element) : List Char :=
  '<' :: e.chars ++ e.attributes.flatMap QuotedAttribute.markup ++ ['>']

/-- The end tag as it is written. -/
def endMarkup (e : Element) : List Char := '<' :: '/' :: e.chars ++ ['>']

/-- The start tag. -/
def startTag (e : Element) : StartTag where
  raw := e.startMarkup
  name := e.name
  id := (e.inside []).value? "id"
  idText := (e.inside []).textOf? "id"
  opens := true
  byName := true

/-- The end tag. -/
def endTag (e : Element) : EndTag := ⟨e.endMarkup, e.name, true⟩

end Element

/-- Well-nested markup. -/
inductive Content where
  | nil
  | text (t : PlainText) (next : Content)
  | element (e : Element) (inner next : Content)

namespace Content

/-- The markup as it is written. -/
def markup : Content → List Char
  | nil => []
  | text t next => t.chars ++ next.markup
  | element e inner next => e.startMarkup ++ inner.markup ++ e.endMarkup ++ next.markup

/-- One piece of markup behind another. -/
def append : Content → Content → Content
  | nil, d => d
  | text t next, d => text t (next.append d)
  | element e inner next, d => element e inner (next.append d)

/-- The start tags, in the order in which they stand. -/
def startTags : Content → List StartTag
  | nil => []
  | text _ next => next.startTags
  | element e inner next => e.startTag :: inner.startTags ++ next.startTags

theorem markup_append (c d : Content) : (c.append d).markup = c.markup ++ d.markup := by
  induction c with
  | nil => rfl
  | text t next ih => simp [append, markup, ih]
  | element e inner next _ ih => simp [append, markup, ih]

end Content

/-! ## Reading attributes -/

namespace Inside

/-- Puts text and the attributes in it in front. -/
def behind (text : List Char) (attributes : List Attribute) (r : Inside) : Inside :=
  { r with attributes := attributes ++ r.attributes, raw := text ++ r.raw }

theorem read_cons {p next : Place} {c : Char} {completed : Option Attribute}
    (hstep : p.step c = .go next completed) {cs : List Char} {r : Inside}
    (h : read next cs = some r) : read p (c :: cs) = some (cons c completed r) := by
  rw [read, hstep]
  simp only [h, Option.map_some]

/-- The rest of a name. -/
theorem read_inName {chars name : List Char} (hchars : ∀ c ∈ chars, staysInName c)
    {cs : List Char} {r : Inside} (h : read (.inName (chars.reverse ++ name)) cs = some r) :
    read (.inName name) (chars ++ cs) = some (r.behind chars []) := by
  induction chars generalizing name with
  | nil => simpa [behind] using h
  | cons c chars ih =>
    have hc : staysInName c := hchars c List.mem_cons_self
    obtain ⟨hspace, hslash, hgt, hequals⟩ := (staysInName_iff c).1 hc
    have hstep : (Place.inName name).step c = .go (.inName (c :: name)) none := by
      simp [Place.step, hspace, hslash, hgt, hequals]
    have hname : read (.inName (chars.reverse ++ c :: name)) cs = some r := by simpa using h
    have hrest := ih (fun d hd => hchars d (List.mem_cons_of_mem _ hd)) hname
    rw [List.cons_append, read_cons hstep hrest]
    rfl

/-- The rest of a value. -/
theorem read_quoted {chars name value : List Char} (hchars : '"' ∉ chars) {cs : List Char}
    {r : Inside} (h : read (.quoted '"' name (chars.reverse ++ value)) cs = some r) :
    read (.quoted '"' name value) (chars ++ cs) = some (r.behind chars []) := by
  induction chars generalizing value with
  | nil => simpa [behind] using h
  | cons c chars ih =>
    obtain ⟨hc, hchars⟩ := not_or.1 (mt List.mem_cons.2 hchars)
    have hstep : (Place.quoted '"' name value).step c =
        .go (.quoted '"' name (c :: value)) none := by
      simp [Place.step, Ne.symm hc]
    have hvalue : read (.quoted '"' name (chars.reverse ++ c :: value)) cs = some r := by
      simpa using h
    have hrest := ih hchars hvalue
    rw [List.cons_append, read_cons hstep hrest]
    rfl

/-- One attribute. -/
theorem read_attribute (a : QuotedAttribute) {cs : List Char} {r : Inside}
    (h : read .afterQuoted cs = some r) :
    read .afterQuoted (a.markup ++ cs) = some (r.behind a.markup [a.asRead]) := by
  obtain ⟨c, name, hname⟩ := List.exists_cons_of_ne_nil a.name_ne_nil
  have hstays : ∀ d ∈ c :: name, staysInName d := hname ▸ a.staysInName
  have hc : staysInName c := hstays c List.mem_cons_self
  obtain ⟨hspace, hslash, hgt, -⟩ := (staysInName_iff c).1 hc
  -- from the end to the front, as each place is read by what is behind it
  have hclose : read (.quoted '"' a.name.reverse a.value.reverse) ('"' :: cs) =
      some (cons '"' (some a.asRead) r) := by
    refine read_cons ?_ h
    simp [Place.step, Place.attributeOf, QuotedAttribute.asRead]
  have hvalue : read (.quoted '"' a.name.reverse []) (a.value ++ '"' :: cs) =
      some ((cons '"' (some a.asRead) r).behind a.value []) :=
    read_quoted a.noQuote (by simpa using hclose)
  have hopen := read_cons (p := .beforeValue a.name.reverse) (c := '"') (by rfl) hvalue
  have hequals := read_cons (p := .inName a.name.reverse) (c := '=') (by rfl) hopen
  rw [hname, List.reverse_cons] at hequals
  have hname' := read_inName (fun d hd => hstays d (List.mem_cons_of_mem _ hd)) hequals
  have hfirst : Place.beforeName.step c = .go (.inName [c]) none := by
    simp [Place.step, Place.start, hspace, hslash, hgt]
  have hblank := read_cons (p := .afterQuoted) (c := ' ') (by rfl) (read_cons hfirst hname')
  simp only [QuotedAttribute.markup, hname, List.cons_append, List.append_assoc] at hblank ⊢
  rw [List.nil_append, hblank]
  simp [behind, cons]

/-- **The inside of the start tag of an element**, whatever follows the tag. -/
theorem read_inside (e : Element) (rest : List Char) :
    read .beforeName (e.attributes.flatMap QuotedAttribute.markup ++ '>' :: rest) =
      some (e.inside rest) := by
  -- a place before a name and one behind a value are left in the same way
  have hplace : ∀ cs, read .beforeName cs = read .afterQuoted cs := fun cs => by
    cases cs <;> rfl
  rw [hplace, Element.inside]
  induction e.attributes with
  | nil => rfl
  | cons a attributes ih =>
    rw [List.flatMap_cons, List.append_assoc, read_attribute a ih]
    simp [behind]

end Inside

/-! ## Cutting text and tags -/

/-- Text up to the next opening bracket. -/
theorem cut_cons_of_ne {c : Char} (hc : c ≠ '<') (cs : List Char) :
    cut (c :: cs) =
      (cut (cs.dropWhile (· != '<'))).cons (.other (c :: cs.takeWhile (· != '<'))) := by
  have hfront : Front.ofText (c :: cs) = .other := by simp [Front.ofText, hc]
  have hdecl : declaration false (c :: cs) =
      some (c :: cs.takeWhile (· != '<'), cs.dropWhile (· != '<')) := by
    simp [declaration, hc]
  exact cut_of_other hfront hdecl

theorem Front.ofText_startTag {c : Char} (hc : c.isAlpha) (cs : List Char) :
    Front.ofText ('<' :: c :: cs) = .startTag (name (c :: cs)).1 (name (c :: cs)).2 := by
  unfold ofText
  split
  · next heq =>
    -- a slash is no letter
    cases heq
    exact absurd hc (by decide)
  · next heq =>
    cases heq
    rw [if_pos hc]
  · next hstart => exact absurd rfl (hstart c cs)

theorem endsName_eq_false_of_isAlpha {c : Char} (hc : c.isAlpha) : endsName c = false := by
  refine Bool.eq_false_iff.2 fun hends => ?_
  have hchar : c = ' ' ∨ c = '\t' ∨ c = '\n' ∨ c = '\r' ∨ c = '\x0c' ∨ c = '/' ∨ c = '>' := by
    simpa [endsName, isSpace, or_assoc] using hends
  rcases hchar with h | h | h | h | h | h | h <;> rw [h] at hc <;> revert hc <;> decide

theorem Front.name_append_of_endsName {chars : List Char} (hchars : ∀ c ∈ chars, endsName c = false)
    {c : Char} (hc : endsName c) (cs : List Char) :
    Front.name (chars ++ c :: cs) = (chars, c :: cs) := by
  have hpos : ∀ d ∈ chars, (!endsName d) = true := fun d hd => by simp [hchars d hd]
  rw [Front.name, List.takeWhile_append_of_pos hpos, List.dropWhile_append_of_pos hpos]
  simp [hc]

namespace Element

variable (e : Element)

theorem endsName_eq_false : ∀ c ∈ e.chars, endsName c = false := by
  intro c hc
  rcases List.mem_cons.1 hc with rfl | hc
  · exact endsName_eq_false_of_isAlpha e.isAlpha
  · exact e.noEnd c hc

/-- What a uniform name is not. -/
theorem uniform_name : isVoid e.name = false ∧ TextMode.ofName e.name = .markup ∧
    e.name ≠ "select" ∧ e.name ≠ "frameset" ∧ e.name ≠ "svg" ∧ e.name ≠ "math" := by
  have huniform : isUniform e.name := e.uniform
  simpa [isUniform, isTextName, and_assoc] using huniform

theorem ofText_startMarkup (rest : List Char) :
    Front.ofText (e.startMarkup ++ rest) =
      .startTag e.chars (e.attributes.flatMap QuotedAttribute.markup ++ '>' :: rest) := by
  have hname :
      Front.name (e.chars ++ (e.attributes.flatMap QuotedAttribute.markup ++ '>' :: rest)) =
        (e.chars, e.attributes.flatMap QuotedAttribute.markup ++ '>' :: rest) := by
    cases e.attributes with
    | nil => exact Front.name_append_of_endsName e.endsName_eq_false (by decide) _
    | cons a attributes =>
      exact Front.name_append_of_endsName e.endsName_eq_false (c := ' ') (by decide) _
  have hmarkup : e.startMarkup ++ rest = '<' :: e.first ::
      (e.more ++ (e.attributes.flatMap QuotedAttribute.markup ++ '>' :: rest)) := by
    simp [startMarkup, chars]
  rw [hmarkup, Front.ofText_startTag e.isAlpha]
  rw [chars, List.cons_append] at hname
  rw [hname]
  rfl

/-- **The start tag of an element**, whatever follows it. -/
theorem cut_startMarkup (rest : List Char) :
    cut (e.startMarkup ++ rest) = (cut rest).cons (.start e.startTag) := by
  obtain ⟨hvoid, htext, hselect, hframeset, hsvg, hmath⟩ := e.uniform_name
  have hguard : State.start.guard.behindStart e.name = some .free := by
    simp [State.start, Guard.behindStart, hselect, hframeset]
  have hnext : State.start.behindStart .free e.name (e.inside rest) = .start := by
    simp [State.start, State.behindStart, Vocabularies.behindStart, Vocabularies.current, hsvg,
      hmath, htext]
  have hopens : State.start.opens e.name (e.inside rest) = true := by
    simp [State.start, State.opens, Vocabularies.current, hvoid]
  have hneeds : State.start.vocabularies.needsInside e.name = false := by
    simp [State.start, Vocabularies.needsInside, Vocabularies.current]
  have hraw : '<' :: e.chars ++ (e.inside rest).raw = e.startMarkup := by
    simp [inside, startMarkup]
  have hcut := cut_of_startTag (e.ofText_startMarkup rest) (Inside.read_inside e rest) hguard hnext
  have hname : nameOf e.chars = e.name := rfl
  rw [hname, hraw, hopens, hneeds] at hcut
  exact hcut

theorem ofText_endMarkup (rest : List Char) :
    Front.ofText (e.endMarkup ++ rest) = .endTag e.chars ('>' :: rest) := by
  have hname : Front.name (e.chars ++ '>' :: rest) = (e.chars, '>' :: rest) :=
    Front.name_append_of_endsName e.endsName_eq_false (by decide) rest
  have hmarkup : e.endMarkup ++ rest = '<' :: '/' :: e.first :: (e.more ++ '>' :: rest) := by
    simp [endMarkup, chars]
  rw [chars, List.cons_append] at hname
  rw [hmarkup, Front.ofText, if_pos e.isAlpha, hname]
  rfl

/-- **The end tag of an element**, whatever follows it. -/
theorem cut_endMarkup (rest : List Char) :
    cut (e.endMarkup ++ rest) = (cut rest).cons (.stop e.endTag) :=
  cut_of_endTag (e.ofText_endMarkup rest) rfl

end Element
end Html
end PostRun
