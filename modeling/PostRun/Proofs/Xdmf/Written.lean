import PostRun.Proofs.Text.Unescape
import PostRun.Proofs.Xdmf.Reading
import PostRun.Xdmf.Document

/-!
# Written markup is read

What a tree is written as reads as the tree, whatever characters its texts and the values
of its attributes hold: an escaped value has no quote and no bracket, so it ends where the
writer ended it, and an escaped text has no bracket.  Only names are written as they are, so
they have to be names (`Markup.isReadable`).

* `Tag.takes_opening`, `Tag.takes_closing`, `Tag.reads_alone`: the tags, by
  `Tag.token?_inner` on what stands between the brackets.
* `Markup.reads_lines`: the lines of a tree, by recursion on the tree.  The nodes
  (`Markup.nodes`) hold the line ends and the indentation too.
* `Markup.root?_joinLines`: the lines of a document.
-/

namespace PostRun
namespace Xdmf

/-! ## Written tags -/

theorem ne_of_isNameChar {c d : Char} (hc : isNameChar c) (hd : isNameChar d = false) : c ≠ d := by
  rintro rfl
  rw [hc] at hd
  cases hd

theorem isNameChar_of_isName {cs : List Char} (h : isName cs) {c : Char} (hc : c ∈ cs) :
    isNameChar c :=
  List.all_eq_true.1 (Bool.and_eq_true_iff.1 h).2 c hc

theorem exists_cons_of_isName {cs : List Char} (h : isName cs) : ∃ c rest, cs = c :: rest := by
  cases cs with
  | nil => cases h
  | cons c rest => exact ⟨c, rest, rfl⟩

theorem not_isSpace_of_isNameChar {c : Char} (h : isNameChar c) : isSpace c = false := by
  cases hc : isSpace c with
  | false => rfl
  | true =>
    simp only [isSpace, Bool.or_eq_true, beq_iff_eq] at hc
    obtain ((rfl | rfl) | rfl) | rfl := hc <;> cases h

/-- A name holds no bracket and no quote. -/
theorem plain_of_isName {cs : List Char} (h : isName cs) :
    ∀ c ∈ cs, c ≠ '<' ∧ c ≠ '>' ∧ c ≠ '"' := fun c hc =>
  have hname : isNameChar c := isNameChar_of_isName h hc
  ⟨ne_of_isNameChar hname (by decide), ne_of_isNameChar hname (by decide),
    ne_of_isNameChar hname (by decide)⟩

/-- A name ends where something else begins. -/
theorem takeWhile_isName {name rest : List Char} (h : isName name)
    (hrest : ∀ c ∈ rest.head?, isNameChar c = false) :
    (name ++ rest).takeWhile isNameChar = name ∧ (name ++ rest).dropWhile isNameChar = rest := by
  have hname : ∀ c ∈ name, isNameChar c := fun c hc => isNameChar_of_isName h hc
  rw [List.takeWhile_append_of_pos hname, List.dropWhile_append_of_pos hname]
  cases rest with
  | nil => simp
  | cons c rest =>
    have hc : isNameChar c = false := hrest c rfl
    simp [hc]

namespace Attribute

/-- What stands between the name and the value of an attribute. -/
def equals (a : Attribute) : List Char := if a.spaced then [' ', '=', ' '] else ['=']

/-- What stands in front of the value of an attribute. -/
def label (a : Attribute) : List Char := ' ' :: a.name.toList ++ a.equals

theorem written_eq (a : Attribute) :
    a.written = a.label ++ ('"' :: Text.escape a.value.toList ++ ['"']) := by
  simp [written, label, equals]

variable {a : Attribute} (h : isName a.name.toList)

include h

theorem plain_label : ∀ c ∈ a.label, c ≠ '<' ∧ c ≠ '>' ∧ c ≠ '"' := by
  rw [label, List.cons_append, List.forall_mem_cons, List.forall_mem_append]
  refine ⟨by decide, plain_of_isName h, ?_⟩
  cases ha : a.spaced <;> simp [equals, ha]

theorem passed_written : Passed a.written := by
  rw [written_eq]
  exact (passed_of_plain (plain_label h)).append
    (passed_quoted (Text.not_mem_escape (by simp) _) (Text.not_mem_escape (by simp) _))

/-- The name of an attribute is read off what stands in front of its value. -/
theorem attributeName?_label : attributeName? a.label = some a.name := by
  have hblank : a.label.dropWhile isSpace = a.name.toList ++ a.equals := by
    obtain ⟨c, cs, hcs⟩ := exists_cons_of_isName h
    have hc : isSpace c = false := not_isSpace_of_isNameChar
      (isNameChar_of_isName h (hcs ▸ List.mem_cons_self))
    rw [label, List.cons_append, List.dropWhile_cons_of_pos (by decide), hcs, List.cons_append,
      List.dropWhile_cons_of_neg (by simp [hc])]
  have hfirst : ∀ c ∈ a.equals.head?, isNameChar c = false := by
    cases ha : a.spaced <;> simp [equals, ha, isNameChar]
  have hsign : (a.equals.filter fun c => !isSpace c) = ['='] := by
    rw [equals]
    cases a.spaced <;> decide
  obtain ⟨hname, hrest⟩ := takeWhile_isName h hfirst
  have hspace : a.label.head?.any isSpace := rfl
  simp [attributeName?, hblank, hname, hrest, hspace, h, hsign]

end Attribute

namespace Tag

/-- A tag as it is read. -/
def head (t : Tag) : Head :=
  ⟨t.name, t.attributes.map fun a => (a.name, Text.escape a.value.toList)⟩

/-- Whether the names in a tag are names. -/
def isReadable (t : Tag) : Bool :=
  isName t.name.toList && t.attributes.all fun a => isName a.name.toList

/-- Attributes are read up to the end of the tag. -/
theorem attributes?_written {as : List Attribute} (h : ∀ a ∈ as, isName a.name.toList)
    {last : List Char} {alone : Bool} (hquote : '"' ∉ last)
    (hlast : standsAlone? last = some alone) :
    attributes? (Text.pieces '"' (as.flatMap Attribute.written ++ last)) =
      some (as.map fun a => (a.name, Text.escape a.value.toList), alone) := by
  induction as with
  | nil =>
    rw [List.flatMap_nil, List.nil_append, Text.pieces_of_not_mem hquote, attributes?, hlast]
    rfl
  | cons a as ih =>
    obtain ⟨ha, has⟩ := List.forall_mem_cons.1 h
    have hlabel : '"' ∉ a.label := fun hmem => (a.plain_label ha '"' hmem).2.2 rfl
    have hvalue : '"' ∉ Text.escape a.value.toList := Text.not_mem_escape (by simp) _
    have hsplit : (a :: as).flatMap Attribute.written ++ last =
        a.label ++ '"' :: (Text.escape a.value.toList ++
          '"' :: (as.flatMap Attribute.written ++ last)) := by
      simp [Attribute.written_eq]
    rw [hsplit, Text.pieces_append_cons hlabel, Text.pieces_append_cons hvalue, attributes?,
      a.attributeName?_label ha, ih has]
    rfl

section Readable

variable {t : Tag} (h : t.isReadable)

include h

theorem isName_name : isName t.name.toList := (Bool.and_eq_true_iff.1 h).1

theorem isName_attribute : ∀ a ∈ t.attributes, isName a.name.toList := fun a ha =>
  List.all_eq_true.1 (Bool.and_eq_true_iff.1 h).2 a ha

theorem passed_inner : Passed t.inner :=
  (passed_of_plain (plain_of_isName (isName_name h))).append
    (.flatMap fun a ha => a.passed_written (isName_attribute h a ha))

/-- The inside of a tag is read as its name and its attributes. -/
theorem token?_inner {last : List Char} {alone : Bool} (hquote : '"' ∉ last)
    (hlast : standsAlone? last = some alone) (hfirst : ∀ c ∈ last.head?, isNameChar c = false) :
    token? (t.inner ++ last) = some (if alone then .alone t.head else .opening t.head) := by
  have hname := isName_name h
  obtain ⟨c, cs, hcs⟩ := exists_cons_of_isName hname
  have hc : isNameChar c := isNameChar_of_isName hname (hcs ▸ List.mem_cons_self)
  have hinner : t.inner ++ last =
      c :: (cs ++ (t.attributes.flatMap Attribute.written ++ last)) := by
    rw [inner, hcs, List.cons_append, List.cons_append, List.append_assoc]
  have hbehind : ∀ d ∈ (t.attributes.flatMap Attribute.written ++ last).head?,
      isNameChar d = false := by
    cases t.attributes with
    | nil => exact hfirst
    | cons a as => simp [Attribute.written, isNameChar]
  obtain ⟨htake, hdrop⟩ := takeWhile_isName hname hbehind
  have hmark : ¬ (c = '?' ∨ c = '!') :=
    not_or.2 ⟨ne_of_isNameChar hc (by decide), ne_of_isNameChar hc (by decide)⟩
  have hslash : ¬ c = '/' := ne_of_isNameChar hc (by decide)
  rw [hcs, List.cons_append] at htake hdrop
  rw [hinner, token?, if_neg hmark, if_neg hslash]
  simp only [htake, hdrop, ← hcs, hname, attributes?_written (isName_attribute h) hquote hlast]
  simp [head]

/-- The tag that opens an element. -/
theorem takes_opening (r : Reader) : Takes t.opening r (r.enter t.head) := by
  have ht : token? t.inner = some (.opening t.head) := by
    simpa using token?_inner h List.not_mem_nil (rfl : standsAlone? [] = some false) (by simp)
  exact takes_tag (passed_inner h) ht rfl

/-- The tag of an element without content. -/
theorem reads_alone : Reads t.alone [.element t.head []] := fun r => by
  have hslash : '"' ∉ ['/'] := by decide
  have ht : token? (t.inner ++ ['/']) = some (.alone t.head) :=
    token?_inner h hslash rfl (by simp [isNameChar])
  have hpassed : Passed (t.inner ++ ['/']) := (passed_inner h).append (passed_of_plain (by simp))
  have halone : t.alone = '<' :: (t.inner ++ ['/']) ++ ['>'] := by simp [alone]
  rw [halone]
  exact takes_tag hpassed ht rfl

/-- The tag that closes an element. -/
theorem takes_closing (outer : List (Head × List Node)) (before content : List Node) :
    Takes t.closing ⟨(t.head, before) :: outer, content⟩
      ⟨outer, before ++ [.element t.head content]⟩ := by
  have hname := isName_name h
  have hpassed : Passed (['/'] ++ t.name.toList) :=
    (passed_of_plain (by simp)).append (passed_of_plain (plain_of_isName hname))
  have ht : token? (['/'] ++ t.name.toList) = some (.closing t.name) := by
    simp [token?, hname]
  exact takes_tag hpassed ht (by simp [Reader.advance, head])

/-- What stands between the tags of an element is its content. -/
theorem reads_element {cs : List Char} {content : List Node} (hcontent : Reads cs content) :
    Reads (t.opening ++ cs ++ t.closing) [.element t.head content] := fun r =>
  ((takes_opening h r).trans (hcontent _)).trans (takes_closing h r.outer r.done content)

end Readable

end Tag

/-! ## Written trees -/

/-- Lines as one text, with a line end behind each. -/
def ended (lines : List (List Char)) : List Char := lines.flatMap (· ++ ['\n'])

@[simp] theorem ended_nil : ended [] = [] := rfl

@[simp] theorem ended_cons (line : List Char) (lines : List (List Char)) :
    ended (line :: lines) = line ++ '\n' :: ended lines := by
  simp [ended]

@[simp] theorem ended_append (a b : List (List Char)) : ended (a ++ b) = ended a ++ ended b := by
  simp [ended]

/-- There is no line end behind the last line of a document. -/
theorem joinLines_append_singleton (lines : List (List Char)) (last : List Char) :
    Document.joinLines (lines ++ [last]) = ended lines ++ last := by
  induction lines with
  | nil => rfl
  | cons line lines ih =>
    obtain ⟨next, others, hnext⟩ := List.exists_cons_of_ne_nil
      (List.append_ne_nil_of_right_ne_nil lines (List.cons_ne_nil last []))
    rw [List.cons_append, hnext, Document.joinLines, ← hnext, ih, ended_cons, List.append_assoc,
      List.cons_append]
    exact List.cons_ne_nil _ _

namespace Markup

/-- The characters of an indentation. -/
def blanks (n : Nat) : List Node := List.replicate n (.char ' ')

mutual

/-- The nodes of the lines of a tree, the line ends included. -/
def nodes (n : Nat) : Markup → List Node
  | element tag step content =>
      blanks n ++ [.element tag.head (.char '\n' :: nodesOfAll (n + step) content ++ blanks n),
        .char '\n']
  | single tag => blanks n ++ [.element tag.head [], .char '\n']
  | text line => blanks n ++ (Text.escape line.toList).map .char ++ [.char '\n']

/-- The nodes of the lines of trees that stand one after another. -/
def nodesOfAll (n : Nat) : List Markup → List Node
  | [] => []
  | m :: ms => nodes n m ++ nodesOfAll n ms

end

mutual

/-- Whether all names in a tree are names. -/
def isReadable : Markup → Bool
  | element tag _ content => tag.isReadable && areReadable content
  | single tag => tag.isReadable
  | text _ => true

/-- Whether all names in some trees are names. -/
def areReadable : List Markup → Bool
  | [] => true
  | m :: ms => isReadable m && areReadable ms

end

theorem areReadable_iff {ms : List Markup} : areReadable ms ↔ ∀ m ∈ ms, isReadable m := by
  induction ms with
  | nil => simp [areReadable]
  | cons m ms ih => simp [areReadable, ih]

theorem reads_blanks (n : Nat) : Reads (List.replicate n ' ') (blanks n) := by
  have h : '<' ∉ List.replicate n ' ' := by simp
  simpa [blanks] using reads_text h

theorem reads_newline : Reads ['\n'] [.char '\n'] := reads_char (by decide)

mutual

/-- **The lines of a tree** read as its nodes. -/
theorem reads_lines (n : Nat) : ∀ m : Markup, isReadable m → Reads (ended (lines n m)) (nodes n m)
  | element tag step content => fun h => by
    obtain ⟨htag, hcontent⟩ := Bool.and_eq_true_iff.1 h
    have hinside : Reads ('\n' :: ended (linesOfAll (n + step) content) ++ List.replicate n ' ')
        (.char '\n' :: nodesOfAll (n + step) content ++ blanks n) :=
      (reads_newline.append (reads_linesOfAll (n + step) content hcontent)).append (reads_blanks n)
    have hall := ((reads_blanks n).append (Tag.reads_element htag hinside)).append reads_newline
    simpa [lines, nodes, indent] using hall
  | single tag => fun h => by
    have hall := ((reads_blanks n).append (Tag.reads_alone h)).append reads_newline
    simpa [lines, nodes, indent] using hall
  | text line => fun _ => by
    have hline : Reads (Text.escape line.toList) _ := reads_text (Text.not_mem_escape (by simp) _)
    have hall := ((reads_blanks n).append hline).append reads_newline
    simpa [lines, nodes, indent] using hall

/-- The lines of trees that stand one after another read as their nodes. -/
theorem reads_linesOfAll (n : Nat) : ∀ ms : List Markup, areReadable ms →
    Reads (ended (linesOfAll n ms)) (nodesOfAll n ms)
  | [] => fun _ => Reads.nil
  | m :: ms => fun h => by
    obtain ⟨hm, hms⟩ := Bool.and_eq_true_iff.1 h
    rw [linesOfAll, ended_append, nodesOfAll]
    exact (reads_lines n m hm).append (reads_linesOfAll n ms hms)

end

/-! ## The elements of a content -/

/-- The element that a tree is; a line of text is none. -/
def element? (n : Nat) : Markup → Option (Head × List Node)
  | element tag step content =>
      some (tag.head, .char '\n' :: nodesOfAll (n + step) content ++ blanks n)
  | single tag => some (tag.head, [])
  | text _ => none

theorem elements?_blanks_append (n : Nat) (ns : List Node) :
    elements? (blanks n ++ ns) = elements? ns := by
  induction n with
  | zero => rfl
  | succ n ih => exact ih

/-- The nodes of an element, with what follows them. -/
theorem elements?_nodes_append {n : Nat} {m : Markup} {e : Head × List Node}
    (h : m.element? n = some e) (ns : List Node) :
    elements? (nodes n m ++ ns) = (elements? ns).map (e :: ·) := by
  cases m with
  | text line => cases h
  | element tag step content =>
    cases h
    rw [nodes, List.append_assoc, elements?_blanks_append]
    rfl
  | single tag =>
    cases h
    rw [nodes, List.append_assoc, elements?_blanks_append]
    rfl

/-- The elements of trees are read one after another. -/
theorem elements?_nodesOfAll_append {n : Nat} {ms : List Markup}
    (h : ∀ m ∈ ms, ∃ e, m.element? n = some e) (ns : List Node) :
    elements? (nodesOfAll n ms ++ ns) = (elements? ns).map (ms.filterMap (element? n) ++ ·) := by
  induction ms with
  | nil => simp [nodesOfAll]
  | cons m ms ih =>
    obtain ⟨⟨e, he⟩, hms⟩ := List.forall_mem_cons.1 h
    rw [nodesOfAll, List.append_assoc, elements?_nodes_append he, ih hms, Option.map_map,
      List.filterMap_cons_some he]
    rfl

/-- The content of an element that holds no text is its elements. -/
theorem elements?_content {n step : Nat} {ms : List Markup}
    (h : ∀ m ∈ ms, ∃ e, m.element? (n + step) = some e) :
    elements? (.char '\n' :: nodesOfAll (n + step) ms ++ blanks n) =
      some (ms.filterMap (element? (n + step))) := by
  have hblanks : elements? (blanks n) = some [] := by
    simpa [elements?] using elements?_blanks_append n []
  have hnewline : elements? (.char '\n' :: nodesOfAll (n + step) ms ++ blanks n) =
      elements? (nodesOfAll (n + step) ms ++ blanks n) := rfl
  rw [hnewline, elements?_nodesOfAll_append h, hblanks, Option.map_some, List.append_nil]

/-- The lines of an element read as the element. -/
theorem root?_ended {n : Nat} {m : Markup} (hread : m.isReadable) {e : Head × List Node}
    (he : m.element? n = some e) : root? (ended (m.lines n)) = some e := by
  have h := elements?_nodes_append he []
  rw [List.append_nil] at h
  rw [root?, (reads_lines n m hread).read?_eq, Option.bind_some, h]
  rfl

/-- **The lines of a document** read as its outermost element. -/
theorem root?_joinLines {tag : Tag} {step : Nat} {content : List Markup}
    (hread : (element tag step content).isReadable) :
    root? (Document.joinLines (Document.prolog ++ (element tag step content).lines 0)) =
      (element tag step content).element? 0 := by
  obtain ⟨htag, hcontent⟩ := Bool.and_eq_true_iff.1 hread
  have hlines : Document.joinLines (Document.prolog ++ (element tag step content).lines 0) =
      ended Document.prolog ++
        (tag.opening ++ ('\n' :: ended (linesOfAll (0 + step) content)) ++ tag.closing) := by
    rw [lines, ← List.append_assoc, joinLines_append_singleton]
    simp [indent]
  have hprolog : Reads (ended Document.prolog) [.char '\n', .char '\n'] :=
    ((reads_declaration "?xml version=\"1.0\" ?".toList (fun _ _ => rfl) rfl).append
      reads_newline).append
      ((reads_declaration "!DOCTYPE Xdmf SYSTEM \"Xdmf.dtd\"".toList (fun _ _ => rfl) rfl).append
        reads_newline)
  have hinside : Reads ('\n' :: ended (linesOfAll (0 + step) content)) _ :=
    reads_newline.append (reads_linesOfAll (0 + step) content hcontent)
  rw [root?, hlines, (hprolog.append (Tag.reads_element htag hinside)).read?_eq]
  simp [elements?, element?, only?, isSpace, blanks]

end Markup

end Xdmf
end PostRun
