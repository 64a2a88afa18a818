import Mathlib.Data.List.Basic
import PostRun.Text.Pieces

/-!
# Reading markup

A reader of markup that knows nothing of the writer.  Text is cut into tokens by a machine
with one state for each place it can stand in (`Place`); a bracket inside a tag, an
attribute without a quoted value and a tag that is left open have no reading.  The tokens
are put together with a stack of the elements that are open (`Reader`), so what has a
reading is balanced: every closing tag bears the name of the element that was opened last.

## Going along a text

`Takes cs r r'` says that the reader `r` goes over to `r'` along `cs`, whatever follows, and
`Reads cs nodes` that it only gains nodes, wherever it stands.  Both can be put together
from pieces of text (`Takes.trans`, `Reads.append`), and so can the inside of a tag
(`Passed`), which is one token as a whole (`takes_tag`).
-/

namespace PostRun
namespace Xdmf

/-! ## Tokens -/

/-- A tag as it is read: its name, and its attributes with their values still escaped. -/
structure Head where
  name : String
  attributes : List (String × List Char)
  deriving DecidableEq

/-- A piece of markup. -/
inductive Token where
  | char (c : Char)
  | opening (head : Head)
  | closing (name : String)
  | alone (head : Head)
  | declaration
  deriving DecidableEq

/-- The blanks of markup. -/
def isSpace (c : Char) : Bool := c == ' ' || c == '\t' || c == '\n' || c == '\r'

/-- The characters that names are made of. -/
def isNameChar (c : Char) : Bool := c.isAlphanum || c == '_' || c == '-' || c == '.' || c == ':'

/-- Whether a piece of text is a name. -/
def isName (cs : List Char) : Bool := !cs.isEmpty && cs.all isNameChar

/-- The name in front of a value: blanks, the name, and an equals sign that may have blanks around
it. -/
def attributeName? (label : List Char) : Option String :=
  let named := label.dropWhile isSpace
  let name := named.takeWhile isNameChar
  if (label.head?.any isSpace) && isName name &&
      ((named.dropWhile isNameChar).filter fun c => !isSpace c) == ['='] then
    some (String.ofList name)
  else none

/-- Whether a tag stands alone, read off what follows its attributes. -/
def standsAlone? (last : List Char) : Option Bool :=
  match last.dropWhile isSpace with
  | [] => some false
  | ['/'] => some true
  | _ => none

/-- The attributes in the inside of a tag that was cut at its quotes, and whether the tag stands
alone. -/
def attributes? : List (List Char) → Option (List (String × List Char) × Bool)
  | [] => none
  | [last] => (standsAlone? last).map fun alone => ([], alone)
  | label :: value :: rest =>
      (attributeName? label).bind fun name =>
        (attributes? rest).map fun r => ((name, value) :: r.1, r.2)

/-- The token that a tag is, by what stands between its brackets. -/
def token? (inside : List Char) : Option Token :=
  match inside with
  | [] => none
  | c :: rest =>
      if c = '?' ∨ c = '!' then some .declaration
      else if c = '/' then if isName rest then some (.closing (String.ofList rest)) else none
      else
        let name := inside.takeWhile isNameChar
        if isName name then
          (attributes? (Text.pieces '"' (inside.dropWhile isNameChar))).map fun r =>
            if r.2 then .alone ⟨String.ofList name, r.1⟩ else .opening ⟨String.ofList name, r.1⟩
        else none

/-- Where the cutting of text stands: outside of tags, inside one, or inside a quoted value.  What
was read of a tag is held in reverse. -/
inductive Place where
  | text
  | tag (inside : List Char)
  | value (inside : List Char)

/-- Cuts text into tokens. -/
def tokensFrom : Place → List Char → Option (List Token)
  | .text, [] => some []
  | .tag _, [] => none
  | .value _, [] => none
  | .text, c :: cs =>
      if c = '<' then tokensFrom (.tag []) cs else (tokensFrom .text cs).map (.char c :: ·)
  | .tag inside, c :: cs =>
      if c = '<' then none
      else if c = '>' then
        (token? inside.reverse).bind fun t => (tokensFrom .text cs).map (t :: ·)
      else if c = '"' then tokensFrom (.value (c :: inside)) cs
      else tokensFrom (.tag (c :: inside)) cs
  | .value inside, c :: cs =>
      if c = '<' then none
      else if c = '"' then tokensFrom (.tag (c :: inside)) cs
      else tokensFrom (.value (c :: inside)) cs

/-! ## Elements -/

/-- What markup is made of: characters, and elements with their content. -/
inductive Node where
  | char (c : Char)
  | element (head : Head) (content : List Node)

/-- A reader between two tokens: the open elements, each with what stands before it, and what was
read of the innermost one. -/
structure Reader where
  outer : List (Head × List Node)
  done : List Node

namespace Reader

/-- The reader at the beginning. -/
def start : Reader := ⟨[], []⟩

/-- Adds nodes to what was read. -/
def push (r : Reader) (nodes : List Node) : Reader := { r with done := r.done ++ nodes }

/-- Goes into an element. -/
def enter (r : Reader) (h : Head) : Reader := ⟨(h, r.done) :: r.outer, []⟩

/-- Takes in one token. -/
def advance (r : Reader) : Token → Option Reader
  | .char c => some (r.push [.char c])
  | .opening h => some (r.enter h)
  | .alone h => some (r.push [.element h []])
  | .declaration => some r
  | .closing name =>
      match r.outer with
      | [] => none
      | (h, before) :: outer =>
          if h.name = name then some ⟨outer, before ++ [.element h r.done]⟩ else none

/-- Takes in tokens. -/
def run (r : Reader) (ts : List Token) : Option Reader := ts.foldlM advance r

@[simp] theorem push_nil (r : Reader) : r.push [] = r := by simp [push]

@[simp] theorem push_push (r : Reader) (a b : List Node) :
    (r.push a).push b = r.push (a ++ b) := by simp [push]

theorem run_cons (r : Reader) (t : Token) (ts : List Token) :
    r.run (t :: ts) = (r.advance t).bind fun r' => r'.run ts := List.foldlM_cons

end Reader

/-- The nodes of a text in which every element is closed. -/
def read? (cs : List Char) : Option (List Node) :=
  ((tokensFrom .text cs).bind Reader.start.run).bind fun r =>
    if r.outer.isEmpty then some r.done else none

/-- The elements among nodes that have only blanks beside them. -/
def elements? : List Node → Option (List (Head × List Node))
  | [] => some []
  | .char c :: ns => if isSpace c then elements? ns else none
  | .element h content :: ns => (elements? ns).map ((h, content) :: ·)

/-- The only item of a list. -/
def only? {α : Type u} : List α → Option α
  | [a] => some a
  | _ => none

/-- The outermost element of a text, with nothing but blanks beside it. -/
def root? (cs : List Char) : Option (Head × List Node) :=
  ((read? cs).bind elements?).bind only?

/-! ## Going along a text -/

/-- The first reader becomes the second one along a text. -/
def Takes (cs : List Char) (r r' : Reader) : Prop :=
  ∀ rest, (tokensFrom .text (cs ++ rest)).bind r.run = (tokensFrom .text rest).bind r'.run

/-- A text reads as nodes, wherever it stands. -/
def Reads (cs : List Char) (nodes : List Node) : Prop := ∀ r : Reader, Takes cs r (r.push nodes)

theorem Takes.trans {a b : List Char} {r r' r'' : Reader} (h : Takes a r r') (h' : Takes b r' r'') :
    Takes (a ++ b) r r'' := fun rest => by
  rw [List.append_assoc, h, h']

/-- A text that is one token. -/
theorem takes_of_token {cs : List Char} {t : Token} {r r' : Reader}
    (h : ∀ rest, tokensFrom .text (cs ++ rest) = (tokensFrom .text rest).map (t :: ·))
    (hstep : r.advance t = some r') : Takes cs r r' := fun rest => by
  rw [h, Option.bind_map]
  congr 1
  funext ts
  rw [Function.comp_apply, Reader.run_cons, hstep, Option.bind_some]

theorem Reads.nil : Reads [] [] := fun r rest => by rw [Reader.push_nil, List.nil_append]

theorem Reads.append {a b : List Char} {m n : List Node} (ha : Reads a m) (hb : Reads b n) :
    Reads (a ++ b) (m ++ n) := fun r => by
  rw [← Reader.push_push]
  exact (ha r).trans (hb _)

theorem reads_char {c : Char} (h : c ≠ '<') : Reads [c] [.char c] := fun _ =>
  takes_of_token (fun rest => by rw [List.singleton_append, tokensFrom, if_neg h]) rfl

/-- Text without brackets reads as its characters. -/
theorem reads_text {cs : List Char} (h : '<' ∉ cs) : Reads cs (cs.map .char) := by
  induction cs with
  | nil => exact Reads.nil
  | cons c cs ih =>
    obtain ⟨hc, hcs⟩ := not_or.1 (mt List.mem_cons.2 h)
    exact (reads_char (Ne.symm hc)).append (ih hcs)

/-- What reads as nodes is read from beginning to end. -/
theorem Reads.read?_eq {cs : List Char} {nodes : List Node} (h : Reads cs nodes) :
    read? cs = some nodes := by
  have hrun := h .start []
  rw [List.append_nil] at hrun
  rw [read?, hrun]
  rfl

/-! ## The inside of a tag -/

/-- Text that belongs to the inside of a tag. -/
def Passed (w : List Char) : Prop :=
  ∀ inside rest, tokensFrom (.tag inside) (w ++ rest) = tokensFrom (.tag (w.reverse ++ inside)) rest

theorem Passed.append {v w : List Char} (hv : Passed v) (hw : Passed w) : Passed (v ++ w) :=
  fun inside rest => by
    rw [List.append_assoc, hv, hw, List.reverse_append, List.append_assoc]

theorem Passed.flatMap {α : Type u} {f : α → List Char} {l : List α} (h : ∀ a ∈ l, Passed (f a)) :
    Passed (l.flatMap f) := by
  induction l with
  | nil => exact fun _ _ => rfl
  | cons a l ih =>
    obtain ⟨ha, hl⟩ := List.forall_mem_cons.1 h
    exact ha.append (ih hl)

/-- Characters that mean nothing inside a tag. -/
theorem passed_of_plain {w : List Char} (h : ∀ c ∈ w, c ≠ '<' ∧ c ≠ '>' ∧ c ≠ '"') : Passed w := by
  induction w with
  | nil => exact fun _ _ => rfl
  | cons c w ih =>
    intro inside rest
    obtain ⟨⟨hlt, hgt, hquote⟩, hw⟩ := List.forall_mem_cons.1 h
    rw [List.cons_append, tokensFrom, if_neg hlt, if_neg hgt, if_neg hquote, ih hw,
      List.reverse_cons, List.append_assoc, List.singleton_append]

/-- The rest of a quoted value. -/
theorem tokensFrom_value {v : List Char} (hlt : '<' ∉ v) (hquote : '"' ∉ v)
    (inside rest : List Char) :
    tokensFrom (.value inside) (v ++ '"' :: rest) =
      tokensFrom (.tag ('"' :: (v.reverse ++ inside))) rest := by
  induction v generalizing inside with
  | nil => rfl
  | cons c v ih =>
    obtain ⟨hclt, hlt⟩ := not_or.1 (mt List.mem_cons.2 hlt)
    obtain ⟨hcquote, hquote⟩ := not_or.1 (mt List.mem_cons.2 hquote)
    rw [List.cons_append, tokensFrom, if_neg (Ne.symm hclt), if_neg (Ne.symm hcquote),
      ih hlt hquote, List.reverse_cons, List.append_assoc, List.singleton_append]

theorem passed_quoted {v : List Char} (hlt : '<' ∉ v) (hquote : '"' ∉ v) :
    Passed ('"' :: v ++ ['"']) := fun inside rest => by
  rw [List.cons_append, List.cons_append, List.append_assoc, tokensFrom, if_neg (by decide),
    if_neg (by decide), if_pos rfl, List.singleton_append, tokensFrom_value hlt hquote]
  simp

/-- A tag is one token. -/
theorem tokensFrom_tag {w : List Char} {t : Token} (hw : Passed w) (ht : token? w = some t)
    (rest : List Char) :
    tokensFrom .text ('<' :: w ++ '>' :: rest) = (tokensFrom .text rest).map (t :: ·) := by
  rw [List.cons_append, tokensFrom, if_pos rfl, hw, List.append_nil, tokensFrom,
    if_neg (by decide), if_pos rfl, List.reverse_reverse, ht, Option.bind_some]

theorem takes_tag {w : List Char} {t : Token} {r r' : Reader} (hw : Passed w)
    (ht : token? w = some t) (hstep : r.advance t = some r') : Takes ('<' :: w ++ ['>']) r r' :=
  takes_of_token (fun rest => by
    rw [List.append_assoc, List.singleton_append]
    exact tokensFrom_tag hw ht rest) hstep

/-- A declaration adds nothing. -/
theorem reads_declaration (w : List Char) (hw : Passed w) (ht : token? w = some .declaration) :
    Reads ('<' :: w ++ ['>']) [] := fun r => by
  rw [Reader.push_nil]
  exact takes_tag hw ht rfl

end Xdmf
end PostRun
