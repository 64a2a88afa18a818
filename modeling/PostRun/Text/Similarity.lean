/-!
# Similar words

A measure of how alike two words are, by Jaro and Winkler: the share of characters that
the words have in common at nearby places, less those that are out of order, and more
for a common start.  The measure is an exact fraction between zero and one.
-/

namespace PostRun
namespace Text

/-- A fraction between zero and one. -/
structure Likeness where
  num : Nat
  den : Nat
  deriving DecidableEq

namespace Likeness

/-- Whether one likeness is below another. -/
def lt (x y : Likeness) : Bool := x.num * y.den < y.num * x.den

/-- No likeness. -/
def none : Likeness := ⟨0, 1⟩

/-- Equality. -/
def full : Likeness := ⟨1, 1⟩

end Likeness

/-- The characters of one word found in the other: the places still free there, how many were
found, how many of them stand before the one found last, and the place of that one. -/
structure Matching where
  free : List Nat
  found : Nat
  outOfOrder : Nat
  last : Nat

namespace Matching

/-- Looks for a character of the first word at the nearby places of the second one. -/
def step (other : List Char) (range : Nat) (m : Matching) (c : Char × Nat) : Matching :=
  let near (j : Nat) : Bool := c.2 - range ≤ j && j ≤ c.2 + range && other[j]? == some c.1
  match m.free.find? near with
  | none => m
  | some j =>
      ⟨m.free.erase j, m.found + 1, if j < m.last then m.outOfOrder + 1 else m.outOfOrder, j⟩

/-- The characters of one word found in another. -/
def ofWords (a b : List Char) : Matching :=
  a.zipIdx.foldl (step b (max a.length b.length / 2 - 1)) ⟨List.range b.length, 0, 0, 0⟩

end Matching

/-- The likeness of two words, whatever they start with. -/
def jaro (a b : List Char) : Likeness :=
  match a, b with
  | [], [] => .full
  | [c], [d] => if c = d then .full else .none
  | _, _ =>
      let m := Matching.ofWords a b
      if m.found = 0 then .none
      else
        let la := a.length
        let lb := b.length
        ⟨m.found * m.found * (la + lb) + (m.found - m.outOfOrder) * la * lb,
          3 * la * lb * m.found⟩

/-- The length of the common start of two words. -/
def commonStart : List Char → List Char → Nat
  | c :: cs, d :: ds => if c = d then commonStart cs ds + 1 else 0
  | _, _ => 0

/-- The likeness of two words: every character of a common start takes away a tenth of what is
missing. -/
def likeness (a b : List Char) : Likeness :=
  let j := jaro a b
  let raised := 10 * j.num + commonStart a b * (j.den - j.num)
  if 10 * j.den < raised then .full else ⟨raised, 10 * j.den⟩

/-- The last one of the likest words, if it is more than four fifths like the given one. -/
def likest? (word : List Char) (words : List (List Char)) : Option (List Char) :=
  (words.foldl (fun (best : Option (List Char) × Likeness) w =>
    let l := likeness word w
    if l.lt best.2 || !(Likeness.lt ⟨4, 5⟩ l) then best else (some w, l))
    (none, .none)).1

end Text
end PostRun
