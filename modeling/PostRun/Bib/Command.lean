import PostRun.Text.Accent

/-!
# Text commands

What a command of the text of a field stands for: a sign, an accent on its argument, or
itself when it is not known.

The name of an accent is one character if that is no letter.  All other names are as
long as names in the file are, so a digit behind a command belongs to it.
-/

namespace PostRun
namespace Bib

/-- The commands whose name is one character and no more. -/
def isMark (c : Char) : Bool :=
  ['`', '\'', '´', '^', '"', '~', '=', '.', '-'].contains c

/-- The commands that take the next character when no brace follows: all marks but the place where a
word may be broken. -/
def takesNext : List Char → Bool
  | [c] => isMark c && c != '-'
  | _ => false

/-- The accent that a command puts on its argument. -/
def accentOf? : List Char → Option Text.Accent
  | ['`'] => some .grave
  | ['\''] => some .acute
  | ['´'] => some .acute
  | ['^'] => some .circumflex
  | ['~'] => some .tilde
  | ['='] => some .macron
  | ['u'] => some .breve
  | ['.'] => some .dotAbove
  | ['"'] => some .diaeresis
  | ['r'] => some .ringAbove
  | ['H'] => some .doubleAcute
  | ['v'] => some .caron
  | ['d'] => some .dotBelow
  | ['c'] => some .cedilla
  | ['k'] => some .ogonek
  | ['b'] => some .lineBelow
  | ['o'] => some .solidus
  | _ => none

/-- The commands that stand for a text of their own. -/
def signs : List (String × String) := [
  ("LaTeX", "LaTeX"), ("TeX", "TeX"), ("-", ""), ("i", "ı"),
  ("aa", "å"), ("AA", "Å"), ("ae", "æ"), ("AE", "Æ"), ("oe", "œ"), ("OE", "Œ"), ("ss", "ß"),
  ("SS", "ẞ"), ("l", "ł"), ("L", "Ł"), ("O", "Ø"), ("ng", "ŋ"), ("NG", "Ŋ"), ("dh", "ð"),
  ("DH", "Ð"), ("dj", "đ"), ("DJ", "Đ"), ("th", "þ"), ("TH", "Þ"),
  ("pounds", "£"), ("P", "¶"), ("S", "§"), ("ddag", "‡"), ("dots", "…"),
  ("guillemotleft", "«"), ("guillemotright", "»"), ("guilsinglleft", "‹"), ("guilsinglright", "›"),
  ("quotedblbase", "„"), ("quotesinglbase", "‚"),
  ("textasciicircum", "^"), ("textasciigrave", "`"), ("textasciitilde", "~"),
  ("textasteriskcentered", "⁎"), ("textbackslash", "\\"), ("textbar", "|"),
  ("textbraceleft", "\x7b"), ("textbraceright", "\x7d"), ("textbullet", "•"), ("textdagger", "†"),
  ("textdaggerdbl", "‡"), ("textdollar", "$"), ("textellipsis", "…"), ("textemdash", "—"),
  ("textendash", "–"), ("textexclamdown", "¡"), ("textgreater", ">"), ("textless", "<"),
  ("textordfeminine", "ª"), ("textordmasculine", "º"), ("textparagraph", "¶"),
  ("textperiodcentered", "·"), ("textquestiondown", "¿"), ("textquotedbl", "\""),
  ("textquotedblleft", "“"), ("textquotedblright", "”"), ("textquoteleft", "‘"),
  ("textquoteright", "’"), ("textquotesingle", "'"), ("textquotestraightbase", "‚"),
  ("textquotestraightdblbase", "„"), ("textregistered", "®"), ("textsection", "§"),
  ("texttrademark", "™"), ("textunderscore", "_"), ("textvisiblespace", "␣")]

/-- The text of a sign. -/
def signOf? (name : List Char) : Option (List Char) :=
  (signs.lookup (String.ofList name)).map String.toList

/-- The text of a command that is not known: the command itself. -/
def unknownText (name : List Char) : Option (List Char) → List Char
  | some argument => '\\' :: name ++ '{' :: argument ++ ['}']
  | none => '\\' :: name ++ [' ']

/-- The text of a command.  Signs drop their arguments, and only the copyright sign keeps it; the
accent of a stroke is a letter when it has no argument, and a tilde or a circumflex on nothing is
itself. -/
def commandText (name : List Char) (argument : Option (List Char)) : List Char :=
  let text := argument.getD []
  if name = "copyright".toList then '©' :: text
  else if name = ['o'] ∧ argument = none then ['ø']
  else if (name = ['~'] ∨ name = ['^']) ∧ argument = some [] then name
  else
    match accentOf? name with
    | some accent => accent.onLast text
    | none => (signOf? name).getD (unknownText name argument)

end Bib
end PostRun
