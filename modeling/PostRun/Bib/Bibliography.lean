import PostRun.Bib.Entry

/-!
# Bibliographies

The entries of a file in order, each to be found under its key and its further keys.
Keys are unique; a further key may be given again, and stands for the entry that gave
it last.
-/

namespace PostRun
namespace Bib

/-- The entries of a file, and the place of the entry that a key stands for. -/
structure Bibliography where
  entries : Array Entry
  index : NameMap Nat

namespace Bibliography

/-- A bibliography without entries. -/
def empty : Bibliography := ⟨#[], .empty⟩

/-- The entry that has exactly this key, or this further key. -/
def get? (b : Bibliography) (key : String) : Option Entry :=
  (b.index.find? key).bind fun place => b.entries[place]?

/-- Appends an entry, under its key and its further keys. -/
def add (b : Bibliography) (e : Entry) : Bibliography :=
  let place := b.entries.size
  ⟨b.entries.push e,
    (e.key :: e.aliases).foldl (fun index key => index.insert key place) b.index⟩

/-- Appends the entry of an item, if its key is new. -/
def addItem (abbreviations : List Field) (b : Bibliography) (item : Item) :
    Except Failure Bibliography := do
  let key := String.ofList item.key
  if (b.index.find? key).isSome then throw ⟨.duplicateKey key, item.span⟩
  return b.add (← Entry.ofItem abbreviations item)

/-- An entry completed by the entries that it refers to.  The fuel bounds the length of a chain of
references. -/
def complete (b : Bibliography) : Nat → Entry → Except Failure Entry
  | 0, e => .ok e
  | fuel + 1, e =>
      (e.references.filterMap b.get?).foldlM
        (fun e parent => do e.completeBy (← b.complete fuel parent)) e

/-- The bibliography with all its entries completed. -/
def completed (b : Bibliography) : Except Failure Bibliography := do
  return { b with entries := ← b.entries.mapM (b.complete b.entries.size) }

/-- The bibliography of the items of a file. -/
def ofSource (source : Source) : Except Failure Bibliography := do
  (← source.items.foldlM (addItem source.abbreviations) empty).completed

/-- Reads a bibliography. -/
def parse (source : String) : Except Failure Bibliography := do
  ofSource (← Source.parse source)

/-- The number of entries. -/
def size (b : Bibliography) : Nat := b.entries.size

/-- The entry for a key: the one that has it exactly, or else the first one whose own key is the
same up to the case of letters. -/
def find? (b : Bibliography) (key : String) : Option Entry :=
  match b.get? key with
  | some e => some e
  | none => b.entries.find? fun e => Text.sameIgnoringCase e.key.toList key.toList

end Bibliography
end Bib
end PostRun
