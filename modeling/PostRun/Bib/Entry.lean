import PostRun.Bib.Date
import PostRun.Text.NameMap

/-!
# Entries

An entry has a kind, a key and fields whose names are in lower case; a field that is
given twice has its last value.  An entry can be found under further keys, which it
lists itself.

## References between entries

An entry takes over fields that it lacks from the entries it refers to, these being
completed first.  What it takes over depends on its own kind.  The preprint number is
taken over by most kinds, the archive it belongs to is not; an entry that only holds
data for others takes over everything.  Kinds that have to have a date take over that
one too, which has to be readable then.
-/

namespace PostRun
namespace Bib

/-- An entry of a bibliography. -/
structure Entry where
  kind : List Char
  key : String
  fields : NameMap Content

namespace Entry

/-- A kind in lower case; the Kelvin sign is a capital K. -/
def foldKind (kind : List Char) : String :=
  String.ofList (kind.map fun c => if c = '\u212a' then 'k' else c.toLower)

/-- Whether an entry is of one of some kinds. -/
def isOf (e : Entry) (kinds : List String) : Bool := kinds.contains (foldKind e.kind)

/-- The value of a field, its name given in lower case. -/
def field? (e : Entry) (name : String) : Option Content := e.fields.find? name

/-- The further keys of an entry. -/
def aliases (e : Entry) : List String :=
  match e.field? "ids" with
  | some c => c.items
  | none => []

/-- The fields of an entry understood, in their order. -/
def readFields (abbreviations : List Field) : List Field → NameMap Content →
    Except Failure (NameMap Content)
  | [], fields => .ok fields
  | f :: rest, fields => do
      let name := Text.lower f.name
      let content ← Content.ofValue abbreviations (isVerbatimField name)
        (abbreviations.length + 1) f.value
      readFields abbreviations rest (fields.insert (String.ofList name) content)

/-- The entry of an item. -/
def ofItem (abbreviations : List Field) (item : Item) : Except Failure Entry := do
  return ⟨item.kind, String.ofList item.key, ← readFields abbreviations item.fields .empty⟩

/-- Whether an entry only holds data for others. -/
def isData (e : Entry) : Bool := e.isOf ["xdata"]

/-- Whether an entry has to have a date. -/
def needsDate (e : Entry) : Bool :=
  !e.isOf ["booklet", "manual", "misc", "set", "software", "unpublished", "xdata"]

/-- Whether an entry can be a preprint. -/
def canBePreprint (e : Entry) : Bool := !e.isOf ["electronic", "online", "set", "www"]

/-- The keys of the entries that an entry refers to. -/
def references (e : Entry) : List String :=
  (match e.field? "crossref" with
    | some c => [String.ofList c.text]
    | none => []) ++
  match e.field? "xdata" with
  | some c => c.items
  | none => []

/-- Whether an entry takes a field over. -/
def takesOver (e : Entry) (name : String) : Bool :=
  e.isData || name == "eprint" && e.canBePreprint

/-- The fields of an entry together with those that it takes over. -/
def inherit (e parent : Entry) : Entry :=
  { e with
    fields := (parent.fields.entries.filter fun f => e.takesOver f.1).foldl
      (fun fields f => fields.alter f.1 fun old => old.getD f.2) e.fields }

/-- The fields in which an entry says when it appeared. -/
def dateFields (e : Entry) : DateFields :=
  ⟨e.field? "date", e.field? "year", e.field? "month", e.field? "day"⟩

/-- Gives an entry a date. -/
def setDated (e : Entry) : Entry := { e with fields := e.fields.insert "date" .empty }

/-- Completes an entry by a completed one that it refers to. -/
def completeBy (e parent : Entry) : Except Failure Entry := do
  let e := e.inherit parent
  if e.needsDate then
    parent.dateFields.check
    return if parent.dateFields.isGiven then e.setDated else e
  else return e

end Entry
end Bib
end PostRun
