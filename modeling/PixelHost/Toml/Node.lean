/-!
# Documents as trees

What a settings document in the TOML format holds: tables of values by their keys, in the order in
which the keys were written, each with the place where it stands in the text.

A table may be written in four ways, and each admits other later additions: a table that was named
only as a part of longer headers may still get a header of its own, one that was made by a dotted
key may be extended by further dotted keys, and the others are complete.

## Main definitions

* `Toml.Node` — a value, or a table of values.
* `Toml.Entries.within` — changes the table that a path of keys leads to.
* `Toml.Entries.insert` — adds a value under a path of keys.
-/

namespace PixelHost.Toml

/-- A part of a text, by its first byte and the byte after it. -/
structure Span where
  start : Nat
  stop : Nat
  deriving DecidableEq, Repr, Inhabited

/-- A key with its place. -/
structure Key where
  name : String
  span : Span
  deriving DecidableEq, Repr, Inhabited

/-- A value without parts. -/
inductive Scalar where
  | string (text : String)
  | integer (n : Int)
  | float (x : Float)
  | boolean (b : Bool)
  /-- A date, a time of day, or both. -/
  | moment
  deriving Repr, Inhabited

/-- How a table was written. -/
inductive TableKind where
  /-- Named as a part of the header of another table. -/
  | implicit
  /-- Named as a part of a dotted key. -/
  | dotted
  /-- Named by its own header. -/
  | header
  /-- Written between braces. -/
  | inline
  deriving DecidableEq, Repr, Inhabited

/-- A value, or a table of values. -/
inductive Node where
  | scalar (value : Scalar) (span : Span)
  | array (items : List Node) (span : Span)
  /-- A table that was named as a part of other names has no place of its own. -/
  | table (kind : TableKind) (span : Option Span) (entries : List (Key × Node))
  /-- Tables with one header, which is written in two pairs of brackets. -/
  | tables (elements : List Node)
  deriving Inhabited

/-- The content of a table, in the order of the text. -/
abbrev Entries := List (Key × Node)

/-- The place of a value that is no list of tables. -/
def Node.ownSpan? : Node → Option Span
  | scalar _ span | array _ span => some span
  | table _ span _ => span
  | tables _ => none

/-- The place of a value. Tables with one header extend from the first to the last of them. -/
def Node.span? : Node → Option Span
  | tables elements => do
    let first ← elements.head? >>= Node.ownSpan?
    let last ← elements.getLast? >>= Node.ownSpan?
    return ⟨first.start, last.stop⟩
  | node => node.ownSpan?

namespace Entries

/-- The value under a key. -/
def find? (entries : Entries) (name : String) : Option Node :=
  (List.find? (·.1.name == name) entries).map (·.2)

/-- The entries without a key. -/
def erase (entries : Entries) (name : String) : Entries := entries.filter (·.1.name != name)

/-- The entries with another value under a key that is there. -/
def replace (entries : Entries) (name : String) (node : Node) : Entries :=
  entries.map fun (key, old) => (key, if key.name == name then node else old)

/-- What is done to a table: a result and the new content, unless the document is not well formed. -/
abbrev Edit (α : Type) := TableKind → Entries → Option (α × Entries)

variable {α : Type}

/-- Changes the table that a path of keys leads to, and makes the tables on the way that are not
there. A path of headers passes through every table but one between braces; a dotted key does not
pass through a table with a header of its own. Tables with one header stand for the last of
them. -/
def within (dotted : Bool) (edit : Edit α) : List Key → Edit α
  | [], kind, entries => edit kind entries
  | key :: path, _, entries =>
    match entries.find? key.name with
    | none => do
      let kind := if dotted then .dotted else .implicit
      let (a, inner) ← within dotted edit path kind []
      return (a, entries ++ [(key, .table kind none inner)])
    | some (.table .inline _ _) => none
    | some (.table kind span inner) => do
      if dotted && kind == .header then none
      let (a, inner) ← within dotted edit path kind inner
      return (a, entries.replace key.name (.table kind span inner))
    | some (.tables elements) =>
      match elements.getLast? with
      | some (.table kind span inner) => do
        let (a, inner) ← within dotted edit path kind inner
        let elements := elements.dropLast ++ [.table kind span inner]
        return (a, entries.replace key.name (.tables elements))
      | _ => none
    | some _ => none

/-- Adds a value under a new key. A dotted key adds to tables that were made by dotted keys only,
and a plain key to all others. -/
def insertHere (isDotted : Bool) (key : Key) (node : Node) : Edit Unit := fun kind entries =>
  if (kind == .dotted) != isDotted then none
  else if (entries.find? key.name).isSome then none
  else some ((), entries ++ [(key, node)])

/-- Adds a value to a table under a path of keys, of which the last is the new key. -/
def insert (path : List Key) (key : Key) (node : Node) (kind : TableKind) (entries : Entries) :
    Option Entries :=
  (within true (insertHere (!path.isEmpty) key node) path kind entries).map (·.2)

end Entries

end PixelHost.Toml
