import PixelHost.Toml.Number

/-!
# Whole documents

A document is a sequence of lines: headers, which open a table, and entries of the table that is
open. The table that is open is kept apart until the next header closes it, and only then takes its
place in the document.

## Main definitions

* `Toml.Reader.value` — any value, with nesting up to a depth.
* `Toml.Assembly` — a document of which a part has been read.
* `Toml.parse?` — the entries of a document.
-/

namespace PixelHost.Toml

namespace Reader

/-! ### Keys -/

/-- The character may stand in a key without quotation marks. -/
def isBare (c : Char) : Bool := c.isAlphanum || c == '-' || c == '_'

/-- One key. -/
def key : Reader Key := do
  let (name, span) ← withSpan (lineString .quotation <|> lineString .apostrophe
    <|> (do return String.ofList (← some1 isBare)))
  return ⟨name, span⟩

/-- The number of keys that a path may not reach. -/
def pathLimit : Nat := 80

/-- Keys with points in between: the path to a table, and the last key. -/
def path : Reader (List Key × Key) := do
  let spaced : Reader Key := do
    blanks
    let k ← key
    blanks
    return k
  let keys ← separated spaced (char '.')
  guard (keys.length < pathLimit)
  match keys.getLast? with
  | some last => return (keys.dropLast, last)
  | none => failure

/-! ### Values -/

/-- An array whose items `item` reads. -/
def array (item : Reader Node) : Reader Node := do
  let (items, span) ← withSpan do
    char '['
    let spaced : Reader Node := do
      gap
      let node ← item
      gap
      return node
    let items ← separated spaced (char ',')
    if !items.isEmpty then discard (optional (char ','))
    gap
    char ']'
    return items
  return .array items span

/-- The table with the given entries. -/
def inlineEntries (pairs : List ((List Key × Key) × Node)) : Option Entries :=
  pairs.foldlM (fun entries ((path, key), node) => entries.insert path key node .inline) []

/-- A table between braces whose values `item` reads. -/
def inlineTable (item : Reader Node) : Reader Node := do
  let (entries, span) ← withSpan do
    char '\x7b'
    let pair : Reader ((List Key × Key) × Node) := do
      let p ← path
      char '='
      blanks
      let node ← item
      blanks
      return (p, node)
    let pairs ← separated pair (char ',')
    blanks
    char '\x7d'
    match inlineEntries pairs with
    | some entries => return entries
    | none => failure
  return .table .inline (some span) entries

/-- A value without parts, with its place. -/
def plainValue : Reader Node := do
  let (value, span) ← withSpan scalar
  return .scalar value span

/-- A value in which arrays and tables nest up to a depth. -/
def value : Nat → Reader Node
  | 0 => plainValue
  | n + 1 => plainValue <|> array (value n) <|> inlineTable (value n)

/-- The greatest depth of arrays and tables in each other. -/
def maxDepth : Nat := 79

end Reader

/-! ### Assembling the tables -/

/-- A document of which a part has been read. -/
structure Assembly where
  /-- The tables that are closed. -/
  closed : Entries := []
  /-- The path of the open table; none while no header has been read. -/
  openPath : Option (List Key × Key) := none
  /-- The open table is one of several with the same header. -/
  isElement : Bool := false
  span : Option Span := none
  /-- The entries of the open table. -/
  entries : Entries := []
  deriving Inhabited

namespace Assembly

/-- The open table takes its place. -/
def close (a : Assembly) : Option Entries :=
  match a.openPath with
  | none => some a.entries
  | some (path, key) =>
    let table := .table .header a.span a.entries
    let place : Entries.Edit Unit := fun _ entries =>
      if a.isElement then
        match entries.find? key.name with
        | none => some ((), entries ++ [(key, .tables [table])])
        | some (.tables elements) =>
          some ((), entries.replace key.name (.tables (elements ++ [table])))
        | some _ => none
      else some ((), entries ++ [(key, table)])
    (Entries.within false place path .header a.closed).map (·.2)

/-- A header opens a table. One that other headers have named is opened again, and moves behind the
tables that are there. -/
def openTable (a : Assembly) (path : List Key) (key : Key) (span : Span) : Option Assembly := do
  let take : Entries.Edit Entries := fun _ entries =>
    match entries.find? key.name with
    | none => some ([], entries)
    | some (.table .implicit _ inner) => some (inner, entries.erase key.name)
    | some _ => none
  let (entries, closed) ← Entries.within false take path .header (← a.close)
  return { closed, entries, openPath := some (path, key), span := some span }

/-- A header in two pairs of brackets opens a new table in a list of tables. -/
def openElement (a : Assembly) (path : List Key) (key : Key) (span : Span) : Option Assembly := do
  let reserve : Entries.Edit Unit := fun _ entries =>
    match entries.find? key.name with
    | none => some ((), entries ++ [(key, .tables [])])
    | some (.tables _) => some ((), entries)
    | some _ => none
  let ((), closed) ← Entries.within false reserve path .header (← a.close)
  return { closed, openPath := some (path, key), isElement := true, span := some span }

/-- An entry of the open table, which now reaches up to the end of the value. -/
def addEntry (a : Assembly) (path : List Key) (key : Key) (node : Node) : Option Assembly := do
  let entries ← a.entries.insert path key node .header
  let span := match a.span, node.span? with
    | some own, some new => some ⟨own.start, new.stop⟩
    | own, _ => own
  return { a with entries, span }

end Assembly

namespace Reader

/-- A result that there may not be. -/
def ofOption {α : Type} : Option α → Reader α
  | some a => return a
  | none => failure

/-- A header: its path, between so many brackets. -/
def header (brackets : Nat) : Reader ((List Key × Key) × Span) := do
  let h ← withSpan do
    discard ((List.range brackets).mapM fun _ => char '[')
    let p ← path
    discard ((List.range brackets).mapM fun _ => char ']')
    return p
  trailing
  return h

/-- An entry. -/
def entry : Reader ((List Key × Key) × Node) := do
  let p ← path
  char '='
  blanks
  let node ← value maxDepth
  trailing
  return (p, node)

/-- A line of a document. -/
def line (a : Assembly) : Reader Assembly := do
  match ← ahead with
  | some '#' =>
    comment
    lineEnd
    return a
  | some '[' =>
    match ← optional (header 2) with
    | some ((path, key), span) => ofOption (a.openElement path key span)
    | none =>
      let ((path, key), span) ← header 1
      ofOption (a.openTable path key span)
  | some '\n' | some '\r' =>
    newline
    return a
  | _ =>
    let ((path, key), node) ← entry
    ofOption (a.addEntry path key node)

/-- The lines of a document, at most `n`. -/
def lines (a : Assembly) : Nat → Reader Assembly
  | 0 => return a
  | n + 1 => do
    blanks
    if (← ahead).isNone then return a
    lines (← line a) n

/-- A document. A mark of the byte order may stand before it. -/
def document : Reader Entries := do
  discard (optional (char '\uFEFF'))
  let a ← lines {} ((← get).rest.length + 1)
  finished
  ofOption a.close

end Reader

/-- The entries of a document. -/
def parse? (text : String) : Option Entries := (Reader.document ⟨text.toList, 0⟩).map (·.1)

end PixelHost.Toml
