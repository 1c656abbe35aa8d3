import PixelHost.Toml.Node

/-!
# Reading a document

A reader takes something off the front of the characters that are left, or fails. Readers are
composed in the monad of a state that may fail; a failed alternative gives its characters back.

## Main definitions

* `Toml.Cursor` — the characters that are left, and the position of the first of them.
* `Toml.Reader` — takes something off the front.
* `Toml.Reader.repeated`, `Toml.Reader.separated` — readers for lists.
* `Toml.Reader.blanks`, `Toml.Reader.newline`, `Toml.Reader.comment` — what separates the parts of
  a document.
-/

namespace PixelHost.Toml

/-- The characters that are left, and the position of the first of them in bytes. -/
structure Cursor where
  rest : List Char
  position : Nat := 0
  deriving Inhabited

/-- Takes something off the front of the characters that are left. -/
abbrev Reader := StateT Cursor Option

namespace Reader

variable {α : Type}

/-- The position of the next character. -/
def position : Reader Nat := return (← get).position

/-- The next character, which stays. -/
def ahead : Reader (Option Char) := return (← get).rest.head?

/-- The next character, if it is as `p` says. -/
def next (p : Char → Bool) : Reader Char := fun c =>
  match c.rest with
  | x :: rest => if p x then some (x, ⟨rest, c.position + x.utf8Size⟩) else none
  | [] => none

/-- A given character. -/
def char (x : Char) : Reader Unit := discard (next (· == x))

/-- Given characters. -/
def word (text : String) : Reader Unit := text.toList.forM char

/-- The characters from the front on that are as `p` says. -/
def run (p : Char → Bool) : Reader (List Char) := fun c =>
  let taken := c.rest.takeWhile p
  some (taken, ⟨c.rest.dropWhile p, taken.foldl (fun n x => n + x.utf8Size) c.position⟩)

/-- At least one character, and all from the front on, that are as `p` says. -/
def some1 (p : Char → Bool) : Reader (List Char) := do
  let chars ← run p
  guard !chars.isEmpty
  return chars

/-- What a reader takes, if it does not fail. -/
def optional (r : Reader α) : Reader (Option α) := fun c =>
  match r c with
  | some (a, c) => some (some a, c)
  | none => some (none, c)

/-- What a reader takes again and again, at most `n` times. -/
def upTo (r : Reader α) : Nat → Reader (List α)
  | 0 => return []
  | n + 1 => do
    match ← optional r with
    | some a => return a :: (← upTo r n)
    | none => return []

/-- What a reader that takes at least one character takes until it fails. -/
def repeated (r : Reader α) : Reader (List α) := do
  upTo r (← get).rest.length

/-- What a reader takes, with marks in between. -/
def separated (r : Reader α) (mark : Reader Unit) : Reader (List α) := do
  match ← optional r with
  | some first => return first :: (← repeated (do mark; r))
  | none => return []

/-- What a reader takes, with its place. -/
def withSpan (r : Reader α) : Reader (α × Span) := do
  let start ← position
  let a ← r
  return (a, ⟨start, ← position⟩)

/-- Nothing is left. -/
def finished : Reader Unit := do
  guard (← get).rest.isEmpty

/-! ### Between the parts of a document -/

/-- The character is white space inside a line. -/
def isBlank (c : Char) : Bool := c == ' ' || c == '\t'

/-- White space inside a line. -/
def blanks : Reader Unit := discard (run isBlank)

/-- The end of a line. -/
def newline : Reader Unit := char '\n' <|> word "\r\n"

/-- The end of a line, or of the document. -/
def lineEnd : Reader Unit := newline <|> finished

/-- The character may stand in a line: it is no control character, or a tabulator. -/
def isPrintable (c : Char) : Bool := c == '\t' || 0x20 ≤ c.toNat && c.toNat != 0x7F

/-- A comment, up to the end of its line. -/
def comment : Reader Unit := do
  char '#'
  discard (run isPrintable)

/-- The rest of a line after a statement. -/
def trailing : Reader Unit := do
  blanks
  discard (optional comment)
  lineEnd

/-- White space, ends of lines, and whole comments. -/
def gap : Reader Unit := do
  discard (repeated (discard (some1 isBlank) <|> newline <|> (do comment; newline)))

end Reader

end PixelHost.Toml
