import PixelHost.Toml.Cursor

/-!
# Strings of a document

Strings stand between quotation marks, where a backslash starts an escape, or between apostrophes,
where every character stands for itself. Either kind may extend over lines between three marks; a
line end right after the opening marks is left out, and up to two marks may stand next to the closing
ones.

## Main definitions

* `Toml.Reader.lineString` — a string inside a line.
* `Toml.Reader.string` — any string.
-/

namespace PixelHost.Toml.Reader

/-- What a hexadecimal digit stands for. -/
def hexValue (c : Char) : Nat :=
  if c.isDigit then c.toNat - '0'.toNat
  else if 'a' ≤ c && c ≤ 'f' then c.toNat - 'a'.toNat + 10
  else c.toNat - 'A'.toNat + 10

/-- The character is a hexadecimal digit. -/
def isHexDigit (c : Char) : Bool := c.isDigit || 'a' ≤ c && c ≤ 'f' || 'A' ≤ c && c ≤ 'F'

/-- A given number of hexadecimal digits. -/
def hexNumber : Nat → Reader Nat
  | 0 => return 0
  | n + 1 => do
    let high := hexValue (← next isHexDigit)
    return (high <<< (4 * n)) + (← hexNumber n)

/-- The character with a code point, given by this many hexadecimal digits. -/
def codePoint (digits : Nat) : Reader Char := do
  let n ← hexNumber digits
  guard (n.isValidChar)
  return Char.ofNat n

/-- What follows the backslash of an escape. -/
def escaped : Reader Char := do
  match ← next fun _ => true with
  | 'b' => return '\x08'
  | 't' => return '\t'
  | 'n' => return '\n'
  | 'f' => return '\x0c'
  | 'r' => return '\r'
  | '"' => return '"'
  | '\\' => return '\\'
  | 'u' => codePoint 4
  | 'U' => codePoint 8
  | _ => failure

/-- The mark around a string. -/
inductive Mark where
  /-- Quotation marks, with escapes between them. -/
  | quotation
  /-- Apostrophes, without escapes. -/
  | apostrophe
  deriving DecidableEq, Repr

/-- The character that is the mark. -/
def Mark.char : Mark → Char
  | quotation => '"'
  | apostrophe => '\''

/-- The character stands for itself between marks. -/
def Mark.isPlain (m : Mark) (c : Char) : Bool :=
  isPrintable c && c != m.char && (m == .apostrophe || c != '\\')

/-- An escape, where the marks allow one. -/
def Mark.escape (m : Mark) : Reader Char := do
  guard (m == .quotation)
  Reader.char '\\'
  escaped

/-- A string inside a line. -/
def lineString (m : Mark) : Reader String := do
  char m.char
  let chars ← repeated (next m.isPlain <|> m.escape)
  char m.char
  return String.ofList chars

/-- A backslash at the end of a line, with all white space after it: it stands for nothing. -/
def continuation (m : Mark) : Reader Unit := do
  guard (m == .quotation)
  char '\\'
  blanks
  newline
  discard (repeated (discard (some1 isBlank) <|> newline))

/-- One or two marks that do not close the string. -/
def innerMarks (m : Mark) : Reader (List Char) := do
  let marks ← some1 (· == m.char)
  guard (marks.length ≤ 2)
  return marks

/-- A part of a string that extends over lines. -/
def linesPart (m : Mark) : Reader (List Char) :=
  some1 m.isPlain
    <|> (do continuation m; return [])
    <|> (do return [← m.escape])
    <|> (do newline; return ['\n'])
    <|> innerMarks m

/-- A string that extends over lines. -/
def linesString (m : Mark) : Reader String := do
  char m.char; char m.char; char m.char
  discard (optional newline)
  let parts ← repeated (linesPart m)
  let marks ← some1 (· == m.char)
  guard (3 ≤ marks.length && marks.length ≤ 5)
  return String.ofList (parts.flatten ++ marks.drop 3)

/-- Any string. -/
def string : Reader String :=
  linesString .quotation <|> lineString .quotation
    <|> linesString .apostrophe <|> lineString .apostrophe

end PixelHost.Toml.Reader
