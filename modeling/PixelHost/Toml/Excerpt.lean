import PixelHost.Toml.Node

/-!
# Places in a text

How a place in a document is shown to its author: by the numbers of the line and the column, and by
the line itself with the place marked below it.

## Main definitions

* `Toml.Place` — line and column of a position.
* `Toml.excerpt` — a report about a part of a document.
-/

namespace PixelHost.Toml

/-- A position in a text. Both numbers start at one; columns are counted in characters. -/
structure Place where
  line : Nat
  column : Nat
  deriving DecidableEq, Repr, Inhabited

/-- The position after so many bytes of a text, from the position before it on. -/
def Place.advance (p : Place) : List Char → Nat → Place
  | [], _ => p
  | c :: rest, bytes =>
    if bytes < c.utf8Size then p
    else
      let next : Place := if c = '\n' then ⟨p.line + 1, 1⟩ else ⟨p.line, p.column + 1⟩
      next.advance rest (bytes - c.utf8Size)

/-- The position after so many bytes of a text. -/
def Place.ofOffset (text : String) (bytes : Nat) : Place := (⟨1, 1⟩ : Place).advance text.toList bytes

/-- The first line of a report: what it is about, and where. -/
def Place.headline (p : Place) : String :=
  s!"TOML parse error at line {p.line}, column {p.column}"

/-- Blanks. -/
def indent (n : Nat) : String := String.ofList (List.replicate n ' ')

/-- A report about a part of a document, which ends with the end of a line. -/
def excerpt (text : String) (span : Span) (reason : String) : String :=
  let p := Place.ofOffset text span.start
  let number := toString p.line
  let content := (text.splitOn "\n").getD (p.line - 1) ""
  let gutter := indent (number.length + 1)
  let stop := min span.stop (span.start + content.utf8ByteSize)
  let marks := String.ofList (List.replicate (max 1 (stop - span.start)) '^')
  "\n".intercalate [
    p.headline,
    s!"{gutter}|",
    s!"{number} | {content}",
    s!"{gutter}|{indent p.column}{marks}",
    reason,
    ""]

end PixelHost.Toml
