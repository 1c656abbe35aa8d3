/-!
# Quoted text

A text between quotation marks in which every character can be seen: quotation marks and backslashes
are escaped, and so are controls, white space other than the blank, marks that join the character
before them, and characters that are not assigned.

## Main definitions

* `Quoted.encode` — the text between quotation marks.
-/

namespace PixelHost.Quoted

/-- Ranges of characters that cannot be seen, or that join the character before them. -/
def hiddenRanges : List (Nat × Nat) := [
  (0x00, 0x1f), (0x7f, 0xa0), (0xad, 0xad), (0x300, 0x36f), (0x378, 0x379), (0x380, 0x383),
  (0x483, 0x489), (0x591, 0x5bd), (0x5bf, 0x5bf), (0x5c1, 0x5c2), (0x5c4, 0x5c5), (0x5c7, 0x5cf),
  (0x600, 0x605), (0x610, 0x61a), (0x61c, 0x61c), (0x64b, 0x65f), (0x670, 0x670), (0x6d6, 0x6dd),
  (0x6df, 0x6e4), (0x6e7, 0x6e8), (0x6ea, 0x6ed), (0x70e, 0x70f), (0x1680, 0x1680),
  (0x180b, 0x180f), (0x1ab0, 0x1aff), (0x1dc0, 0x1dff), (0x2000, 0x200f), (0x2028, 0x202f),
  (0x205f, 0x206f), (0x2072, 0x2073), (0x20c1, 0x20ff), (0x2d7f, 0x2d7f), (0x3000, 0x3000),
  (0x302a, 0x302d), (0x3040, 0x3040), (0x3097, 0x309a), (0xa66f, 0xa672), (0xa674, 0xa67d),
  (0xd800, 0xf8ff), (0xfb1e, 0xfb1e), (0xfe00, 0xfe0f), (0xfe20, 0xfe2f), (0xfeff, 0xff00),
  (0xff9e, 0xff9f), (0xffe7, 0xffe7), (0xffef, 0xfffb), (0xfffe, 0xffff), (0x1d167, 0x1d169),
  (0x1d173, 0x1d182), (0x1f0f6, 0x1f0ff), (0x2fa1e, 0x2ffff), (0x323b0, 0x10ffff)]

/-- The character is shown by its number. -/
def isHidden (c : Char) : Bool :=
  hiddenRanges.any fun (first, last) => first ≤ c.toNat && c.toNat ≤ last

/-- What stands for a character between quotation marks. -/
def escape (c : Char) : String :=
  match c with
  | '"' => "\\\""
  | '\\' => "\\\\"
  | '\n' => "\\n"
  | '\r' => "\\r"
  | '\t' => "\\t"
  | '\x00' => "\\0"
  | c =>
    if isHidden c then
      "\\u\x7b" ++ String.ofList (Nat.toDigits 16 c.toNat) ++ "\x7d"
    else String.singleton c

/-- The text between quotation marks. -/
def encode (s : String) : String := "\"" ++ s.foldl (fun t c => t ++ escape c) "" ++ "\""

end PixelHost.Quoted
