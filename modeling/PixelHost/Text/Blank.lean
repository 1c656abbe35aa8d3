/-!
# White space

The characters that separate words: those with the property of being white space. Text is worked on
as a list of characters.

## Main definitions

* `Blank.isBlank` — the property.
* `Blank.trim` — text without white space at its ends.
* `Blank.words` — the parts of a text between white space.
-/

namespace PixelHost.Blank

/-- The ranges of the characters with the property. -/
def ranges : List (Nat × Nat) := [
  (0x09, 0x0d), (0x20, 0x20), (0x85, 0x85), (0xa0, 0xa0), (0x1680, 0x1680), (0x2000, 0x200a),
  (0x2028, 0x2029), (0x202f, 0x202f), (0x205f, 0x205f), (0x3000, 0x3000)]

/-- The character is white space. -/
def isBlank (c : Char) : Bool := ranges.any fun (first, last) => first ≤ c.toNat && c.toNat ≤ last

/-- Text without white space at its ends. -/
def trim (s : List Char) : List Char :=
  ((s.dropWhile isBlank).reverse.dropWhile isBlank).reverse

/-- The word at the start of a text, and the words after it. -/
def wordsFrom (word : List Char) : List Char → List (List Char)
  | [] => if word.isEmpty then [] else [word.reverse]
  | c :: rest =>
    if isBlank c then
      if word.isEmpty then wordsFrom [] rest else word.reverse :: wordsFrom [] rest
    else wordsFrom (c :: word) rest

/-- The parts of a text between white space. -/
def words (s : List Char) : List (List Char) := wordsFrom [] s

end PixelHost.Blank
