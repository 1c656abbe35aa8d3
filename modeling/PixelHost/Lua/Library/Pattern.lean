import PixelHost.Bytes

/-!
# Patterns

Matching of a text against a pattern. A pattern is a sequence of items: a character class, perhaps
repeated, a capture, a balanced pair, a frontier or an earlier capture. Matching tries the longest
repetition first, or the shortest one for `-`, and goes back when the rest of the pattern does not
match.

## Main definitions

* `Pattern.Fault` — what is wrong with a pattern.
* `Pattern.Capture` — a captured part.
* `Pattern.match?` — a match at a position.
* `Pattern.find?` — the first match from a position on.
-/

namespace PixelHost.Lua.Pattern

/-- What is wrong with a pattern. -/
inductive Fault where
  | tooComplex
  | endsWithEscape
  | missingBracket
  | missingFrontierSet
  | missingBalance
  | invalidCapture
  | captureIndex (n : Int)
  | replacementIndex (n : Nat)
  | tooManyCaptures
  | unfinishedCapture
  | badReplacement
  deriving DecidableEq, Repr

/-- The wording of a fault. -/
def Fault.message : Fault → String
  | .tooComplex => "pattern too complex"
  | .endsWithEscape => "malformed pattern (ends with '%')"
  | .missingBracket => "malformed pattern (missing ']')"
  | .missingFrontierSet => "missing '[' after '%f' in pattern"
  | .missingBalance => "malformed pattern (missing arguments to '%b')"
  | .invalidCapture => "invalid pattern capture"
  | .captureIndex n => s!"invalid capture index %{n}"
  | .replacementIndex n => s!"invalid capture index %{n} in replacement string"
  | .tooManyCaptures => "too many captures"
  | .unfinishedCapture => "unfinished capture"
  | .badReplacement => "invalid use of '%' in replacement string"

/-- How far a capture reaches. -/
inductive Extent where
  | unfinished
  | position
  | length (n : Nat)
  deriving DecidableEq, Repr, Inhabited

/-- A captured part of the text. -/
structure Capture where
  start : Nat
  extent : Extent
  deriving DecidableEq, Repr, Inhabited

/-- The most captures of a pattern. -/
def maxCaptures : Nat := 32

/-- How deep the items of a pattern may be nested. -/
def maxDepth : Nat := 200

/-- The end of a match and the captures. -/
abbrev Found := Option (Nat × Array Capture)

/-! ### Classes -/

/-- A byte is a letter. -/
def isAlpha (c : UInt8) : Bool := (65 ≤ c && c ≤ 90) || (97 ≤ c && c ≤ 122)

/-- A byte is a decimal digit. -/
def isDigit (c : UInt8) : Bool := 48 ≤ c && c ≤ 57

/-- A byte is a capital letter. -/
def isUpper (c : UInt8) : Bool := 65 ≤ c && c ≤ 90

/-- A byte is a small letter. -/
def isLower (c : UInt8) : Bool := 97 ≤ c && c ≤ 122

/-- A byte is printed and not blank. -/
def isGraph (c : UInt8) : Bool := 33 ≤ c && c ≤ 126

/-- A byte is in the class that a letter names; a capital letter names the complement. Any other
byte stands for itself. -/
def inClass (c cl : UInt8) : Bool :=
  let small := if isUpper cl then cl + 32 else cl
  let found : Option Bool := match Char.ofNat small.toNat with
    | 'a' => some (isAlpha c)
    | 'c' => some (c < 32 || c == 127)
    | 'd' => some (isDigit c)
    | 'g' => some (isGraph c)
    | 'l' => some (isLower c)
    | 'p' => some (isGraph c && !isAlpha c && !isDigit c)
    | 's' => some (c == 32 || (9 ≤ c && c ≤ 13))
    | 'u' => some (isUpper c)
    | 'w' => some (isAlpha c || isDigit c)
    | 'x' => some (isDigit c || (65 ≤ c && c ≤ 70) || (97 ≤ c && c ≤ 102))
    | 'z' => some (c == 0)
    | _ => none
  match found with
  | some b => if isUpper cl then !b else b
  | none => cl == c

/-- The byte that begins an escape. -/
def escape : UInt8 := 37

/-- The position after the end of a set whose contents begin at a position. -/
def setEnd (p : Bytes) (i : Nat) : Nat → Except Fault Nat
  | 0 => .error .missingBracket
  | n + 1 =>
    if i ≥ p.size then .error .missingBracket
    else
      let i' := if p.at0 i == escape && i + 1 < p.size then i + 2 else i + 1
      if p.at0 i' == 93 && i' < p.size then .ok (i' + 1) else setEnd p i' n

/-- The position after a character class. -/
def classEnd (p : Bytes) (i : Nat) : Except Fault Nat :=
  let c := p.at0 i
  if c == escape then
    if i + 1 ≥ p.size then .error .endsWithEscape else .ok (i + 2)
  else if c == 91 then
    let first := if p.at0 (i + 1) == 94 then i + 2 else i + 1
    setEnd p first (p.size + 1)
  else .ok (i + 1)

/-- A byte is in the set whose contents are at the positions `i ≤ j < last`. -/
def inSetFrom (p : Bytes) (c : UInt8) (last : Nat) (i : Nat) : Nat → Bool
  | 0 => false
  | n + 1 =>
    if i ≥ last then false
    else if p.at0 i == escape then inClass c (p.at0 (i + 1)) || inSetFrom p c last (i + 2) n
    else if p.at0 (i + 1) == 45 && i + 2 < last then
      (p.at0 i ≤ c && c ≤ p.at0 (i + 2)) || inSetFrom p c last (i + 3) n
    else p.at0 i == c || inSetFrom p c last (i + 1) n

/-- A byte is in the set between the brackets at two positions. -/
def inSet (p : Bytes) (c : UInt8) (first last : Nat) : Bool :=
  if p.at0 (first + 1) == 94 then !inSetFrom p c last (first + 2) (last + 1)
  else inSetFrom p c last (first + 1) (last + 1)

/-- The byte of the text at a position is in the class at the positions `i ≤ j < last`. -/
def matchesOne (s p : Bytes) (pos i last : Nat) : Bool :=
  if pos ≥ s.size then false
  else
    let c := s.at0 pos
    let cl := p.at0 i
    if cl == 46 then true
    else if cl == escape then inClass c (p.at0 (i + 1))
    else if cl == 91 then inSet p c i (last - 1)
    else cl == c

/-! ### Items -/

/-- The end of a balanced part that begins at a position. -/
def balancedEnd? (s : Bytes) (opener closer : UInt8) (pos depth : Nat) : Nat → Option Nat
  | 0 => none
  | n + 1 =>
    if pos ≥ s.size then none
    else
      let c := s.at0 pos
      if c == closer then
        if depth ≤ 1 then some (pos + 1) else balancedEnd? s opener closer (pos + 1) (depth - 1) n
      else if c == opener then balancedEnd? s opener closer (pos + 1) (depth + 1) n
      else balancedEnd? s opener closer (pos + 1) depth n

/-- The innermost capture that is not finished. -/
def openCapture? (captures : Array Capture) : Nat → Option Nat
  | 0 => none
  | n + 1 => if (captures.getD n default).extent == .unfinished then some n
    else openCapture? captures n

/-- The number of bytes from a position on that are in a class. -/
def countMatches (s p : Bytes) (pos i last : Nat) : Nat → Nat
  | 0 => 0
  | n + 1 => if matchesOne s p pos i last then countMatches s p (pos + 1) i last n + 1 else 0

/-- Tries a match after each number of repetitions, from `count` down to `0`. -/
def longest (attempt : Nat → Except Fault Found) (pos : Nat) : (count : Nat) → Except Fault Found
  | 0 => attempt pos
  | n + 1 => do
    match ← attempt (pos + n + 1) with
    | some r => return some r
    | none => longest attempt pos n

/-- Tries a match after each number of repetitions, from `0` up to `count`. -/
def shortest (attempt : Nat → Except Fault Found) (pos : Nat) : (count : Nat) → Except Fault Found
  | 0 => attempt pos
  | n + 1 => do
    match ← attempt pos with
    | some r => return some r
    | none => shortest attempt (pos + 1) n

/-- Matches the pattern from position `i` on with the text from position `pos` on. Each call goes on
further in the pattern, so that its length bounds the number `n` of calls; `depth` is the number of
items that may still be nested. -/
def matchFrom (s p : Bytes) : (n depth pos i : Nat) → Array Capture → Except Fault Found
  | 0, _, _, _, _ => .ok none
  | n + 1, depth, pos, i, captures =>
    if i ≥ p.size then .ok (some (pos, captures))
    else
      let nested (pos i : Nat) (captures : Array Capture) : Except Fault Found :=
        if depth = 0 then .error .tooComplex else matchFrom s p n (depth - 1) pos i captures
      let classItem : Except Fault Found := do
        let last ← classEnd p i
        let suffix := if last < p.size then p.at0 last else 0
        if matchesOne s p pos i last then
          if suffix == 63 then
            match ← nested (pos + 1) (last + 1) captures with
            | some r => return some r
            | none => matchFrom s p n depth pos (last + 1) captures
          else if suffix == 43 then
            let count := countMatches s p (pos + 1) i last (s.size - pos)
            longest (fun pos => nested pos (last + 1) captures) (pos + 1) count
          else if suffix == 42 then
            let count := countMatches s p pos i last (s.size - pos)
            longest (fun pos => nested pos (last + 1) captures) pos count
          else if suffix == 45 then
            let count := countMatches s p pos i last (s.size - pos)
            shortest (fun pos => nested pos (last + 1) captures) pos count
          else matchFrom s p n depth (pos + 1) last captures
        else if suffix == 42 || suffix == 63 || suffix == 45 then
          matchFrom s p n depth pos (last + 1) captures
        else return none
      let c := p.at0 i
      if c == 40 then
        if captures.size ≥ maxCaptures then .error .tooManyCaptures
        else if p.at0 (i + 1) == 41 then
          nested pos (i + 2) (captures.push ⟨pos, .position⟩)
        else nested pos (i + 1) (captures.push ⟨pos, .unfinished⟩)
      else if c == 41 then
        match openCapture? captures captures.size with
        | none => .error .invalidCapture
        | some k =>
          nested pos (i + 1)
            (captures.modify k fun cap => { cap with extent := .length (pos - cap.start) })
      else if c == 36 && i + 1 == p.size then
        .ok (if pos == s.size then some (pos, captures) else none)
      else if c == escape then
        let next := p.at0 (i + 1)
        if next == 98 then
          if i + 3 ≥ p.size then .error .missingBalance
          else if pos < s.size && s.at0 pos == p.at0 (i + 2) then
            match balancedEnd? s (p.at0 (i + 2)) (p.at0 (i + 3)) (pos + 1) 1 (s.size + 1) with
            | some pos => matchFrom s p n depth pos (i + 4) captures
            | none => .ok none
          else .ok none
        else if next == 102 then
          if p.at0 (i + 2) != 91 then .error .missingFrontierSet
          else do
            let last ← classEnd p (i + 2)
            let before := if pos = 0 then 0 else s.at0 (pos - 1)
            if !inSet p before (i + 2) (last - 1) && inSet p (s.at0 pos) (i + 2) (last - 1) then
              matchFrom s p n depth pos last captures
            else return none
        else if isDigit next then
          let k : Int := Int.ofNat next.toNat - 49
          if k < 0 || k ≥ captures.size then .error (.captureIndex (k + 1))
          else
            let cap := captures.getD k.toNat default
            match cap.extent with
            | .length len =>
              if pos + len ≤ s.size && s.slice pos (pos + len) == s.slice cap.start (cap.start + len)
              then matchFrom s p n depth (pos + len) (i + 2) captures
              else .ok none
            | .position => .ok none
            | .unfinished => .error (.captureIndex (k + 1))
        else classItem
      else classItem

/-- The end of a match at a position and its captures, if the pattern from position `i` on matches
there. -/
def match? (s p : Bytes) (pos i : Nat) : Except Fault Found :=
  matchFrom s p (p.size + 1) (maxDepth - 1) pos i #[]

/-- The first match from a position on, among the next `n` positions: where it begins and ends, and
its captures. A match that ends where the last one did does not count. -/
def findFrom (s p : Bytes) (i : Nat) (lastEnd : Option Nat) (pos : Nat) :
    (n : Nat) → Except Fault (Option (Nat × Nat × Array Capture))
  | 0 => .ok none
  | n + 1 => do
    match ← match? s p pos i with
    | some (last, captures) =>
      if lastEnd == some last then findFrom s p i lastEnd (pos + 1) n
      else return some (pos, last, captures)
    | none => findFrom s p i lastEnd (pos + 1) n

/-- The pattern is tied to the position where the search begins. -/
def isAnchored (p : Bytes) : Bool := p.get? 0 == some 94

/-- The first match from a position on: where it begins and ends, and its captures. -/
def find? (s p : Bytes) (pos : Nat) : Except Fault (Option (Nat × Nat × Array Capture)) :=
  if isAnchored p then findFrom s p 1 none pos 1 else findFrom s p 0 none pos (s.size + 1 - pos)

/-- The pattern stands for itself. -/
def isPlain (p : Bytes) : Bool := p.toList.all fun c => !("^$*+?.([%-".toUTF8.toList.contains c)

/-! ### Captures -/

/-- A captured part of a text, or a position in it, counted from one. -/
inductive Part where
  | text (s : Bytes)
  | position (n : Nat)

/-- A capture by its number; without captures the whole match is the first one. -/
def part (s : Bytes) (first last : Nat) (captures : Array Capture) (k : Nat) :
    Except Fault Part :=
  match captures[k]? with
  | none => if k = 0 then .ok (.text (s.slice first last)) else .error (.replacementIndex (k + 1))
  | some cap =>
    match cap.extent with
    | .unfinished => .error .unfinishedCapture
    | .position => .ok (.position (cap.start + 1))
    | .length n => .ok (.text (s.slice cap.start (cap.start + n)))

/-- All captures, or the whole match if there are none. -/
def parts (s : Bytes) (first last : Nat) (captures : Array Capture) :
    Except Fault (List Part) :=
  (List.range (max 1 captures.size)).mapM (part s first last captures)

/-- The bytes of a captured part. -/
def Part.bytes : Part → Bytes
  | .text s => s
  | .position n => (toString n).toUTF8

/-- A replacement with its escapes filled in from a match. -/
def fill (s : Bytes) (first last : Nat) (captures : Array Capture) (replacement : Bytes) :
    Except Fault Bytes :=
  go replacement.toList .empty
where
  go : List UInt8 → Bytes → Except Fault Bytes
    | [], acc => .ok acc
    | 37 :: c :: rest, acc =>
      if c == 37 then go rest (acc.push c)
      else if c == 48 then go rest (acc ++ s.slice first last)
      else if isDigit c then do
        let t ← part s first last captures (c.toNat - 49)
        go rest (acc ++ t.bytes)
      else .error .badReplacement
    | [37], _ => .error .badReplacement
    | c :: rest, acc => go rest (acc.push c)

end PixelHost.Lua.Pattern
