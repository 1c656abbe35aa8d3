import Mathlib.Data.List.TakeDrop
import Mathlib.Data.List.TakeWhile
import PixelHost.Proofs.Http.Head

/-!
# Heads that are made of lines

The head of a message is written as some lines and a blank one. Its end is found where it was written
to end, whatever follows it, and its text is cut into the lines it was made of. Words in a line are
found again as well, and so is the name of a header.

## Main definitions

* `Blank.Solid`, `Http.OneLine` — a text is a word, or fits into a line.
* `Http.PlainLine`, `Http.Header` — a line that a head may be made of, and one that is a header.
* `Http.headOf` — the head that is made of some lines.

## Main results

* `Blank.words_spaced` — the words of a text.
* `Http.headLength?_headOf` — where a head ends.
* `Http.lines_headOf` — the lines of a head.
* `Http.Header.splitHeader?_line` — the name and the value of a header.
-/

namespace PixelHost

/-! ### Words -/

namespace Blank

/-- No character of the text is white space. -/
def Solid (s : List Char) : Prop := ∀ c ∈ s, isBlank c = false

instance (s : List Char) : Decidable (Solid s) := List.decidableBAll _ _

theorem wordsFrom_append {w : List Char} (solid : Solid w) (word rest : List Char) :
    wordsFrom word (w ++ rest) = wordsFrom (w.reverse ++ word) rest := by
  induction w generalizing word with
  | nil => rfl
  | cons c w ih =>
    have hc : isBlank c = false := solid c List.mem_cons_self
    rw [List.cons_append, wordsFrom, hc]
    simp only [Bool.false_eq_true, if_false]
    rw [ih (fun d hd => solid d (List.mem_cons_of_mem c hd)), List.reverse_cons, List.append_assoc]
    rfl

/-- A text that begins with a word and a blank. -/
theorem words_spaced {w : List Char} (nonempty : w ≠ []) (solid : Solid w) (rest : List Char) :
    words (w ++ ' ' :: rest) = w :: words rest := by
  have hblank : isBlank ' ' = true := by decide
  have hw : (w.reverse ++ []).isEmpty = false := by simpa using nonempty
  rw [words, wordsFrom_append solid, wordsFrom, hblank, hw]
  simp only [if_true, Bool.false_eq_true, if_false, List.append_nil, List.reverse_reverse]
  rfl

/-- The word that has begun goes on or ends. -/
theorem exists_wordsFrom {word : List Char} (nonempty : word ≠ []) (rest : List Char) :
    ∃ more others, wordsFrom word rest = (word.reverse ++ more) :: others := by
  induction rest generalizing word with
  | nil =>
    rw [wordsFrom, List.isEmpty_eq_false_iff.mpr nonempty]
    exact ⟨[], [], by simp⟩
  | cons c rest ih =>
    rw [wordsFrom, List.isEmpty_eq_false_iff.mpr nonempty]
    cases isBlank c with
    | true => exact ⟨[], wordsFrom [] rest, by simp⟩
    | false =>
      obtain ⟨more, others, hmore⟩ := ih (List.cons_ne_nil c word)
      refine ⟨c :: more, others, ?_⟩
      simp only [Bool.false_eq_true, if_false, hmore, List.reverse_cons, List.append_assoc,
        List.singleton_append]

/-- A text that begins with the start of a word. -/
theorem exists_words {w : List Char} (nonempty : w ≠ []) (solid : Solid w) (rest : List Char) :
    ∃ more others, words (w ++ rest) = (w ++ more) :: others := by
  have hw : w.reverse ++ [] ≠ [] := by simpa using nonempty
  obtain ⟨more, others, hmore⟩ := exists_wordsFrom hw rest
  refine ⟨more, others, ?_⟩
  rw [words, wordsFrom_append solid, hmore, List.append_nil, List.reverse_reverse]

/-! ### Text without white space at its ends -/

/-- No white space is found among the letters. -/
theorem isBlank_of_letter {c : Char} (low : 65 ≤ c.toNat) (high : c.toNat ≤ 122) :
    isBlank c = false := by
  simp [isBlank, ranges]
  omega

/-- Case has nothing to do with white space. -/
theorem isBlank_toLower (c : Char) : isBlank c.toLower = isBlank c := by
  delta Char.toLower
  split
  · next upper =>
    have low : 65 ≤ c.toNat := upper.1
    have high : c.toNat ≤ 90 := upper.2
    rw [isBlank_of_letter low (by omega)]
    have hval : (c.val + ('a'.val - 'A'.val)).toNat = c.toNat + 32 := by
      rw [UInt32.toNat_add]
      change (c.toNat + 32) % 2 ^ 32 = c.toNat + 32
      omega
    apply isBlank_of_letter <;> (rw [Char.toNat, hval]; omega)
  · rfl

/-- What is trimmed is white space. -/
theorem exists_trim (s : List Char) :
    ∃ before after, s = before ++ trim s ++ after ∧
      (∀ c ∈ before, isBlank c = true) ∧ (∀ c ∈ after, isBlank c = true) := by
  have hblanks (l : List Char) : ∀ c ∈ l.takeWhile isBlank, isBlank c = true :=
    fun c hc => List.mem_takeWhile_imp hc
  refine ⟨s.takeWhile isBlank, ((s.dropWhile isBlank).reverse.takeWhile isBlank).reverse, ?_,
    hblanks s, fun c hc => hblanks _ c (List.mem_reverse.mp hc)⟩
  rw [trim, List.append_assoc, ← List.reverse_append, List.takeWhile_append_dropWhile,
    List.reverse_reverse, List.takeWhile_append_dropWhile]

/-- White space is dropped up to the word that follows it. -/
theorem dropWhile_blanks {blanks word : List Char} (blank : ∀ c ∈ blanks, isBlank c = true)
    (nonempty : word ≠ []) (solid : Solid word) (rest : List Char) :
    (blanks ++ (word ++ rest)).dropWhile isBlank = word ++ rest := by
  obtain ⟨c, word, rfl⟩ := List.exists_cons_of_ne_nil nonempty
  have hc : isBlank c = false := solid c List.mem_cons_self
  rw [List.dropWhile_append_of_pos blank, List.cons_append, List.dropWhile_cons, hc]
  rfl

/-- A word is what is left of it and of white space around it. -/
theorem trim_word {before word after : List Char} (hbefore : ∀ c ∈ before, isBlank c = true)
    (hafter : ∀ c ∈ after, isBlank c = true) (nonempty : word ≠ []) (solid : Solid word) :
    trim (before ++ word ++ after) = word := by
  have hback := dropWhile_blanks (fun c hc => hafter c (List.mem_reverse.mp hc))
    (List.reverse_ne_nil_iff.mpr nonempty) (fun c hc => solid c (List.mem_reverse.mp hc)) []
  rw [List.append_nil, ← List.reverse_append] at hback
  rw [trim, List.append_assoc, dropWhile_blanks hbefore nonempty solid, hback,
    List.reverse_reverse]

theorem trim_cons_blank {c : Char} (blank : isBlank c = true) (s : List Char) :
    trim (c :: s) = trim s := by
  rw [trim, List.dropWhile_cons, if_pos blank, trim]

end Blank

namespace Http
/-! ### Lines -/

/-- No character of the text ends a line. -/
def OneLine (s : String) : Prop := ∀ c ∈ s.toList, c ≠ '\r' ∧ c ≠ '\n'

instance (s : String) : Decidable (OneLine s) := List.decidableBAll _ _

theorem oneLine_of_solid {s : String} (solid : Blank.Solid s.toList) : OneLine s := by
  intro c hc
  have hblank := solid c hc
  constructor <;> rintro rfl <;> exact absurd hblank (by decide)

theorem OneLine.append {s t : String} (hs : OneLine s) (ht : OneLine t) : OneLine (s ++ t) := by
  intro c hc
  rw [String.toList_append] at hc
  exact (List.mem_append.mp hc).elim (hs c) (ht c)

/-- The line is not empty, and it does not end before it is over. -/
def PlainLine (line : String) : Prop := line.toList ≠ [] ∧ OneLine line

/-- A header. -/
structure Header where
  name : String
  value : String
  name_oneLine : OneLine name
  value_oneLine : OneLine value
  name_noColon : ':' ∉ name.toList

/-- The line of a header. -/
def Header.line (h : Header) : String := h.name ++ ": " ++ h.value

/-- The head that is made of some lines. -/
def headOf (written : List String) : String :=
  String.join (written.map (· ++ "\r\n")) ++ "\r\n"

/-! ### Where the head ends -/

/-- The end of a line. -/
def lineEnd : List UInt8 := [13, 10]

section

variable (n : Nat) {line : List UInt8}

theorem headEndFrom_cons {b : UInt8} (hb : b ≠ 13) (rest : List UInt8) :
    headEndFrom n (b :: rest) = headEndFrom (n + 1) rest := by
  rw [headEndFrom]
  rintro tail rfl
  exact absurd rfl hb

/-- No blank line begins within a line. -/
theorem headEndFrom_line (plain : 13 ∉ line) (rest : List UInt8) :
    headEndFrom n (line ++ rest) = headEndFrom (n + line.length) rest := by
  induction line generalizing n with
  | nil => rfl
  | cons b line ih =>
    have hb : b ≠ 13 := (List.ne_of_not_mem_cons plain).symm
    have hline : 13 ∉ line := List.not_mem_of_not_mem_cons plain
    rw [List.cons_append, headEndFrom_cons n hb, ih _ hline, List.length_cons]
    congr 1
    omega

/-- None begins at the end of a line that another one follows. -/
theorem headEndFrom_lineEnd {rest : List UInt8} (follows : rest.head? ≠ some 13) :
    headEndFrom n (lineEnd ++ rest) = headEndFrom (n + 2) rest := by
  have hskip : headEndFrom n (lineEnd ++ rest) = headEndFrom (n + 1) (10 :: rest) := by
    rw [lineEnd, List.cons_append, headEndFrom]
    · rfl
    · rintro tail - heq
      obtain ⟨-, rfl⟩ := List.cons.inj heq
      exact follows rfl
  rw [hskip, headEndFrom_cons _ (by decide)]

/-- A head that is made of lines ends with the blank line after them. By induction on the lines: the
search skips a line and its end, for the next line does not begin with a carriage return. -/
theorem headEndFrom_lines {lines : List (List UInt8)} (nonempty : lines ≠ [])
    (plain : ∀ line ∈ lines, line ≠ [] ∧ 13 ∉ line) (body : List UInt8) :
    headEndFrom n (lines.flatMap (· ++ lineEnd) ++ lineEnd ++ body) =
      some (n + (lines.flatMap (· ++ lineEnd) ++ lineEnd).length) := by
  induction lines generalizing n with
  | nil => exact absurd rfl nonempty
  | cons line rest ih =>
    obtain ⟨-, hline⟩ := plain line List.mem_cons_self
    simp only [List.flatMap_cons, List.append_assoc, List.length_append]
    rw [headEndFrom_line n hline]
    cases rest with
    | nil =>
      simp only [List.flatMap_nil, List.nil_append, List.length_nil]
      change some (n + line.length + 4) = some (n + (line.length + (2 + (0 + 2))))
      rw [Nat.add_assoc]
    | cons next rest =>
      obtain ⟨hnext, hplain⟩ := plain next (by simp)
      obtain ⟨b, next, rfl⟩ := List.exists_cons_of_ne_nil hnext
      have hb : b ≠ 13 := fun h => hplain (h ▸ List.mem_cons_self)
      have hrest := ih (n + line.length + 2) (List.cons_ne_nil _ _)
        fun l hl => plain l (List.mem_cons_of_mem _ hl)
      rw [headEndFrom_lineEnd]
      · simp only [List.append_assoc, List.length_append] at hrest
        rw [hrest]
        congr 1
        have htwo : lineEnd.length = 2 := rfl
        omega
      · simpa using hb

end

/-! ### Bytes of a text -/

/-- The byte of the carriage return stands for nothing else. -/
theorem eq_return_of_mem {c : Char} (h : 13 ∈ String.utf8EncodeChar c) : c = '\r' := by
  have hbyte (v : Nat) (heq : (13 : UInt8) = UInt8.ofNat v) : v % 256 = 13 := by
    have := congrArg UInt8.toNat heq
    simpa [UInt8.toNat_ofNat] using this.symm
  revert h
  fun_cases String.utf8EncodeChar c with
  | case1 v hv =>
    intro h
    have hval := hbyte _ (List.mem_singleton.mp h)
    have hsmall : v = 13 := by omega
    exact Char.ext (UInt32.toNat.inj hsmall)
  | case2 v =>
    simp only [List.mem_cons, List.not_mem_nil, or_false]
    rintro (h | h) <;> have := hbyte _ h <;> omega
  | case3 v =>
    simp only [List.mem_cons, List.not_mem_nil, or_false]
    rintro (h | h | h) <;> have := hbyte _ h <;> omega
  | case4 v =>
    simp only [List.mem_cons, List.not_mem_nil, or_false]
    rintro (h | h | h | h) <;> have := hbyte _ h <;> omega

/-- The bytes of a text as a list. -/
def bytesOf (s : String) : List UInt8 := s.toList.flatMap String.utf8EncodeChar

theorem data_toUTF8 (s : String) : s.toUTF8.data.toList = bytesOf s := by
  rw [String.toUTF8_eq_toByteArray, ← String.utf8Encode_toList, List.utf8Encode,
    List.toList_data_toByteArray, bytesOf]

theorem decode?_toUTF8 (s : String) : Utf8.decode? s.toUTF8 = some s := by
  rw [Utf8.decode?, String.fromUTF8?]
  split
  · rfl
  · next invalid => exact absurd s.isValidUTF8 invalid

theorem not_mem_bytesOf {s : String} (oneLine : OneLine s) : 13 ∉ bytesOf s := by
  intro h
  obtain ⟨c, hc, hmem⟩ := List.mem_flatMap.mp h
  exact (oneLine c hc).1 (eq_return_of_mem hmem)

theorem bytesOf_ne_nil {s : String} (nonempty : s.toList ≠ []) : bytesOf s ≠ [] := by
  obtain ⟨c, rest, hs⟩ := List.exists_cons_of_ne_nil nonempty
  rw [bytesOf, hs, List.flatMap_cons]
  exact List.append_ne_nil_of_left_ne_nil String.utf8EncodeChar_ne_nil _

/-! ### Lines of a text -/

/-- The line that has begun ends where the next one begins. -/
theorem linesFrom_append {line : List Char} (plain : '\r' ∉ line) (start rest : List Char) :
    linesFrom start (line ++ '\r' :: '\n' :: rest) =
      (start.reverse ++ line) :: linesFrom [] rest := by
  induction line generalizing start with
  | nil => rw [List.nil_append, linesFrom, List.append_nil]
  | cons c line ih =>
    have hc : c ≠ '\r' := (List.ne_of_not_mem_cons plain).symm
    have hline : '\r' ∉ line := List.not_mem_of_not_mem_cons plain
    rw [List.cons_append, linesFrom, ih hline, List.reverse_cons, List.append_assoc]
    · rfl
    · rintro rest rfl
      exact absurd rfl hc

/-- A text that is made of lines is cut into these lines. -/
theorem lines_written {written : List (List Char)} (plain : ∀ line ∈ written, '\r' ∉ line)
    (rest : List Char) :
    lines (written.flatMap (· ++ ['\r', '\n']) ++ rest) = written ++ lines rest := by
  induction written with
  | nil => rfl
  | cons line written ih =>
    have hfirst := linesFrom_append (plain line List.mem_cons_self) []
      (written.flatMap (· ++ ['\r', '\n']) ++ rest)
    have hrest := ih fun l hl => plain l (List.mem_cons_of_mem line hl)
    rw [List.flatMap_cons, List.append_assoc, List.append_assoc]
    exact hfirst.trans (congrArg (line :: ·) hrest)

/-! ### Heads -/

variable {written : List String}

theorem toList_headOf (written : List String) :
    (headOf written).toList =
      (written.map String.toList).flatMap (· ++ ['\r', '\n']) ++ ['\r', '\n'] := by
  rw [headOf, String.toList_append, String.toList_join, List.flatMap_map, List.flatMap_map]
  simp only [String.toList_append]
  rfl

theorem bytesOf_headOf (written : List String) :
    bytesOf (headOf written) = (written.map bytesOf).flatMap (· ++ lineEnd) ++ lineEnd := by
  rw [bytesOf, toList_headOf, List.flatMap_append, List.flatMap_assoc, List.flatMap_map,
    List.flatMap_map]
  simp only [List.flatMap_append]
  rfl

/-- A head ends where it was written to end. -/
theorem headLength?_headOf (nonempty : written ≠ []) (plain : ∀ line ∈ written, PlainLine line)
    (body : Bytes) :
    headLength? ((headOf written).toUTF8 ++ body) = some (headOf written).toUTF8.size := by
  have hlines : ∀ line ∈ written.map bytesOf, line ≠ [] ∧ 13 ∉ line := by
    rintro _ hmem
    obtain ⟨line, hline, rfl⟩ := List.mem_map.mp hmem
    obtain ⟨hnonempty, honeLine⟩ := plain line hline
    exact ⟨bytesOf_ne_nil hnonempty, not_mem_bytesOf honeLine⟩
  have hsize : (headOf written).toUTF8.size = (bytesOf (headOf written)).length := by
    rw [← data_toUTF8, length_data]
  rw [headLength?, ByteArray.toList_data_append, hsize, data_toUTF8, bytesOf_headOf,
    headEndFrom_lines 0 (by simpa using nonempty) hlines, Nat.zero_add]

/-- The lines of a head are those it was made of. Two empty ones follow, for a line is over where the
next one begins. -/
theorem lines_headOf (plain : ∀ line ∈ written, PlainLine line) :
    lines (headOf written).toList = written.map String.toList ++ [[], []] := by
  rw [toList_headOf, lines_written]
  · rfl
  · rintro _ hmem
    obtain ⟨line, hline, rfl⟩ := List.mem_map.mp hmem
    exact fun hreturn => ((plain line hline).2 _ hreturn).1 rfl

/-! ### Headers -/

namespace Header

variable (h : Header)

/-- The name of a header ends with the first colon of its line. -/
theorem splitHeader?_line :
    splitHeader? h.line.toList = some (h.name.toList, ' ' :: h.value.toList) := by
  have hline : h.line.toList = h.name.toList ++ ':' :: ' ' :: h.value.toList := by simp [line]
  have hname : ∀ c ∈ h.name.toList, (c != ':') = true := fun c hc =>
    bne_iff_ne.mpr fun heq => h.name_noColon (heq ▸ hc)
  have hspan : (h.name.toList ++ ':' :: ' ' :: h.value.toList).span (· != ':') =
      (h.name.toList, ':' :: ' ' :: h.value.toList) := by
    rw [List.span_eq_takeWhile_dropWhile, List.takeWhile_append_of_pos hname,
      List.dropWhile_append_of_pos hname]
    simp
  rw [splitHeader?, hline, hspan]

theorem plain : PlainLine h.line := by
  have hcolon : OneLine ": " := by decide
  refine ⟨by simp [line], ?_⟩
  exact (h.name_oneLine.append hcolon).append h.value_oneLine

end Header

end Http

end PixelHost
