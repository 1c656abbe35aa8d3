import PixelHost.Http.Request

/-!
# Where a request head ends

The head of a request is the shortest part from the front of what has arrived that ends with a blank
line. What follows the head has no influence on where it ends, and neither does how much of it has
arrived.

## Main definitions

* `Http.IsHead` — a head at the front of a stream.

## Main results

* `Http.IsHead.unique` — a stream has one head at most.
* `Http.headLength?_eq_some_iff`, `Http.headLength?_eq_none_iff` — the search finds the head.
* `Http.headLength?_of_part`, `Http.headLength?_of_short_part` — a part of a stream shows its head
  if it is long enough.
-/

namespace PixelHost.Http

/-- A blank line after the end of a line. -/
def blankLine : List UInt8 := [13, 10, 13, 10]

/-- The bytes from the front of a stream up to its first blank line, with that line. -/
structure IsHead (stream head : Bytes) : Prop where
  front : head.data.toList <+: stream.data.toList
  complete : blankLine <:+ head.data.toList
  first : ∀ part, part <+: head.data.toList → blankLine <:+ part → part = head.data.toList

/-- The length of a head is that of its list of bytes. -/
theorem length_data (bytes : Bytes) : bytes.data.toList.length = bytes.size := Array.length_toList

theorem eq_of_data {s t : Bytes} (same : s.data.toList = t.data.toList) : s = t :=
  ByteArray.ext (Array.toList_inj.mp same)

theorem IsHead.size_le {stream head : Bytes} (ishead : IsHead stream head) :
    head.size ≤ stream.size := by
  rw [← length_data, ← length_data]
  exact ishead.front.length_le

/-- A stream has one head at most. -/
theorem IsHead.unique {stream head head' : Bytes} (ishead : IsHead stream head)
    (ishead' : IsHead stream head') : head' = head := by
  rcases List.prefix_or_prefix_of_prefix ishead'.front ishead.front with h | h
  · exact eq_of_data (ishead.first _ h ishead'.complete)
  · exact eq_of_data (ishead'.first _ h ishead.complete).symm

/-! ### The search -/

/-- Where a list does not begin with a blank line, none ends before one does in the rest. -/
private theorem blankLine_suffix_cons {c : UInt8} {part rest : List UInt8} (front : part <+: rest)
    (other : ∀ tail, c :: rest ≠ blankLine ++ tail) (ends : blankLine <:+ c :: part) :
    blankLine <:+ part := by
  rcases List.suffix_cons_iff.mp ends with heq | hpart
  · obtain ⟨tail, rfl⟩ := front
    exact absurd (by rw [heq, List.cons_append]) (other tail)
  · exact hpart

/-- What the search finds is the end of the first blank line. -/
private theorem headEndFrom_some {n m : Nat} {l : List UInt8} (found : headEndFrom n l = some m) :
    ∃ head, head <+: l ∧ blankLine <:+ head ∧
      (∀ part, part <+: head → blankLine <:+ part → part = head) ∧ m = n + head.length := by
  fun_induction headEndFrom n l with
  | case1 n tail =>
    refine ⟨blankLine, ⟨tail, rfl⟩, List.suffix_rfl, fun part hfront hends => ?_, ?_⟩
    · exact hfront.eq_of_length_le hends.length_le
    · exact (Option.some.inj found).symm
  | case2 n c rest other ih =>
    obtain ⟨head, hfront, hends, hfirst, hm⟩ := ih found
    have hother : ∀ tail, c :: rest ≠ blankLine ++ tail := fun tail heq => by
      obtain ⟨rfl, rfl⟩ := List.cons.inj heq
      exact other tail rfl rfl
    refine ⟨c :: head, (List.prefix_cons_inj c).mpr hfront, hends.trans (List.suffix_cons c head),
      fun part hpart hpartEnds => ?_, by rw [hm, List.length_cons]; omega⟩
    cases part with
    | nil => exact absurd hpartEnds (by decide)
    | cons d part =>
      obtain ⟨rfl, htail⟩ := List.cons_prefix_cons.mp hpart
      have hrest := blankLine_suffix_cons (htail.trans hfront) hother hpartEnds
      rw [hfirst part htail hrest]
  | case3 n => cases found

/-- The search finds a blank line if there is one. -/
private theorem headEndFrom_none {n : Nat} {l : List UInt8} (absent : headEndFrom n l = none)
    {part : List UInt8} (front : part <+: l) : ¬ blankLine <:+ part := by
  fun_induction headEndFrom n l generalizing part with
  | case1 n tail => cases absent
  | case2 n c rest other ih =>
    have hother : ∀ tail, c :: rest ≠ blankLine ++ tail := fun tail heq => by
      obtain ⟨rfl, rfl⟩ := List.cons.inj heq
      exact other tail rfl rfl
    cases part with
    | nil => decide
    | cons d part =>
      obtain ⟨rfl, hpart⟩ := List.cons_prefix_cons.mp front
      exact fun hends => ih absent hpart (blankLine_suffix_cons hpart hother hends)
  | case3 n =>
    rw [List.prefix_nil.mp front]
    decide

/-- A head is found where there is one, with its length. -/
theorem headLength?_eq_some_iff {stream : Bytes} {n : Nat} :
    headLength? stream = some n ↔ ∃ head, IsHead stream head ∧ head.size = n := by
  have hsearch {m : Nat} (found : headLength? stream = some m) :
      ∃ head, IsHead stream head ∧ head.size = m := by
    obtain ⟨head, hfront, hends, hfirst, hm⟩ := headEndFrom_some found
    refine ⟨⟨head.toArray⟩, ⟨hfront, hends, hfirst⟩, ?_⟩
    rw [hm, Nat.zero_add]
    exact List.size_toArray
  refine ⟨hsearch, ?_⟩
  rintro ⟨head, ishead, rfl⟩
  cases found : headLength? stream with
  | none => exact absurd ishead.complete (headEndFrom_none found ishead.front)
  | some m =>
    obtain ⟨head', ishead', rfl⟩ := hsearch found
    rw [ishead.unique ishead']

theorem headLength?_eq_none_iff {stream : Bytes} :
    headLength? stream = none ↔ ∀ head, ¬ IsHead stream head := by
  rw [Option.eq_none_iff_forall_ne_some]
  simp only [ne_eq, headLength?_eq_some_iff, not_exists, not_and]
  exact ⟨fun h head ishead => h head.size head ishead rfl, fun h _ head ishead _ => h head ishead⟩

/-! ### Parts of a stream -/

section Part

variable {stream part head : Bytes} (front : part.data.toList <+: stream.data.toList)

include front

/-- A part of a stream has the head of the stream, if it is long enough for it. -/
theorem isHead_part_iff : IsHead part head ↔ IsHead stream head ∧ head.size ≤ part.size := by
  constructor
  · intro ishead
    exact ⟨⟨ishead.front.trans front, ishead.complete, ishead.first⟩, ishead.size_le⟩
  · rintro ⟨ishead, hsize⟩
    rw [← length_data, ← length_data] at hsize
    exact ⟨List.prefix_of_prefix_length_le ishead.front front hsize, ishead.complete, ishead.first⟩

theorem headLength?_of_part (ishead : IsHead stream head) (long : head.size ≤ part.size) :
    headLength? part = some head.size :=
  headLength?_eq_some_iff.mpr ⟨head, (isHead_part_iff front).mpr ⟨ishead, long⟩, rfl⟩

theorem headLength?_of_short_part (short : ∀ head, IsHead stream head → part.size < head.size) :
    headLength? part = none := by
  rw [headLength?_eq_none_iff]
  intro head ishead
  obtain ⟨ishead, hsize⟩ := (isHead_part_iff front).mp ishead
  exact absurd hsize (Nat.not_le.mpr (short head ishead))

end Part

end PixelHost.Http
