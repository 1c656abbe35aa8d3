import Mathlib.Data.List.Basic
import Mathlib.Data.Nat.Basic
import Mathlib.Order.Basic

/-!
# The bytes of characters and their order

The order of texts by their characters is their order by their bytes: a greater character is written
either with a greater first byte or, digit by digit to the base 64, in as many bytes as the smaller
one.

## Main results

* `Utf8.encode_append_lt` — the first characters that differ decide on the order of the bytes.
* `Utf8.flatMap_encode_lt` — the bytes of texts are ordered as the texts are.
-/

namespace PixelHost.Utf8

/-! ### Digits -/

/-- Numbers are compared by their last digits where all that comes before is the same. -/
theorem digits_lt {m n : Nat} (b : Nat) (h : m < n) :
    m / b < n / b ∨ m / b = n / b ∧ m % b < n % b := by
  rcases (Nat.div_le_div_right (c := b) h.le).lt_or_eq with hlt | heq
  · exact .inl hlt
  · refine .inr ⟨heq, ?_⟩
    have hm := Nat.div_add_mod m b
    have hn := Nat.div_add_mod n b
    rw [heq] at hm
    omega

section

variable {m n : Nat} (hm : m < 256) (hn : n < 256)
include hm hn

theorem byte_lt_byte_iff : UInt8.ofNat m < UInt8.ofNat n ↔ m < n := UInt8.ofNat_lt_iff_lt hm hn

theorem byte_inj : UInt8.ofNat m = UInt8.ofNat n ↔ m = n := by
  rw [← UInt8.toNat_inj, UInt8.toNat_ofNat_of_lt' hm, UInt8.toNat_ofNat_of_lt' hn]

end

/-! ### Characters -/

theorem toNat_val_lt (c : Char) : c.val.toNat < 0x110000 := by
  rcases c.valid with h | ⟨-, h⟩
  · exact h.trans (by decide)
  · exact h

/-- The first characters that differ decide on the order of the bytes. -/
theorem encode_append_lt {c d : Char} (h : c < d) (x y : List UInt8) :
    String.utf8EncodeChar c ++ x < String.utf8EncodeChar d ++ y := by
  have hlt : c.val.toNat < d.val.toNat := h
  have hmax := toNat_val_lt d
  generalize hm : c.val.toNat = m at hlt
  generalize hn : d.val.toNat = n at hlt hmax
  have hm₂ : m / 4096 = m / 64 / 64 := (Nat.div_div_eq_div_mul m 64 64).symm
  have hn₂ : n / 4096 = n / 64 / 64 := (Nat.div_div_eq_div_mul n 64 64).symm
  have hm₃ : m / 262144 = m / 64 / 64 / 64 := by rw [← hm₂, Nat.div_div_eq_div_mul]
  have hn₃ : n / 262144 = n / 64 / 64 / 64 := by rw [← hn₂, Nat.div_div_eq_div_mul]
  rw [String.utf8EncodeChar.eq_1, String.utf8EncodeChar.eq_1, hm, hn, hm₂, hn₂, hm₃, hn₃]
  -- The widths of both characters. All cases but the last are settled by their bounds.
  split_ifs <;>
    simp only [List.cons_append, List.nil_append, List.cons_lt_cons_iff] <;>
    simp (disch := omega) only [byte_lt_byte_iff, byte_inj] <;>
    try omega
  -- Both take four bytes: the first digit that differs decides.
  rcases digits_lt 64 hlt with h₁ | ⟨h₁, hlast⟩
  · rcases digits_lt 64 h₁ with h₂ | ⟨h₂, hthird⟩
    · rcases digits_lt 64 h₂ with h₃ | ⟨h₃, hsecond⟩
      · omega
      · omega
    · omega
  · omega

/-! ### Texts -/

/-- The bytes of texts are ordered as the texts are. By induction on the smaller text: either it ends
first, or its first character is smaller, or the texts go on from the same one. -/
theorem flatMap_encode_lt {s t : List Char} (h : s < t) :
    s.flatMap String.utf8EncodeChar < t.flatMap String.utf8EncodeChar := by
  induction s generalizing t with
  | nil =>
    cases t with
    | nil => exact absurd h (List.lt_irrefl [])
    | cons d t =>
      have hne : String.utf8EncodeChar d ++ t.flatMap String.utf8EncodeChar ≠ [] :=
        List.append_ne_nil_of_left_ne_nil String.utf8EncodeChar_ne_nil _
      obtain ⟨b, rest, hbytes⟩ := List.exists_cons_of_ne_nil hne
      rw [List.flatMap_cons, hbytes]
      exact List.nil_lt_cons b rest
  | cons c s ih =>
    cases t with
    | nil => exact absurd h (List.not_lt_nil _)
    | cons d t =>
      rw [List.flatMap_cons, List.flatMap_cons]
      rcases List.cons_lt_cons_iff.mp h with hfirst | ⟨rfl, hrest⟩
      · exact encode_append_lt hfirst _ _
      · exact List.append_left_lt (ih hrest)

end PixelHost.Utf8
