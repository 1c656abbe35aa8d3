import PixelHost.Proofs.Sandbox.Results

/-!
# The reset signal as a register

The reset signal keeps a request in one signed word, in which two values stand for something else than
a number of milliseconds. Whatever is done with it, it answers as a place that holds a delay or nothing:
raising overwrites, taking empties. The only difference is that a number of milliseconds beyond the
signed words is shortened to the largest of them. No script can ask for such a number.

## Main definitions

* `ResetSignal.Use`, `ResetSignal.run` — what is done with a signal.
* `Register.run` — the same on a place that holds a delay or nothing.
* `Delay.capped` — the delay that fits into the word.

## Main results

* `ResetSignal.Holds.act` — a step answers as the register does.
* `ResetSignal.register_of_uses` — a run answers as the register does.
-/

namespace PixelHost

/-- The delay, shortened if it does not fit into a signed word. -/
def Delay.capped : Delay → Delay
  | .millis ms => .millis (if 0x7FFFFFFFFFFFFFFF < ms then 0x7FFFFFFFFFFFFFFF else ms)
  | .forever => .forever

theorem Delay.capped_of_fits {delay : Delay} (fits : delay.Fits) : delay.capped = delay := by
  cases delay with
  | forever => rfl
  | millis ms =>
    have hms : ¬ 0x7FFFFFFFFFFFFFFF < ms := by
      rw [UInt64.lt_iff_toNat_lt, Nat.not_lt]
      exact Nat.le_of_lt_succ fits
    rw [capped, if_neg hms]

theorem Delay.fits_capped (delay : Delay) : delay.capped.Fits := by
  cases delay with
  | forever => trivial
  | millis ms =>
    simp only [capped]
    split_ifs with hms
    · show (0x7FFFFFFFFFFFFFFF : UInt64).toNat < 0x8000000000000000
      decide
    · rw [UInt64.lt_iff_toNat_lt, Nat.not_lt] at hms
      exact Nat.lt_succ_of_le hms

namespace ResetSignal

/-! ### Uses of a signal -/

/-- What can be done with a signal. -/
inductive Use where
  | raise (delay : Delay)
  | take
  | isPending

/-- What comes of it. -/
inductive Reply where
  | raised
  | taken (delay : Option Delay)
  | pending (answer : Bool)

/-- The reply with a delay that fits into the word. -/
def Reply.capped : Reply → Reply
  | .taken delay => .taken (delay.map Delay.capped)
  | reply => reply

/-- One use of a signal. -/
def act (r : ResetSignal) : Use → Reply × ResetSignal
  | .raise delay => (.raised, r.raise delay)
  | .take => (.taken r.take.1, r.take.2)
  | .isPending => (.pending r.isPending, r)

/-- What comes of some uses, and the signal after them. -/
def run (r : ResetSignal) : List Use → List Reply × ResetSignal
  | [] => ([], r)
  | use :: rest =>
    let (reply, r) := r.act use
    let (replies, r) := r.run rest
    (reply :: replies, r)

end ResetSignal

/-! ### The register -/

namespace Register

open ResetSignal

/-- One use of a place that holds a delay or nothing. -/
def act (cell : Option Delay) : Use → Reply × Option Delay
  | .raise delay => (.raised, some delay)
  | .take => (.taken cell, none)
  | .isPending => (.pending cell.isSome, cell)

/-- What comes of some uses, and the place after them. -/
def run (cell : Option Delay) : List Use → List Reply × Option Delay
  | [] => ([], cell)
  | use :: rest =>
    let (reply, cell) := act cell use
    let (replies, cell) := run cell rest
    (reply :: replies, cell)

end Register

namespace ResetSignal

/-! ### The signal answers as the register -/

/-- A number of milliseconds is kept as the one that fits. -/
theorem encode_capped (delay : Delay) : encode delay.capped = encode delay := by
  cases delay with
  | forever => rfl
  | millis ms =>
    simp only [Delay.capped]
    split_ifs with hms
    · rw [UInt64.lt_iff_toNat_lt] at hms
      have hmin : min ms.toNat 0x7FFFFFFFFFFFFFFF = 0x7FFFFFFFFFFFFFFF :=
        Nat.min_eq_right hms.le
      rw [encode, encode, hmin]
      rfl
    · rfl

/-- What is taken is the delay that was raised, or the longest one that fits. -/
theorem take_raise_capped (r : ResetSignal) (delay : Delay) :
    (r.raise delay).take.1 = some delay.capped := by
  have hraise : r.raise delay = r.raise delay.capped := by rw [raise, raise, encode_capped]
  rw [hraise, take_raise r delay.fits_capped]

/-- The signal holds what the register holds. -/
def Holds (r : ResetSignal) (cell : Option Delay) : Prop := r.take.1 = cell.map Delay.capped

namespace Holds

variable {r : ResetSignal} {cell : Option Delay}

theorem start : Holds {} none := rfl

theorem isPending (holds : Holds r cell) : r.isPending = cell.isSome := by
  rw [← isSome_take, holds, Option.isSome_map]

/-- The signal and the register give the same reply, and hold the same afterwards. -/
theorem act (holds : Holds r cell) (use : Use) :
    (r.act use).1 = (Register.act cell use).1.capped ∧
      Holds (r.act use).2 (Register.act cell use).2 := by
  cases use with
  | raise delay => exact ⟨rfl, r.take_raise_capped delay⟩
  | take => exact ⟨congrArg Reply.taken holds, r.take_take⟩
  | isPending => exact ⟨congrArg Reply.pending holds.isPending, holds⟩

/-- By induction on the uses. -/
theorem run (holds : Holds r cell) (uses : List Use) :
    (r.run uses).1 = (Register.run cell uses).1.map Reply.capped ∧
      Holds (r.run uses).2 (Register.run cell uses).2 := by
  induction uses generalizing r cell with
  | nil => exact ⟨rfl, holds⟩
  | cons use rest ih =>
    obtain ⟨hreply, hheld⟩ := holds.act use
    obtain ⟨hreplies, hafter⟩ := ih hheld
    refine ⟨?_, hafter⟩
    show (r.act use).1 :: ((r.act use).2.run rest).1 = _
    rw [hreply, hreplies]
    rfl

end Holds

end ResetSignal

/-! ### Delays that fit -/

namespace Register

open ResetSignal

/-- The delays in a register were raised, so they fit if all delays that are raised do. -/
theorem run_capped {cell : Option Delay} {uses : List Use} (held : ∀ delay ∈ cell, delay.Fits)
    (raised : ∀ delay, .raise delay ∈ uses → delay.Fits) :
    (run cell uses).1.map Reply.capped = (run cell uses).1 := by
  induction uses generalizing cell with
  | nil => rfl
  | cons use rest ih =>
    have hrest : ∀ delay, .raise delay ∈ rest → delay.Fits := fun delay h =>
      raised delay (List.mem_cons_of_mem use h)
    show (act cell use).1.capped :: _ = (act cell use).1 :: _
    cases use with
    | raise delay =>
      have hdelay : ∀ d ∈ some delay, d.Fits := by
        rintro d ⟨⟩
        exact raised delay List.mem_cons_self
      exact congrArg (Reply.raised :: ·) (ih hdelay hrest)
    | take =>
      have hcell : cell.map Delay.capped = cell := by
        cases cell with
        | none => rfl
        | some delay => exact congrArg some (Delay.capped_of_fits (held delay rfl))
      exact congrArg₂ (Reply.taken · :: ·) hcell (ih nofun hrest)
    | isPending => exact congrArg (Reply.pending cell.isSome :: ·) (ih held hrest)

end Register

namespace ResetSignal

open Sandbox

/-- Whatever is done with a new signal, it answers as a register that holds a delay or nothing, where
raising overwrites and taking empties; a number of milliseconds beyond the signed words is read back as
the largest of them. No delay is kept as the value for nothing, and none but the one without end as
the value for that. If all delays are ones that scripts ask for, then the answers are those of the
register without exception: each integer from minus one on stands for a delay, and this delay is what
is taken after it was raised. -/
theorem register_of_uses (uses : List Use) :
    (run {} uses).1 = (Register.run none uses).1.map Reply.capped ∧
      (∀ delay : Delay, encode delay ≠ noRequest ∧
        (encode delay = foreverRequest ↔ delay = .forever)) ∧
      ((∀ delay, .raise delay ∈ uses → ∃ code, Delay.ofScript code = .ok delay) →
        (run {} uses).1 = (Register.run none uses).1) ∧
      ∀ code : Int64, -1 ≤ code.toInt →
        ∃ delay, Delay.ofScript code = .ok delay ∧ StandsFor code.toInt delay ∧
          ∀ r : ResetSignal, (r.raise delay).take.1 = some delay := by
  have hrun := (Holds.start.run uses).1
  refine ⟨hrun, fun delay => ⟨encode_ne_noRequest delay, ?_⟩, fun raised => ?_, fun code legal => ?_⟩
  · cases delay with
    | forever => exact iff_of_true rfl rfl
    | millis ms => exact iff_of_false (encode_millis_ne_forever ms) nofun
  · have hfits : ∀ delay, .raise delay ∈ uses → delay.Fits := fun delay h =>
      Delay.fits_of_ofScript (raised delay h).choose_spec
    have hheld : ∀ delay ∈ (none : Option Delay), delay.Fits := nofun
    rw [hrun, Register.run_capped hheld hfits]
  · cases hread : Delay.ofScript code with
    | error e => exact absurd (ofScript_error hread).1 (by omega)
    | ok delay =>
      exact ⟨delay, rfl, ofScript_ok_iff.mp hread, fun r => r.take_raise (Delay.fits_of_ofScript hread)⟩

end ResetSignal

end PixelHost
