import PixelHost.Proofs.Sandbox.Preparation
import PixelHost.Proofs.Lua.Marking
import PixelHost.Settings.Basic

/-!
# The sizes of a prepared sandbox

The length of a frame and the bound on the memory are words of 64 bits, and scripts see the length
as an integer with sign. The three sizes are exact up to different bounds, and none of these is a
condition on settings: where sizes are accepted, greater ones are.

## Main definitions

* `Sandbox.sharedName` — the value of a global name that all scripts share.

## Main results

* `Sandbox.prepare_sizes` — the sizes of a prepared sandbox.
* `Sandbox.violation?_greater` — greater sizes are accepted.
-/

namespace PixelHost.Sandbox

open Lua

/-- The value of a global name that all scripts share. -/
def sharedName (s : Sandbox) (name : String) : Value :=
  (s.machine.tables.getD s.machine.globals default).getStr name.toUTF8

/-! ### Words -/

theorem asWord_eq_iff {n : Nat} : asWord n = n ↔ n < 2 ^ 64 := by
  rw [asWord, UInt64.toNat_ofNat']
  omega

theorem frameLength_lt (config : SandboxConfig) : config.frameLength < 2 ^ 64 := by
  rw [SandboxConfig.frameLength, asWord]
  exact UInt64.toNat_lt _

/-- A word is seen as it is by scripts if it is less than half of the words. -/
theorem toInt_ofNat_eq_iff {n : Nat} (word : n < 2 ^ 64) :
    (Int64.ofNat n).toInt = n ↔ n < 2 ^ 63 := by
  have hsize : (Int64.size : Int) = 2 ^ 64 := rfl
  rw [Int64.toInt_ofNat', Int.bmod_def, hsize]
  split <;> omega

/-! ### The preparation -/

/-- The table of the global names is kept when the memory is counted. -/
theorem globals_recounted (m : Machine) :
    m.recounted.globals = m.globals ∧
      m.recounted.tables.getD m.globals default = m.tables.getD m.globals default := by
  let m' : Machine := { m with charge := (m.marking false).bytes }
  have hmarked : (m'.marking true).tables.getD m.globals true = true :=
    m'.marking_closed.1 _ List.mem_cons_self
  have hclear := Marking.getD_clear_of_marked (m'.marking true).tables {} m.tables m.globals hmarked
  unfold Machine.recounted
  extract_lets
  split
  · exact ⟨rfl, rfl⟩
  · exact ⟨rfl, hclear⟩

theorem assigned_frameLength (config : SandboxConfig) :
    Table.assigned ((preparedContents config).getD 0 []) "FRAME_LEN".toUTF8 =
      .ofNat config.frameLength := by
  rfl

/-- The sizes of a prepared sandbox: the length of a frame is three times the number of pixels if
that is a word, scripts see it as it is if it is less than half of the words, and the bound on the
memory is the budget beyond what is in use if that is a word. -/
theorem prepare_sizes {config : SandboxConfig} (plain : config.bootstrap = none)
    (hallowance : 10 ≤ config.allowance) : ∃ s, (prepare config).1 = .ok s ∧
      (s.frameLength = 3 * config.pixelCount ↔ 3 * config.pixelCount < 2 ^ 64) ∧
      (∃ n : Int64, s.sharedName "FRAME_LEN" = .int n ∧
        (n.toInt = s.frameLength ↔ s.frameLength < 2 ^ 63)) ∧
      (s.memoryLimit = s.usedMemory + config.memoryBudget ↔
        s.usedMemory + config.memoryBudget < 2 ^ 64) := by
  obtain ⟨tables, charge, stocked, hprepare⟩ := prepare_eq plain hallowance
  obtain ⟨hglobals, htable⟩ := globals_recounted (sealedMachine config.clock tables charge)
  generalize (sealedMachine config.clock tables charge).recounted = m at hprepare hglobals htable
  let s := preparedOn config m
  have hname : s.sharedName "FRAME_LEN" = .ofNat config.frameLength := by
    have hslot := (stocked.has 0).inSlot "FRAME_LEN".toUTF8
    change (m.tables.getD m.globals default).getStr _ = _
    rw [hglobals, htable, Table.getStr]
    exact hslot.trans (assigned_frameLength config)
  refine ⟨s, hprepare, ?_, ⟨_, hname, toInt_ofNat_eq_iff (frameLength_lt config)⟩, asWord_eq_iff⟩
  rw [Nat.mul_comm]
  exact asWord_eq_iff

/-- The length of a frame that scripts of a long strip see. -/
example : (Int64.ofNat ({ pixelCount := 3074457345618258603 } : SandboxConfig).frameLength).toInt =
    -9223372036854775807 := by
  decide

/-- Greater sizes are accepted where smaller ones are. -/
theorem violation?_greater {s : Settings} (valid : s.violation? = none) {pixels bytes : Nat}
    (longer : s.pixelCount ≤ pixels) (more : s.memoryBudget ≤ bytes) :
    ({ s with pixelCount := pixels, memoryBudget := bytes } : Settings).violation? = none := by
  unfold Settings.violation? at valid ⊢
  split_ifs at valid with hpixels hquantum houtbox hupload hbudget
  have hlonger : pixels ≠ 0 := by omega
  have hmore : ¬ bytes < Settings.minMemoryBudget := by omega
  simp only [hlonger, hquantum, houtbox, hupload, hmore, if_false]

end PixelHost.Sandbox
