import PixelHost.Proofs.Lua.Weights
import PixelHost.Proofs.Sandbox.Growth
import PixelHost.Proofs.Sandbox.Programs
import PixelHost.Proofs.Sandbox.Sizes

/-!
# The room of a prepared sandbox

What a prepared sandbox has in use is bounded, for its tables are known. So its bound on the memory is
its budget beyond what is in use, and a program that is not too large is loaded: with two mebibytes
there is room for its global names and for a mebibyte of code.

## Main definitions

* `Sandbox.Spacious` — a sandbox that may take some memory, and whose tables are modest.
* `Sandbox.loadBytes` — the most memory that loading a program takes.

## Main results

* `Sandbox.prepare_spacious` — a prepared sandbox.
* `Sandbox.compile_spacious` — a program that is not too large is loaded.
-/

namespace PixelHost.Lua

variable {fields : List (String × Value)} {n w : Nat} {t : Table}

/-- The assignments give values that weigh little to few names that weigh little. -/
def lightFields (n w : Nat) (fields : List (String × Value)) : Bool :=
  decide (fields.length ≤ n) && fields.all fun f =>
    decide (Run.stringBytes f.1.toUTF8.size ≤ w) && decide (f.2.weight ≤ w)

/-- A table of few names that weigh little, with values that weigh little. -/
theorem Table.Holds.light (holds : t.Holds fields) (h : lightFields n w fields = true) :
    t.Light n w := by
  rw [lightFields, Bool.and_eq_true, decide_eq_true_iff, List.all_eq_true] at h
  obtain ⟨hlength, hfields⟩ := h
  have hfield : ∀ f ∈ fields, Run.stringBytes f.1.toUTF8.size ≤ w ∧ f.2.weight ≤ w := by
    intro f hf
    simpa only [Bool.and_eq_true, decide_eq_true_iff] using hfields f hf
  refine ⟨holds.fits.mono hlength, holds.named.size, fun k hk => ?_, fun v hv => ?_⟩
  · obtain ⟨s, rfl⟩ := holds.named.names k hk
    obtain ⟨f, hf, rfl⟩ := holds.keys s hk
    exact (hfield f hf).1
  · obtain ⟨i, hi, rfl⟩ := Array.mem_iff_getElem.mp hv
    obtain ⟨s, -, hvalue⟩ := holds.named.slot_value (holds.named.size ▸ hi)
    rw [Array.getElem?_eq_getElem hi, Option.some_inj, holds.inSlot] at hvalue
    rw [hvalue]
    rcases Table.assigned_cases fields s with hnil | ⟨f, hf, -, heq⟩
    · rw [hnil]
      exact Nat.zero_le _
    · rw [heq]
      exact (hfield f hf).2

end PixelHost.Lua

namespace PixelHost.Sandbox

open Lua

/-! ### The preparation -/

/-- A table is kept when the memory is counted, or it is emptied. -/
theorem getD_recounted (m : Machine) (r : TableRef) :
    m.recounted.tables.getD r default = m.tables.getD r default ∨
      m.recounted.tables.getD r default = {} := by
  unfold Machine.recounted
  extract_lets counted marks
  split
  · exact .inl rfl
  · exact Marking.getD_clear_cases marks.tables {} m.tables r

/-- A table of a prepared sandbox has no more than 64 names. -/
def preparedNames : Nat := 64

/-- No name or value in a table of a prepared sandbox takes more than 256 bytes. -/
def preparedWeight : Nat := 256

set_option maxRecDepth 40000 in
theorem preparedContents_light (config : SandboxConfig) :
    (preparedContents config).all (lightFields preparedNames preparedWeight) = true := by
  rfl

section

variable {config : SandboxConfig} {tables : Array Table}
variable (stocked : Stocked (preparedContents config) tables) (clock charge : Nat)

include stocked

theorem sealedMachine_light :
    (sealedMachine clock tables charge).Light preparedNames preparedWeight where
  tables r := by
    refine (stocked.has r).light ?_
    rw [List.getD_eq_getElem?_getD]
    cases hfields : (preparedContents config)[r]? with
    | none => rfl
    | some fields =>
      exact List.all_eq_true.mp (preparedContents_light config) fields (List.mem_of_getElem? hfields)
  cells r := by
    cases r with
    | zero => exact ⟨.table 0, rfl, Nat.zero_le _⟩
    | succ r => exact ⟨.nil, rfl, Nat.zero_le _⟩
  stack v hv := by
    rw [Array.eq_of_mem_replicate hv]
    exact Nat.zero_le _
  threads r hr := by
    cases r with
    | zero => exact absurd rfl hr
    | succ r => rfl
  frames := rfl
  openCells := rfl
  held := rfl
  waiting := rfl

/-- A prepared sandbox has no more than a mebibyte in use. -/
theorem charge_recounted_lt : (sealedMachine clock tables charge).recounted.charge < 2 ^ 20 := by
  have hcharge := (sealedMachine_light stocked clock charge).charge_recounted_le
  have hsize : tables.size = 13 := stocked.size
  have hstack : (sealedMachine clock tables charge).stack.size = 40 := rfl
  have hcells : (sealedMachine clock tables charge).cells.size = 1 := rfl
  have htables : (sealedMachine clock tables charge).tables.size = 13 := hsize
  have hthreads : (sealedMachine clock tables charge).threads.size = 1 := rfl
  rw [hstack, hcells, htables, hthreads] at hcharge
  exact Nat.lt_of_le_of_lt hcharge (by decide)

/-- The tables of a prepared sandbox are modest. -/
theorem recounted_modest :
    Modest preparedNames (sealedMachine clock tables charge).recounted.tables := by
  intro r
  rcases getD_recounted (sealedMachine clock tables charge) r with hkept | hcleared
  · rw [hkept]
    exact ⟨(stocked.has r).named, ((sealedMachine_light stocked clock charge).tables r).fits⟩
  · rw [hcleared]
    exact Table.named_fits_empty preparedNames

end

/-- A sandbox that may take some memory beyond what is in use, and whose tables are modest. -/
structure Spacious (bytes : Nat) (s : Sandbox) : Prop where
  modest : Modest preparedNames s.machine.tables
  room : s.machine.lacks (s.machine.charge + bytes) = false

/-- A prepared sandbox may take the memory of its budget, if that is less than half of the words. -/
theorem prepare_spacious {config : SandboxConfig} (plain : config.bootstrap = none)
    (hallowance : 10 ≤ config.allowance) (hbudget : config.memoryBudget < 2 ^ 63) :
    ∃ s, (prepare config).1 = .ok s ∧ s.Spacious config.memoryBudget ∧
      s.frameLength = config.frameLength ∧ s.instructionLimit = config.instructionLimit ∧
      s.allowance = config.allowance := by
  obtain ⟨tables, charge, stocked, hprepare⟩ := prepare_eq plain hallowance
  have hcharge := charge_recounted_lt stocked config.clock charge
  have hmodest := recounted_modest stocked config.clock charge
  generalize (sealedMachine config.clock tables charge).recounted = m at hprepare hcharge hmodest
  have hword : asWord (m.charge + config.memoryBudget) = m.charge + config.memoryBudget :=
    asWord_eq_iff.mpr (by omega)
  refine ⟨preparedOn config m, hprepare, ⟨hmodest, ?_⟩, rfl, rfl, rfl⟩
  change decide (_ > asWord _) = false
  rw [hword, decide_eq_false_iff_not]
  exact Nat.lt_irrefl _

/-! ### Loading -/

/-- The most memory that loading a program takes. -/
def loadBytes (p : Prototype) : Nat := environmentBytes preparedNames + (p.bytes + 40) + 40

theorem lacks_of_le {m m' : Machine} {n n' : Nat} (hlimit : m'.limit = m.limit)
    (room : m.lacks n = false) (hle : n' ≤ n) : m'.lacks n' = false := by
  rw [Machine.lacks] at room ⊢
  rw [hlimit]
  cases hbound : m.limit with
  | none => rfl
  | some limit =>
    rw [hbound, decide_eq_false_iff_not] at room
    exact decide_eq_false (by omega)

section

variable {s : Sandbox} {bytes : Nat} {source : String} {p : Prototype}

/-- A program that is not too large is loaded, and there is room for what is left of the memory. -/
theorem compile_spacious (hp : Chunk.compile source.toUTF8 "upload".toUTF8 = .ok p)
    (spacious : s.Spacious bytes) (hbytes : loadBytes p ≤ bytes) (inUse : InUse Value Value) :
    ∃ id upvalues m, s.compile inUse source = (.ok (.closure ⟨id, p, upvalues⟩), { s with machine := m }) ∧
      ({ s with machine := m } : Sandbox).Spacious (bytes - loadBytes p) := by
  let m := (keeping inUse s.machine).rested
  obtain ⟨env, tables, charge, henvironment, hcharge, modest⟩ :=
    newEnvironment_takes (m := m) spacious.modest (by decide)
  let f : Closure := ⟨m.nextId, p, #[m.cells.size]⟩
  let loaded : Machine := { m with
    tables
    charge := charge + (p.bytes + 40) + 40
    cells := m.cells.push (.closed (.table env))
    nextId := m.nextId + 1
    held := m.held.push (.closure f) }
  have hloaded : loaded.charge ≤ s.machine.charge + loadBytes p := by
    change charge + (p.bytes + 40) + 40 ≤ _
    change charge ≤ s.machine.charge + environmentBytes preparedNames at hcharge
    rw [loadBytes]
    omega
  have hchecked : Run.checkMemory loaded = .ok () loaded :=
    Run.checkMemory_of_room (lacks_of_le (m := s.machine) rfl spacious.room (by omega))
  have hload : load inUse source s.machine = .ok (.ok (.closure f)) loaded := by
    rw [load_eq, loadAtRest, Run.bind_of_ok henvironment, hp]
    exact (Run.bind_of_ok hchecked).trans rfl
  refine ⟨m.nextId, #[m.cells.size], loaded, ?_, modest, ?_⟩
  · unfold compile runOn
    rw [hload]
  · exact lacks_of_le (m := s.machine) rfl spacious.room (by dsimp only; omega)

end

end PixelHost.Sandbox
