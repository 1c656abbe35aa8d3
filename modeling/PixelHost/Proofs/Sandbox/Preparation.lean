import PixelHost.Proofs.Sandbox.Sealing

/-!
# The machine of a prepared sandbox

Unless the owner of the host runs code of their own, it is known what the tables of a prepared sandbox
hold: the libraries and the light effects, the mark on the metatable of strings, and nothing under the
names that are removed.

## Main definitions

* `Sandbox.preparedContents` — what is assigned to the names of each table.
* `Sandbox.preparedOn` — the sandbox with a machine that was set up.

## Main results

* `Sandbox.setUp_eq`, `Sandbox.setUp_short` — the preparation.
* `Sandbox.prepare_eq`, `Sandbox.prepare_short` — the sandbox that is prepared.
-/

namespace PixelHost.Sandbox

open Lua

variable {contents : List (List (String × Value))} {tables : Array Table}

/-! ### Light effects -/

/-- The light effects and the constants of the strip by name. -/
def effectFields (config : SandboxConfig) : List (String × Value) :=
  functionFields Native.effect EffectFn.all ++ [("PIX_NUM", .ofNat config.pixelCount),
    ("FRAME_LEN", .ofNat config.frameLength), ("DELAY_FOREVER", .int Delay.foreverCode)]

theorem installEffects_eq (config : SandboxConfig) (clock charge : Nat)
    (stocked : Stocked libraryContents tables) : ∃ tables' charge',
    installEffects config
        { clock, tables, charge, globals := 0, loaded := 1, stringMetatable := 2 } =
      .ok () { clock
               tables := tables'
               charge := charge'
               globals := 0
               loaded := 1
               stringMetatable := 2 } ∧
      Stocked (libraryContents.modify 0 (· ++ effectFields config)) tables' := by
  have hloop : Installs libraryContents (do
      for e in EffectFn.all do Run.setField 0 e.1 (.native (.effect e.2))
      Run.setField 0 "PIX_NUM" (.ofNat config.pixelCount)
      Run.setField 0 "FRAME_LEN" (.ofNat config.frameLength)
      Run.setField 0 "DELAY_FOREVER" (.int Delay.foreverCode)) ()
      (libraryContents.modify 0 (· ++ effectFields config)) :=
    .bind (.forIn EffectFn.all fun e _ => .bind (Run.setField_installs 0 e.1 _) (.pure _)) <|
    .bind (Run.setField_installs 0 "PIX_NUM" _) <|
    .bind (Run.setField_installs 0 "FRAME_LEN" _) (Run.setField_installs 0 "DELAY_FOREVER" _)
  exact hloop { clock, tables, charge, globals := 0, loaded := 1, stringMetatable := 2 } stocked

/-! ### Names that are removed -/

theorem carryOut_of_ok {α : Type} (wording : Failure → ScriptError) {x : Run α} {m m' : Machine}
    {a : α} (h : x m = .ok a m') : carryOut wording x m = .ok a m' := by
  rw [carryOut, h]

theorem discard_carryOut_of_ok {α : Type} (wording : Failure → ScriptError) {x : Run α}
    {m m' : Machine} {a : α} (h : x m = .ok a m') : discard (carryOut wording x) m = .ok () m' := by
  change EStateM.map (fun _ => ()) (carryOut wording x) m = _
  rw [EStateM.map, carryOut_of_ok wording h]

theorem discard_carryOut_of_error {α : Type} (wording : Failure → ScriptError) {x : Run α}
    {m m' : Machine} {fault : Fault} (h : x m = .error fault m') :
    discard (carryOut wording x) m = .error ((failureOf? fault).map wording) m' := by
  change EStateM.map (fun _ => ()) (carryOut wording x) m = _
  rw [EStateM.map, carryOut, h]

/-- Removes a shared global name. -/
def remove (allowance : Nat) (name : String) : Run Unit :=
  Run.fromOutside allowance fun c => do
    c.setElement (.table (← get).globals) (.ofString name) .nil

theorem remove_eq (allowance : Nat) (name : String) (clock charge : Nat)
    (stocked : Stocked contents tables) : ∃ tables' charge',
    remove allowance name (sealedMachine clock tables charge) =
      .ok () (sealedMachine clock tables' charge') ∧
      Stocked (contents.modify 0 (· ++ [(name, .nil)])) tables' := by
  obtain ⟨tables', charge', hassign, stocked'⟩ := Run.assign_installs 0 name .nil .unknown
    (sealedMachine clock tables charge) stocked
  have hbody : Caller.setElement (.within allowance) (.table 0) (.ofString name) .nil
      (sealedMachine clock tables charge) = .ok () (sealedMachine clock tables' charge') :=
    Run.bind_of_ok hassign
  have hremove : remove allowance name (sealedMachine clock tables charge) =
      .ok () (sealedMachine clock tables' charge').rested := by
    rw [remove, Run.fromOutside]
    refine Run.outside_of_ok ?_
    exact hbody
  exact ⟨tables', charge', hremove, stocked'⟩

/-- The names of a list are removed. By induction on the list. -/
theorem removeAll_eq (allowance : Nat) (wording : Failure → ScriptError) (names : List String)
    (clock charge : Nat) (stocked : Stocked contents tables) : ∃ tables' charge',
    (forIn names PUnit.unit fun name _ => do
        carryOut wording (remove allowance name)
        return ForInStep.yield PUnit.unit : Setup PUnit) (sealedMachine clock tables charge) =
      .ok ⟨⟩ (sealedMachine clock tables' charge') ∧
      Stocked (names.foldl (fun contents name => contents.modify 0 (· ++ [(name, .nil)])) contents)
        tables' := by
  induction names generalizing contents tables charge with
  | nil => exact ⟨tables, charge, rfl, stocked⟩
  | cons name names ih =>
    obtain ⟨tables₁, charge₁, hremove, stocked₁⟩ := remove_eq allowance name clock charge stocked
    obtain ⟨tables₂, charge₂, hrest, stocked₂⟩ := ih charge₁ stocked₁
    refine ⟨tables₂, charge₂, ?_, stocked₂⟩
    rw [List.forIn_cons, bind_assoc, Run.bind_of_ok (carryOut_of_ok wording hremove)]
    exact hrest

/-! ### The preparation -/

/-- What is assigned to the names of each table before any script runs. -/
def preparedContents (config : SandboxConfig) : List (List (String × Value)) :=
  removedNames.foldl (fun contents name => contents.modify 0 (· ++ [(name, .nil)]))
    ((libraryContents.modify 0 (· ++ effectFields config)).modify 2
      (· ++ [("__metatable", .bool false)]))

/-- The sandbox with a machine that was set up: its memory is bounded, and nothing is printed. -/
def preparedOn (config : SandboxConfig) (m : Machine) : Sandbox where
  machine := { m with limit := some (asWord (m.charge + config.memoryBudget)), output := .empty }
  frameLength := config.frameLength
  instructionLimit := config.instructionLimit
  allowance := config.allowance

section

variable {config : SandboxConfig} (plain : config.bootstrap = none)

include plain

/-- The preparation succeeds if runs may take ten rounds. -/
theorem setUp_eq (hallowance : 10 ≤ config.allowance) : ∃ tables charge,
    Stocked (preparedContents config) tables ∧
      let m := (sealedMachine config.clock tables charge).recounted
      setUp config (Machine.fresh config.clock) =
        .ok () { m with limit := some (asWord (m.charge + config.memoryBudget)) } := by
  obtain ⟨tables, charge, hfresh, stocked⟩ := Machine.fresh_eq config.clock
  obtain ⟨tables, charge, heffects, stocked⟩ :=
    installEffects_eq config config.clock charge stocked
  obtain ⟨tables, charge, hsealing, stocked⟩ :=
    runSealing_eq config.clock charge stocked rfl rfl hallowance
  obtain ⟨tables, charge, hremoved, stocked⟩ := removeAll_eq config.allowance
    (fun failure => .runtime failure.message) removedNames config.clock charge stocked
  refine ⟨tables, charge, stocked, ?_⟩
  have hsealed := discard_carryOut_of_ok setupError hsealing
  have hrecounted := carryOut_of_ok (m := sealedMachine config.clock tables charge)
    ScriptError.ofFailure (x := Run.recount) rfl
  unfold setUp
  rw [plain, runText_sealing, hfresh, Run.bind_of_ok (carryOut_of_ok setupError heffects)]
  dsimp only
  rw [Run.bind_of_ok hsealed]
  exact (Run.bind_of_ok hremoved).trans ((Run.bind_of_ok hrecounted).trans rfl)

/-- The sandbox that is prepared, if runs may take ten rounds. -/
theorem prepare_eq (hallowance : 10 ≤ config.allowance) : ∃ tables charge,
    Stocked (preparedContents config) tables ∧ (prepare config).1 =
      .ok (preparedOn config (sealedMachine config.clock tables charge).recounted) := by
  obtain ⟨tables, charge, stocked, hsetUp⟩ := setUp_eq plain hallowance
  refine ⟨tables, charge, stocked, ?_⟩
  generalize (sealedMachine config.clock tables charge).recounted = m at hsetUp ⊢
  unfold prepare
  rw [hsetUp]
  rfl

theorem exists_prepare (hallowance : 10 ≤ config.allowance) : ∃ s, (prepare config).1 = .ok s := by
  obtain ⟨_, _, -, hprepare⟩ := prepare_eq plain hallowance
  exact ⟨_, hprepare⟩

/-- The preparation does not come to its end if runs may take fewer rounds. -/
theorem setUp_short (hallowance : config.allowance < 10) :
    ∃ m, setUp config (Machine.fresh config.clock) = .error none m := by
  obtain ⟨tables, charge, hfresh, stocked⟩ := Machine.fresh_eq config.clock
  obtain ⟨tables, charge, heffects, stocked⟩ :=
    installEffects_eq config config.clock charge stocked
  obtain ⟨m, hsealing⟩ := runSealing_short config.clock charge stocked rfl rfl hallowance
  have hsealed := discard_carryOut_of_error setupError hsealing
  refine ⟨m, ?_⟩
  unfold setUp
  rw [plain, runText_sealing, hfresh, Run.bind_of_ok (carryOut_of_ok setupError heffects)]
  dsimp only
  rw [Run.bind_of_error hsealed]
  rfl

/-- No sandbox is prepared if runs may take fewer rounds. -/
theorem prepare_short (hallowance : config.allowance < 10) (s : Sandbox) :
    (prepare config).1 ≠ .ok s := by
  obtain ⟨m, hsetUp⟩ := setUp_short plain hallowance
  unfold prepare
  rw [hsetUp]
  intro h
  cases h

end

end PixelHost.Sandbox
