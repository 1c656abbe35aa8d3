import Mathlib
import PixelHost.Proofs.Lua.Libraries
import PixelHost.Proofs.Lua.Rounds
import PixelHost.Sandbox.Basic

/-!
# The metatable of strings

All strings have one metatable. Before any script runs, a text of a single line puts a mark on it, so
that no script gets hold of it. What this text does is followed here round by round: in nine rounds it
assigns one name and leaves everything else as it was. If a run may not take as many, the sandbox
cannot be prepared.

## Main definitions

* `Sandbox.sealing` — what the text is compiled to.

## Main results

* `Sandbox.runSealing_eq`, `Sandbox.runSealing_short` — what the text does.
-/

namespace PixelHost.Lua.Run

/-! ### Elements -/

variable {contents : List (List (String × Value))} {m : Machine}

/-- A name is assigned without metamethods where there are no metatables. -/
theorem assign_installs (r : TableRef) (name : String) (v : Value) (source : Source) :
    Installs contents (assign (.table r) (.ofString name) v source) none
      (contents.modify r (· ++ [(name, v)])) := by
  intro m stocked
  have hplain := (stocked.has r).metatable
  have htable : tableAt r m = .ok (m.tables.getD r default) m := rfl
  obtain ⟨tables, charge, heq, stocked⟩ := setField_installs r name v m stocked
  have hset : (setField r name v >>= fun _ => pure none : Run (Option (Value × Array Value))) m =
      .ok none { m with tables, charge } := bind_of_ok heq
  refine ⟨tables, charge, ?_, stocked⟩
  rw [assign, maxPassing, assignFor, bind_of_ok htable, hplain]
  exact hset

theorem writeElement_installs (r : TableRef) (name : String) (v : Value) (source : Source) :
    Installs contents (writeElement (.table r) (.ofString name) v source) .go
      (contents.modify r (· ++ [(name, v)])) :=
  .bind (assign_installs r name v source) (.pure _)

/-- What is in a table is read without metamethods. -/
theorem readElement_of_found {r : TableRef} {key v : Value} (a : Nat) (source : Source)
    (h : (m.tables.getD r default).get key = v) (hv : v.isNil = false) :
    readElement (.table r) key a source m =
      .ok .go { m with stack := m.stack.setIfInBounds (m.base + a) v } := by
  have hget : rawGet r key m = .ok v m := by rw [← h]; rfl
  refine (bind_of_ok hget).trans ?_
  dsimp only
  rw [hv]
  rfl

end PixelHost.Lua.Run

namespace PixelHost.Sandbox

open Lua

/-! ### The text -/

/-- What the text is compiled to. -/
def sealing : Prototype where
  code := #[.varargPrep, .getUpField 0 0 "getmetatable".toUTF8, .load 1 (.str .empty),
    .call 0 (some 1) (some 1), .setField 0 "__metatable".toUTF8 (.lit (.bool false)),
    .ret 0 (some 0)]
  lines := #[1, 1, 1, 1, 1, 1]
  upvalues := #[⟨"_ENV".toUTF8, true, 0, .regular⟩]
  isVararg := true
  chunk := "[string \"sandbox\"]".toUTF8
  bytes := 277

set_option maxRecDepth 40000 in
theorem compile_sealing :
    Chunk.compile "getmetatable('').__metatable = false".toUTF8 "sandbox".toUTF8 = .ok sealing := by
  cbv

/-- The function of the text, with the global names as what it captured. -/
def sealer : Closure := ⟨0, sealing, #[0]⟩

section

variable (clock : Nat) (tables : Array Table) (charge : Nat)

/-- The machine while the text runs: its place in the code, its registers and its activations. -/
def sealingAt (pc : Nat) (stack : Array Value) (frames : List Frame) : Machine where
  tables
  cells := #[.closed (.table 0)]
  nextId := 1
  charge
  stack
  pc
  frames
  closure := sealer
  code := sealing.code
  base := 1
  globals := 0
  loaded := 1
  stringMetatable := 2
  clock

/-- The machine after the text has run: at rest, with the captured variable that is left. -/
def sealedMachine : Machine where
  tables
  cells := #[.closed (.table 0)]
  nextId := 1
  charge
  stack := Array.replicate 40 .nil
  globals := 0
  loaded := 1
  stringMetatable := 2
  clock

end

variable {contents : List (List (String × Value))} {clock : Nat} {tables : Array Table} {charge : Nat}

/-- The nine rounds of the text. -/
theorem sealing_rounds (clock charge : Nat) (stocked : Stocked contents tables)
    (hget : Table.assigned (contents.getD 0 []) "getmetatable".toUTF8 =
      .native (.base .getmetatable))
    (hopen : Table.assigned (contents.getD 2 []) "__metatable".toUTF8 = .nil) :
    ∃ tables' charge' stack, Rounds 9 .go
      (sealingAt clock tables charge 0 ((Array.replicate 40 .nil).setIfInBounds 0 (.closure sealer))
        [⟨.program sealer 1 #[], .done, 0, 3, 1, false⟩])
      (.returned #[]) (sealingAt clock tables' charge' 0 stack []) ∧
      Stocked (contents.modify 2 (· ++ [("__metatable", .bool false)])) tables' := by
  let bottom : Frame := ⟨.program sealer 1 #[], .done, 0, 3, 1, false⟩
  let getting : Frame :=
    ⟨.native (.base .getmetatable) #[.str .empty], .results 1 (some 1), 4, 1, 1, false⟩
  let stack₀ : Array Value := (Array.replicate 40 .nil).setIfInBounds 0 (.closure sealer)
  let stack₁ := stack₀.setIfInBounds 1 (.native (.base .getmetatable))
  let stack₂ := stack₁.setIfInBounds 2 (.str .empty)
  let stack₃ := stack₂.setIfInBounds 1 (.table 2)
  have hstart : Run.step (sealingAt clock tables charge 0 stack₀ [bottom]) =
    .ok .go (sealingAt clock tables charge 1 stack₀ [bottom]) := rfl
  have hfunction : Run.step (sealingAt clock tables charge 1 stack₀ [bottom]) =
      .ok .go (sealingAt clock tables charge 2 stack₁ [bottom]) := by
    have hfound := ((stocked.has 0).inSlot "getmetatable".toUTF8).trans hget
    exact Run.readElement_of_found (m := sealingAt clock tables charge 2 stack₀ [bottom])
      0 (.upvalue 0) hfound rfl
  have hargument : Run.step (sealingAt clock tables charge 2 stack₁ [bottom]) =
    .ok .go (sealingAt clock tables charge 3 stack₂ [bottom]) := rfl
  have hcall : Run.step (sealingAt clock tables charge 3 stack₂ [bottom]) =
    .ok (.native (.base .getmetatable) #[.str .empty])
      (sealingAt clock tables charge 4 stack₂ [getting, bottom]) := rfl
  have hresult (c : Caller) : Run.advance c (.native (.base .getmetatable) #[.str .empty])
      (sealingAt clock tables charge 4 stack₂ [getting, bottom]) =
      .ok (.finish #[.table 2]) (sealingAt clock tables charge 4 stack₂ [getting, bottom]) := by
    have hmark := ((stocked.has 2).inSlot "__metatable".toUTF8).trans hopen
    have hshown : (Native.base .getmetatable).run c #[.str .empty]
        (sealingAt clock tables charge 4 stack₂ [getting, bottom]) =
        .ok #[.table 2] (sealingAt clock tables charge 4 stack₂ [getting, bottom]) := by
      let shown := (tables.getD 2 default).inSlot (.str "__metatable".toUTF8)
      change EStateM.Result.ok #[if shown.isNil then .table 2 else shown] _ = _
      rw [show shown = .nil from hmark]
      rfl
    exact (Run.bind_of_ok hshown).trans rfl
  have hgiven (c : Caller) : Run.advance c (.finish #[.table 2])
      (sealingAt clock tables charge 4 stack₂ [getting, bottom]) =
      .ok .go (sealingAt clock tables charge 4 stack₃ [bottom]) := rfl
  obtain ⟨tables', charge', hset, stocked'⟩ := Run.writeElement_installs 2 "__metatable"
    (.bool false) (.register 0) (sealingAt clock tables charge 5 stack₃ [bottom]) stocked
  have hseal : Run.step (sealingAt clock tables charge 4 stack₃ [bottom]) =
    .ok .go (sealingAt clock tables' charge' 5 stack₃ [bottom]) := hset
  have hreturn : Run.step (sealingAt clock tables' charge' 5 stack₃ [bottom]) =
    .ok (.finish #[]) (sealingAt clock tables' charge' 6 stack₃ [bottom]) := rfl
  have hend (c : Caller) : Run.advance c (.finish #[])
      (sealingAt clock tables' charge' 6 stack₃ [bottom]) =
      .ok (.returned #[]) (sealingAt clock tables' charge' 0 stack₃ []) := rfl
  refine ⟨tables', charge', stack₃, ?_, stocked'⟩
  exact .instruction rfl hstart rfl <| .instruction rfl hfunction rfl <|
    .instruction rfl hargument rfl <| .instruction rfl hcall rfl <|
    .head (by simp) (by simp) hresult <| .head (by simp) (by simp) hgiven <|
    .instruction rfl hseal rfl <| .instruction rfl hreturn rfl <|
    .head (by simp) (by simp) hend <| .refl _ _

/-- Carries out the text, once it is compiled. -/
def runSealing (allowance : Nat) : Run (Array Value) := do
  let f ← Run.loadChunk sealing (.table (← get).globals)
  Run.callFromOutside allowance f #[]

theorem runText_sealing (allowance : Nat) (wording : Failure → ScriptError) :
    runText allowance wording "getmetatable('').__metatable = false" "sandbox" =
      discard (carryOut wording (runSealing allowance)) := by
  unfold runText
  rw [compile_sealing]
  rfl

/-- The machine on which the text begins to run, after it was loaded. -/
def sealingStart (clock : Nat) (tables : Array Table) (charge : Nat) : Machine :=
  sealingAt clock tables (charge + (sealing.bytes + 40) + 40) 0
    ((Array.replicate 40 .nil).setIfInBounds 0 (.closure sealer))
    [⟨.program sealer 1 #[], .done, 0, 3, 1, false⟩]

/-- The machine after the text was loaded. -/
def sealingLoaded (clock : Nat) (tables : Array Table) (charge : Nat) : Machine where
  tables
  cells := #[.closed (.table 0)]
  nextId := 1
  charge := charge + (sealing.bytes + 40) + 40
  globals := 0
  loaded := 1
  stringMetatable := 2
  clock

theorem callValue_sealer : Run.callValue (.closure sealer) #[] .done
    (sealingLoaded clock tables charge).rested = .ok .go (sealingStart clock tables charge) := rfl

theorem runSealing_of_ok {allowance : Nat} {vs : Array Value} {m : Machine}
    (h : Lua.execute allowance 0 0 .go (sealingStart clock tables charge) =
      .ok (.returned vs) m) :
    runSealing allowance { clock, tables, charge, globals := 0, loaded := 1, stringMetatable := 2 } =
      .ok vs m.rested := by
  change Run.callFromOutside allowance (.closure sealer) #[] (sealingLoaded clock tables charge) = _
  exact Run.outside_of_ok ((Run.bind_of_ok callValue_sealer).trans (Run.bind_of_ok h))

theorem runSealing_of_outOfSteps {allowance : Nat} {m : Machine}
    (h : Lua.execute allowance 0 0 .go (sealingStart clock tables charge) =
      .error .outOfSteps m) :
    runSealing allowance { clock, tables, charge, globals := 0, loaded := 1, stringMetatable := 2 } =
      .error .outOfSteps m.rested := by
  change Run.callFromOutside allowance (.closure sealer) #[] (sealingLoaded clock tables charge) = _
  exact Run.outside_of_outOfSteps
    ((Run.bind_of_ok callValue_sealer).trans (Run.bind_of_error h))

section

variable (clock charge) (stocked : Stocked contents tables)
variable (hget : Table.assigned (contents.getD 0 []) "getmetatable".toUTF8 =
  .native (.base .getmetatable))
variable (hopen : Table.assigned (contents.getD 2 []) "__metatable".toUTF8 = .nil)

include stocked hget hopen

/-- The text puts its mark on the metatable of strings and leaves everything else as it was. -/
theorem runSealing_eq {allowance : Nat} (hallowance : 10 ≤ allowance) :
    ∃ tables' charge', runSealing allowance
        { clock, tables, charge, globals := 0, loaded := 1, stringMetatable := 2 } =
      .ok #[] (sealedMachine clock tables' charge') ∧
      Stocked (contents.modify 2 (· ++ [("__metatable", .bool false)])) tables' := by
  obtain ⟨tables', charge', stack, hrounds, stocked'⟩ := sealing_rounds clock
    (charge + (sealing.bytes + 40) + 40) stocked hget hopen
  obtain ⟨n, rfl⟩ : ∃ n, allowance = n + 1 + 9 := ⟨allowance - 10, by omega⟩
  exact ⟨tables', charge', runSealing_of_ok (hrounds.execute (n + 1)), stocked'⟩

/-- Where a run may take fewer rounds, it ends without a result. -/
theorem runSealing_short {allowance : Nat} (hallowance : allowance < 10) :
    ∃ m, runSealing allowance
        { clock, tables, charge, globals := 0, loaded := 1, stringMetatable := 2 } =
      .error .outOfSteps m := by
  obtain ⟨tables', charge', stack, hrounds, -⟩ := sealing_rounds clock
    (charge + (sealing.bytes + 40) + 40) stocked hget hopen
  have hshort : allowance ≤ 9 := by omega
  obtain ⟨m, hm⟩ := hrounds.execute_short hshort
  exact ⟨m.rested, runSealing_of_outOfSteps hm⟩

end

end PixelHost.Sandbox
