import Mathlib
import PixelHost.Proofs.Sandbox.Budget
import PixelHost.Proofs.Sandbox.Results
import PixelHost.Proofs.Sandbox.Room

/-!
# A steady light and an endless loop

What becomes of an upload is known of two kinds of programs, on every sandbox that has room for them:
one shows one color and asks for a delay, and is accepted if there is such a delay; the other one goes
around in an empty loop, and if instructions are not counted its call is lost, however many rounds a
run may take.

## Main definitions

* `Sandbox.steady` — the program that shows one color.
* `Sandbox.endless` — the empty loop.

## Main results

* `Sandbox.invoke_steady` — a steady light.
* `Sandbox.invoke_endless` — an endless loop.
-/

namespace PixelHost.Sandbox

open Lua

/-! ### The machine of a program without variables -/

/-- The machine when the program of a call begins: its arguments are set aside. -/
def begun (m : Machine) (f : Closure) (args : Array Value) : Machine := { m.rested with
  stack := Nat.fold args.size (fun i h (stack : Array Value) => stack.setIfInBounds (1 + i) args[i])
    ((Array.replicate 40 .nil).setIfInBounds 0 (.closure f))
  frames := [⟨.program f 1 args, .done, 0, 1 + f.proto.frameSize, 1, false⟩]
  closure := f
  code := f.proto.code
  base := 1 }

section

variable {s : Sandbox} {inUse : InUse Value Value} {chunk : Value} {counter : UInt32}
variable {memo : Option Value} {start m : Machine}

/-- A call whose run returns. -/
theorem call_of_returned {vs : Array Value}
    (begins : Run.callValue chunk #[.ofNat counter.toNat, memo.getD .nil] .done
      (s.armed inUse).rested = .ok .go start)
    (run : execute s.allowance start.pinned start.holding .go start = .ok (.returned vs) m) :
    s.call inUse chunk counter memo s.machine = .ok vs m.rested := by
  change Run.outside _ _ (s.armed inUse) = _
  exact Run.outside_of_ok ((Run.bind_of_ok begins).trans (Run.bind_of_ok run))

/-- A call whose run does not end. -/
theorem call_of_outOfSteps
    (begins : Run.callValue chunk #[.ofNat counter.toNat, memo.getD .nil] .done
      (s.armed inUse).rested = .ok .go start)
    (run : execute s.allowance start.pinned start.holding .go start = .error .outOfSteps m) :
    s.call inUse chunk counter memo s.machine = .error .outOfSteps m.rested := by
  change Run.outside _ _ (s.armed inUse) = _
  exact Run.outside_of_outOfSteps ((Run.bind_of_ok begins).trans (Run.bind_of_error run))

end

/-- The items of a list are stored in a table. -/
theorem setListStep_eq {m : Machine} {a first n : Nat} {vs : Array Value} {r : TableRef}
    (hfirst : m.base + a + 1 = first) (hvalues : Run.slots first n m = .ok vs m)
    (htable : Run.register a m = .ok (.table r) m) :
    Run.setListStep a (some n) 0 m =
      (do Run.modifyTable r (Table.setSequence · 0 vs); return Request.go) m := by
  subst hfirst
  have hbase : (get : Run Machine) m = .ok m m := rfl
  have hcount : Run.countFrom (some n) (m.base + a + 1) m = .ok n m := rfl
  delta Run.setListStep
  rw [Run.bind_of_ok hbase, Run.bind_of_ok hcount, Run.bind_of_ok hvalues, Run.bind_of_ok htable]

/-! ### A steady light -/

/-- What a text is compiled to that returns three numbers as its frame, and a delay. -/
def steady (r g b delay : Int64) : Prototype where
  code := #[.varargPrep, .newTable 0 3 0, .load 1 (.int r), .load 2 (.int g), .load 3 (.int b),
    .setList 0 (some 3) 0, .load 1 (.int delay), .ret 0 (some 2), .ret 0 (some 0)]
  lines := #[1, 1, 1, 1, 1, 1, 1, 1, 1]
  upvalues := #[⟨"_ENV".toUTF8, true, 0, .regular⟩]
  isVararg := true
  frameSize := 4
  chunk := "[string \"upload\"]".toUTF8
  bytes := 281

/-- The text of a steady light that shows nothing, and is shown again after ten milliseconds. -/
def steadyText : String := "return {0, 0, 0}, 10"

set_option maxRecDepth 40000 in
theorem compile_steady :
    Chunk.compile steadyText.toUTF8 "upload".toUTF8 = .ok (steady 0 0 0 10) := by
  cbv

/-- A table with room for three values is filled with them. -/
theorem setSequence_three (x y z : Value) :
    (Table.withRoom 3 0).setSequence 0 #[x, y, z] = Table.ofSequence #[x, y, z] := by
  have hempty : Table.withRoom 3 0 = Table.ofSequence #[.nil, .nil, .nil] := rfl
  have hfirst : (Table.ofSequence #[.nil, .nil, .nil]).set (.ofNat 1) x =
    Table.ofSequence #[x, .nil, .nil] := rfl
  have hsecond : (Table.ofSequence #[x, .nil, .nil]).set (.ofNat 2) y =
    Table.ofSequence #[x, y, .nil] := rfl
  have hthird : (Table.ofSequence #[x, y, .nil]).set (.ofNat 3) z = Table.ofSequence #[x, y, z] := rfl
  change (((Table.withRoom 3 0).set (.ofNat 1) x).set (.ofNat 2) y).set (.ofNat 3) z = _
  rw [hempty, hfirst, hsecond, hthird]

/-- The color that three integers show. -/
theorem readFrame_three (r g b : Int64) : readFrame 3 (.ofSequence #[.int r, .int g, .int b]) =
    .ok ⟨#[clampByte r.toInt, clampByte g.toInt, clampByte b.toInt]⟩ :=
  rfl

section

variable (m : Machine) (id : Nat) (upvalues : Array CellRef) (r g b delay : Int64)

/-- The machine while a steady light runs, with its four registers. -/
def steadyAt (pc : Nat) (x₀ x₁ x₂ x₃ : Value) (tables : Array Table) (charge : Nat)
    (args : Array Value) : Machine :=
  let f : Closure := ⟨id, steady r g b delay, upvalues⟩
  { begun m f args with
    pc
    stack := ⟨.closure f :: x₀ :: x₁ :: x₂ :: x₃ :: List.replicate 35 .nil⟩
    tables
    charge }

variable {m id upvalues r g b delay} {tables : Array Table} {charge : Nat} {args : Array Value}

theorem begun_steady (counter memo : Value) :
    begun m ⟨id, steady r g b delay, upvalues⟩ #[counter, memo] =
      steadyAt m id upvalues r g b delay 0 counter memo .nil .nil m.tables m.charge
        #[counter, memo] := by
  rfl

theorem steadyAt_room {pc : Nat} {x₀ x₁ x₂ x₃ : Value} (room : m.lacks charge = false) :
    let m' := steadyAt m id upvalues r g b delay pc x₀ x₁ x₂ x₃ tables charge args
    m'.lacks m'.charge = false :=
  lacks_of_le rfl room (Nat.le_refl _)

/-- The first five instructions make the table and load the color. -/
theorem steady_rounds_color {k : Nat} {x₀ x₁ x₂ x₃ : Value} {last : Request} {m' : Machine}
    (free : m.checkInterval = 0) (room : m.lacks (m.charge + 104) = false)
    (rest : Rounds k .go (steadyAt m id upvalues r g b delay 5 (.table m.tables.size) (.int r) (.int g)
      (.int b) (m.tables.push (Table.withRoom 3 0)) (m.charge + 104) args) last m') :
    Rounds (k + 5) .go
      (steadyAt m id upvalues r g b delay 0 x₀ x₁ x₂ x₃ m.tables m.charge args) last m' := by
  let state := steadyAt m id upvalues r g b delay
  let tables := m.tables.push (Table.withRoom 3 0)
  let table : Value := .table m.tables.size
  let charge := m.charge + 104
  have hstart : Run.step (state 0 x₀ x₁ x₂ x₃ m.tables m.charge args) =
    .ok .go (state 1 x₀ x₁ x₂ x₃ m.tables m.charge args) := rfl
  have hnew : Run.step (state 1 x₀ x₁ x₂ x₃ m.tables m.charge args) =
    .ok .go (state 2 table x₁ x₂ x₃ tables charge args) := rfl
  have hr : Run.step (state 2 table x₁ x₂ x₃ tables charge args) =
    .ok .go (state 3 table (.int r) x₂ x₃ tables charge args) := rfl
  have hg : Run.step (state 3 table (.int r) x₂ x₃ tables charge args) =
    .ok .go (state 4 table (.int r) (.int g) x₃ tables charge args) := rfl
  have hb : Run.step (state 4 table (.int r) (.int g) x₃ tables charge args) =
    .ok .go (state 5 table (.int r) (.int g) (.int b) tables charge args) := rfl
  have hbefore : m.lacks m.charge = false := lacks_of_le rfl room (Nat.le_add_right _ _)
  exact .instruction free hstart (steadyAt_room hbefore) <|
    .instruction free hnew (steadyAt_room room) <| .instruction free hr (steadyAt_room room) <|
    .instruction free hg (steadyAt_room room) <| .instruction free hb (steadyAt_room room) rest

variable (m id upvalues r g b delay charge args) in
/-- A table with room for three values is filled with the color. -/
theorem steady_fill (x₀ : Value) (hempty : tables.getD m.tables.size default = Table.withRoom 3 0)
    (hsize : m.tables.size < tables.size) :
    let state := steadyAt m id upvalues r g b delay 6 x₀ (.int r) (.int g) (.int b)
    ∃ tables' charge', Run.modifyTable m.tables.size
        (Table.setSequence · 0 #[.int r, .int g, .int b]) (state tables charge args) =
      .ok () (state tables' charge' args) ∧ charge' ≤ charge ∧
      tables'.getD m.tables.size default = .ofSequence #[.int r, .int g, .int b] := by
  intro state
  have hfilled : (tables.modify m.tables.size (Table.setSequence · 0 #[.int r, .int g, .int b])).getD
      m.tables.size default = .ofSequence #[.int r, .int g, .int b] := by
    rw [getD_modify, if_pos ⟨rfl, hsize⟩, hempty]
    exact setSequence_three _ _ _
  have hbytes : (Table.ofSequence #[.int r, .int g, .int b]).bytes ≤ 0 + (Table.withRoom 3 0).bytes :=
    Nat.le_refl 104
  rw [← hfilled, ← hempty] at hbytes
  obtain ⟨⟨⟩, tables', charge', hmodify, hcharge, rfl⟩ := Run.modifyTable_takes
    (m := state tables charge args) m.tables.size
    (Table.setSequence · 0 #[.int r, .int g, .int b]) hbytes
  exact ⟨_, charge', hmodify, hcharge, hfilled⟩

variable (m id upvalues r g b delay charge args) in
/-- The table is filled by one instruction. -/
theorem steady_step_list (hempty : tables.getD m.tables.size default = Table.withRoom 3 0)
    (hsize : m.tables.size < tables.size) :
    ∃ tables' charge', Run.step (steadyAt m id upvalues r g b delay 5 (.table m.tables.size) (.int r)
        (.int g) (.int b) tables charge args) =
      .ok .go (steadyAt m id upvalues r g b delay 6 (.table m.tables.size) (.int r) (.int g) (.int b)
        tables' charge' args) ∧ charge' ≤ charge ∧
      tables'.getD m.tables.size default = .ofSequence #[.int r, .int g, .int b] := by
  let before := steadyAt m id upvalues r g b delay 5 (.table m.tables.size) (.int r) (.int g) (.int b)
    tables charge args
  let state := steadyAt m id upvalues r g b delay 6 (.table m.tables.size) (.int r) (.int g) (.int b)
  obtain ⟨tables', charge', hfill, hcharge, hfilled⟩ :=
    steady_fill m id upvalues r g b delay charge args (.table m.tables.size) hempty hsize
  have hinstr : before.code.getD before.pc .varargPrep = .setList 0 (some 3) 0 := rfl
  have hvalues : Run.slots 2 3 (state tables charge args) =
    .ok #[.int r, .int g, .int b] (state tables charge args) := rfl
  have htable : Run.register 0 (state tables charge args) =
    .ok (.table m.tables.size) (state tables charge args) := rfl
  have hlist := setListStep_eq (m := state tables charge args) (a := 0) rfl hvalues htable
  have hstep : Run.step before = .ok .go (state tables' charge' args) :=
    (Run.step_eq hinstr).trans (hlist.trans (Run.bind_of_ok hfill))
  exact ⟨tables', charge', hstep, hcharge, hfilled⟩

variable (m id upvalues r g b delay) in
/-- The nine rounds of a steady light. Its table takes 104 bytes. -/
theorem steady_rounds (counter memo : Value) (free : m.checkInterval = 0)
    (room : m.lacks (m.charge + 104) = false) :
    ∃ m', Rounds 9 .go (begun m ⟨id, steady r g b delay, upvalues⟩ #[counter, memo])
        (.returned #[.table m.tables.size, .int delay]) m' ∧
      m'.tables.getD m.tables.size default = .ofSequence #[.int r, .int g, .int b] := by
  let args : Array Value := #[counter, memo]
  let state := steadyAt m id upvalues r g b delay
  let table : Value := .table m.tables.size
  have hempty : (m.tables.push (Table.withRoom 3 0)).getD m.tables.size default =
      Table.withRoom 3 0 := by
    rw [Array.getD_eq_getD_getElem?, Array.getElem?_push_size]
    rfl
  have hsize : m.tables.size < (m.tables.push (Table.withRoom 3 0)).size := by
    rw [Array.size_push]
    exact Nat.lt_succ_self _
  obtain ⟨tables, charge, hlist, hcharge, hfilled⟩ :=
    steady_step_list m id upvalues r g b delay (m.charge + 104) args hempty hsize
  have hdelay : Run.step (state 6 table (.int r) (.int g) (.int b) tables charge args) =
    .ok .go (state 7 table (.int delay) (.int g) (.int b) tables charge args) := rfl
  have hreturn : Run.step (state 7 table (.int delay) (.int g) (.int b) tables charge args) =
    .ok (.finish #[table, .int delay])
      (state 8 table (.int delay) (.int g) (.int b) tables charge args) := rfl
  let done : Machine := { state 0 table (.int delay) (.int g) (.int b) tables charge args with
    frames := [] }
  have hend (c : Caller) : Run.advance c (.finish #[table, .int delay])
      (state 8 table (.int delay) (.int g) (.int b) tables charge args) =
    .ok (.returned #[table, .int delay]) done := rfl
  have hroom : m.lacks charge = false := lacks_of_le rfl room hcharge
  have hrounds : Rounds 9 .go (state 0 counter memo .nil .nil m.tables m.charge args)
      (.returned #[table, .int delay]) done :=
    steady_rounds_color free room <| .instruction free hlist (steadyAt_room hroom) <|
      .instruction free hdelay (steadyAt_room hroom) <|
      .instruction free hreturn (steadyAt_room hroom) <|
      .head (by simp) (by simp) hend <| .refl _ _
  exact ⟨done, begun_steady counter memo ▸ hrounds, hfilled⟩

end

/-! ### An endless loop -/

/-- What an empty loop is compiled to. -/
def endless : Prototype where
  code := #[.varargPrep, .jump 1, .ret 0 (some 0)]
  lines := #[1, 1, 1]
  upvalues := #[⟨"_ENV".toUTF8, true, 0, .regular⟩]
  isVararg := true
  chunk := "[string \"upload\"]".toUTF8
  bytes := 227

/-- The text of an empty loop. -/
def endlessText : String := "while true do end"

set_option maxRecDepth 40000 in
theorem compile_endless :
    Chunk.compile endlessText.toUTF8 "upload".toUTF8 = .ok endless := by
  cbv

/-- The machine carries out the loop, and there is nothing that could stop it. -/
structure Looping (m : Machine) : Prop where
  code : m.code = endless.code
  pc : m.pc ≤ 1
  free : m.checkInterval = 0
  room : m.lacks m.charge = false

/-- Each round of the loop is followed by another one. -/
theorem Looping.next {m : Machine} (h : Looping m) :
    ∃ m', Rounds 1 .go m .go m' ∧ Looping m' := by
  let m' : Machine := { m with pc := 1 }
  have hstep : Run.step m = .ok .go m' := by
    obtain hpc | hpc : m.pc = 0 ∨ m.pc = 1 := by
      have := h.pc
      omega
    · have hinstr : m.code.getD m.pc .varargPrep = .varargPrep := by
        rw [h.code, hpc]
        rfl
      rw [Run.step_eq hinstr, hpc]
      rfl
    · have hinstr : m.code.getD m.pc .varargPrep = .jump 1 := by
        rw [h.code, hpc]
        rfl
      rw [Run.step_eq hinstr]
      rfl
  exact ⟨m', .instruction h.free hstep h.room (.refl _ _), h.code, Nat.le_refl 1, h.free, h.room⟩

section

variable (s : Sandbox) (inUse : InUse Value Value) (id : Nat) (upvalues : Array CellRef)
variable (counter : UInt32) (memo : Option Value)

/-- A call of a steady light returns a table with the color, and the delay. -/
theorem call_steady (r g b delay : Int64) (free : s.instructionLimit = 0)
    (enough : 9 < s.allowance) (room : s.machine.lacks (s.machine.charge + 104) = false) :
    ∃ m, s.call inUse (.closure ⟨id, steady r g b delay, upvalues⟩) counter memo s.machine =
        .ok #[.table s.machine.tables.size, .int delay] m ∧
      m.tables.getD s.machine.tables.size default = .ofSequence #[.int r, .int g, .int b] := by
  let f : Closure := ⟨id, steady r g b delay, upvalues⟩
  let args : Array Value := #[.ofNat counter.toNat, memo.getD .nil]
  have hbegins : Run.callValue (.closure f) args .done (s.armed inUse).rested =
    .ok .go (begun (s.armed inUse) f args) := rfl
  have hfree : (s.armed inUse).checkInterval = 0 := if_pos free
  obtain ⟨m, hrounds, htable⟩ := steady_rounds (s.armed inUse) id upvalues r g b delay
    (.ofNat counter.toNat) (memo.getD .nil) hfree room
  obtain ⟨n, hn⟩ : ∃ n, s.allowance = n + 1 + 9 := ⟨s.allowance - 10, by omega⟩
  refine ⟨m.rested, call_of_returned hbegins (m := m) ?_, htable⟩
  rw [hn, hrounds.execute]
  rfl

/-- A steady light is accepted if there is its delay. -/
theorem invoke_steady (r g b delay : Int64) (hlength : s.frameLength = 3)
    (free : s.instructionLimit = 0) (enough : 9 < s.allowance)
    (room : s.machine.lacks (s.machine.charge + 104) = false) :
    (s.invoke inUse (.closure ⟨id, steady r g b delay, upvalues⟩) counter memo).1 =
      .ofExcept ((Delay.ofScript delay).map fun delay =>
        ⟨⟨#[clampByte r.toInt, clampByte g.toInt, clampByte b.toInt]⟩, delay, none⟩) := by
  obtain ⟨m, hcall, htable⟩ :=
    s.call_steady inUse id upvalues counter memo r g b delay free enough room
  have hread : readResults s.frameLength (m.tables.getD · default)
      #[.table s.machine.tables.size, .int delay] =
      (Delay.ofScript delay).map fun delay =>
        ⟨⟨#[clampByte r.toInt, clampByte g.toInt, clampByte b.toInt]⟩, delay, none⟩ := by
    change (do
      let frame ← readFrame s.frameLength (m.tables.getD s.machine.tables.size default)
      let delay ← Delay.ofScript delay
      return ⟨frame, delay, none⟩ : Except ScriptError (Outcome Value)) = _
    rw [htable, hlength, readFrame_three]
    cases Delay.ofScript delay <;> rfl
  rw [invoke_of_ok hcall, hread]
  cases Delay.ofScript delay <;> rfl

/-- A call of an empty loop is lost if instructions are not counted. -/
theorem invoke_endless (free : s.instructionLimit = 0)
    (room : s.machine.lacks s.machine.charge = false) :
    (s.invoke inUse (.closure ⟨id, endless, upvalues⟩) counter memo).1 = .lost := by
  let f : Closure := ⟨id, endless, upvalues⟩
  let args : Array Value := #[.ofNat counter.toNat, memo.getD .nil]
  let start := begun (s.armed inUse) f args
  have hbegins : Run.callValue (.closure f) args .done (s.armed inUse).rested = .ok .go start := rfl
  have hlooping : Looping start := by
    refine ⟨rfl, Nat.zero_le 1, ?_, lacks_of_le (m := s.machine) rfl room (Nat.le_refl _)⟩
    change (if s.instructionLimit = 0 then 0 else checkInterval) = 0
    exact if_pos free
  obtain ⟨m, hrun⟩ := Rounds.execute_endless (fun request m => request = .go ∧ Looping m)
    (fun request m h => by
      obtain ⟨m', rounds, h'⟩ := h.2.next
      exact ⟨0, .go, m', h.1 ▸ rounds, rfl, h'⟩)
    s.allowance start.pinned start.holding ⟨rfl, hlooping⟩
  rw [invoke_of_error (call_of_outOfSteps hbegins hrun)]
  rfl

end

/-! ### Uploads -/

/-- A prepared sandbox for a single pixel. -/
theorem exists_onePixel : ∃ s, (prepare { pixelCount := 1 }).1 = .ok s ∧
    s.Spacious (4 * 1024 * 1024) ∧ s.frameLength = 3 ∧ s.instructionLimit = 0 ∧ 9 < s.allowance := by
  let config : SandboxConfig := { pixelCount := 1 }
  have hplain : config.bootstrap = none := rfl
  obtain ⟨s, hprepare, hspacious, hlength, hfree, hallowance⟩ :=
    prepare_spacious hplain (by decide) (by decide)
  exact ⟨s, hprepare, hspacious, hlength, hfree, by rw [hallowance]; decide⟩

section

variable {s : Sandbox} {bytes : Nat} (spacious : s.Spacious bytes) (inUse : InUse Value Value)

include spacious

/-- A steady light is compiled, and invoked with success. -/
theorem upload_steady (hbytes : loadBytes (steady 0 0 0 10) + 104 ≤ bytes) (hlength : s.frameLength = 3)
    (free : s.instructionLimit = 0) (enough : 9 < s.allowance) :
    ∃ chunk s', s.compile inUse steadyText = (.ok chunk, s') ∧
      (s'.invoke inUse chunk 0 none).1 = .ok ⟨⟨#[0, 0, 0]⟩, .millis 10, none⟩ := by
  obtain ⟨id, upvalues, m, hcompile, hspacious⟩ :=
    compile_spacious compile_steady spacious (by omega) inUse
  refine ⟨_, _, hcompile, ?_⟩
  rw [invoke_steady { s with machine := m } inUse id upvalues 0 none 0 0 0 10 hlength free enough
    (lacks_of_le rfl hspacious.room (Nat.add_le_add_left (by omega) _))]
  rfl

/-- An empty loop is compiled, but its invocation is lost if instructions are not counted. -/
theorem upload_endless (hbytes : loadBytes endless ≤ bytes) (free : s.instructionLimit = 0) :
    ∃ chunk s', s.compile inUse endlessText = (.ok chunk, s') ∧
      (s'.invoke inUse chunk 0 none).1 = .lost := by
  obtain ⟨id, upvalues, m, hcompile, hspacious⟩ :=
    compile_spacious compile_endless spacious hbytes inUse
  exact ⟨_, _, hcompile, invoke_endless { s with machine := m } inUse id upvalues 0 none free
    (lacks_of_le rfl hspacious.room (Nat.le_add_right _ _))⟩

end

end PixelHost.Sandbox
