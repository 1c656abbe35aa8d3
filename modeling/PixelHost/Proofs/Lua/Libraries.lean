import PixelHost.Lua.Globals
import PixelHost.Proofs.Lua.Names

/-!
# The tables of a fresh machine

A fresh machine has thirteen tables: the global names, the loaded libraries, what strings can do, the
eight libraries, and two tables of `package`. Each of them holds what was assigned to its names, and
none of them has a metatable.

## Main definitions

* `Lua.Stocked` — the tables hold what was assigned to the names of each.
* `Lua.Installs` — what a computation assigns.
* `Lua.libraryContents` — the assignments of a fresh machine.

## Main results

* `Lua.Machine.fresh_eq` — a fresh machine.
-/

namespace PixelHost.Lua

/-- The tables hold what was assigned to the names of each. -/
structure Stocked (contents : List (List (String × Value))) (tables : Array Table) : Prop where
  size : tables.size = contents.length
  has : ∀ r, (tables.getD r default).Holds (contents.getD r [])

variable {contents before after later : List (List (String × Value))} {tables : Array Table}

theorem Stocked.empty : Stocked [] #[] where
  size := rfl
  has _ := .empty

/-- A table of named values is added. -/
theorem Stocked.push (stocked : Stocked contents tables) (fields : List (String × Value)) :
    Stocked (contents ++ [fields]) (tables.push (.ofFields fields)) where
  size := by rw [Array.size_push, List.length_append, stocked.size, List.length_singleton]
  has r := by
    have hold := stocked.has r
    simp only [Array.getD_eq_getD_getElem?, List.getD_eq_getElem?_getD] at hold ⊢
    rw [Array.getElem?_push, stocked.size]
    by_cases hr : r = contents.length
    · rw [if_pos hr, hr, List.getElem?_concat_length]
      exact .ofFields fields
    · rw [if_neg hr]
      by_cases hlt : r < contents.length
      · rwa [List.getElem?_append_left hlt]
      · rw [List.getElem?_eq_none (by omega)] at hold
        rwa [List.getElem?_eq_none (by simp only [List.length_append, List.length_singleton]; omega)]

/-- A name of a table is assigned. -/
theorem Stocked.modify (stocked : Stocked contents tables) (r : TableRef) (name : String)
    (v : Value) : Stocked (contents.modify r (· ++ [(name, v)]))
      (tables.modify r fun t => t.setStr name v) where
  size := by rw [Array.size_modify, List.length_modify, stocked.size]
  has i := by
    have hold := stocked.has i
    have hsize := stocked.size
    simp only [Array.getD_eq_getD_getElem?, List.getD_eq_getElem?_getD] at hold ⊢
    rw [Array.getElem?_modify, List.getElem?_modify]
    by_cases hr : r = i
    · subst hr
      by_cases hlt : r < contents.length
      · have hlt' : r < tables.size := Nat.lt_of_lt_of_eq hlt hsize.symm
        rw [Array.getElem?_eq_getElem hlt', List.getElem?_eq_getElem hlt] at hold ⊢
        simp only [if_true, Option.map_some, Option.map_eq_map, Option.getD_some] at hold ⊢
        exact hold.setStr name v
      · have hge : tables.size ≤ r := Nat.le_trans (Nat.le_of_eq hsize) (Nat.not_lt.mp hlt)
        rw [Array.getElem?_eq_none hge, List.getElem?_eq_none (Nat.not_lt.mp hlt)] at hold ⊢
        simpa only [if_true, Option.map_none, Option.map_eq_map, Option.getD_none] using hold
    · simpa only [if_neg hr, Option.map_eq_map, Option.map_id'] using hold

/-! ### Assignments -/

/-- What holds of what comes after a computation that has a result. -/
theorem Run.holds_bind {α β : Type} {x : Run α} {f : α → Run β} {m m' : Machine} {a : α}
    {P : EStateM.Result Fault Machine β → Prop} (h : x m = .ok a m') (hf : P (f a m')) :
    P ((x >>= f) m) := by
  rwa [Run.bind_of_ok h]

/-- A computation has a result and assigns to names. Besides the tables it changes the memory in use
only. -/
def Installs {α : Type} (before : List (List (String × Value))) (x : Run α) (a : α)
    (after : List (List (String × Value))) : Prop :=
  ∀ m : Machine, Stocked before m.tables → ∃ tables charge,
    x m = .ok a { m with tables, charge } ∧ Stocked after tables

namespace Installs

variable {α β : Type} {x : Run α} {a : α} {f : α → Run β} {b : β}

theorem pure (a : α) : Installs contents (Pure.pure a) a contents :=
  fun m stocked => ⟨m.tables, m.charge, rfl, stocked⟩

theorem bind (hx : Installs before x a after) (hf : Installs after (f a) b later) :
    Installs before (x >>= f) b later := by
  intro m stocked
  obtain ⟨tables, charge, heq, stocked⟩ := hx m stocked
  obtain ⟨tables, charge, heq', stocked⟩ := hf { m with tables, charge } stocked
  exact ⟨tables, charge, (Run.bind_of_ok heq).trans heq', stocked⟩

/-- The assignments for each of a list. -/
theorem forIn {f : α → PUnit → Run (ForInStep PUnit)}
    {next : α → List (List (String × Value)) → List (List (String × Value))} (xs : List α)
    (hf : ∀ a contents, Installs contents (f a ⟨⟩) (.yield ⟨⟩) (next a contents)) :
    Installs before (ForIn.forIn xs PUnit.unit f) ⟨⟩
      (xs.foldl (fun contents a => next a contents) before) := by
  induction xs generalizing before with
  | nil => exact .pure _
  | cons a xs ih =>
    rw [List.forIn_cons]
    exact .bind (hf a before) ih

end Installs

namespace Run

theorem newTable_installs (fields : List (String × Value)) :
    Installs contents (newTable (.ofFields fields)) contents.length (contents ++ [fields]) :=
  fun m stocked => ⟨_, m.charge + (Table.ofFields fields).bytes, by rw [← stocked.size]; rfl,
    stocked.push fields⟩

theorem setField_installs (r : TableRef) (name : String) (v : Value) :
    Installs contents (setField r name v) () (contents.modify r (· ++ [(name, v)])) := by
  intro m stocked
  let tables := m.tables.modify r fun t => t.setStr name v
  let bytes := (m.tables.getD r default).bytes
  let bytes' := (tables.getD r default).bytes
  have hcharge : setField r name v m = .ok () { m with
      tables
      charge := if bytes' > bytes then m.charge + (bytes' - bytes) else m.charge } := by
    change (if bytes' > bytes then charge (bytes' - bytes) else Pure.pure ()) { m with tables } = _
    split <;> rfl
  exact ⟨tables, _, hcharge, stocked.modify r name v⟩

theorem rawGet_installs (r : TableRef) (name : String) :
    Installs contents (rawGet r (.ofString name))
      (Table.assigned (contents.getD r []) name.toUTF8) contents :=
  fun m stocked => ⟨m.tables, m.charge, by rw [← (stocked.has r).inSlot]; rfl, stocked⟩

/-! ### The libraries -/

/-- What it is to make the table of a library and to give it a global name. -/
def withLibrary (globals loaded : TableRef) (name : String) (fields : List (String × Value))
    (contents : List (List (String × Value))) : List (List (String × Value)) :=
  ((contents ++ [fields]).modify globals (· ++ [(name, .table contents.length)])).modify loaded
    (· ++ [(name, .table contents.length)])

theorem installLibrary_installs (globals loaded : TableRef) (name : String)
    (fields : List (String × Value)) : Installs contents (installLibrary globals loaded name fields)
      () (withLibrary globals loaded name fields contents) :=
  .bind (newTable_installs fields) <|
    .bind (setField_installs globals name _) (setField_installs loaded name _)

end Run

/-- The tables of the libraries by name. -/
def libraryTables : List (String × Value) := libraries.mapIdx fun i l => (l.1, .table (i + 3))

/-- What is assigned to the names of each table of a fresh machine. -/
def libraryContents : List (List (String × Value)) :=
  [functionFields Native.base BaseFn.all ++
      [("_VERSION", .ofString "Lua 5.4"), ("require", .native (.system .require))] ++
      ("_G", .table 0) :: libraryTables,
    ("_G", .table 0) :: libraryTables,
    functionFields Native.stringArith StringArith.all ++ [("__index", .table 3)]] ++
  (libraries.map Prod.snd).modify 7
    (· ++ [("loaded", .table 1), ("preload", .table 11), ("searchers", .table 12)]) ++
  [[], []]

/-- A fresh machine. -/
theorem Run.installLibraries_eq (clock : Nat) : ∃ tables charge, installLibraries { clock } =
      .ok () { clock, tables, charge, globals := 0, loaded := 1, stringMetatable := 2 } ∧
    Stocked libraryContents tables := by
  obtain ⟨tables, charge, hglobals, stocked⟩ := newTable_installs
    (functionFields Native.base BaseFn.all ++
      [("_VERSION", .ofString "Lua 5.4"), ("require", .native (.system .require))])
    { clock } .empty
  obtain ⟨tables, charge, hloaded, stocked⟩ := newTable_installs []
    { clock, tables, charge } stocked
  obtain ⟨tables, charge, hstrings, stocked⟩ := newTable_installs
    (functionFields Native.stringArith StringArith.all) { clock, tables, charge } stocked
  let done (r : EStateM.Result Fault Machine Unit) : Prop := ∃ tables charge, r =
      .ok () { clock, tables, charge, globals := 0, loaded := 1, stringMetatable := 2 } ∧
    Stocked libraryContents tables
  let named (m : Machine) : Machine := { m with globals := 0, loaded := 1, stringMetatable := 2 }
  have hnamed : (modify named : Run Unit) { clock, tables, charge } =
      .ok () (named { clock, tables, charge }) := rfl
  change done _
  refine holds_bind (P := done) hglobals <| holds_bind (P := done) hloaded <|
    holds_bind (P := done) hstrings <| holds_bind (P := done) hnamed ?_
  refine (?_ : Installs _ _ () libraryContents) (named { clock, tables, charge }) stocked
  exact .bind (setField_installs 0 "_G" (.table 0)) <| .bind (setField_installs 1 "_G" (.table 0)) <|
    .bind (.forIn libraries fun l _ => .bind (installLibrary_installs 0 1 l.1 l.2) (.pure _)) <|
    .bind (rawGet_installs 0 "string") <| .bind (setField_installs 2 "__index" _) <|
    .bind (rawGet_installs 0 "package") <|
    .bind (setField_installs 10 "loaded" (.table 1)) <|
    .bind (newTable_installs []) <| .bind (setField_installs 10 "preload" _) <|
    .bind (newTable_installs []) (setField_installs 10 "searchers" _)

theorem Machine.fresh_eq (clock : Nat) : ∃ tables charge, Machine.fresh clock =
      { clock, tables, charge, globals := 0, loaded := 1, stringMetatable := 2 } ∧
    Stocked libraryContents tables := by
  obtain ⟨tables, charge, heq, stocked⟩ := Run.installLibraries_eq clock
  refine ⟨tables, charge, ?_, stocked⟩
  unfold Machine.fresh
  simp only [heq]

end PixelHost.Lua
