import PixelHost.Proofs.Lua.Names
import PixelHost.Proofs.Lua.Ends
import PixelHost.Sandbox.Basic

/-!
# The memory of global names

To give a program global names of its own takes memory: a table for the names, a copy of each library,
and a metatable. How much it takes is bounded by the number of names that tables have, so it is known
before, whatever values these names have.

## Main definitions

* `Lua.Modest` — all tables are tables of names, and none has many.
* `Lua.Run.Takes` — a computation has a result and takes a bounded amount of memory.

## Main results

* `Sandbox.newEnvironment_takes` — the memory of global names.
-/

namespace PixelHost.Lua

/-- A table without anything. -/
theorem Table.named_fits_empty (n : Nat) : ({} : Table).Named ∧ ({} : Table).Fits n :=
  ⟨.empty fun _ h => absurd h (Array.not_mem_empty _), rfl, Nat.zero_le _, Nat.zero_le _⟩

/-- All tables are tables of names, with room for so many names and for not too many more. -/
def Modest (n : Nat) (tables : Array Table) : Prop :=
  ∀ r, (tables.getD r default).Named ∧ (tables.getD r default).Fits n

/-- The most memory that a table with so many names takes. -/
def tableBytes (n : Nat) : Nat := 56 + 48 * n

section

variable {n : Nat} {tables : Array Table} {r i : TableRef} {f : Table → Table}

/-- A table that was changed, and one that was not. -/
theorem getD_modify (tables : Array Table) (r i : TableRef) (f : Table → Table) :
    (tables.modify r f).getD i default =
      if r = i ∧ i < tables.size then f (tables.getD i default) else tables.getD i default := by
  simp only [Array.getD_eq_getD_getElem?, Array.getElem?_modify]
  by_cases hr : r = i
  · by_cases hi : i < tables.size
    · simp only [hr, hi, Array.getElem?_eq_getElem, and_self, if_true, Option.map_some,
        Option.getD_some]
    · simp only [hr, hi, Array.getElem?_eq_none (Nat.not_lt.mp hi), and_false, if_false, if_true,
        Option.map_none]
  · simp only [hr, false_and, if_false]

theorem getD_push_of_lt {t : Table} (h : i < tables.size) :
    (tables.push t).getD i default = tables.getD i default := by
  simp only [Array.getD_eq_getD_getElem?, Array.getElem?_push_lt h, Array.getElem?_eq_getElem h]

/-- A table that was just made has no names. -/
theorem keys_fresh (tables : Array Table) :
    ((tables.push {}).getD tables.size default).keys.size = 0 := by
  rw [Array.getD_eq_getD_getElem?, Array.getElem?_push_size]
  rfl

theorem Modest.modify (modest : Modest n tables)
    (hf : (f (tables.getD r default)).Named ∧ (f (tables.getD r default)).Fits n) :
    Modest n (tables.modify r f) := by
  intro i
  rw [getD_modify]
  split
  · next h => exact h.1 ▸ hf
  · exact modest i

theorem Modest.push (modest : Modest n tables) : Modest n (tables.push {}) := by
  intro i
  rcases Nat.lt_trichotomy i tables.size with hlt | rfl | hgt
  · rw [getD_push_of_lt hlt]
    exact modest i
  · rw [Array.getD_eq_getD_getElem?, Array.getElem?_push_size]
    exact Table.named_fits_empty n
  · rw [Array.getD_eq_getD_getElem?, Array.getElem?_eq_none (by rw [Array.size_push]; omega)]
    exact Table.named_fits_empty n

end

namespace Run

/-! ### Computations that take a bounded amount of memory -/

/-- A computation has a result and takes a bounded amount of memory. Besides the tables it changes the
memory in use only. -/
def Takes {α : Type} (bytes : Nat) (x : Run α) (m : Machine) (P : α → Array Table → Prop) : Prop :=
  ∃ a tables charge, x m = .ok a { m with tables, charge } ∧ charge ≤ m.charge + bytes ∧ P a tables

namespace Takes

variable {α β : Type} {bytes bytes' : Nat} {x : Run α} {f : α → Run β} {m : Machine}
variable {P P' : α → Array Table → Prop} {Q : β → Array Table → Prop}

theorem pure {a : α} (h : P a m.tables) : Takes 0 (Pure.pure a) m P :=
  ⟨a, m.tables, m.charge, rfl, Nat.le_refl _, h⟩

theorem bind (hx : Takes bytes x m P)
    (hf : ∀ a tables charge, P a tables → Takes bytes' (f a) { m with tables, charge } Q) :
    Takes (bytes + bytes') (x >>= f) m Q := by
  obtain ⟨a, tables, charge, heq, hle, hP⟩ := hx
  obtain ⟨b, tables', charge', heq', hle', hQ⟩ := hf a tables charge hP
  refine ⟨b, tables', charge', (bind_of_ok heq).trans heq', ?_, hQ⟩
  dsimp only at hle'
  omega

theorem mono (hx : Takes bytes x m P) (hle : bytes ≤ bytes')
    (hP : ∀ a tables, P a tables → P' a tables) : Takes bytes' x m P' := by
  obtain ⟨a, tables, charge, heq, hcharge, h⟩ := hx
  exact ⟨a, tables, charge, heq, Nat.le_trans hcharge (Nat.add_le_add_left hle _), hP a tables h⟩

/-- A result that is worked out of another one takes no further memory. -/
theorem map {g : α → β} (hx : Takes bytes x m P) (hg : ∀ a tables, P a tables → Q (g a) tables) :
    Takes bytes (x >>= fun a => Pure.pure (g a)) m Q :=
  hx.bind fun a tables _ h => .pure (hg a tables h)

/-- What is read of the machine takes no memory. -/
theorem get {f : Machine → Run β} (hf : Takes bytes (f m) m Q) : Takes bytes (get >>= f) m Q := hf

/-- What is done for each of a list. The number of those that are left bounds the room. -/
theorem forIn (inv : Nat → Array Table → Prop) {f : α → PUnit → Run (ForInStep PUnit)}
    {xs : List α} (hf : ∀ a ∈ xs, ∀ (m : Machine) (left : Nat), inv (left + 1) m.tables →
      Takes bytes (f a ⟨⟩) m fun step tables => step = .yield ⟨⟩ ∧ inv left tables)
    (hm : inv xs.length m.tables) :
    Takes (bytes * xs.length) (ForIn.forIn xs PUnit.unit f) m fun _ tables => inv 0 tables := by
  induction xs generalizing m with
  | nil => exact .pure hm
  | cons a xs ih =>
    rw [List.forIn_cons, List.length_cons, Nat.mul_succ, Nat.add_comm]
    refine (hf a List.mem_cons_self m _ hm).bind fun step tables charge h => ?_
    obtain ⟨rfl, h⟩ := h
    exact ih (fun b hb => hf b (List.mem_cons_of_mem _ hb)) h

end Takes

variable {n : Nat} {m : Machine} {r : TableRef}

theorem newTable_takes (m : Machine) : Takes (tableBytes 0) (newTable {}) m fun r tables =>
    r = m.tables.size ∧ tables = m.tables.push {} :=
  ⟨m.tables.size, m.tables.push {}, _, rfl, Nat.le_refl _, rfl, rfl⟩

/-- To change a table takes no more memory than the table has afterwards. -/
theorem modifyTable_takes (r : TableRef) (f : Table → Table) {bytes : Nat}
    (hbytes : ((m.tables.modify r f).getD r default).bytes ≤
      bytes + (m.tables.getD r default).bytes) :
    Takes bytes (modifyTable r f) m fun _ tables => tables = m.tables.modify r f := by
  let before := (m.tables.getD r default).bytes
  let after := ((m.tables.modify r f).getD r default).bytes
  have hmodify : modifyTable r f m = .ok () { m with
      tables := m.tables.modify r f
      charge := if after > before then m.charge + (after - before) else m.charge } := by
    change (if after > before then charge (after - before) else Pure.pure ())
      { m with tables := m.tables.modify r f } = _
    split <;> rfl
  refine ⟨(), _, _, hmodify, ?_, rfl⟩
  split <;> omega

/-- A name is assigned. There is room for it, so the table stays one of few names. -/
theorem rawSet_takes (modest : Modest n m.tables) (room : (m.tables.getD r default).keys.size < n)
    (s : Bytes) (v : Value) : Takes (tableBytes n) (rawSet r (.str s) v) m fun _ tables =>
      Modest n tables ∧ tables.size = m.tables.size ∧
      (tables.getD r default).keys.size ≤ (m.tables.getD r default).keys.size + 1 ∧
      ∀ i, i ≠ r → tables.getD i default = m.tables.getD i default := by
  obtain ⟨named, fits⟩ := modest r
  obtain ⟨hfits, hkeys⟩ := named.fits_set fits room s v
  have hset : Modest n (m.tables.modify r (·.set (.str s) v)) := modest.modify ⟨named.set s v, hfits⟩
  refine (modifyTable_takes r _ (Nat.le_add_right_of_le ?_)).mono (Nat.le_refl _) ?_
  · exact (hset r).2.bytes_le
  · rintro - tables rfl
    refine ⟨hset, Array.size_modify, ?_, fun i hi => ?_⟩
    · rw [getD_modify]
      split
      · exact hkeys
      · exact Nat.le_succ _
    · rw [getD_modify, if_neg fun h => hi h.1.symm]

end Run

end PixelHost.Lua

namespace PixelHost.Sandbox

open Lua Lua.Run

variable {n : Nat} {m : Machine}

/-! ### Copies -/

/-- Names are assigned one by one. -/
theorem fill_takes (copy : TableRef) {entries : List (Value × Value)}
    (hentries : ∀ p ∈ entries, ∃ s, p.1 = .str s) (modest : Modest n m.tables)
    (room : (m.tables.getD copy default).keys.size + entries.length ≤ n) :
    Takes (tableBytes n * entries.length)
      (forIn entries PUnit.unit fun p _ => do
        rawSet copy p.1 p.2
        return ForInStep.yield PUnit.unit) m fun _ tables =>
      Modest n tables ∧ tables.size = m.tables.size ∧
      ∀ i, i ≠ copy → tables.getD i default = m.tables.getD i default := by
  let inv (left : Nat) (tables : Array Table) : Prop := Modest n tables ∧
    tables.size = m.tables.size ∧ (tables.getD copy default).keys.size + left ≤ n ∧
    ∀ i, i ≠ copy → tables.getD i default = m.tables.getD i default
  refine (Takes.forIn inv (fun p hp m' left h => ?_)
    ⟨modest, rfl, room, fun _ _ => rfl⟩).mono (Nat.le_refl _)
    fun _ _ ⟨modest, hsize, _, hothers⟩ => ⟨modest, hsize, hothers⟩
  obtain ⟨modest, hsize, room, hothers⟩ := h
  obtain ⟨s, hs⟩ := hentries p hp
  rw [hs]
  refine (rawSet_takes modest (by omega) s p.2).map fun _ tables hset => ?_
  obtain ⟨modest, hsize', hkeys, hothers'⟩ := hset
  exact ⟨rfl, modest, hsize'.trans hsize, by omega, fun i hi => (hothers' i hi).trans (hothers i hi)⟩

/-- A table of names has no more entries than it has room for. -/
theorem length_entries_le {t : Table} (fits : t.Fits n) : t.entries.length ≤ n := by
  have hlive := t.size_liveSlots_le
  have hkeys := fits.keys
  rw [Table.entries, fits.array]
  simp only [Array.size_empty, List.range_zero, List.filterMap_nil, List.nil_append,
    Array.length_toList]
  omega

/-- The memory of a copy of a table. -/
def copyBytes (n : Nat) : Nat := tableBytes 0 + tableBytes n * n

/-- A table is copied; the ones that exist stay as they are. -/
theorem copyTable_takes (modest : Modest n m.tables) (r : TableRef) :
    Takes (copyBytes n) (copyTable r) m fun _ tables => Modest n tables ∧
      m.tables.size ≤ tables.size ∧
      ∀ i < m.tables.size, tables.getD i default = m.tables.getD i default := by
  refine (newTable_takes m).bind fun copy tables charge h => ?_
  obtain ⟨rfl, rfl⟩ := h
  have modest' : Modest n (m.tables.push {}) := modest.push
  obtain ⟨named, fits⟩ := modest' r
  have hentries : ∀ p ∈ ((m.tables.push {}).getD r default).entries, ∃ s, p.1 = Value.str s := by
    intro p hp
    obtain ⟨s, rfl⟩ := named.entries p hp
    exact ⟨s, rfl⟩
  have hlength := length_entries_le fits
  have hfresh := keys_fresh m.tables
  have hfill := fill_takes (m := { m with tables := m.tables.push {}, charge }) m.tables.size
    hentries modest' (by dsimp only; omega)
  refine (hfill.map fun _ tables h => ?_).mono (Nat.mul_le_mul_left _ hlength) fun _ _ h => h
  obtain ⟨modest', hsize, hothers⟩ := h
  refine ⟨modest', ?_, fun i hi => (hothers i (Nat.ne_of_lt hi)).trans (getD_push_of_lt hi)⟩
  rw [hsize, Array.size_push]
  exact Nat.le_succ _

/-! ### Global names -/

/-- The libraries are copied. -/
theorem copyLibraries_takes (globals env : TableRef) (names : List String)
    (modest : Modest n m.tables) (henv : env < m.tables.size)
    (room : (m.tables.getD env default).keys.size + names.length ≤ n) :
    Takes ((copyBytes n + tableBytes n) * names.length)
      (forIn names PUnit.unit fun name _ => do
        match ← rawGet globals (.ofString name) with
        | .table r =>
          setField env name (.table (← copyTable r))
          return ForInStep.yield PUnit.unit
        | _ => return ForInStep.yield PUnit.unit) m fun _ tables =>
      Modest n tables ∧ env < tables.size := by
  let inv (left : Nat) (tables : Array Table) : Prop := Modest n tables ∧
    env < tables.size ∧ (tables.getD env default).keys.size + left ≤ n
  refine (Takes.forIn inv (fun name _ m' left h => ?_) ⟨modest, henv, room⟩).mono
    (Nat.le_refl _) fun _ _ ⟨modest, henv, _⟩ => ⟨modest, henv⟩
  obtain ⟨modest, henv, room⟩ := h
  have hkept : Takes (copyBytes n + tableBytes n) (pure (ForInStep.yield PUnit.unit)) m'
      fun step tables => step = .yield ⟨⟩ ∧ inv left tables :=
    (Takes.pure ⟨rfl, modest, henv, by omega⟩).mono (Nat.zero_le _) fun _ _ h => h
  change Takes _ (match (m'.tables.getD globals default).get (.ofString name) with
    | .table r => _
    | _ => _) m' _
  split
  · next r _ =>
    refine (copyTable_takes modest r).bind fun copy tables charge hcopy => ?_
    obtain ⟨modest', hsize, hothers⟩ := hcopy
    have henv' := hothers env henv
    have hroom : (tables.getD env default).keys.size < n := by
      rw [henv']
      omega
    refine (rawSet_takes (m := { m' with tables, charge }) modest' hroom _ _).map
      fun _ tables' hset => ?_
    obtain ⟨modest', hsize', hkeys, -⟩ := hset
    dsimp only at hsize' hkeys
    rw [henv'] at hkeys
    exact ⟨rfl, modest', Nat.lt_of_lt_of_le henv (by omega), by omega⟩
  · exact hkept

/-- The memory of the global names of a program. -/
def environmentBytes (n : Nat) : Nat :=
  tableBytes 0 + (tableBytes n + ((copyBytes n + tableBytes n) * copiedLibraries.length +
    (tableBytes 0 + (tableBytes n + tableBytes n))))

/-- A program is given global names of its own. -/
theorem newEnvironment_takes (modest : Modest n m.tables) (room : 6 ≤ n) :
    Takes (environmentBytes n) newEnvironment m fun _ tables => Modest n tables := by
  refine .get ((newTable_takes m).bind fun env tables charge h => ?_)
  obtain ⟨rfl, rfl⟩ := h
  have hempty := keys_fresh m.tables
  refine (rawSet_takes (m := { m with tables := m.tables.push {}, charge }) modest.push
    (by dsimp only; omega) _ _).bind fun _ tables charge h => ?_
  obtain ⟨modest, hsize, hkeys, -⟩ := h
  dsimp only at hsize hkeys
  rw [Array.size_push] at hsize
  have hnames : copiedLibraries.length = 5 := rfl
  have henv : m.tables.size < tables.size := by omega
  refine (copyLibraries_takes (m := { m with tables, charge }) m.globals m.tables.size
    copiedLibraries modest henv (by dsimp only; omega)).bind
    fun _ tables charge h => ?_
  obtain ⟨modest, henv⟩ := h
  refine (newTable_takes { m with tables, charge }).bind fun metatable tables' charge h => ?_
  obtain ⟨rfl, rfl⟩ := h
  have hunmarked := keys_fresh tables
  refine (rawSet_takes (m := { m with tables := tables.push {}, charge }) modest.push
    (by dsimp only; omega) _ _).bind fun _ tables' charge h => ?_
  obtain ⟨modest', -, hkeys, -⟩ := h
  dsimp only at hkeys
  change Takes (tableBytes n + 0) _ _ _
  refine (rawSet_takes (m := { m with tables := tables', charge }) modest'
    (by dsimp only; omega) _ _).bind fun _ tables' charge h => ?_
  obtain ⟨modest', -⟩ := h
  obtain ⟨named, fits⟩ := modest' m.tables.size
  let given (t : Table) : Table := { t with metatable := some tables.size }
  have hgiven : (given (tables'.getD m.tables.size default)).Named ∧
      (given (tables'.getD m.tables.size default)).Fits n :=
    ⟨⟨named.size, named.slot, named.names, named.array⟩, fits.array, fits.keys, fits.capacity⟩
  refine (modifyTable_takes m.tables.size given ?_).map fun _ _ h => ?_
  · rw [getD_modify]
    split <;> exact Nat.le_of_eq (Nat.zero_add _).symm
  · exact h ▸ modest'.modify hgiven

end PixelHost.Sandbox
