import PixelHost.Proofs.Lua.Contents

/-!
# Shapes of values

The shape of a value is what can be told of it without telling places of the heap or numbers of
functions apart, down to some depth.

## Main definitions

* `Lua.Shape` — shapes.
* `Lua.Heap.shape` — the shape of a value.

## Main results

* `Lua.Realm.Agree.shape_eq` — a value of a realm has the same shape where machines agree.
-/

namespace PixelHost.Lua

/-- The shape of a value. -/
inductive Shape where
  /-- A value that leads nowhere. -/
  | plain (v : Value)
  | failure (error : HostError)
  | table (entries : List (Shape × Shape)) (metatable : Option Shape)
  | function (code : Prototype) (captured : List Shape)
  | library (f : Native)
  | iteration (s : MatchState)
  | coroutine
  /-- What lies deeper is not told. -/
  | deeper

/-- The shape of a value down to a depth. -/
def Heap.shape (h : Heap) : Nat → Value → Shape
  | 0, _ => .deeper
  | n + 1, v =>
    match v with
    | .table r =>
      let t := h.tables.getD r default
      .table (t.entries.map fun (k, v) => (h.shape n k, h.shape n v))
        (t.metatable.map fun mt => h.shape n (.table mt))
    | .closure f =>
      .function f.proto <| f.upvalues.toList.map fun r =>
        match h.cells.getD r default with
        | .closed v => h.shape n v
        | .inStack _ _ => .coroutine
    | .native (.matchStep i) => .iteration (h.iterations.getD i default)
    | .native (.wrapped _) => .coroutine
    | .native f => .library f
    | .thread _ => .coroutine
    | .failure _ error => .failure error
    | v => .plain v

/-- The shape of a value does not depend on the coroutines, nor on what is no place of the heap. -/
theorem Heap.shape_congr {h h' : Heap} (tables : h'.tables = h.tables) (cells : h'.cells = h.cells)
    (iterations : h'.iterations = h.iterations) (n : Nat) (v : Value) :
    h'.shape n v = h.shape n v := by
  induction n generalizing v with
  | zero => rfl
  | succ n ih => simp only [Heap.shape, tables, cells, iterations, ih]

/-- By induction on the depth: what a value of the realm leads to lies in the realm again. -/
theorem Realm.Agree.shape_eq {ρ : Realm} {m : Machine} {h : Heap} (agree : ρ.Agree m h) (n : Nat)
    {v : Value} (hv : ρ.value v) : h.shape n v = m.heap.shape n v := by
  induction n generalizing v with
  | zero => rfl
  | succ n ih =>
    cases v with
    | table r =>
      have ht := agree.tables.ok r hv
      simp only [Heap.shape, Machine.heap, agree.tables.same r hv, Shape.table.injEq]
      generalize m.tables.getD r default = t at ht ⊢
      refine ⟨List.map_congr_left fun p hp => ?_, Option.map_congr fun mt hmt => ?_⟩
      · obtain ⟨hk, hw⟩ := ht.entries p hp
        exact Prod.ext (ih hk) (ih hw)
      · exact ih (v := .table mt) (ht.metatable mt hmt)
    | closure f =>
      simp only [Heap.shape, Shape.function.injEq, true_and]
      refine List.map_congr_left fun r hr => ?_
      have hcell : ρ.cell r := hv r (Array.mem_toList_iff.mp hr)
      have hc := agree.cells.ok r hcell
      simp only [Machine.heap, agree.cells.same r hcell]
      generalize m.cells.getD r default = c at hc ⊢
      cases c with
      | closed w => exact ih hc
      | inStack thread slot => rfl
    | native f =>
      cases f with
      | matchStep i => simp only [Heap.shape, Machine.heap, agree.iterations.same i hv]
      | _ => rfl
    | _ => rfl

end PixelHost.Lua
