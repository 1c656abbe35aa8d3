import PixelHost.Lua.Collect
import PixelHost.Proofs.Lua.Meter

/-!
# What can be reached

A value leads to places of the heap and to library functions, and so does what a place holds. What
can be reached from values on is what a program may get hold of that starts with them.

## Main definitions

* `Lua.Target` — what a value may lead to.
* `Lua.Heap` — the part of a machine that holds the places.
* `Lua.Heap.Reaches` — a target can be reached.
* `Lua.Heap.Taken` — a place is taken.
* `Lua.Heap.SameAt` — a place holds the same in two heaps.
-/

namespace PixelHost.Lua

/-- What a value may lead to: a place of the heap or a library function. -/
inductive Target where
  | table (r : TableRef)
  | cell (r : CellRef)
  | thread (r : ThreadRef)
  | iteration (i : Nat)
  | native (f : Native)

/-- The heap of a machine, with what no program sees of its use. -/
structure Heap where
  tables : Array Table
  cells : Array Cell
  threads : Array Thread
  iterations : Array MatchState
  charge : Nat
  held : Array Value
  waiting : List ThreadRef
  output : Bytes
  meter : Meter

/-! ### What values and places lead to -/

/-- The captured variables of a function. -/
def Closure.targets (f : Closure) : List Target := f.upvalues.toList.map .cell

/-- What a library function stands for. -/
def Native.targets : Native → List Target
  | .matchStep i => [.iteration i]
  | .wrapped r => [.thread r]
  | f => [.native f]

/-- What a value leads to. -/
def Value.targets : Value → List Target
  | .table r => [.table r]
  | .closure f => f.targets
  | .native f => f.targets
  | .thread r => [.thread r]
  | _ => []

/-- What a sequence of values leads to. -/
def targetsOf (vs : Array Value) : List Target := vs.toList.flatMap Value.targets

/-- What the contents of a table lead to. -/
def Table.targets (t : Table) : List Target :=
  targetsOf t.array ++ targetsOf t.keys ++ targetsOf t.values ++ t.metatable.toList.map .table

/-- What a captured variable leads to. -/
def Cell.targets : Cell → List Target
  | .inStack r _ => [.thread r]
  | .closed v => v.targets

/-- What is carried out leads to its function and its arguments. -/
def Activity.targets : Activity → List Target
  | .program f _ extra => f.targets ++ targetsOf extra
  | .native f args => f.targets ++ targetsOf args

/-- What the results that wait to be returned lead to. -/
def Continuation.targets : Continuation → List Target
  | .closingReturn _ vs => targetsOf vs
  | _ => []

/-- What an activation leads to. -/
def Frame.targets (f : Frame) : List Target := f.activity.targets ++ f.continuation.targets

/-- What a coroutine that does not run leads to. -/
def Thread.targets (t : Thread) : List Target :=
  t.entry.targets ++ targetsOf t.stack ++ t.frames.flatMap Frame.targets ++
    t.openCells.map (.cell ·.2) ++ t.failure.toList.flatMap Value.targets

namespace Heap

/-- What the contents of a target lead to. -/
def targetsAt (h : Heap) : Target → List Target
  | .table r => (h.tables.getD r default).targets
  | .cell r => (h.cells.getD r default).targets
  | .thread r => (h.threads.getD r default).targets
  | .iteration _ | .native _ => []

/-- A target can be reached on a way that no barred target is on. -/
inductive ReachesAround (h : Heap) (barred : Target → Prop) (roots : List Target) : Target → Prop
  | start {t} (ht : t ∈ roots) (free : ¬barred t) : ReachesAround h barred roots t
  | step {t t'} (way : ReachesAround h barred roots t) (ht : t' ∈ h.targetsAt t)
      (free : ¬barred t') : ReachesAround h barred roots t'

/-- A target can be reached. -/
def Reaches (h : Heap) (roots : List Target) : Target → Prop :=
  h.ReachesAround (fun _ => False) roots

variable {h : Heap} {barred : Target → Prop} {roots : List Target} {t t' : Target}

theorem ReachesAround.free (way : h.ReachesAround barred roots t) : ¬barred t := by
  cases way with
  | start _ free => exact free
  | step _ _ free => exact free

/-- A way does not start with what is barred. -/
theorem ReachesAround.of_append {front : List Target}
    (way : h.ReachesAround barred (front ++ roots) t) (hfront : ∀ t ∈ front, barred t) :
    h.ReachesAround barred roots t := by
  induction way with
  | start ht free =>
    rcases List.mem_append.mp ht with ht | ht
    · exact absurd (hfront _ ht) free
    · exact .start ht free
  | step _ ht free ih => exact ih.step ht free

theorem Reaches.root (ht : t ∈ roots) : h.Reaches roots t := .start ht not_false

theorem Reaches.step (way : h.Reaches roots t) (ht : t' ∈ h.targetsAt t) : h.Reaches roots t' :=
  ReachesAround.step way ht not_false

/-- A way either stays outside of a closed part of the heap, or ends in it. -/
theorem Reaches.around (closed : ∀ t, barred t → ∀ t' ∈ h.targetsAt t, barred t')
    (way : h.Reaches roots t) : barred t ∨ h.ReachesAround barred roots t := by
  induction way with
  | @start t ht =>
    by_cases hbarred : barred t
    · exact .inl hbarred
    · exact .inr (.start ht hbarred)
  | @step t t' _ ht _ ih =>
    by_cases hbarred : barred t'
    · exact .inl hbarred
    · rcases ih with hin | hout
      · exact .inl (closed t hin t' ht)
      · exact .inr (.step hout ht hbarred)

end Heap

/-! ### Places -/

namespace Heap

variable {h h' : Heap} {t : Target}

/-- A place is taken. -/
def Taken (h : Heap) : Target → Prop
  | .table r => r < h.tables.size
  | .cell r => r < h.cells.size
  | .thread r => r < h.threads.size
  | .iteration i => i < h.iterations.size
  | .native _ => True

/-- A place holds the same in two heaps. -/
def SameAt (h h' : Heap) : Target → Prop
  | .table r => h'.tables.getD r default = h.tables.getD r default
  | .cell r => h'.cells.getD r default = h.cells.getD r default
  | .thread r => h'.threads.getD r default = h.threads.getD r default
  | .iteration i => h'.iterations.getD i default = h.iterations.getD i default
  | .native _ => True

/-- What holds the same leads to the same. -/
theorem SameAt.targetsAt (same : h.SameAt h' t) : h'.targetsAt t = h.targetsAt t := by
  cases t with
  | table r => exact congrArg Table.targets same
  | cell r => exact congrArg Cell.targets same
  | thread r => exact congrArg Thread.targets same
  | iteration i => rfl
  | native f => rfl

theorem sameAt_refl (h : Heap) (t : Target) : h.SameAt h t := by
  cases t <;> first | rfl | trivial

/-- Two heaps that hold the same as a third hold the same. -/
theorem SameAt.join {h₁ h₂ : Heap} (same₁ : h.SameAt h₁ t) (same₂ : h.SameAt h₂ t) :
    h₁.SameAt h₂ t := by
  cases t with
  | native f => trivial
  | _ => exact same₂.trans same₁.symm

/-- The same places are taken where there are as many. -/
theorem taken_iff (tables : h'.tables.size = h.tables.size) (cells : h'.cells.size = h.cells.size)
    (threads : h'.threads.size = h.threads.size)
    (iterations : h'.iterations.size = h.iterations.size) : h'.Taken t ↔ h.Taken t := by
  cases t <;> simp only [Taken, tables, cells, threads, iterations]

theorem getD_of_untaken {α : Type} [Inhabited α] {xs : Array α} {r : Nat} (hr : ¬r < xs.size) :
    xs.getD r default = default := by
  rw [Array.getD_eq_getD_getElem?, Array.getElem?_eq_none (by omega), Option.getD_none]

/-- A place that is not taken leads nowhere. -/
theorem targetsAt_untaken (ht : ¬h.Taken t) : h.targetsAt t = [] := by
  cases t with
  | table r => rw [targetsAt, getD_of_untaken ht]; rfl
  | cell r => rw [targetsAt, getD_of_untaken ht]; rfl
  | thread r => rw [targetsAt, getD_of_untaken ht]; rfl
  | iteration i => rfl
  | native f => rfl

/-- A place that is taken in neither heap holds the same. -/
theorem sameAt_untaken (ht : ¬h.Taken t) (ht' : ¬h'.Taken t) : h.SameAt h' t := by
  cases t with
  | table r => rw [SameAt, getD_of_untaken ht, getD_of_untaken ht']
  | cell r => rw [SameAt, getD_of_untaken ht, getD_of_untaken ht']
  | thread r => rw [SameAt, getD_of_untaken ht, getD_of_untaken ht']
  | iteration i => rw [SameAt, getD_of_untaken ht, getD_of_untaken ht']
  | native f => trivial

end Heap

/-- The heap of a machine. -/
def Machine.heap (m : Machine) : Heap :=
  ⟨m.tables, m.cells, m.threads, m.iterations, m.charge, m.held, m.waiting, m.output, m.meter⟩

end PixelHost.Lua
