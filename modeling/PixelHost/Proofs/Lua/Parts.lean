import PixelHost.Lua.Execution
import PixelHost.Proofs.Lua.Contents

/-!
# Parts of the heap as realms

Something lies in a realm if everything that it leads to does. So a part of the heap is a realm if it
is closed: what its places lead to is in it again.

## Main definitions

* `Lua.Realm.part` — a part of the heap as a realm.

## Main results

* `Lua.Realm.value_iff`, `Lua.Realm.contents_iff` — what lies in a realm.
* `Lua.Realm.Agree.of_closed` — machines agree on a closed part of the heap.
-/

namespace PixelHost.Lua

namespace Realm

variable {ρ : Realm}

/-! ### What lies in a realm -/

theorem closure_iff {f : Closure} : ρ.closure f ↔ ∀ t ∈ f.targets, ρ.has t := by
  simp only [closure, Closure.targets, List.forall_mem_map, Array.mem_toList_iff, has]

theorem function_iff {f : Native} : ρ.function f ↔ ∀ t ∈ f.targets, ρ.has t := by
  cases f <;> simp only [function, Native.targets, List.forall_mem_singleton, has]

theorem value_iff {v : Value} : ρ.value v ↔ ∀ t ∈ v.targets, ρ.has t := by
  cases v with
  | table r => simp only [value, Value.targets, List.forall_mem_singleton, has]
  | thread r => simp only [value, Value.targets, List.forall_mem_singleton, has]
  | closure f => exact closure_iff
  | native f => exact function_iff
  | _ => exact iff_of_true trivial fun _ h => absurd h List.not_mem_nil

theorem values_iff {vs : Array Value} : ρ.values vs ↔ ∀ t ∈ targetsOf vs, ρ.has t := by
  simp only [values, targetsOf, List.forall_mem_flatMap, Array.mem_toList_iff, value_iff]

theorem contents_iff {t : Table} : ρ.contents t ↔ ∀ t' ∈ t.targets, ρ.has t' := by
  simp only [Table.targets, List.forall_mem_append, List.forall_mem_map, Option.mem_toList,
    ← values_iff]
  exact ⟨fun h => ⟨⟨⟨h.array, h.keys⟩, h.values⟩, h.metatable⟩,
    fun ⟨⟨⟨array, keys⟩, values⟩, metatable⟩ => ⟨array, keys, values, metatable⟩⟩

theorem captured_iff {c : Cell} : ρ.captured c ↔ ∀ t ∈ c.targets, ρ.has t := by
  cases c with
  | inStack r slot => simp only [captured, Cell.targets, List.forall_mem_singleton, has]
  | closed v => exact value_iff

theorem activity_iff {a : Activity} : ρ.activity a ↔ ∀ t ∈ a.targets, ρ.has t := by
  cases a with
  | program f base extra =>
    simp only [activity, Activity.targets, List.forall_mem_append, closure_iff, values_iff]
  | native f args =>
    simp only [activity, Activity.targets, List.forall_mem_append, function_iff, values_iff]

theorem continuation_iff {k : Continuation} : ρ.continuation k ↔ ∀ t ∈ k.targets, ρ.has t := by
  cases k with
  | closingReturn level vs => exact values_iff
  | _ => exact iff_of_true trivial fun _ h => nomatch h

theorem frames_iff {fs : List Frame} :
    ρ.frames fs ↔ ∀ t ∈ fs.flatMap Frame.targets, ρ.has t := by
  simp only [frames, frame, Frame.targets, List.forall_mem_flatMap, List.forall_mem_append,
    activity_iff, continuation_iff]

theorem openCells_iff {cs : List (Nat × CellRef)} :
    ρ.openCells cs ↔ ∀ t ∈ cs.map (Target.cell ·.2), ρ.has t := by
  simp only [openCells, List.forall_mem_map, has]

theorem coroutine_iff {t : Thread} : ρ.coroutine t ↔ ∀ t' ∈ t.targets, ρ.has t' := by
  simp only [Thread.targets, List.forall_mem_append, List.forall_mem_flatMap (l := t.failure.toList),
    Option.mem_toList, ← values_iff, ← value_iff, ← frames_iff, ← openCells_iff]
  exact ⟨fun h => ⟨⟨⟨⟨h.entry, h.stack⟩, h.frames⟩, h.openCells⟩, h.failure⟩,
    fun ⟨⟨⟨⟨entry, stack⟩, frames⟩, openCells⟩, failure⟩ =>
      ⟨entry, stack, frames, openCells, failure⟩⟩

end Realm

/-! ### Parts of the heap -/

namespace Realm

/-- What is known as a realm. The memory in use is not counted for it, and instructions are counted
alike. -/
def part (known : Target → Prop) (zero : known (.thread 0))
    (arises : ∀ f, f.Arises → known (.native f))
    (counts : ¬known (.native (.base .collectgarbage))) (names : TableRef × TableRef)
    (exact : Prop) (start : Heap) (anchors : List Value) : Realm where
  table r := known (.table r)
  cell r := known (.cell r)
  thread r := known (.thread r)
  iteration i := known (.iteration i)
  native f := known (.native f)
  names := names
  exact := exact
  start := start
  anchors := anchors
  metering := .same
  thread_zero := zero
  native_of_arises := arises
  exact_of_collects := fun h => absurd h counts

variable {ρ : Realm} {m : Machine} {h : Heap}

/-- A machine at rest holds hardly anything outside of the heap. -/
theorem core.of_rested (names : (m.globals, m.stringMetatable) = ρ.names)
    (globals : ρ.table m.globals) (stringMetatable : ρ.table m.stringMetatable)
    (requires : ¬ρ.native (.system .require)) (bounded : ρ.exact ∨ m.limit = none) :
    ρ.core m.rested where
  stack := .replicate _
  frames := frames_nil
  openCells := fun _ h => nomatch h
  closure := fun _ h => nomatch h
  thread := ρ.thread_zero
  names := names
  globals := globals
  stringMetatable := stringMetatable
  loaded := fun h => absurd h requires
  bounded := bounded

/-- Machines agree on a closed part of the heap that holds the same on both. -/
theorem Agree.of_closed (closed : ∀ t, ρ.has t → ∀ t' ∈ m.heap.targetsAt t, ρ.has t')
    (fresh : ∀ t, ¬m.heap.Taken t → ρ.has t) (same : ∀ t, ρ.has t → m.heap.SameAt h t)
    (sizes : h.tables.size = m.tables.size ∧ h.cells.size = m.cells.size ∧
      h.threads.size = m.threads.size ∧ h.iterations.size = m.iterations.size)
    (start : ρ.start.tables = m.tables ∧ ρ.start.cells = m.cells ∧
      ρ.start.threads = m.threads ∧ ρ.start.iterations = m.iterations)
    (core : ρ.core m) (meter : ρ.metering.related m.meter h.meter)
    (exact : ρ.exact → h = { m.heap with meter := h.meter }) (held : ∀ v ∈ ρ.anchors, v ∈ m.held) :
    ρ.Agree m h := by
  obtain ⟨htables, hcells, hthreads, hiterations⟩ := sizes
  obtain ⟨stables, scells, sthreads, siterations⟩ := start
  refine ⟨?_, ?_, ?_, ?_, core, meter, exact, held⟩
  · exact {
      size := htables
      same := fun r hr => same (.table r) hr
      ok := fun r hr => contents_iff.mpr (closed (.table r) hr)
      fresh := fun r hr => fresh (.table r) (Nat.not_lt.mpr hr)
      grown := Nat.le_of_eq (congrArg Array.size stables)
      kept := fun r _ _ => by rw [stables] }
  · exact {
      size := hcells
      same := fun r hr => same (.cell r) hr
      ok := fun r hr => captured_iff.mpr (closed (.cell r) hr)
      fresh := fun r hr => fresh (.cell r) (Nat.not_lt.mpr hr)
      grown := Nat.le_of_eq (congrArg Array.size scells)
      kept := fun r _ _ => by rw [scells] }
  · exact {
      size := hthreads
      same := fun r hr => same (.thread r) hr
      ok := fun r hr => coroutine_iff.mpr (closed (.thread r) hr)
      fresh := fun r hr => fresh (.thread r) (Nat.not_lt.mpr hr)
      grown := Nat.le_of_eq (congrArg Array.size sthreads)
      kept := fun r _ _ => by rw [sthreads] }
  · exact {
      size := hiterations
      same := fun i hi => same (.iteration i) hi
      ok := fun _ _ => trivial
      fresh := fun i hi => fresh (.iteration i) (Nat.not_lt.mpr hi)
      grown := Nat.le_of_eq (congrArg Array.size siterations)
      kept := fun i _ _ => by rw [siterations] }

/-- What lies in the realm leads to what lies in it. -/
theorem Agree.closed (agree : ρ.Agree m h) {t : Target} (ht : ρ.has t) :
    ∀ t' ∈ m.heap.targetsAt t, ρ.has t' := by
  cases t with
  | table r => exact contents_iff.mp (agree.tables.ok r ht)
  | cell r => exact captured_iff.mp (agree.cells.ok r ht)
  | thread r => exact coroutine_iff.mp (agree.threads.ok r ht)
  | iteration i => exact fun _ h => nomatch h
  | native f => exact fun _ h => nomatch h

end Realm

end PixelHost.Lua
