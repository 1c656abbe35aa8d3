import PixelHost.Proofs.Lua.Marking
import PixelHost.Proofs.Lua.Names

/-!
# The memory that is counted

How much memory is in use depends on what the marking reaches and is not known before. But every step
of the marking takes a place that waits, or reaches values, and each of these has a weight. So the
count is bounded by the weights: a place that is reached counts once, for it waits once only.

## Main definitions

* `Lua.Value.weight` — the most that a value adds to the count.
* `Lua.Table.Light` — a table with few values of little weight.
* `Lua.Machine.Light` — a machine at rest, with nothing but such tables.

## Main results

* `Lua.Marking.close_bytes_le` — the count when nothing waits any more.
* `Lua.Machine.Light.charge_recounted_le` — the memory in use of such a machine.
-/

namespace PixelHost.Lua

/-- The most that a value adds to the count when it is reached. -/
def Value.weight : Value → Nat
  | .str s => Run.stringBytes s.size
  | .closure f => 32 + 48 * f.upvalues.size
  | .native (.wrapped _) | .thread _ => Marking.threadBytes
  | _ => 0

namespace Marking

variable {k : Marking} {w : Nat}

/-! ### Values -/

theorem markTable_bytes (k : Marking) (r : TableRef) : (k.markTable r).bytes = k.bytes := by
  unfold markTable
  split <;> rfl

theorem markCell_bytes_le (k : Marking) (r : CellRef) : (k.markCell r).bytes ≤ k.bytes + 40 := by
  unfold markCell
  split
  · exact Nat.le_add_right _ _
  · exact Nat.le_refl _

theorem markThread_bytes_le (k : Marking) (r : ThreadRef) :
    (k.markThread r).bytes ≤ k.bytes + threadBytes := by
  unfold markThread
  split
  · exact Nat.le_add_right _ _
  · exact Nat.le_refl _

/-- What the values of an array add. -/
theorem foldl_bytes_le {α : Type} {f : Marking → α → Marking} {xs : Array α}
    (hf : ∀ k, ∀ a ∈ xs, (f k a).bytes ≤ k.bytes + w) (k : Marking) :
    (xs.foldl f k).bytes ≤ k.bytes + w * xs.size := by
  refine Array.foldl_induction (fun i (k' : Marking) => k'.bytes ≤ k.bytes + w * i)
    (Nat.le_refl _) fun i k' ih => ?_
  have hstep := hf k' _ (Array.getElem_mem i.isLt)
  rw [Nat.mul_succ]
  exact Nat.le_trans hstep (by omega)

theorem markClosure_bytes_le (k : Marking) (f : Closure) :
    (k.markClosure f).bytes ≤ k.bytes + (32 + 48 * f.upvalues.size) := by
  unfold markClosure
  extract_lets counted
  have hcounted : counted.bytes ≤ k.bytes + 32 + 8 * f.upvalues.size := by
    simp only [counted]
    split
    · omega
    · exact Nat.le_refl _
  have hcells : (f.upvalues.foldl markCell counted).bytes ≤ counted.bytes + 40 * f.upvalues.size :=
    foldl_bytes_le (fun k r _ => markCell_bytes_le k r) counted
  exact Nat.le_trans hcells (by omega)

theorem markValue_bytes_le (k : Marking) (v : Value) :
    (k.markValue v).bytes ≤ k.bytes + v.weight := by
  cases v with
  | str s =>
    simp only [markValue, Value.weight]
    split
    · exact Nat.le_add_right _ _
    · exact Nat.le_refl _
  | table r => exact Nat.le_of_eq (markTable_bytes k r)
  | closure f => exact markClosure_bytes_le k f
  | thread r => exact markThread_bytes_le k r
  | native f =>
    cases f with
    | wrapped r => exact markThread_bytes_le k r
    | _ => exact Nat.le_refl _
  | _ => exact Nat.le_refl _

theorem markValues_bytes_le {vs : Array Value} (hvs : ∀ v ∈ vs, v.weight ≤ w) (k : Marking) :
    (k.markValues vs).bytes ≤ k.bytes + w * vs.size :=
  foldl_bytes_le (fun k v hv => Nat.le_trans (markValue_bytes_le k v)
    (Nat.add_le_add_left (hvs v hv) _)) k

/-! ### Rounds -/

/-- Which slots of stacks are in use makes no difference to what is left to do. -/
theorem markStack_work (all : Bool) (k : Marking) (stack : Array Value) (top : Nat)
    (frames : List Frame) (openCells : List (Nat × CellRef)) :
    (k.markStack all stack top frames openCells).work = k.work := by
  unfold markStack
  extract_lets inUse counted held captured
  have hheld : held.work = counted.work := by
    simp only [held]
    rw [Array.foldl_eq_foldl_extract]
    exact (markValues_marks counted (stack.extract 0 inUse)).work
  have hcaptured : captured.work = held.work :=
    (Marks.foldl (fun k (c : Nat × CellRef) => markCell_marks k c.2) openCells held).work
  exact ((Marks.foldl markFrame_marks frames captured).work.trans hcaptured).trans hheld

theorem markContents_work (all : Bool) (m : Machine) (k : Marking) (p : Place) :
    (k.markContents all m p).work = k.work := by
  cases p with
  | table r => exact (markContents_marks m k (.table r)).work
  | cell r => exact (markContents_marks m k (.cell r)).work
  | thread r =>
    simp only [markContents]
    split
    · rfl
    · let t := m.threads.getD r default
      let entered := k.markValue t.entry
      have hentered : entered.work = k.work := (markValue_marks k t.entry).work
      have hfailed := (markFailure_marks entered t.failure).work
      exact (markStack_work _ _ _ _ _ _).trans (hfailed.trans hentered)

/-- The count when nothing waits any more, if no place adds more than the given amount. Each round takes
the places that wait, and what it adds is paid for by them. -/
theorem close_bytes_le {all : Bool} {m : Machine}
    (hplaces : ∀ k p, (markContents all m k p).bytes ≤ k.bytes + w) (n : Nat) (k : Marking) :
    (close all m n k).bytes ≤ k.bytes + w * k.work := by
  induction n generalizing k with
  | zero => exact Nat.le_add_right _ _
  | succ n ih =>
    unfold close
    split
    · exact Nat.le_add_right _ _
    · extract_lets fresh
      let started : Marking := { k with fresh := #[] }
      let reached := fresh.foldl (markContents all m) started
      have hbytes : reached.bytes ≤ k.bytes + w * fresh.size :=
        foldl_bytes_le (fun k p _ => hplaces k p) started
      have hwork : reached.work = started.work :=
        Array.foldl_induction (fun _ k' => k'.work = started.work) rfl
          fun _ k' ih => (markContents_work all m k' _).trans ih
      have hleft : started.work + fresh.size = k.work := by
        simp only [work, started, fresh, Array.size_empty]
        omega
      have hrest := ih reached
      rw [hwork] at hrest
      rw [← hleft, Nat.mul_add]
      exact Nat.le_trans hrest (by omega)

end Marking

/-! ### Machines at rest -/

/-- A table with room for `n` names, none of which weighs more than `w`, nor does a value. -/
structure Table.Light (n w : Nat) (t : Table) : Prop where
  fits : t.Fits n
  size : t.values.size = t.keys.size
  keys : ∀ k ∈ t.keys, k.weight ≤ w
  values : ∀ v ∈ t.values, v.weight ≤ w

/-- A machine at rest whose tables are light. No coroutine was started, and nothing is held. -/
structure Machine.Light (n w : Nat) (m : Machine) : Prop where
  tables : ∀ r, (m.tables.getD r default).Light n w
  cells : ∀ r, ∃ v, m.cells.getD r default = .closed v ∧ v.weight ≤ w
  stack : ∀ v ∈ m.stack, v.weight ≤ w
  threads : ∀ r, r ≠ m.thread → m.threads.getD r default = {}
  frames : m.frames = []
  openCells : m.openCells = []
  held : m.held = #[]
  waiting : m.waiting = []

/-- The most that a place of such a machine adds to the count. -/
def placeWeight (n w : Nat) : Nat := 56 + 48 * n + 2 * (w * n) + w

namespace Machine.Light

variable {n w : Nat} {m : Machine}

/-- What a stack without activations adds to the count. -/
theorem markStack_bytes_le (all : Bool) (k : Marking) {stack : Array Value}
    (hstack : ∀ v ∈ stack, v.weight ≤ w) (top : Nat) :
    (k.markStack all stack top [] []).bytes ≤ k.bytes + (16 + w) * stack.size := by
  let inUse := if all then stack.size else top
  let counted : Marking := { k with bytes := k.bytes + 16 * stack.size }
  have hwhole : k.markStack all stack top [] [] = counted.markValues (stack.extract 0 inUse) :=
    Array.foldl_eq_foldl_extract
  have hinUse : ∀ v ∈ stack.extract 0 inUse, v.weight ≤ w := by
    intro v hv
    obtain ⟨i, hi, rfl⟩ := Array.mem_iff_getElem.mp hv
    rw [Array.getElem_extract]
    exact hstack _ (Array.getElem_mem _)
  have hvalues := Marking.markValues_bytes_le hinUse counted
  have hsize : w * (stack.extract 0 inUse).size ≤ w * stack.size :=
    Nat.mul_le_mul_left w (by rw [Array.size_extract]; omega)
  rw [hwhole]
  refine Nat.le_trans hvalues ?_
  rw [Nat.add_mul]
  simp only [counted]
  omega

/-- What a place adds to the count. -/
theorem markContents_bytes_le (light : m.Light n w) (k : Marking) (p : Place) :
    (k.markContents false m p).bytes ≤ k.bytes + placeWeight n w := by
  cases p with
  | table r =>
    obtain ⟨fits, hsize, hkeys, hvalues⟩ := light.tables r
    simp only [Marking.markContents]
    generalize m.tables.getD r default = t at fits hsize hkeys hvalues
    let counted : Marking := { k with bytes := k.bytes + t.bytes }
    have harray : counted.markValues t.array = counted := by
      rw [fits.array]
      rfl
    let filed := counted.markValues t.keys
    have hfiled : filed.bytes ≤ k.bytes + t.bytes + w * t.keys.size :=
      Marking.markValues_bytes_le hkeys counted
    have hreached : (filed.markValues t.values).bytes ≤ filed.bytes + w * t.values.size :=
      Marking.markValues_bytes_le hvalues filed
    have hnames : w * t.keys.size ≤ w * n := Nat.mul_le_mul_left w fits.keys
    have hbytes := fits.bytes_le
    have hall : (filed.markValues t.values).bytes ≤ k.bytes + placeWeight n w := by
      rw [hsize] at hreached
      rw [placeWeight]
      omega
    rw [harray]
    cases t.metatable with
    | none => exact hall
    | some mt => exact Nat.le_trans (Nat.le_of_eq (Marking.markTable_bytes _ mt)) hall
  | cell r =>
    obtain ⟨v, hcell, hweight⟩ := light.cells r
    simp only [Marking.markContents, hcell]
    have hvalue := Marking.markValue_bytes_le k v
    rw [placeWeight]
    omega
  | thread r =>
    simp only [Marking.markContents]
    split
    · exact Nat.le_add_right _ _
    · next hr =>
      rw [light.threads r fun h => hr (beq_iff_eq.mpr h)]
      exact Nat.le_trans
        (markStack_bytes_le (w := 0) false k (fun _ h => absurd h (Array.not_mem_empty _)) 0)
        (Nat.le_add_right _ _)

/-- The memory in use of a machine at rest with light tables. -/
theorem charge_recounted_le (light : m.Light n w) :
    m.recounted.charge ≤ Marking.threadBytes + (16 + w) * m.stack.size +
      placeWeight n w * (m.tables.size + m.cells.size + m.threads.size) := by
  have hcharge : m.recounted.charge = (m.marking false).bytes := by
    unfold Machine.recounted
    extract_lets
    split <;> rfl
  rw [hcharge]
  unfold Machine.marking
  extract_lets unmarked names held waiting roots
  have hnames : names.bytes = 0 := by
    simp only [names, Marking.markTable_bytes, unmarked]
  have hheld : held = names.markThread m.thread := by
    simp only [held, light.held, Array.foldl_empty]
  have hroots : roots = held.markStack false m.stack m.top [] [] := by
    simp only [roots, waiting, light.waiting, light.frames, light.openCells, List.foldl_nil]
  have hbytes : roots.bytes ≤ Marking.threadBytes + (16 + w) * m.stack.size := by
    have hthread := Marking.markThread_bytes_le names m.thread
    have hstack := markStack_bytes_le false held light.stack m.top
    rw [← hroots] at hstack
    rw [← hheld] at hthread
    omega
  have hwork : roots.work = m.tables.size + m.cells.size + m.threads.size := by
    have hunmarked : unmarked.work = m.tables.size + m.cells.size + m.threads.size := by
      simp only [unmarked, Marking.work, Array.count_replicate_self, Array.size_empty, Nat.add_zero]
    have hstarted := (((Marking.markTable_marks unmarked m.globals).trans
      (Marking.markTable_marks _ m.loaded)).trans
      (Marking.markTable_marks _ m.stringMetatable)).trans
      (Marking.markThread_marks names m.thread)
    rw [hroots, Marking.markStack_work, hheld, hstarted.work, hunmarked]
  have hclose := Marking.close_bytes_le light.markContents_bytes_le
    (m.tables.size + m.cells.size + m.threads.size + 1) roots
  rw [hwork] at hclose
  exact Nat.le_trans hclose (Nat.add_le_add_right hbytes _)

end Machine.Light

end PixelHost.Lua
