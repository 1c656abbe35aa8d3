import PixelHost.Lua.Nested
import PixelHost.Proofs.Lua.Reach

/-!
# Realms

A realm is a part of the heap that is closed: what its places hold lies in it again, and every place
that is taken from now on belongs to it. A computation that starts with values of a realm never gets
hold of a place outside, so the heap outside makes no difference to it: on two machines that agree
on the realm it has the same result, and they agree afterwards. Outside of the realm, what can be reached from
values in use elsewhere stays as it was.

A realm also says which library functions its values may be. A realm is *exact* if nothing outside of
it varies from one machine to the other; then memory that is out of reach may be given back.

The counts of instructions of the two machines may differ, in the way that the realm says. Once the
first count is late, nothing is said any more of the second machine.

## Main definitions

* `Lua.Realm` — a realm, with the values, tables, activations and coroutines in it.
* `Lua.Realm.Agree` — two machines agree on a realm.
* `Lua.Stays` — a computation stays in a realm.

## Main results

* `Lua.Stays.bind`, `Lua.Stays.tryCatch` — computations that stay in a realm, one after the other.
* `Lua.Stays.read`, `Lua.Stays.modify` — reading and changing what is outside of the heap.
-/

namespace PixelHost.Lua

/-- The function comes up without being looked up: as an iterator, as the handler of an error, or as
the one that closes variables. -/
def Native.Arises : Native → Prop
  | .base .next | .coroutine .close | .sequenceStep | .characterStep _ | .describeError => True
  | _ => False

/-- A part of the heap, with the library functions that may be called in it. -/
structure Realm where
  table : TableRef → Prop
  cell : CellRef → Prop
  thread : ThreadRef → Prop
  iteration : Nat → Prop
  native : Native → Prop
  /-- The tables of the global names and of what strings can do. -/
  names : TableRef × TableRef
  /-- Nothing outside of the realm varies from one machine to the other. -/
  exact : Prop
  /-- The heap at the start. -/
  start : Heap
  /-- Values in use elsewhere. -/
  anchors : List Value
  /-- How the counts of instructions may differ. -/
  metering : Metering
  thread_zero : thread 0
  native_of_arises : ∀ f, f.Arises → native f
  /-- To count the memory in use is to look at everything. -/
  exact_of_collects : native (.base .collectgarbage) → exact

namespace Realm

variable (ρ : Realm)

/-! ### What lies in a realm -/

/-- A function of a program. -/
def closure (f : Closure) : Prop := ∀ r ∈ f.upvalues, ρ.cell r

/-- A library function. -/
def function : Native → Prop
  | .matchStep i => ρ.iteration i
  | .wrapped r => ρ.thread r
  | f => ρ.native f

/-- A value. -/
def value : Value → Prop
  | .table r => ρ.table r
  | .closure f => ρ.closure f
  | .native f => ρ.function f
  | .thread r => ρ.thread r
  | _ => True

/-- A sequence of values. -/
def values (vs : Array Value) : Prop := ∀ v ∈ vs, ρ.value v

/-- The contents of a table. -/
structure contents (t : Table) : Prop where
  array : ρ.values t.array
  keys : ρ.values t.keys
  values : ρ.values t.values
  metatable : ∀ mt ∈ t.metatable, ρ.table mt

/-- A captured variable. -/
def captured : Cell → Prop
  | .inStack r _ => ρ.thread r
  | .closed v => ρ.value v

/-- What is carried out. -/
def activity : Activity → Prop
  | .program f _ extra => ρ.closure f ∧ ρ.values extra
  | .native f args => ρ.function f ∧ ρ.values args

/-- How results are handed on. -/
def continuation : Continuation → Prop
  | .closingReturn _ results => ρ.values results
  | _ => True

/-- An activation. -/
def frame (f : Frame) : Prop := ρ.activity f.activity ∧ ρ.continuation f.continuation

/-- The activations of a coroutine. -/
def frames (fs : List Frame) : Prop := ∀ f ∈ fs, ρ.frame f

/-- The captured variables of a stack. -/
def openCells (cs : List (Nat × CellRef)) : Prop := ∀ c ∈ cs, ρ.cell c.2

/-- A coroutine that does not run. -/
structure coroutine (t : Thread) : Prop where
  entry : ρ.value t.entry
  stack : ρ.values t.stack
  frames : ρ.frames t.frames
  openCells : ρ.openCells t.openCells
  failure : ∀ v ∈ t.failure, ρ.value v

/-- Why a computation stops. -/
def fault : Fault → Prop
  | .raised v _ => ρ.value v
  | _ => True

/-- What a machine asks for. -/
def request : Request → Prop
  | .go => True
  | .native f args => ρ.function f ∧ ρ.values args
  | .finish vs | .returned vs | .yielded vs => ρ.values vs

/-- How a run ends. -/
def stop : Stop → Prop
  | .returned vs | .yielded vs => ρ.values vs

/-- The result of an operation, or the call that gives it. -/
def outcome : Outcome → Prop
  | .value v => ρ.value v
  | .call f args => ρ.value f ∧ ρ.values args

/-- The result of a comparison, or the call that decides it. -/
def verdict : Verdict → Prop
  | .known _ => True
  | .ask f x y _ => ρ.value f ∧ ρ.value x ∧ ρ.value y

/-- A place or a library function. -/
def has : Target → Prop
  | .table r => ρ.table r
  | .cell r => ρ.cell r
  | .thread r => ρ.thread r
  | .iteration i => ρ.iteration i
  | .native f => ρ.native f

/-- A place outside that is in use elsewhere. -/
def anchored (t : Target) : Prop :=
  ρ.start.ReachesAround ρ.has (ρ.anchors.flatMap Value.targets) t

/-- What a machine holds outside of the heap. -/
structure core (m : Machine) : Prop where
  stack : ρ.values m.stack
  frames : ρ.frames m.frames
  openCells : ρ.openCells m.openCells
  closure : ρ.closure m.closure
  thread : ρ.thread m.thread
  names : (m.globals, m.stringMetatable) = ρ.names
  globals : ρ.table m.globals
  stringMetatable : ρ.table m.stringMetatable
  loaded : ρ.native (.system .require) → ρ.table m.loaded
  bounded : ρ.exact ∨ m.limit = none

end Realm

/-! ### Machines that agree -/

namespace Machine

/-- The machine with another heap. -/
def withHeap (m : Machine) (h : Heap) : Machine :=
  { m with
    tables := h.tables
    cells := h.cells
    threads := h.threads
    iterations := h.iterations
    charge := h.charge
    held := h.held
    waiting := h.waiting
    output := h.output
    untilCheck := h.meter.untilCheck
    checkInterval := h.meter.checkInterval
    budget := h.meter.budget
    budgetLimit := h.meter.budgetLimit }

@[simp]
theorem withHeap_heap (m : Machine) : m.withHeap m.heap = m := rfl

@[simp]
theorem withHeap_frames (m : Machine) (h : Heap) : (m.withHeap h).frames = m.frames := rfl

@[simp]
theorem withHeap_stack (m : Machine) (h : Heap) : (m.withHeap h).stack = m.stack := rfl

@[simp]
theorem withHeap_code (m : Machine) (h : Heap) : (m.withHeap h).code = m.code := rfl

@[simp]
theorem withHeap_pc (m : Machine) (h : Heap) : (m.withHeap h).pc = m.pc := rfl

end Machine

/-- Nothing is said of what holds no place. -/
abbrev Plain {α : Type} : α → Prop := fun _ => True

/-- Two sequences of contents agree at the known places: these have the same contents on both sides,
which are as they must be, and all further places are known. The other places hold what is kept. -/
structure Agreement {α : Type} [Inhabited α] (known : Nat → Prop) (ok : α → Prop) (taken : Nat)
    (keep : Nat → α → Prop) (xs ys : Array α) : Prop where
  size : ys.size = xs.size
  same : ∀ r, known r → ys.getD r default = xs.getD r default
  ok : ∀ r, known r → ok (xs.getD r default)
  fresh : ∀ r, xs.size ≤ r → known r
  grown : taken ≤ xs.size
  kept : ∀ r, ¬known r → keep r (xs.getD r default)

namespace Agreement

variable {α : Type} [Inhabited α] {known : Nat → Prop} {ok : α → Prop} {taken : Nat}
variable {keep : Nat → α → Prop} {xs ys : Array α}

/-- A new place on both sides. -/
theorem push (h : Agreement known ok taken keep xs ys) {a : α} (ha : ok a) :
    Agreement known ok taken keep (xs.push a) (ys.push a) where
  size := by rw [Array.size_push, Array.size_push, h.size]
  same := by
    intro r hr
    have hsame := h.same r hr
    have hsize := h.size
    simp only [Array.getD_eq_getD_getElem?, Array.getElem?_push] at hsame ⊢
    rw [hsize]
    split
    · rfl
    · exact hsame
  ok := by
    intro r hr
    have hok := h.ok r hr
    simp only [Array.getD_eq_getD_getElem?, Array.getElem?_push] at hok ⊢
    split
    · exact ha
    · exact hok
  fresh := by
    intro r hr
    rw [Array.size_push] at hr
    exact h.fresh r (by omega)
  grown := by
    have hgrown := h.grown
    rw [Array.size_push]
    omega
  kept := by
    intro r hr
    have hkept := h.kept r hr
    have hne : r ≠ xs.size := fun heq => hr (h.fresh r (by omega))
    simp only [Array.getD_eq_getD_getElem?, Array.getElem?_push, if_neg hne] at hkept ⊢
    exact hkept

/-- The contents of a known place change in the same way on both sides. -/
theorem modify (h : Agreement known ok taken keep xs ys) {r : Nat} (hr : known r) {f : α → α}
    (hf : ok (xs.getD r default) → ok (f (xs.getD r default))) :
    Agreement known ok taken keep (xs.modify r f) (ys.modify r f) where
  size := by rw [Array.size_modify, Array.size_modify, h.size]
  same := by
    intro i hi
    have hsame := h.same i hi
    have hsize := h.size
    simp only [Array.getD_eq_getD_getElem?, Array.getElem?_modify] at hsame ⊢
    split
    · next heq =>
      by_cases hlt : i < xs.size
      · have hlt' : i < ys.size := by omega
        simp only [Array.getElem?_eq_getElem hlt, Array.getElem?_eq_getElem hlt',
          Option.getD_some, Option.map_some] at hsame ⊢
        rw [hsame]
      · have hge : xs.size ≤ i := by omega
        have hge' : ys.size ≤ i := by omega
        simp only [Array.getElem?_eq_none hge, Array.getElem?_eq_none hge', Option.map_none]
    · exact hsame
  ok := by
    intro i hi
    have hok := h.ok i hi
    simp only [Array.getD_eq_getD_getElem?, Array.getElem?_modify] at hok hf ⊢
    split
    · next heq =>
      subst heq
      by_cases hlt : r < xs.size
      · simp only [Array.getElem?_eq_getElem hlt, Option.getD_some, Option.map_some] at hok hf ⊢
        exact hf hok
      · have hge : xs.size ≤ r := by omega
        simp only [Array.getElem?_eq_none hge, Option.map_none] at hok ⊢
        exact hok
    · exact hok
  fresh := by
    intro i hi
    rw [Array.size_modify] at hi
    exact h.fresh i hi
  grown := by
    rw [Array.size_modify]
    exact h.grown
  kept := by
    intro i hi
    have hkept := h.kept i hi
    have hne : r ≠ i := fun heq => hi (heq ▸ hr)
    simp only [Array.getD_eq_getD_getElem?, Array.getElem?_modify, if_neg hne] at hkept ⊢
    exact hkept

/-- The contents of a known place are replaced on both sides. -/
theorem set (h : Agreement known ok taken keep xs ys) {r : Nat} (hr : known r) {a : α}
    (ha : ok a) : Agreement known ok taken keep (xs.setIfInBounds r a) (ys.setIfInBounds r a) where
  size := by rw [Array.size_setIfInBounds, Array.size_setIfInBounds, h.size]
  same := by
    intro i hi
    have hsame := h.same i hi
    have hsize := h.size
    simp only [Array.getD_eq_getD_getElem?, Array.getElem?_setIfInBounds] at hsame ⊢
    rw [hsize]
    split
    · rfl
    · exact hsame
  ok := by
    intro i hi
    have hok := h.ok i hi
    simp only [Array.getD_eq_getD_getElem?, Array.getElem?_setIfInBounds] at hok ⊢
    split
    · split
      · exact ha
      · next heq hge =>
        subst heq
        rw [Array.getElem?_eq_none (by omega)] at hok
        exact hok
    · exact hok
  fresh := by
    intro i hi
    rw [Array.size_setIfInBounds] at hi
    exact h.fresh i hi
  grown := by
    rw [Array.size_setIfInBounds]
    exact h.grown
  kept := by
    intro i hi
    have hkept := h.kept i hi
    have hne : r ≠ i := fun heq => hi (heq ▸ hr)
    simp only [Array.getD_eq_getD_getElem?, Array.getElem?_setIfInBounds, if_neg hne] at hkept ⊢
    exact hkept

end Agreement

namespace Realm

variable (ρ : Realm)

/-- What a table outside holds that is in use elsewhere. -/
def keepsTable (r : TableRef) (t : Table) : Prop :=
  ρ.anchored (.table r) → t = ρ.start.tables.getD r default

/-- What a captured variable outside holds that is in use elsewhere. -/
def keepsCell (r : CellRef) (c : Cell) : Prop :=
  ρ.anchored (.cell r) → c = ρ.start.cells.getD r default

/-- What a coroutine outside holds that is in use elsewhere. -/
def keepsThread (r : ThreadRef) (t : Thread) : Prop :=
  ρ.anchored (.thread r) → t = ρ.start.threads.getD r default

/-- How far an iteration outside is that is in use elsewhere. -/
def keepsIteration (i : Nat) (s : MatchState) : Prop :=
  ρ.anchored (.iteration i) → s = ρ.start.iterations.getD i default

/-- A machine agrees on a realm with the same machine on another heap. In an exact realm only the
counts of instructions may differ. -/
structure Agree (m : Machine) (h : Heap) : Prop where
  tables : Agreement ρ.table ρ.contents ρ.start.tables.size ρ.keepsTable m.tables h.tables
  cells : Agreement ρ.cell ρ.captured ρ.start.cells.size ρ.keepsCell m.cells h.cells
  threads : Agreement ρ.thread ρ.coroutine ρ.start.threads.size ρ.keepsThread m.threads h.threads
  iterations :
    Agreement ρ.iteration Plain ρ.start.iterations.size ρ.keepsIteration m.iterations h.iterations
  core : ρ.core m
  meter : ρ.metering.related m.meter h.meter
  same : ρ.exact → h = { m.heap with meter := h.meter }
  held : ∀ v ∈ ρ.anchors, v ∈ m.held

end Realm

/-- Contents that agree with others agree with themselves. -/
theorem Agreement.self {α : Type} [Inhabited α] {known : Nat → Prop} {ok : α → Prop} {taken : Nat}
    {keep : Nat → α → Prop} {xs ys : Array α} (h : Agreement known ok taken keep xs ys) :
    Agreement known ok taken keep xs xs :=
  { h with
    size := rfl
    same := fun _ _ => rfl }

/-- A machine that agrees with another one agrees with itself. -/
theorem Realm.Agree.self {ρ : Realm} {m : Machine} {h : Heap} (agree : ρ.Agree m h) :
    ρ.Agree m m.heap where
  tables := agree.tables.self
  cells := agree.cells.self
  threads := agree.threads.self
  iterations := agree.iterations.self
  core := agree.core
  meter := ρ.metering.related_self agree.meter
  same := fun _ => rfl
  held := agree.held

/-- A change outside of the heap. -/
theorem Realm.Agree.withCore {ρ : Realm} {m m' : Machine} {h : Heap} (agree : ρ.Agree m h)
    (core : ρ.core m') (heap : m'.heap = m.heap) : ρ.Agree m' h := by
  have hheap := heap
  simp only [Machine.heap, Heap.mk.injEq] at hheap
  obtain ⟨htables, hcells, hthreads, hiterations, -, hheld, -, -, hmeter⟩ := hheap
  exact {
    tables := by rw [htables]; exact agree.tables
    cells := by rw [hcells]; exact agree.cells
    threads := by rw [hthreads]; exact agree.threads
    iterations := by rw [hiterations]; exact agree.iterations
    core
    meter := by rw [hmeter]; exact agree.meter
    same := fun e => by rw [heap]; exact agree.same e
    held := by rw [hheld]; exact agree.held }

/-! ### Computations that stay in a realm -/

/-- A computation that has a result comes first. -/
theorem Run.bind_of_ok {ε σ α β : Type} {x : EStateM ε σ α} {f : α → EStateM ε σ β} {m m' : σ}
    {a : α} (h : x m = .ok a m') : (x >>= f) m = f a m' := by
  change EStateM.bind x f m = _
  rw [EStateM.bind, h]

/-- A computation that stops comes first. -/
theorem Run.bind_of_error {ε σ α β : Type} {x : EStateM ε σ α} {f : α → EStateM ε σ β} {m m' : σ}
    {e : ε} (h : x m = .error e m') : (x >>= f) m = .error e m' := by
  change EStateM.bind x f m = _
  rw [EStateM.bind, h]

variable {ρ : Realm} {α β : Type}

/-- Two computations end in the same way on machines that agree. If the count of the first machine is
late at the end, only the first one is as it must be. A count that was late stays so. -/
inductive Realm.Same (ρ : Realm) (μ : Meter) (Q : α → Prop) :
    EStateM.Result Fault Machine α → EStateM.Result Fault Machine α → Prop
  | ok {a m h} (result : Q a) (agree : ρ.Agree m h)
      (late : ρ.metering.late μ → ρ.metering.late m.meter) :
      Same ρ μ Q (.ok a m) (.ok a (m.withHeap h))
  | error {e m h} (fault : ρ.fault e) (agree : ρ.Agree m h)
      (late : ρ.metering.late μ → ρ.metering.late m.meter) :
      Same ρ μ Q (.error e m) (.error e (m.withHeap h))
  | lateOk {a m r} (result : Q a) (agree : ρ.Agree m m.heap) (late : ρ.metering.late m.meter) :
      Same ρ μ Q (.ok a m) r
  | lateError {e m r} (fault : ρ.fault e) (agree : ρ.Agree m m.heap)
      (late : ρ.metering.late m.meter) : Same ρ μ Q (.error e m) r

namespace Realm.Same

variable {Q : α → Prop} {μ μ' : Meter} {r r' r'' : EStateM.Result Fault Machine α}

/-- A count that is late at the start is so at an earlier one. -/
theorem since (h : ρ.Same μ' Q r r') (late : ρ.metering.late μ → ρ.metering.late μ') :
    ρ.Same μ Q r r' := by
  cases h with
  | ok ha agree hlate => exact .ok ha agree fun h => hlate (late h)
  | error he agree hlate => exact .error he agree fun h => hlate (late h)
  | lateOk ha agree hlate => exact .lateOk ha agree hlate
  | lateError he agree hlate => exact .lateError he agree hlate

/-- If the first count is late from the start, the second machine makes no difference. -/
theorem ofLate (h : ρ.Same μ Q r r') (late : ρ.metering.late μ) : ρ.Same μ' Q r r'' := by
  cases h with
  | ok ha agree hlate => exact .lateOk ha agree.self (hlate late)
  | error he agree hlate => exact .lateError he agree.self (hlate late)
  | lateOk ha agree hlate => exact .lateOk ha agree hlate
  | lateError he agree hlate => exact .lateError he agree hlate

end Realm.Same

/-- The computation stays in the realm, and so does its result. -/
def Stays (ρ : Realm) (Q : α → Prop) (x : Run α) : Prop :=
  ∀ m h, ρ.Agree m h → ρ.Same m.meter Q (x m) (x (m.withHeap h))

namespace Stays

variable {P Q : α → Prop} {R : β → Prop}

theorem pure {a : α} (ha : Q a) : Stays ρ Q (Pure.pure a) := fun _ _ agree => .ok ha agree id

theorem plain (a : α) : Stays ρ Plain (Pure.pure a) := pure trivial

theorem throw {e : Fault} (he : ρ.fault e) : Stays ρ Q (MonadExcept.throw e) :=
  fun _ _ agree => .error he agree id

theorem mono {x : Run α} (hx : Stays ρ P x) (hPQ : ∀ a, P a → Q a) : Stays ρ Q x := by
  intro m h agree
  have hsame := hx m h agree
  generalize x m = r at hsame ⊢
  generalize x (m.withHeap h) = r' at hsame ⊢
  cases hsame with
  | ok ha agree late => exact .ok (hPQ _ ha) agree late
  | error he agree late => exact .error he agree late
  | lateOk ha agree late => exact .lateOk (hPQ _ ha) agree late
  | lateError he agree late => exact .lateError he agree late

/-- What is done from a machine on whose count is late. The other machine makes no difference. -/
theorem ofLate {x : Run α} (hx : Stays ρ Q x) {m : Machine} (agree : ρ.Agree m m.heap)
    (late : ρ.metering.late m.meter) {μ : Meter} {r : EStateM.Result Fault Machine α} :
    ρ.Same μ Q (x m) r := (hx m m.heap agree).ofLate late

/-- One computation after the other. -/
theorem bind {x : Run α} {f : α → Run β} (hx : Stays ρ P x) (hf : ∀ a, P a → Stays ρ R (f a)) :
    Stays ρ R (x >>= f) := by
  intro m h agree
  have hsame := hx m h agree
  change ρ.Same _ R (EStateM.bind x f m) (EStateM.bind x f (m.withHeap h))
  unfold EStateM.bind
  generalize x m = r at hsame ⊢
  generalize x (m.withHeap h) = r' at hsame ⊢
  cases hsame with
  | ok ha agree late => exact (hf _ ha _ _ agree).since late
  | error he agree late => exact .error he agree late
  | lateOk ha agree late => exact (hf _ ha).ofLate agree late
  | lateError he agree late => exact .lateError he agree late

/-- A computation whose result is not needed comes first. -/
theorem andThen {x : Run α} {y : Run β} (hx : Stays ρ P x) (hy : Stays ρ R y) :
    Stays ρ R (x >>= fun _ => y) := hx.bind fun _ _ => hy

/-- Nothing comes after a computation that has no result. -/
theorem stops {x : Run α} {f : α → Run β} (hx : Stays ρ (fun _ => False) x) :
    Stays ρ R (x >>= f) := hx.bind fun _ h => h.elim

theorem discard {x : Run α} (hx : Stays ρ P x) : Stays ρ Plain (Functor.discard x) :=
  hx.bind fun _ _ => pure trivial

/-- A fault is caught. -/
theorem tryCatch {x : Run α} {f : Fault → Run α} (hx : Stays ρ Q x)
    (hf : ∀ e, ρ.fault e → Stays ρ Q (f e)) : Stays ρ Q (MonadExcept.tryCatch x f) := by
  intro m h agree
  have hsame := hx m h agree
  change ρ.Same _ Q (EStateM.tryCatch x f m) (EStateM.tryCatch x f (m.withHeap h))
  unfold EStateM.tryCatch
  generalize x m = r at hsame ⊢
  generalize x (m.withHeap h) = r' at hsame ⊢
  cases hsame with
  | ok ha agree late => exact .ok ha agree late
  | error he agree late => exact (hf _ he _ _ agree).since late
  | lateOk ha agree late => exact .lateOk ha agree late
  | lateError he agree late => exact (hf _ he).ofLate agree late

theorem ite {c : Prop} [Decidable c] {x y : Run α} (hx : c → Stays ρ Q x) (hy : ¬c → Stays ρ Q y) :
    Stays ρ Q (if c then x else y) := by
  split
  · next hc => exact hx hc
  · next hc => exact hy hc

/-- A computation comes first if a condition holds. -/
theorem whenThen {c : Prop} [Decidable c] {x : Run Unit} {rest : Unit → Run α} (hx : Stays ρ Plain x)
    (hrest : Stays ρ Q (rest ())) :
    Stays ρ Q (if c then x >>= rest else rest ()) :=
  ite (fun _ => hx.bind fun _ _ => hrest) fun _ => hrest

/-- A computation comes first unless a condition holds. -/
theorem unlessThen {c : Prop} [Decidable c] {x : Run Unit} {rest : Unit → Run α}
    (hx : Stays ρ Plain x) (hrest : Stays ρ Q (rest ())) :
    Stays ρ Q (if c then rest () else x >>= rest) :=
  ite (fun _ => hrest) fun _ => hx.bind fun _ _ => hrest

theorem map {x : Run α} {f : α → β} (hx : Stays ρ P x) (hf : ∀ a, P a → R (f a)) :
    Stays ρ R (f <$> x) := by
  rw [map_eq_pure_bind]
  exact hx.bind fun a ha => pure (hf a ha)

/-- The same is done with each of a list. -/
theorem mapM {f : α → Run β} (xs : List α) (hf : ∀ a ∈ xs, Stays ρ R (f a)) :
    Stays ρ (fun ys => ∀ y ∈ ys, R y) (xs.mapM f) := by
  induction xs with
  | nil => exact pure fun _ h => nomatch h
  | cons a xs ih =>
    rw [List.mapM_cons]
    exact (hf a List.mem_cons_self).bind fun y hy =>
      (ih fun b hb => hf b (List.mem_cons_of_mem _ hb)).bind fun ys hys =>
        pure (List.forall_mem_cons.mpr ⟨hy, hys⟩)

/-- The same is done with each of a sequence. -/
theorem mapM_array {f : α → Run β} (xs : Array α) (hf : ∀ a ∈ xs, Stays ρ R (f a)) :
    Stays ρ (fun ys => ∀ y ∈ ys, R y) (xs.mapM f) := by
  rw [Array.mapM_eq_mapM_toList]
  refine (mapM xs.toList fun a ha => hf a (Array.mem_toList_iff.mp ha)).map fun ys hys y hy => ?_
  exact hys y (List.mem_toArray.mp hy)

/-- What holds of the state of a loop, whether it goes on or not. -/
def step (R : β → Prop) : ForInStep β → Prop
  | .yield b | .done b => R b

/-- A loop over a list. -/
theorem forIn {f : α → β → Run (ForInStep β)} (xs : List α) {b : β} (hb : R b)
    (hf : ∀ a ∈ xs, ∀ b, R b → Stays ρ (step R) (f a b)) : Stays ρ R (ForIn.forIn xs b f) := by
  induction xs generalizing b with
  | nil => exact pure hb
  | cons a xs ih =>
    rw [List.forIn_cons]
    refine (hf a List.mem_cons_self b hb).bind fun s hs => ?_
    cases s with
    | done b => exact pure hs
    | yield b => exact ih hs fun a ha => hf a (List.mem_cons_of_mem _ ha)

/-- A loop over numbers. -/
theorem forIn_range {f : Nat → β → Run (ForInStep β)} (r : Std.Legacy.Range) {b : β} (hb : R b)
    (hf : ∀ i b, R b → Stays ρ (step R) (f i b)) : Stays ρ R (ForIn.forIn r b f) := by
  rw [Std.Legacy.Range.forIn_eq_forIn_range']
  exact forIn _ hb fun i _ => hf i

/-- The machine is read outside of the heap. -/
theorem read {f : Machine → Run α} (hf : ∀ m, ρ.core m → Stays ρ Q (f m))
    (outside : ∀ m h, f (m.withHeap h) = f m) : Stays ρ Q (get >>= f) := by
  intro m h agree
  have hsame := hf m agree.core m h agree
  change ρ.Same _ Q (f m m) (f (m.withHeap h) (m.withHeap h))
  rw [outside]
  exact hsame

/-- In an exact realm all of the machine may be read but the count of instructions. -/
theorem readAll (hexact : ρ.exact) {f : Machine → Run α} (hf : ∀ m, Stays ρ Q (f m))
    (uncounted : ∀ m μ, f (m.withMeter μ) = f m) : Stays ρ Q (get >>= f) := by
  intro m h agree
  have hsame := hf m m h agree
  have hmeter : m.withHeap h = m.withMeter h.meter := by rw [agree.same hexact]; rfl
  change ρ.Same _ Q (f m m) (f (m.withHeap h) (m.withHeap h))
  rw [hmeter, uncounted, ← hmeter]
  exact hsame

/-- The machine is changed, on both sides in the same way. -/
theorem change {g : Machine → Machine} (meter : ∀ m, (g m).meter = m.meter)
    (hg : ∀ m h, ρ.Agree m h → ∃ h', g (m.withHeap h) = (g m).withHeap h' ∧ ρ.Agree (g m) h') :
    Stays ρ Plain (modify g : Run Unit) := by
  intro m h agree
  obtain ⟨h', heq, agree'⟩ := hg m h agree
  change ρ.Same _ Plain (.ok () (g m)) (.ok () (g (m.withHeap h)))
  rw [heq]
  exact .ok trivial agree' fun late => by rw [meter]; exact late

/-- The machine is changed outside of the heap. -/
theorem changeCore {g : Machine → Machine} (hg : ∀ m, ρ.core m → ρ.core (g m))
    (outside : ∀ m h, g (m.withHeap h) = (g m).withHeap h) (heap : ∀ m, (g m).heap = m.heap) :
    Stays ρ Plain (modify g : Run Unit) :=
  change (fun m => congrArg Heap.meter (heap m)) fun m h agree =>
    ⟨h, outside m h, agree.withCore (hg m agree.core) (heap m)⟩

end Stays

end PixelHost.Lua
