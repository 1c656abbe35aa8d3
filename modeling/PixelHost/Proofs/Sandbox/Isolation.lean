import PixelHost.Proofs.Lua.Parts
import PixelHost.Proofs.Lua.Shape
import PixelHost.Proofs.Sandbox.Alike

/-!
# Programs do not disturb each other

What a program gives does not depend on the programs that ran before it, as long as these leave alone
what it has in common with them: the tables that all programs share, and what can be reached from
there. All else that belongs to the program is out of reach of the others, and they lie outside of
what it can reach; memory that they leave behind is given back without a trace.

Programs do have the shared tables in reach. When a program removes its own name `_G`, or one of its
copies of a library, the name leads to the shared table.

## Main definitions

* `Sandbox.History` — what happens to a sandbox.
* `Sandbox.Use` — what is done with a program.
* `Sandbox.Untouched` — what a program has in common with others is as it was.

## Main results

* `Sandbox.History.alike` — every history stays in an exact realm.
* `Sandbox.Use.view_isolated` — other programs make no difference to what a program gives.
-/

namespace PixelHost.Sandbox

open Lua

/-! ### Histories -/

theorem mem_toOption {ε α : Type} {r : Ending ε α} {a : α} : a ∈ r.toOption ↔ r = .ok a := by
  cases r <;> simp [Ending.toOption]

/-- What happens to a sandbox, with the programs and values that it handed out on the way: programs
are compiled, and those that were handed out are invoked with values that were handed out. Meanwhile
some values are in use elsewhere. -/
inductive History (kept : List Value) (s : Sandbox) : Sandbox → List Value → Prop
  | start : History kept s s []
  | compile {s' vs inUse} (before : History kept s s' vs)
      (keeps : ∀ v ∈ kept, v ∈ inUse.chunks ++ inUse.memos) (source : String) :
      History kept s (s'.compile inUse source).2
        ((s'.compile inUse source).1.toOption.toList ++ vs)
  | invoke {s' vs inUse chunk memo} (before : History kept s s' vs)
      (keeps : ∀ v ∈ kept, v ∈ inUse.chunks ++ inUse.memos) (hchunk : chunk ∈ vs)
      (hmemo : ∀ v ∈ memo, v ∈ vs) (counter : UInt32) :
      History kept s (s'.invoke inUse chunk counter memo).2
        (((s'.invoke inUse chunk counter memo).1.toOption.bind (·.memo)).toList ++ vs)

/-- Only the machine of a sandbox changes. -/
theorem runOn_snd {α : Type} (s : Sandbox) (x : Run α) :
    ∃ m, (s.runOn x).2 = { s with machine := m } := by
  unfold runOn
  cases x s.machine with
  | ok a m => exact ⟨m, rfl⟩
  | error fault m => exact ⟨m, rfl⟩

/-- Only the machine of a sandbox changes. -/
theorem compile_snd (s : Sandbox) (inUse : InUse Value Value) (source : String) :
    ∃ m, (s.compile inUse source).2 = { s with machine := m } := by
  have hload := s.runOn_snd (load inUse source)
  unfold compile
  generalize s.runOn (load inUse source) = r at hload
  obtain ⟨result, s'⟩ := r
  rcases result with (_ | _) | _ | _ <;> exact hload

/-- Only the machine of a sandbox changes. -/
theorem invoke_snd (s : Sandbox) (inUse : InUse Value Value) (chunk : Value) (counter : UInt32)
    (memo : Option Value) :
    ∃ m, (s.invoke inUse chunk counter memo).2 = { s with machine := m } := by
  have hcall := s.runOn_snd (s.call inUse chunk counter memo)
  unfold invoke
  generalize s.runOn (s.call inUse chunk counter memo) = r at hcall
  obtain ⟨results, s'⟩ := r
  obtain ⟨m, rfl⟩ : ∃ m, s' = { s with machine := m } := hcall
  dsimp only
  split
  · exact ⟨m, rfl⟩
  · exact runOn_snd { s with machine := m } Run.recount
  · exact ⟨m, rfl⟩

theorem History.machine {kept vs : List Value} {s s' : Sandbox} (history : History kept s s' vs) :
    s' = { s with machine := s'.machine } := by
  induction history with
  | start => rfl
  | compile before keeps source ih =>
    obtain ⟨m, heq⟩ := compile_snd _ _ source
    rw [heq, ih]
  | invoke before keeps hchunk hmemo counter ih =>
    obtain ⟨m, heq⟩ := invoke_snd _ _ _ counter _
    rw [heq, ih]

/-- A history stays in an exact realm. By induction on what happens. -/
theorem History.alike {ρ : Realm} {kept vs : List Value} {s s' : Sandbox}
    (history : History kept s s' vs) (hexact : ρ.exact) (hkept : ρ.anchors = kept)
    (alike : Alike ρ s s) : Alike ρ s' s' ∧ ∀ v ∈ vs, ρ.value v := by
  induction history with
  | start => exact ⟨alike, fun _ h => nomatch h⟩
  | compile before keeps source ih =>
    obtain ⟨alike, hvs⟩ := ih
    obtain ⟨-, hprogram, alike'⟩ := alike.compile (hkept ▸ keeps) (fun _ => rfl) source
    refine ⟨alike', fun v hv => ?_⟩
    rcases List.mem_append.mp hv with hv | hv
    · exact hprogram v (mem_toOption.mp (Option.mem_toList.mp hv))
    · exact hvs v hv
  | invoke before keeps hchunk hmemo counter ih =>
    obtain ⟨alike, hvs⟩ := ih
    obtain ⟨-, hout, alike'⟩ := alike.invoke (hkept ▸ keeps) (fun _ => rfl) (hvs _ hchunk) counter
      fun v hv => hvs v (hmemo v hv)
    refine ⟨alike' (.inl hexact), fun v hv => ?_⟩
    rcases List.mem_append.mp hv with hv | hv
    · obtain ⟨o, ho, hv⟩ := Option.mem_bind_iff.mp (Option.mem_toList.mp hv)
      exact hout o (mem_toOption.mp ho) v hv
    · exact hvs v hv

/-! ### What programs have in common -/

/-- A library function that programs may get hold of: it neither tells how much memory is in use nor
gives the libraries themselves. -/
def Permitted (f : Native) : Prop := f ≠ .base .collectgarbage ∧ f ≠ .system .require

/-- The heap of a sandbox at rest. -/
def heap (s : Sandbox) : Heap := s.machine.rested.heap

/-- The tables of the shared global names and of what strings can do. -/
def shared (s : Sandbox) : List Target := [.table s.machine.globals, .table s.machine.stringMetatable]

theorem not_mem_shared {s : Sandbox} {f : Native} : .native f ∉ s.shared := by
  simp only [shared, List.mem_cons, List.not_mem_nil, reduceCtorEq, or_self, not_false_eq_true]

/-- What a program that holds some values has in common with programs that are compiled later is as
it was: what it can reach and the shared tables lead to, and what it can reach without its being
there yet. -/
def Untouched (own : List Value) (s s' : Sandbox) : Prop :=
  ∀ t, s.heap.Reaches (s.shared ++ own.flatMap Value.targets) t →
    s.heap.Reaches s.shared t ∨ ¬s.heap.Taken t → s.heap.SameAt s'.heap t

/-! ### What is done with a program -/

/-- What is done with a program: it is compiled and invoked, or, compiled already, it is invoked with
the value that was handed on to it. -/
inductive Use where
  | upload (source : String) (counter : UInt32)
  | next (chunk : Value) (memo : Option Value) (counter : UInt32)

/-- What can be told of an outcome: the frame, the delay and the shape of the value that is handed
on, or the error, if there is an outcome at all. -/
abbrev View := Ending ScriptError (Bytes × Delay × Option (Nat → Shape))

/-- What can be told of an outcome. -/
def view (r : Ending ScriptError (Outcome Value) × Sandbox) : View :=
  match r.1 with
  | .ok o => .ok (o.frame, o.delay, o.memo.map fun v depth => r.2.heap.shape depth v)
  | .error e => .error e
  | .lost => .lost

namespace Use

/-- The values that the program holds. -/
def values : Use → List Value
  | .upload _ _ => []
  | .next chunk memo _ => chunk :: memo.toList

/-- Carries out what is done with the program. -/
def run (use : Use) (inUse : InUse Value Value) (s : Sandbox) :
    Ending ScriptError (Outcome Value) × Sandbox :=
  match use with
  | .upload source counter =>
    match s.compile inUse source with
    | (.ok chunk, s) => s.invoke inUse chunk counter none
    | (.error e, s) => (.error e, s)
    | (.lost, s) => (.lost, s)
  | .next chunk memo counter => s.invoke inUse chunk counter memo

end Use

/-- A program is used alike. -/
theorem Alike.run {ρ : Realm} {s t : Sandbox} {i j : InUse Value Value} (alike : Alike ρ s t)
    (hi : Keeps ρ i) (hj : ρ.exact → j = i) {use : Use} (hown : ∀ v ∈ use.values, ρ.value v) :
    (use.run j t).1 = (use.run i s).1 ∧ ∀ o, (use.run i s).1 = .ok o →
      (∀ v ∈ o.memo, ρ.value v) ∧ Alike ρ (use.run i s).2 (use.run j t).2 := by
  cases use with
  | upload source counter =>
    obtain ⟨hsame, hprogram, alike'⟩ := alike.compile hi hj source
    simp only [Use.run]
    generalize s.compile i source = r at hsame hprogram alike' ⊢
    generalize t.compile j source = r' at hsame alike' ⊢
    obtain ⟨r, s'⟩ := r
    obtain ⟨r', t'⟩ := r'
    obtain rfl : r' = r := hsame
    cases r' with
    | error | lost =>
      refine ⟨rfl, ?_⟩
      rintro _ ⟨⟩
    | ok chunk =>
      have hnone : ∀ v ∈ (none : Option Value), ρ.value v := fun _ h => nomatch h
      obtain ⟨hsame, hout, alike''⟩ := Alike.invoke alike' hi hj (hprogram chunk rfl) counter hnone
      exact ⟨hsame, fun o ho => ⟨hout o ho, alike'' (.inr ⟨o, ho⟩)⟩⟩
  | next chunk memo counter =>
    have hchunk := hown chunk List.mem_cons_self
    have hmemo : ∀ v ∈ memo, ρ.value v := fun v hv =>
      hown v (List.mem_cons_of_mem _ (Option.mem_toList.mpr hv))
    obtain ⟨hsame, hout, alike'⟩ := alike.invoke hi hj hchunk counter hmemo
    exact ⟨hsame, fun o ho => ⟨hout o ho, alike' (.inr ⟨o, ho⟩)⟩⟩

/-- What can be told of values of the realm is the same in sandboxes that are alike. -/
theorem Alike.shape_eq {ρ : Realm} {s t : Sandbox} {i : InUse Value Value} (alike : Alike ρ s t)
    (hi : Keeps ρ i) (n : Nat) {v : Value} (hv : ρ.value v) :
    t.heap.shape n v = s.heap.shape n v := by
  obtain ⟨h, agree, heq⟩ := alike.agree i i hi fun _ => rfl
  calc t.heap.shape n v = h.shape n v :=
        Heap.shape_congr (congrArg Machine.tables heq) (congrArg Machine.cells heq)
          (congrArg Machine.iterations heq) n v
    _ = (keeping i s.machine).rested.heap.shape n v := agree.shape_eq n hv
    _ = s.heap.shape n v := @Heap.shape_congr s.heap (keeping i s.machine).rested.heap rfl rfl rfl n v

/-- What can be told of the outcome is the same in sandboxes that are alike. -/
theorem Alike.view_eq {ρ : Realm} {s t : Sandbox} {i j : InUse Value Value} (alike : Alike ρ s t)
    (hi : Keeps ρ i) (hj : ρ.exact → j = i) {use : Use} (hown : ∀ v ∈ use.values, ρ.value v) :
    view (use.run j t) = view (use.run i s) := by
  obtain ⟨hsame, hok⟩ := alike.run hi hj hown
  unfold view
  rw [hsame]
  cases hresult : (use.run i s).1 with
  | error | lost => rfl
  | ok o =>
    obtain ⟨hmemo, alike'⟩ := hok o hresult
    have hshape : (o.memo.map fun v depth => (use.run j t).2.heap.shape depth v) =
        o.memo.map fun v depth => (use.run i s).2.heap.shape depth v :=
      Option.map_congr fun v hv => funext fun depth => alike'.shape_eq hi depth (hmemo v hv)
    exact congrArg (fun shape => (.ok (o.frame, o.delay, shape) : View)) hshape

/-! ### What a program must not depend on -/

/-- The sandbox without a bound on memory. -/
def unbounded (s : Sandbox) : Sandbox := { s with machine := { s.machine with limit := none } }

/-- Contents with places beyond that hold nothing. -/
def padded {α : Type} [Inhabited α] (xs : Array α) (n : Nat) : Array α :=
  xs ++ Array.replicate (n - xs.size) default

/-- What the sandbox holds, on another machine without a bound on memory: the next places and
numbers, the time and the random numbers are those of that machine. -/
def amid (s : Sandbox) (m : Machine) : Sandbox := { s with machine := { m with
  tables := padded s.machine.tables m.tables.size
  cells := padded s.machine.cells m.cells.size
  threads := padded s.machine.threads m.threads.size
  iterations := padded s.machine.iterations m.iterations.size
  globals := s.machine.globals
  stringMetatable := s.machine.stringMetatable
  limit := none } }

/-- As many places are taken on another machine, at least. -/
structure Fits (s : Sandbox) (m : Machine) : Prop where
  tables : s.machine.tables.size ≤ m.tables.size
  cells : s.machine.cells.size ≤ m.cells.size
  threads : s.machine.threads.size ≤ m.threads.size
  iterations : s.machine.iterations.size ≤ m.iterations.size

/-- What a program gives does not depend on the memory that there is, nor on the places and numbers
that are next, the time and the random numbers. -/
def Steady (use : Use) (i : InUse Value Value) (s : Sandbox) : Prop :=
  ∀ m j, s.Fits m → view (use.run j (s.amid m)) = view (use.run i s)

/-- The memory that there is makes no difference to what a program gives. -/
def Roomy (use : Use) (i : InUse Value Value) (s : Sandbox) : Prop :=
  view (use.run i s) = view (use.run i s.unbounded)

theorem Fits.taken {s s' : Sandbox} (hfits : s.Fits s'.machine) {t : Target} (ht : s.heap.Taken t) :
    s'.heap.Taken t := by
  cases t with
  | table r => exact Nat.lt_of_lt_of_le ht hfits.tables
  | cell r => exact Nat.lt_of_lt_of_le ht hfits.cells
  | thread r =>
    simp only [heap, Machine.heap, Machine.rested, Heap.Taken, Array.size_setIfInBounds] at ht ⊢
    exact Nat.lt_of_lt_of_le ht hfits.threads
  | iteration i => exact Nat.lt_of_lt_of_le ht hfits.iterations
  | native f => trivial

theorem getD_padded {α : Type} [Inhabited α] (xs : Array α) (n r : Nat) :
    (padded xs n).getD r default = xs.getD r default := by
  simp only [padded, Array.getD_eq_getD_getElem?, Array.getElem?_append]
  split
  · rfl
  · next hr =>
    rw [Array.getElem?_eq_none (Nat.le_of_not_lt hr), Array.getElem?_replicate]
    split <;> rfl

theorem size_padded {α : Type} [Inhabited α] {xs : Array α} {n : Nat} (h : xs.size ≤ n) :
    (padded xs n).size = n := by
  rw [padded, Array.size_append, Array.size_replicate]
  omega

/-! ### The realms of programs -/

/-- Sandboxes are alike that differ outside of a closed part of the heap only. -/
theorem alike_of_closed {ρ : Realm} {s t : Sandbox} (frameLength : t.frameLength = s.frameLength)
    (instructionLimit : t.instructionLimit = s.instructionLimit)
    (allowance : t.allowance = s.allowance)
    (metering : ρ.metering = .same) (meter : t.machine.meter = s.machine.meter)
    (outside : t.machine = s.machine.withHeap t.machine.heap)
    (closed : ∀ x, ρ.has x → ∀ x' ∈ s.heap.targetsAt x, ρ.has x')
    (fresh : ∀ x, ¬s.heap.Taken x → ρ.has x) (same : ∀ x, ρ.has x → s.heap.SameAt t.heap x)
    (sizes : t.heap.tables.size = s.heap.tables.size ∧ t.heap.cells.size = s.heap.cells.size ∧
      t.heap.threads.size = s.heap.threads.size ∧ t.heap.iterations.size = s.heap.iterations.size)
    (start : ρ.start.tables = s.heap.tables ∧ ρ.start.cells = s.heap.cells ∧
      ρ.start.threads = s.heap.threads ∧ ρ.start.iterations = s.heap.iterations)
    (names : (s.machine.globals, s.machine.stringMetatable) = ρ.names)
    (shared : ∀ x ∈ s.shared, ρ.has x) (requires : ¬ρ.native (.system .require))
    (bounded : ρ.exact ∨ s.machine.limit = none) (exact : ρ.exact → t = s) : Alike ρ s t where
  frameLength := frameLength
  instructionLimit := instructionLimit
  allowance := allowance
  metering := metering
  agree i j hi hj := by
    refine ⟨(keeping j t.machine).rested.heap, ?_, ?_⟩
    · have hcore : ρ.core (keeping i s.machine).rested := .of_rested names
        (shared _ List.mem_cons_self) (shared _ (List.mem_cons_of_mem _ List.mem_cons_self))
        requires bounded
      have hmeter : ρ.metering.related (keeping i s.machine).rested.meter
          (keeping j t.machine).rested.meter := by
        rw [metering]
        exact meter
      refine .of_closed closed fresh same sizes start hcore hmeter (fun e => ?_) fun v hv => ?_
      · rw [exact e, hj e]
      · exact List.mem_toArray.mpr (hi v hv)
    · rw [outside]
      rfl

theorem permitted_of_arises {f : Native} (h : f.Arises) : Permitted f := by
  constructor <;> rintro rfl <;> exact h

/-- The places that can be reached in a heap or are not taken in another one, and the library
functions that programs may get hold of. -/
def Within (h : Heap) (roots : List Target) (h' : Heap) : Target → Prop
  | .native f => Permitted f
  | t => t = .thread 0 ∨ h.Reaches roots t ∨ ¬h'.Taken t

/-- What can be reached in a heap or is not taken in another one, as a realm. -/
def realm (h : Heap) (roots : List Target) (h' : Heap) (names : TableRef × TableRef)
    (exact : Prop) (start : Heap) (anchors : List Value) : Realm :=
  .part (Within h roots h') (.inl rfl) (fun _ => permitted_of_arises) (fun h => h.1 rfl) names exact
    start anchors

/-- No place leads to a library function that programs may not get hold of. -/
def Sealed (s : Sandbox) : Prop := ∀ t f, .native f ∈ s.heap.targetsAt t → Permitted f

/-- A main coroutine at rest leads nowhere. -/
theorem targetsAt_thread_zero (s : Sandbox) : s.heap.targetsAt (.thread 0) = [] := by
  have hzero : s.heap.threads.getD 0 default = { status := .running } ∨
      s.heap.threads.getD 0 default = default := by
    simp only [heap, Machine.heap, Machine.rested, Array.getD_eq_getD_getElem?,
      Array.getElem?_setIfInBounds, if_pos]
    split
    · exact .inl rfl
    · exact .inr rfl
  rcases hzero with hzero | hzero
  · rw [Heap.targetsAt, hzero]; rfl
  · rw [Heap.targetsAt, hzero]; rfl

/-- A main coroutine at rest holds the same where there are as many coroutines. -/
theorem sameAt_thread_zero {s t : Sandbox} (h : t.heap.threads.size = s.heap.threads.size) :
    s.heap.SameAt t.heap (.thread 0) := by
  simp only [heap, Machine.heap, Machine.rested, Array.size_setIfInBounds] at h
  simp only [heap, Machine.heap, Machine.rested, Heap.SameAt, Array.getD_eq_getD_getElem?,
    Array.getElem?_setIfInBounds, if_pos, h]

section

variable {h h' : Heap} {roots : List Target} {names : TableRef × TableRef} {exact : Prop}
variable {start : Heap} {anchors : List Value} {t t' : Target} {s : Sandbox}

theorem realm_has : (realm h roots h' names exact start anchors).has t ↔ Within h roots h' t := by
  cases t <;> exact Iff.rfl

theorem within_of_reaches (hsealed : ∀ f, t = .native f → Permitted f) (way : h.Reaches roots t) :
    Within h roots h' t := by
  cases t with
  | native f => exact hsealed f rfl
  | _ => exact .inr (.inl way)

/-- What is within leads to what is within. -/
theorem within_closed (hsealed : Sealed s) (hsame : ∀ t, t ≠ .thread 0 → h.SameAt s.heap t)
    (hgrown : ∀ t, ¬h'.Taken t → ¬h.Taken t) (ht : Within h roots h' t)
    (ht' : t' ∈ s.heap.targetsAt t) : Within h roots h' t' := by
  have hpermitted : ∀ f, t' = .native f → Permitted f := by
    rintro f rfl
    exact hsealed t f ht'
  by_cases hzero : t = .thread 0
  · rw [hzero, targetsAt_thread_zero] at ht'
    exact absurd ht' List.not_mem_nil
  have hfrom : t' ∈ h.targetsAt t := (hsame t hzero).targetsAt ▸ ht'
  have hway : h.Reaches roots t → Within h roots h' t' := fun way =>
    within_of_reaches hpermitted (way.step hfrom)
  have huntaken : ¬h'.Taken t → Within h roots h' t' := fun hnot => by
    rw [Heap.targetsAt_untaken (hgrown t hnot)] at hfrom
    exact absurd hfrom List.not_mem_nil
  cases t with
  | native f => exact absurd hfrom List.not_mem_nil
  | _ => exact (ht.resolve_left hzero).elim hway huntaken

end

/-- The rest of the sandbox holds the same on another machine, but for the main coroutine. -/
theorem sameAt_amid (s : Sandbox) (m : Machine) {t : Target} (ht : t ≠ .thread 0) :
    s.heap.SameAt (s.amid m).heap t := by
  cases t with
  | table r => exact getD_padded _ _ r
  | cell r => exact getD_padded _ _ r
  | thread r =>
    have hr : 0 ≠ r := fun h => ht (h ▸ rfl)
    have hpadded := getD_padded s.machine.threads m.threads.size r
    simp only [Array.getD_eq_getD_getElem?] at hpadded
    simp only [Heap.SameAt, heap, Machine.heap, Machine.rested, amid, Array.getD_eq_getD_getElem?,
      Array.getElem?_setIfInBounds, if_neg hr, hpadded]
  | iteration i => exact getD_padded _ _ i
  | native f => trivial

/-- A place that is not taken is within. -/
theorem within_untaken {h : Heap} {roots : List Target} {h' : Heap} {t : Target}
    (ht : ¬h'.Taken t) : Within h roots h' t := by
  cases t with
  | native f => exact absurd trivial ht
  | _ => exact .inr (.inr ht)

/-- A heap without places. -/
def nowhere : Heap := Machine.heap { threads := #[] }

theorem within_nowhere {h : Heap} {roots : List Target} {t : Target}
    (hpermitted : ∀ f, t = .native f → Permitted f) : Within h roots nowhere t := by
  cases t with
  | native f => exact hpermitted f rfl
  | _ => exact .inr (.inr (Nat.not_lt_zero _))

/-- All of a sandbox, as a realm. -/
def everything (s : Sandbox) : Realm :=
  realm s.heap [] nowhere (s.machine.globals, s.machine.stringMetatable) True s.heap []

/-- A sealed sandbox is like itself in all that it holds. -/
theorem Sealed.alike {s : Sandbox} (hsealed : Sealed s) : Alike s.everything s s := by
  refine alike_of_closed rfl rfl rfl rfl rfl rfl (fun x _ x' hx' => realm_has.mpr ?_)
    (fun x hx => realm_has.mpr ?_) (fun x _ => Heap.sameAt_refl _ x) ⟨rfl, rfl, rfl, rfl⟩
    ⟨rfl, rfl, rfl, rfl⟩ rfl (fun x hx => realm_has.mpr ?_) (fun h => h.2 rfl) (.inl trivial)
    fun _ => rfl
  · refine within_nowhere ?_
    rintro f rfl
    exact hsealed x f hx'
  · refine within_nowhere ?_
    rintro f rfl
    exact absurd trivial hx
  · refine within_nowhere ?_
    rintro f rfl
    exact absurd hx not_mem_shared

/-- After a history in it, a realm that holds all of a sandbox holds all of it still. -/
theorem Sealed.of_alike {s s₀ : Sandbox} (alike : Alike s₀.everything s s) : Sealed s := by
  intro t f hf
  obtain ⟨h, agree, -⟩ := alike.agree ⟨[], []⟩ ⟨[], []⟩ (fun _ h => nomatch h) fun _ => rfl
  have ht : s₀.everything.has t := by
    refine realm_has.mpr (within_nowhere ?_)
    rintro g rfl
    exact absurd hf List.not_mem_nil
  exact realm_has.mp (agree.closed ht (.native f) hf)

/-! ### Isolation -/

/-- What programs may get hold of that are compiled later, as a realm; some values are in use
elsewhere. -/
def others (s : Sandbox) (own : List Value) : Realm :=
  realm s.heap s.shared s.heap (s.machine.globals, s.machine.stringMetatable) True s.heap own

theorem Sealed.alike_others {s : Sandbox} (hsealed : Sealed s) (own : List Value) :
    Alike (s.others own) s s := by
  refine alike_of_closed rfl rfl rfl rfl rfl rfl (fun x hx x' hx' => realm_has.mpr ?_)
    (fun x hx => realm_has.mpr (within_untaken hx)) (fun x _ => Heap.sameAt_refl _ x)
    ⟨rfl, rfl, rfl, rfl⟩ ⟨rfl, rfl, rfl, rfl⟩ rfl (fun x hx => realm_has.mpr ?_) (fun h => h.2 rfl)
    (.inl trivial) fun _ => rfl
  · exact within_closed hsealed (fun t _ => Heap.sameAt_refl _ t) (fun _ h => h) (realm_has.mp hx) hx'
  · refine within_of_reaches ?_ (.root hx)
    rintro f rfl
    exact absurd hx not_mem_shared

section

variable {s s' : Sandbox} {own vs : List Value}

/-- What a program holds stays as it is while others run, unless they can reach it too. -/
theorem History.kept (hsealed : Sealed s) (history : History own s s' vs) :
    (s'.machine.globals, s'.machine.stringMetatable) =
        (s.machine.globals, s.machine.stringMetatable) ∧
      s.Fits s'.machine ∧ ∀ t, (s.others own).anchored t → s.heap.SameAt s'.heap t := by
  obtain ⟨alike, -⟩ := history.alike (ρ := s.others own) trivial rfl (hsealed.alike_others own)
  obtain ⟨h, agree, -⟩ := alike.agree ⟨own, []⟩ ⟨own, []⟩
    (fun v hv => List.mem_append_left [] hv) fun _ => rfl
  have hthreads := agree.threads.grown
  refine ⟨agree.core.names, ⟨agree.tables.grown, agree.cells.grown, ?_, agree.iterations.grown⟩,
    fun t ht => ?_⟩
  · simpa only [others, realm, Realm.part, heap, Machine.heap, Machine.rested, keeping,
      Array.size_setIfInBounds] using hthreads
  · have hout := ht.free
    cases t with
    | table r => exact agree.tables.kept r hout ht
    | cell r => exact agree.cells.kept r hout ht
    | thread r => exact agree.threads.kept r hout ht
    | iteration i => exact agree.iterations.kept i hout ht
    | native f => trivial

/-- All that a program can reach is as it was: what it has in common with others because they left it
alone, the rest because they cannot reach it. -/
theorem sameAt_of_untouched (hsealed : Sealed s) (history : History own s s' vs)
    (untouched : Untouched own s s') {t : Target} (hzero : t ≠ .thread 0)
    (way : s.heap.Reaches (s.shared ++ own.flatMap Value.targets) t) :
    s.heap.SameAt s'.heap t := by
  obtain ⟨-, -, hkept⟩ := history.kept hsealed
  have hclosed : ∀ t, (s.others own).has t → ∀ t' ∈ s.heap.targetsAt t, (s.others own).has t' :=
    fun t ht t' ht' => realm_has.mpr <| within_closed hsealed (fun t _ => Heap.sameAt_refl _ t)
      (fun _ h => h) (realm_has.mp ht) ht'
  rcases way.around hclosed with hin | hout
  · have hwithin := realm_has.mp hin
    cases t with
    | native f => trivial
    | _ => exact untouched _ way (hwithin.resolve_left hzero)
  · refine hkept t (hout.of_append fun x hx => realm_has.mpr ?_)
    refine within_of_reaches ?_ (.root hx)
    rintro f rfl
    exact absurd hx not_mem_shared

end

/-- What a program can reach, with what is taken while it runs, as a realm. -/
def ownRealm (s : Sandbox) (own : List Value) (s' : Sandbox) : Realm :=
  realm s.heap (s.shared ++ own.flatMap Value.targets) s'.heap
    (s.machine.globals, s.machine.stringMetatable) False (s.amid s'.machine).heap []

/-- What the sandbox holds, on the machine that others have used, differs from what that machine holds
only outside of what the program can reach. -/
theorem alike_amid {s s' : Sandbox} {own vs : List Value} (hsealed : Sealed s)
    (history : History own s s' vs) (untouched : Untouched own s s') :
    Alike (s.ownRealm own s') (s.amid s'.machine) s'.unbounded := by
  obtain ⟨hnames, hfits, -⟩ := history.kept hsealed
  have hfixed := history.machine
  obtain ⟨hglobals, hstrings⟩ := Prod.mk.inj hnames
  have hsealed' : Sealed (s.amid s'.machine) := by
    intro t f hf
    by_cases hzero : t = .thread 0
    · rw [hzero, targetsAt_thread_zero] at hf
      exact absurd hf List.not_mem_nil
    · exact hsealed t f ((sameAt_amid s s'.machine hzero).targetsAt ▸ hf)
  have hsizes : s'.heap.tables.size = (s.amid s'.machine).heap.tables.size ∧
      s'.heap.cells.size = (s.amid s'.machine).heap.cells.size ∧
      s'.heap.threads.size = (s.amid s'.machine).heap.threads.size ∧
      s'.heap.iterations.size = (s.amid s'.machine).heap.iterations.size := by
    simp only [heap, Machine.heap, Machine.rested, amid, Array.size_setIfInBounds,
      size_padded hfits.tables, size_padded hfits.cells, size_padded hfits.threads,
      size_padded hfits.iterations, and_self]
  refine alike_of_closed ?_ ?_ ?_ rfl rfl ?_ (fun x hx x' hx' => realm_has.mpr ?_)
    (fun x hx => realm_has.mpr (within_untaken ?_)) (fun x hx => ?_) hsizes
    ⟨rfl, rfl, rfl, rfl⟩ rfl (fun x hx => realm_has.mpr ?_) (fun h => h.2 rfl)
    (.inr rfl) fun h => h.elim
  · rw [hfixed]; rfl
  · rw [hfixed]; rfl
  · rw [hfixed]; rfl
  · simp only [unbounded, amid, Machine.withHeap, Machine.heap, Machine.meter, hglobals, hstrings]
  · exact within_closed hsealed' (fun t ht => sameAt_amid s s'.machine ht)
      (fun t ht hin => ht (hfits.taken hin)) (realm_has.mp hx) hx'
  · exact fun hin => hx ((Heap.taken_iff hsizes.1 hsizes.2.1 hsizes.2.2.1 hsizes.2.2.2).mp hin)
  · have hunbounded : s'.heap.SameAt s'.unbounded.heap x := by
      cases x <;> first | rfl | trivial
    refine .join ?_ hunbounded
    by_cases hzero : x = .thread 0
    · subst hzero
      exact sameAt_thread_zero hsizes.2.2.1.symm
    have hamid := sameAt_amid s s'.machine hzero
    have hwithin := realm_has.mp hx
    have hreached (way : s.heap.Reaches (s.shared ++ own.flatMap Value.targets) x) :
        s'.heap.SameAt (s.amid s'.machine).heap x :=
      (sameAt_of_untouched hsealed history untouched hzero way).join hamid
    have huntaken (hout : ¬s'.heap.Taken x) : s'.heap.SameAt (s.amid s'.machine).heap x :=
      Heap.sameAt_untaken hout fun hin => hout ((Heap.taken_iff hsizes.1 hsizes.2.1 hsizes.2.2.1
        hsizes.2.2.2).mpr hin)
    cases x with
    | native f => trivial
    | _ => exact (hwithin.resolve_left hzero).elim hreached huntaken
  · refine within_of_reaches ?_ (.root (List.mem_append_left _ hx))
    rintro f rfl
    exact absurd hx not_mem_shared

/-- Other programs make no difference to what a program gives. -/
theorem Use.view_isolated {s s' : Sandbox} {others : List Value} {use : Use}
    {i j : InUse Value Value} (hsealed : Sealed s)
    (hown : ∀ v ∈ use.values, ∀ f, .native f ∈ v.targets → Permitted f)
    (meanwhile : History use.values s s' others) (untouched : Untouched use.values s s')
    (steady : Steady use i s) (roomy : Roomy use j s') :
    view (use.run j s') = view (use.run i s) := by
  obtain ⟨-, hfits, -⟩ := meanwhile.kept hsealed
  have alike := alike_amid hsealed meanwhile untouched
  have hvalues : ∀ v ∈ use.values, (s.ownRealm use.values s').value v := fun v hv =>
    Realm.value_iff.mpr fun t ht => realm_has.mpr <| within_of_reaches
      (fun f hf => hown v hv f (hf ▸ ht))
      (.root (List.mem_append_right _ (List.mem_flatMap.mpr ⟨v, hv, ht⟩)))
  calc view (use.run j s') = view (use.run j s'.unbounded) := roomy
    _ = view (use.run i (s.amid s'.machine)) :=
        alike.view_eq (fun _ h => nomatch h) (fun h => h.elim) hvalues
    _ = view (use.run i s) := steady s'.machine i hfits

end PixelHost.Sandbox
