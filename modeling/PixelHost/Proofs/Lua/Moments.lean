import PixelHost.Proofs.Lua.Execution
import PixelHost.Proofs.Lua.Parts

/-!
# The moments of a run

A run comes from one moment to the next: on a machine a request is carried out, which leads to the next
request. While a library function or the handler of an error is carried out, it has calls carried out
in runs of their own, whose moments are moments of the run as well. To tell which calls these are, the
rounds are used up at one moment: what has this moment come up ends there too, for nothing catches it.

In an exact realm, every moment of a run that starts in the realm lies in it.

## Main definitions

* `Lua.Asks` — a computation has a request carried out on a machine.
* `Lua.Meets` — a run comes to a moment.
* `Lua.Machine.roots`, `Lua.Request.targets` — what a machine and a request lead to.

## Main results

* `Lua.asks_call`, `Lua.meets_asked` — calls that a library function makes come up.
* `Lua.Asks.lies`, `Lua.Meets.lies` — moments lie in the realm that the run starts in.
* `Lua.Realm.Agree.has_of_reaches` — what can be reached from a moment lies in the realm.
-/

namespace PixelHost.Lua

variable {α β : Type}

/-! ### Calls that are asked for -/

/-- Calls are carried out as by another caller, but for one moment, where the rounds are used up. -/
structure Caller.EndsAt (c' c : Caller) (request : Request) (m broken : Machine) : Prop where
  ends : c'.run request m = .error .outOfSteps broken
  others : ∀ r m', ¬(r = request ∧ m' = m) → c'.run r m' = c.run r m'

theorem Caller.exists_endsAt (c : Caller) (request : Request) (m broken : Machine) :
    ∃ c', Caller.EndsAt c' c request m broken := by
  classical
  refine ⟨⟨fun r m' => if r = request ∧ m' = m then .error .outOfSteps broken else c.run r m'⟩,
    ?_, fun r m' hne => if_neg hne⟩
  exact if_pos ⟨rfl, rfl⟩

/-- A computation has a request carried out on a machine: were the rounds used up there, the
computation would end with the tables of that moment. -/
def Asks (x : Caller → Run α) (c : Caller) (m : Machine) (request : Request) (moment : Machine) :
    Prop :=
  ∀ c' broken, Caller.EndsAt c' c request moment broken →
    ∃ e, x c' m = .error .outOfSteps e ∧ e.tables = broken.tables

section

variable {c : Caller} {m m' moment : Machine} {request : Request}

/-- A request that is carried out at once. -/
theorem asks_run (c : Caller) (request : Request) (m : Machine) :
    Asks (fun c => c.run request) c m request m :=
  fun _ broken ends => ⟨broken, ends.ends, rfl⟩

/-- What comes afterwards makes no difference. -/
theorem Asks.bind {x : Caller → Run α} (asks : Asks x c m request moment)
    (f : Caller → α → Run β) : Asks (fun c => x c >>= f c) c m request moment := by
  intro c' broken ends
  obtain ⟨e, he, htables⟩ := asks c' broken ends
  exact ⟨e, Run.bind_of_error he, htables⟩

/-- What came before has no calls carried out. -/
theorem Asks.after {x : Run α} {f : α → Caller → Run β} {a : α} (h : x m = .ok a m')
    (asks : Asks (f a) c m' request moment) :
    Asks (fun c => x >>= fun a => f a c) c m request moment := by
  intro c' broken ends
  obtain ⟨e, he, htables⟩ := asks c' broken ends
  exact ⟨e, (Run.bind_of_ok h).trans he, htables⟩

/-- A library function that calls a function has the call carried out. -/
theorem asks_call {f : Value} {args : Array Value} (h : Run.callValue f args .done
    { m with pinned := m.pinned + 1, holding := m.holding + 1 } = .ok request moment) :
    Asks (fun c => c.call f args) c m request moment := by
  have hcounted : (modify fun m => { m with pinned := m.pinned + 1, holding := m.holding + 1 } :
    Run Unit) m = .ok () { m with pinned := m.pinned + 1, holding := m.holding + 1 } := rfl
  exact .after hcounted <| .after h <| (asks_run c request moment).bind _

/-- A computation on a machine at rest has carried out what it has carried out in it. -/
theorem Asks.outside {body : Caller → Run α} (asks : Asks body c m.rested request moment) :
    Asks (fun c => Run.outside c body) c m request moment := by
  intro c' broken ends
  obtain ⟨e, he, htables⟩ := asks c' broken ends
  exact ⟨e.rested, Run.outside_of_outOfSteps he, htables⟩

/-- What a computation asks for depends on what it does on the machine. -/
theorem Asks.congr {x y : Caller → Run α} (h : ∀ c, y c m' = x c m)
    (asks : Asks x c m request moment) : Asks y c m' request moment := fun c' broken ends =>
  h c' ▸ asks c' broken ends

end

/-! ### Moments -/

/-- One round, with the unwinding after a fault. -/
def Run.turn (c : Caller) (pinned holding : Nat) (request : Request) : Run Request :=
  tryCatch (advance c request) (recover c pinned holding)

/-- A run in at most so many rounds comes to a moment: at its start, after a round, or in a run that is
carried out inside of a round. -/
inductive Meets (request' : Request) (m' : Machine) :
    (n pinned holding : Nat) → Request → Machine → Prop
  | now {n pinned holding} : Meets request' m' n pinned holding request' m'
  | later {n pinned holding request next m m₁}
      (turn : Run.turn (.within n) pinned holding request m = .ok next m₁)
      (rest : Meets request' m' n pinned holding next m₁) :
      Meets request' m' (n + 1) pinned holding request m
  | inside {n pinned holding request inner m m₁}
      (asks : Asks (fun c => Run.turn c pinned holding request) (.within n) m inner m₁)
      (rest : Meets request' m' n m₁.pinned m₁.holding inner m₁) :
      Meets request' m' (n + 1) pinned holding request m

/-- What a library function has carried out comes up in a run. -/
theorem meets_asked {f : Native} {args : Array Value} {n : Nat} {request : Request}
    {m moment : Machine} (asks : Asks (fun c => f.run c args) (.within n) m request moment)
    (pinned holding : Nat) : Meets request moment (n + 1) pinned holding (.native f args) m := by
  refine .inside (fun c' broken ends => ?_) .now
  obtain ⟨e, he, htables⟩ := asks c' broken ends
  have hadvance : Run.advance c' (.native f args) m = .error .outOfSteps e := Run.bind_of_error he
  refine ⟨e, ?_, htables⟩
  change EStateM.tryCatch _ _ m = _
  delta EStateM.tryCatch
  rw [hadvance]
  rfl

/-! ### What a moment leads to -/

/-- What a machine leads to: its stack, the functions that are carried out, and the tables that all
programs share. -/
def Machine.roots (m : Machine) : List Target :=
  targetsOf m.stack ++ m.frames.flatMap Frame.targets ++ m.openCells.map (.cell ·.2) ++
    m.closure.targets ++ [.thread m.thread, .table m.globals, .table m.stringMetatable]

/-- What a request leads to. -/
def Request.targets : Request → List Target
  | .go => []
  | .native f args => f.targets ++ targetsOf args
  | .finish vs | .returned vs | .yielded vs => targetsOf vs

/-! ### Moments in a realm -/

variable {ρ : Realm}

theorem Realm.request_iff {request : Request} :
    ρ.request request ↔ ∀ t ∈ request.targets, ρ.has t := by
  cases request with
  | go => exact iff_of_true trivial fun _ h => nomatch h
  | native f args =>
    simp only [Realm.request, Request.targets, List.forall_mem_append, Realm.function_iff,
      Realm.values_iff]
  | finish vs => exact Realm.values_iff
  | returned vs => exact Realm.values_iff
  | yielded vs => exact Realm.values_iff

theorem Realm.core.roots {m : Machine} (core : ρ.core m) : ∀ t ∈ m.roots, ρ.has t := by
  simp only [Machine.roots, List.forall_mem_append, ← Realm.values_iff, ← Realm.frames_iff,
    ← Realm.openCells_iff, ← Realm.closure_iff, List.forall_mem_cons, List.not_mem_nil,
    false_imp_iff, implies_true, and_true]
  exact ⟨⟨⟨⟨core.stack, core.frames⟩, core.openCells⟩, core.closure⟩, core.thread, core.globals,
    core.stringMetatable⟩

/-- What can be reached from the realm lies in it. -/
theorem Realm.Agree.has_of_reaches {m : Machine} {h : Heap} (agree : ρ.Agree m h)
    {roots : List Target} (hroots : ∀ t ∈ roots, ρ.has t) {t : Target}
    (way : m.heap.Reaches roots t) : ρ.has t := by
  induction way with
  | start ht => exact hroots _ ht
  | step _ ht _ ih => exact agree.closed ih _ ht

/-- A computation that stays in a realm ends in it. -/
theorem Stays.of_ok {Q : α → Prop} {x : Run α} (hx : Stays ρ Q x) {m m' : Machine} {a : α}
    (agree : ρ.Agree m m.heap) (h : x m = .ok a m') : Q a ∧ ρ.Agree m' m'.heap := by
  have hsame := hx m m.heap agree
  rw [h] at hsame
  generalize x (m.withHeap m.heap) = r at hsame
  cases hsame with
  | ok ha agree => exact ⟨ha, agree.self⟩
  | lateOk ha agree => exact ⟨ha, agree⟩

theorem Stays.of_error {Q : α → Prop} {x : Run α} (hx : Stays ρ Q x) {m m' : Machine} {e : Fault}
    (agree : ρ.Agree m m.heap) (h : x m = .error e m') : ρ.Agree m' m'.heap := by
  have hsame := hx m m.heap agree
  rw [h] at hsame
  generalize x (m.withHeap m.heap) = r at hsame
  cases hsame with
  | error _ agree => exact agree.self
  | lateError _ agree => exact agree

section

variable (hexact : ρ.exact) (hmetering : ρ.metering = .same) (hstart : 0 < ρ.start.tables.size)

include hexact hmetering

/-- In an exact realm where instructions are counted alike a machine agrees with itself only. -/
theorem Realm.Agree.eq_heap {m : Machine} {h : Heap} (agree : ρ.Agree m h) : h = m.heap := by
  have hmeter := agree.meter
  rw [hmetering] at hmeter
  have hmeter : h.meter = m.meter := hmeter
  rw [agree.same hexact, hmeter]
  rfl

/-- Calls that end at a moment outside of the realm stay in the realm. -/
theorem Caller.EndsAt.stays {c c' : Caller} {request : Request} {m broken : Machine}
    (ends : Caller.EndsAt c' c request m broken) (hc : ρ.caller c)
    (hout : ¬(ρ.request request ∧ ρ.Agree m m.heap)) : ρ.caller c' := by
  intro r hr m' h agree
  obtain rfl := agree.eq_heap hexact hmetering
  have hne : ¬(r = request ∧ m' = m) := by
    rintro ⟨rfl, rfl⟩
    exact hout ⟨hr, agree⟩
  rw [Machine.withHeap_heap, ends.others r m' hne]
  exact hc r hr m' m'.heap agree

include hstart

/-- What a computation that stays in the realm has carried out lies in the realm. If it did not, the
computation could end in the realm with all tables gone. -/
theorem Asks.lies {Q : α → Prop} {x : Caller → Run α} (hx : ∀ c, ρ.caller c → Stays ρ Q (x c))
    {c : Caller} (hc : ρ.caller c) {m moment : Machine} {request : Request}
    (agree : ρ.Agree m m.heap) (asks : Asks x c m request moment) :
    ρ.request request ∧ ρ.Agree moment moment.heap := by
  refine Classical.byContradiction fun hout => ?_
  obtain ⟨c', ends⟩ := c.exists_endsAt request moment {}
  obtain ⟨e, he, htables⟩ := asks c' _ ends
  have hagree := (hx c' (ends.stays hexact hmetering hc hout)).of_error agree he
  have hgrown := hagree.tables.grown
  rw [htables] at hgrown
  exact Nat.not_lt.mpr hgrown hstart

theorem Meets.lies {n pinned holding : Nat} {request request' : Request} {m m' : Machine}
    (meets : Meets request' m' n pinned holding request m) (hrequest : ρ.request request)
    (agree : ρ.Agree m m.heap) : ρ.request request' ∧ ρ.Agree m' m'.heap := by
  have hturn {c : Caller} (hc : ρ.caller c) (pinned holding : Nat) {request : Request}
      (hrequest : ρ.request request) : Stays ρ ρ.request (Run.turn c pinned holding request) :=
    .tryCatch (Run.advance_stays hc hrequest) fun _ hfault =>
      Run.recover_stays hc pinned holding hfault
  have hwithin (n : Nat) : ρ.caller (.within n) := fun request hrequest m heap agree =>
    execute_stays n m.pinned m.holding hrequest m heap agree
  induction meets with
  | now => exact ⟨hrequest, agree⟩
  | later turn _ ih =>
    obtain ⟨hnext, agree⟩ := (hturn (hwithin _) _ _ hrequest).of_ok agree turn
    exact ih hnext agree
  | inside asks _ ih =>
    obtain ⟨hinner, agree⟩ := asks.lies hexact hmetering hstart
      (fun c hc => hturn hc _ _ hrequest) (hwithin _) agree
    exact ih hinner agree

end

end PixelHost.Lua
