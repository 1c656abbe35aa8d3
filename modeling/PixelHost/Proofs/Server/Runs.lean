import Mathlib.Data.List.Induction
import Mathlib.Data.List.Nodup
import PixelHost.Server.Reactor

/-!
# Runs of a reactor

A reactor is driven by connections that come in, by visits to its connections in any order, and by
others who use the same engine meanwhile. A pass is a run of this kind. Every step of a run is kept
with the reactor before it, so what a step sent, and on which connection, can be told afterwards.

## Main definitions

* `Reactor.Input`, `Reactor.act` — what can happen to a reactor.
* `Reactor.Step`, `Reactor.trace` — the steps of a run.
* `Reactor.without`, `Reactor.settle` — a connection is taken out, and put back if it goes on.
* `Reactor.Numbered` — every connection has a number of its own.

## Main results

* `Reactor.serve_of_found` — a visit takes a connection out, serves it, and settles what is left.
* `Reactor.trace_induction` — induction over the steps of a run.
* `Reactor.pass_eq_run` — a pass is a run.
-/

namespace PixelHost

variable {I : Interpreter}

/-! ### Tables with numbers -/

section Table

variable {α : Type} {table : List (Nat × α)} {id : Nat} {entry : α}

theorem lookup_cons_of_ne {other : Nat} (ne : other ≠ id) :
    ((id, entry) :: table).lookup other = table.lookup other := by
  rw [List.lookup_cons, beq_eq_false_iff_ne.mpr ne]

/-- The entry with a number is taken out, and no other one. -/
theorem lookup_filter_ne (table : List (Nat × α)) (id other : Nat) :
    (table.filter (·.1 != id)).lookup other = if other = id then none else table.lookup other := by
  induction table with
  | nil => simp
  | cons first rest ih =>
    obtain ⟨number, entry⟩ := first
    by_cases hid : number = id
    · subst hid
      rw [List.filter_cons_of_neg (by simp), ih]
      by_cases hother : other = number
      · simp [hother]
      · rw [lookup_cons_of_ne hother]
    · rw [List.filter_cons_of_pos (by simpa using hid)]
      by_cases hother : other = number
      · subst hother
        simp [hid]
      · rw [lookup_cons_of_ne hother, lookup_cons_of_ne hother, ih]

/-- Where the numbers are distinct, the entry with a number comes first or is among the rest. -/
theorem perm_of_lookup (distinct : (table.map Prod.fst).Nodup)
    (found : table.lookup id = some entry) :
    table.Perm ((id, entry) :: table.filter (·.1 != id)) := by
  obtain ⟨front, rest, rfl, hfront⟩ := List.lookup_eq_some_iff.mp found
  rw [List.map_append, List.map_cons] at distinct
  have hrest : id ∉ rest.map Prod.fst :=
    (List.nodup_cons.mp (List.nodup_append.mp distinct).2.1).1
  have hkeep : (front ++ (id, entry) :: rest).filter (·.1 != id) = front ++ rest := by
    rw [List.filter_append, List.filter_cons_of_neg (by simp)]
    congr 1
    · exact List.filter_eq_self.mpr fun c hc => by simpa [bne_comm] using hfront c hc
    · refine List.filter_eq_self.mpr fun c hc => bne_iff_ne.mpr fun hid => hrest ?_
      exact List.mem_map.mpr ⟨c, hc, hid⟩
  rw [hkeep]
  exact List.perm_middle

theorem mem_of_lookup (found : table.lookup id = some entry) : (id, entry) ∈ table := by
  obtain ⟨front, rest, rfl, -⟩ := List.lookup_eq_some_iff.mp found
  simp

end Table

namespace Reactor

/-! ### Runs -/

/-- A reactor without connections. -/
def start (config : ServerConfig) (engine : Engine I) : Reactor I := { config, engine }

/-- What can happen to a reactor. -/
inductive Input (I : Interpreter) where
  /-- A connection comes in. -/
  | accept (usable : Bool)
  /-- A connection is visited. -/
  | visit (id : Nat) (h : Happening)
  /-- Others who use the engine leave it like this. -/
  | share (engine : Engine I)

/-- The connection with a number is visited. -/
def Input.visits (input : Input I) (id : Nat) : Bool :=
  match input with
  | .visit visited _ => visited == id
  | .accept _ | .share _ => false

/-- The reactor after something has happened to it. -/
def act (r : Reactor I) : Input I → Reactor I
  | .accept usable => (r.accept usable).2
  | .visit id h => (r.serve id h).2
  | .share engine => { r with engine }

/-- The reactor after a run. -/
def run (r : Reactor I) (inputs : List (Input I)) : Reactor I := inputs.foldl act r

/-- A step of a run: the reactor before it, and what happened. -/
structure Step (I : Interpreter) where
  before : Reactor I
  input : Input I

/-- The reactor after a step. -/
def Step.after (s : Step I) : Reactor I := s.before.act s.input

/-- What is sent on a connection in a step. -/
def Step.sent (id : Nat) (s : Step I) : List Outgoing :=
  match s.input with
  | .visit visited h => if visited = id then (s.before.serve id h).1 else []
  | .accept _ | .share _ => []

/-- The steps of a run. -/
def trace (r : Reactor I) : List (Input I) → List (Step I)
  | [] => []
  | input :: rest => ⟨r, input⟩ :: (r.act input).trace rest

/-- What is sent on a connection in a run. -/
def sentOn (id : Nat) (steps : List (Step I)) : List Outgoing := steps.flatMap (Step.sent id)

/-- Only visits send something on a connection. -/
theorem visits_of_mem_sent {step : Step I} {id : Nat} {o : Outgoing} (mem : o ∈ step.sent id) :
    step.input.visits id = true := by
  obtain ⟨before, input⟩ := step
  cases input with
  | accept | share => cases mem
  | visit visited h =>
    simp only [Step.sent] at mem
    split at mem
    · next hid => exact beq_iff_eq.mpr hid
    · cases mem

theorem sentOn_append (id : Nat) (front rest : List (Step I)) :
    sentOn id (front ++ rest) = sentOn id front ++ sentOn id rest := List.flatMap_append

theorem run_append (r : Reactor I) (inputs rest : List (Input I)) :
    r.run (inputs ++ rest) = (r.run inputs).run rest := List.foldl_append

theorem trace_append (r : Reactor I) (inputs rest : List (Input I)) :
    r.trace (inputs ++ rest) = r.trace inputs ++ (r.run inputs).trace rest := by
  induction inputs generalizing r with
  | nil => rfl
  | cons input inputs ih =>
    simp only [List.cons_append, trace, ih]
    rfl

/-- What holds at the start and is kept by every step holds after every run. The statement may speak
of the steps so far. -/
theorem trace_induction {motive : List (Step I) → Reactor I → Prop} (r : Reactor I)
    (start : motive [] r)
    (step : ∀ steps r input, motive steps r → motive (steps ++ [⟨r, input⟩]) (r.act input))
    (inputs : List (Input I)) : motive (r.trace inputs) (r.run inputs) := by
  induction inputs using List.reverseRecOn with
  | nil => exact start
  | append_singleton inputs input ih =>
    rw [trace_append, run_append]
    exact step _ _ input ih

/-! ### Visits -/

/-- What a visit may change besides the connection, before the visit. -/
def serving (r : Reactor I) : Serving I := { engine := r.engine, metrics := r.metrics }

/-- The reactor while a connection is served. -/
def without (r : Reactor I) (id : Nat) : Reactor I :=
  { r with connections := r.connections.filter (·.1 != id) }

/-- The reactor after a visit, in which the connection is put back if it goes on. -/
def settle (r : Reactor I) (id : Nat) (outcome : Option Connection × Serving I) : Reactor I :=
  { r with
    engine := outcome.2.engine
    metrics := outcome.2.metrics
    connections := (outcome.1.map (id, ·)).toList ++ r.connections }

variable {r : Reactor I} {id other : Nat} {h : Happening} {c : Connection}

/-- A visit takes a connection out, serves it, and puts it back if it goes on. -/
theorem serve_of_found (found : r.connections.lookup id = some c) (h : Happening) :
    r.serve id h = (((r.without id).serveConnection c h r.serving).2.sent,
      (r.without id).settle id ((r.without id).serveConnection c h r.serving)) := by
  rcases houtcome : (r.without id).serveConnection c h r.serving with ⟨_ | next, s⟩ <;>
  · unfold without serving at houtcome
    simp only [serve, found, houtcome]
    rfl

/-- A visit to a connection that is not there does nothing. -/
theorem serve_of_absent (absent : r.connections.lookup id = none) (h : Happening) :
    r.serve id h = ([], r) := by
  simp only [serve, absent]

theorem lookup_settle_self (r : Reactor I) (id : Nat) (outcome : Option Connection × Serving I) :
    ((r.without id).settle id outcome).connections.lookup id = outcome.1 := by
  rcases outcome with ⟨_ | next, s⟩
  · simp [settle, without, lookup_filter_ne]
  · simp [settle]

theorem lookup_settle_of_ne (ne : other ≠ id) (outcome : Option Connection × Serving I) :
    ((r.without id).settle id outcome).connections.lookup other = r.connections.lookup other := by
  have hothers : (r.connections.filter (·.1 != id)).lookup other = r.connections.lookup other := by
    rw [lookup_filter_ne, if_neg ne]
  rcases outcome with ⟨_ | next, s⟩
  · exact hothers
  · exact (lookup_cons_of_ne ne).trans hothers

/-- A visit leaves all other connections alone. -/
theorem lookup_visit_of_ne (ne : other ≠ id) (h : Happening) :
    (r.act (.visit id h)).connections.lookup other = r.connections.lookup other := by
  cases found : r.connections.lookup id with
  | none => rw [act, serve_of_absent found]
  | some c =>
    rw [act, serve_of_found found]
    exact lookup_settle_of_ne ne _

/-- What is left of a connection that is visited. -/
theorem lookup_visit_self (found : r.connections.lookup id = some c) (h : Happening) :
    (r.act (.visit id h)).connections.lookup id =
      ((r.without id).serveConnection c h r.serving).1 := by
  rw [act, serve_of_found found]
  exact lookup_settle_self r id _

/-! ### Arrivals -/

/-- A connection that comes in is turned away, is of no use, or is registered. -/
theorem accept_cases (r : Reactor I) (usable : Bool) :
    (maxPending ≤ r.pendingCount ∧
      r.accept usable = (none, { r with metrics := refuse r.metrics })) ∨
    (r.pendingCount < maxPending ∧ usable = false ∧ r.accept usable = (none, r)) ∨
    (r.pendingCount < maxPending ∧ usable = true ∧ r.accept usable = (some r.nextId, { r with
      connections := (r.nextId, .pending) :: r.connections
      nextId := r.nextId + 1 })) := by
  rcases Nat.lt_or_ge r.pendingCount maxPending with room | full
  · have hroom : ¬ r.pendingCount ≥ maxPending := Nat.not_le.mpr room
    cases usable with
    | false => exact .inr (.inl ⟨room, rfl, by simp [accept, hroom]⟩)
    | true => exact .inr (.inr ⟨room, rfl, by simp [accept, hroom]⟩)
  · exact .inl ⟨full, by simp [accept, full]⟩

/-- Registering a connection leaves those that are there alone. -/
theorem lookup_accept_of_ne (ne : id ≠ r.nextId) (usable : Bool) :
    (r.act (.accept usable)).connections.lookup id = r.connections.lookup id := by
  rcases r.accept_cases usable with ⟨-, h⟩ | ⟨-, -, h⟩ | ⟨-, -, h⟩ <;> rw [act, h]
  exact lookup_cons_of_ne ne

/-! ### Numbers of connections -/

/-- Every connection has a number of its own that was given out before. -/
structure Numbered (r : Reactor I) : Prop where
  distinct : (r.connections.map Prod.fst).Nodup
  given : ∀ c ∈ r.connections, c.1 < r.nextId

namespace Numbered

theorem start (config : ServerConfig) (engine : Engine I) : (start config engine).Numbered where
  distinct := List.nodup_nil
  given := List.forall_mem_nil _

/-- A number that was not given out yet belongs to no connection. -/
theorem lookup_eq_none (numbered : r.Numbered) (new : r.nextId ≤ id) :
    r.connections.lookup id = none := by
  cases found : r.connections.lookup id with
  | none => rfl
  | some c => exact absurd (numbered.given _ (mem_of_lookup found)) (Nat.not_lt.mpr new)

theorem accept (numbered : r.Numbered) (usable : Bool) : (r.act (.accept usable)).Numbered := by
  rcases r.accept_cases usable with ⟨-, h⟩ | ⟨-, -, h⟩ | ⟨-, -, h⟩ <;> rw [act, h]
  · exact ⟨numbered.distinct, numbered.given⟩
  · exact numbered
  · constructor
    · refine List.nodup_cons.mpr ⟨fun hmem => ?_, numbered.distinct⟩
      obtain ⟨c, hc, hid⟩ := List.mem_map.mp hmem
      exact absurd (numbered.given c hc) (hid ▸ Nat.lt_irrefl _)
    · rintro c (_ | ⟨_, hc⟩)
      · exact Nat.lt_succ_self _
      · exact Nat.lt_succ_of_lt (numbered.given c hc)

theorem visit (numbered : r.Numbered) (id : Nat) (h : Happening) :
    (r.act (.visit id h)).Numbered := by
  cases found : r.connections.lookup id with
  | none => rwa [act, serve_of_absent found]
  | some c =>
    rw [act, serve_of_found found]
    generalize (r.without id).serveConnection c h r.serving = outcome
    obtain ⟨next, s⟩ := outcome
    have hperm := perm_of_lookup numbered.distinct found
    have hdistinct := (hperm.map Prod.fst).nodup numbered.distinct
    have hgiven := fun e (he : e ∈ r.connections.filter (·.1 != id)) =>
      numbered.given e (List.mem_filter.mp he).1
    cases next with
    | none => exact ⟨(List.nodup_cons.mp hdistinct).2, hgiven⟩
    | some next =>
      refine ⟨hdistinct, ?_⟩
      rintro e (_ | ⟨_, he⟩)
      · exact numbered.given (id, c) (mem_of_lookup found)
      · exact hgiven e he

theorem act (numbered : r.Numbered) (input : Input I) : (r.act input).Numbered := by
  cases input with
  | accept usable => exact numbered.accept usable
  | visit id h => exact numbered.visit id h
  | share engine => exact ⟨numbered.distinct, numbered.given⟩

end Numbered

/-- The numbers that were given out are not given out again. -/
theorem nextId_le_act (r : Reactor I) (input : Input I) : r.nextId ≤ (r.act input).nextId := by
  have hsame {after : Reactor I} (same : after.nextId = r.nextId) : r.nextId ≤ after.nextId :=
    Nat.le_of_eq same.symm
  cases input with
  | accept usable =>
    rcases r.accept_cases usable with ⟨-, h⟩ | ⟨-, -, h⟩ | ⟨-, -, h⟩
    · exact hsame (congrArg (fun out => out.2.nextId) h)
    · exact hsame (congrArg (fun out => out.2.nextId) h)
    · have hnext : (r.accept usable).2.nextId = r.nextId + 1 :=
        congrArg (fun out => out.2.nextId) h
      exact Nat.le_trans (Nat.le_succ _) (Nat.le_of_eq hnext.symm)
  | visit id h =>
    cases found : r.connections.lookup id with
    | none => exact hsame (congrArg (fun out => out.2.nextId) (serve_of_absent found h))
    | some c => exact hsame (congrArg (fun out => out.2.nextId) (serve_of_found found h))
  | share engine => exact Nat.le_refl _

/-- The configuration stays as it is. -/
theorem act_config (r : Reactor I) (input : Input I) : (r.act input).config = r.config := by
  cases input with
  | accept usable =>
    rcases r.accept_cases usable with ⟨-, h⟩ | ⟨-, -, h⟩ | ⟨-, -, h⟩ <;> rw [act, h]
  | visit id h =>
    cases found : r.connections.lookup id with
    | none => rw [act, serve_of_absent found]
    | some c =>
      rw [act, serve_of_found found]
      rfl
  | share engine => rfl

theorem run_config (config : ServerConfig) (engine : Engine I) (inputs : List (Input I)) :
    ((start config engine).run inputs).config = config :=
  trace_induction (motive := fun _ r => r.config = config) _ rfl
    (fun _ r input same => (r.act_config input).trans same) inputs

/-! ### Passes -/

/-- What happens to a reactor in a pass. -/
def passInputs (usable : List Bool) (visits : List (Nat × Happening)) : List (Input I) :=
  usable.map .accept ++ visits.map fun (id, h) => .visit id h

theorem serveAll_eq_run (r : Reactor I) (visits : List (Nat × Happening)) :
    (r.serveAll visits).2 = r.run (visits.map fun (id, h) => .visit id h) := by
  induction visits generalizing r with
  | nil => rfl
  | cons visit rest ih =>
    obtain ⟨id, h⟩ := visit
    exact ih (r.serve id h).2

theorem acceptAll_eq_run (r : Reactor I) (usable : List Bool) :
    r.acceptAll usable = r.run (usable.map .accept) := by
  rw [acceptAll, run, List.foldl_map]
  rfl

/-- A pass is a run. -/
theorem pass_eq_run (r : Reactor I) (usable : List Bool) (visits : List (Nat × Happening)) :
    (r.pass usable visits).2 = r.run (passInputs usable visits) := by
  rw [passInputs, run_append, ← serveAll_eq_run, pass, acceptAll_eq_run]

end Reactor

end PixelHost
