import Mathlib.Data.List.Chain
import PixelHost.Proofs.Engine.Blocks
import PixelHost.Proofs.Sandbox.Outcomes

/-!
# Handing a delay over to the scheduler

An accepted upload leaves a program in the slot and a request in the signal, and the scheduler looks
at the two at different times. They never disagree: while a request is pending it is the one of the
upload whose program is in the slot, and once it was adopted the delay of the scheduler is the one
that the latest invocation of the program in the slot asked for. Rejected uploads do not count, and
neither do steps that were lost.

## Main definitions

* `Step.request?`, `Step.adopted?` — the delay that a step requests or adopts.
* `HandedOver` — what a run so far has to do with signal, slot and scheduler.

## Main results

* `Player.recorded_of_pending` — the cycle that finds a request.
* `Player.handOver_of_history` — signal, slot and scheduler agree after every run.
-/

namespace PixelHost

variable {I : Interpreter}

/-! ### Requests of a run -/

/-- The delay that an accepted upload requests. -/
def Step.request? (s : Step I) : Option Delay :=
  match s.answer with
  | .uploaded (.ok delay) => some delay
  | _ => none

/-- The delay that a cycle adopts. -/
def Step.adopted? (s : Step I) : Option Delay :=
  match s.answer with
  | .cycled (.adopted delay) => some delay
  | _ => none

/-- An upload adopts nothing. A cycle adopts what the step before it requested, and nothing if that
step requested nothing. -/
def Step.Follows (before after : Step I) : Prop :=
  after.adopted? = if after.op = .cycle then before.request? else none

/-- The step of an accepted upload. -/
def Step.published (source : String) (chunk : I.Chunk) (outcome : Outcome I.Memo) : Step I where
  op := .upload source
  answer := .uploaded (.ok outcome.delay)
  record := [.compile source (.ok chunk), .invoke ⟨chunk, 0, none, .ok outcome⟩]

/-- Successful invocations ask for delays that fit into the reset signal. -/
def Interpreter.DelaysFit (I : Interpreter) : Prop :=
  ∀ inUse chunk counter memo state outcome,
    (I.execute inUse chunk counter memo state).1 = .ok outcome → outcome.delay.Fits

theorem Sandbox.interpreter_delaysFit : Sandbox.interpreter.DelaysFit := by
  intro inUse chunk counter memo s outcome h
  exact (Sandbox.invoke_outcome h).2

/-- The scheduler waits as the latest invocation asked for, and that was an invocation of the program
in the slot. -/
def Settled (steps : List (Step I)) (p : Player I) : Prop :=
  ∀ program, p.engine.program = some program → ∃ call outcome,
    (activities steps).getLast? = some (.invoke call) ∧ call.chunk = program.script.chunk ∧
      call.result = .ok outcome ∧ program.memo = outcome.memo ∧
      p.scheduler.delay = outcome.delay ∧ outcome.delay ≠ .forever

/-- What a run so far has to do with signal, slot and scheduler. -/
structure HandedOver (steps : List (Step I)) (p : Player I) : Prop where
  /-- A request is pending exactly if the last step is an accepted upload. -/
  signal : p.engine.reset.take.1 = (effective steps).getLast?.bind Step.request?
  /-- While it is pending, the slot is as the upload left it. -/
  slot : ∀ delay, p.engine.reset.take.1 = some delay → ∃ source chunk outcome,
    (effective steps).getLast? = some (.published source chunk outcome) ∧
      p.engine.program = Player.kept ⟨source, chunk⟩ outcome
  settled : p.engine.reset.take.1 = none → Settled steps p
  adoptions : (effective steps).IsChain Step.Follows
  first : ∀ s ∈ (effective steps).head?, s.adopted? = none

/-! ### Keeping signal, slot and scheduler together -/

theorem activities_getLast? {steps : List (Step I)} {s : Step I} {activity : Activity I}
    (last : (effective steps).getLast? = some s) (asked : s.record.getLast? = some activity) :
    (activities steps).getLast? = some activity := by
  obtain ⟨before, hbefore⟩ := List.getLast?_eq_some_iff.mp last
  obtain ⟨record, hrecord⟩ := List.getLast?_eq_some_iff.mp asked
  rw [activities, hbefore, List.flatMap_append, List.flatMap_singleton, hrecord,
    ← List.append_assoc, List.getLast?_concat]

theorem Player.kept_eq_some {script : Script I} {outcome : Outcome I.Memo} {program : Program I}
    (h : kept script outcome = some program) :
    program = ⟨script, outcome.memo⟩ ∧ outcome.delay ≠ .forever := by
  rw [kept] at h
  split at h
  · cases h
  · next goes =>
    cases h
    exact ⟨rfl, fun hd => goes (by rw [hd]; rfl)⟩

namespace HandedOver

variable {steps : List (Step I)} {p q : Player I} {s : Step I}

/-- A rejected upload goes unnoticed, and so does a step that was lost. -/
theorem pass (h : HandedOver steps p) (passed : effective [s] = [])
    (same_signal : q.engine.reset.take.1 = p.engine.reset.take.1)
    (same_slot : q.engine.program = p.engine.program)
    (same_scheduler : q.scheduler = p.scheduler) : HandedOver (steps ++ [s]) q := by
  have heffective : effective (steps ++ [s]) = effective steps := by
    rw [effective_concat, passed, List.append_nil]
  have hactivities : activities (steps ++ [s]) = activities steps := by
    rw [activities, activities, heffective]
  refine ⟨?_, ?_, ?_, ?_, ?_⟩
  · rw [same_signal, heffective, h.signal]
  · rw [same_signal, same_slot, heffective]
    exact h.slot
  · rw [same_signal, Settled, same_slot, same_scheduler, hactivities]
    exact h.settled
  · rw [heffective]
    exact h.adoptions
  · rw [heffective]
    exact h.first

/-- Any other step is the last one after it, and it must adopt what is pending if it is a cycle. -/
theorem append (h : HandedOver steps p) (counted : effective [s] = [s])
    (follows : s.adopted? = if s.op = .cycle then p.engine.reset.take.1 else none)
    (signal : q.engine.reset.take.1 = s.request?)
    (slot : ∀ delay, s.request? = some delay → ∃ source chunk outcome,
      s = .published source chunk outcome ∧ q.engine.program = Player.kept ⟨source, chunk⟩ outcome)
    (settled : s.request? = none → Settled (steps ++ [s]) q) : HandedOver (steps ++ [s]) q := by
  have heffective : effective (steps ++ [s]) = effective steps ++ [s] := by
    rw [effective_concat, counted]
  refine ⟨?_, ?_, ?_, ?_, ?_⟩
  · rw [signal, heffective, List.getLast?_concat, Option.bind_some]
  · intro delay hdelay
    rw [signal] at hdelay
    obtain ⟨source, chunk, outcome, hs, hslot⟩ := slot delay hdelay
    exact ⟨source, chunk, outcome, by rw [heffective, List.getLast?_concat, hs], hslot⟩
  · rw [signal]
    exact settled
  · rw [heffective, List.isChain_append]
    refine ⟨h.adoptions, List.isChain_singleton s, ?_⟩
    intro before hbefore after hafter
    cases hafter
    rw [Step.Follows, follows, h.signal, Option.mem_def.mp hbefore, Option.bind_some]
  · rw [heffective]
    intro t ht
    cases hsteps : effective steps with
    | nil =>
      have hsignal := h.signal
      rw [hsteps] at ht hsignal
      cases ht
      rw [follows, hsignal]
      exact ite_self none
    | cons first rest =>
      have hfirst := h.first
      rw [hsteps] at ht hfirst
      exact hfirst t ht

/-- No step takes signal, slot and scheduler apart. -/
theorem step (fits : I.DelaysFit) (h : HandedOver steps p) (taken : p.Taken s q) :
    HandedOver (steps ++ [s]) q := by
  cases taken with
  | unfit compiled => exact h.pass rfl rfl rfl rfl
  | rejected compiled ran => exact h.pass rfl rfl rfl rfl
  | lostUpload loses => exact h.pass rfl rfl rfl rfl
  | lostRun quiet found ran =>
    exact h.pass rfl (p.engine.reset.take_take.trans quiet.symm) rfl rfl
  | @accepted source chunk outcome state state' compiled ran =>
    have hfits : outcome.delay.Fits := fits _ _ _ _ _ _ (congrArg Prod.fst ran)
    refine h.append rfl rfl (p.engine.reset.take_raise hfits) ?_ ?_
    · intro delay hdelay
      exact ⟨source, chunk, outcome, rfl, rfl⟩
    · intro hnone
      cases hnone
  | adopted pending =>
    refine h.append rfl pending.symm p.engine.reset.take_take (fun _ hd => nomatch hd) ?_
    rintro - program found
    obtain ⟨source, chunk, outcome, hlast, hslot⟩ := h.slot _ pending
    obtain ⟨rfl, hgoes⟩ := Player.kept_eq_some (hslot.symm.trans found)
    have hdelay := h.signal
    rw [pending, hlast] at hdelay
    cases hdelay
    refine ⟨⟨chunk, 0, none, .ok outcome⟩, outcome, ?_, rfl, rfl, rfl, rfl, hgoes⟩
    rw [activities_concat]
    exact (congrArg List.getLast? (List.append_nil _)).trans (activities_getLast? hlast rfl)
  | idle quiet empty =>
    refine h.append rfl quiet.symm p.engine.reset.take_take (fun _ hd => nomatch hd) ?_
    rintro - program found
    exact nomatch empty.symm.trans found
  | @executed program outcome state quiet found ran =>
    refine h.append rfl quiet.symm p.engine.reset.take_take (fun _ hd => nomatch hd) ?_
    rintro - after hafter
    obtain ⟨rfl, hgoes⟩ := Player.kept_eq_some hafter
    refine ⟨⟨program.script.chunk, p.scheduler.counter, program.memo, .ok outcome⟩, outcome, ?_,
      rfl, rfl, rfl, rfl, hgoes⟩
    rw [activities_concat]
    exact List.getLast?_concat
  | failed quiet found ran =>
    refine h.append rfl quiet.symm p.engine.reset.take_take (fun _ hd => nomatch hd) ?_
    rintro - after hafter
    cases hafter

end HandedOver

namespace Player

theorem handedOver_start (state : I.State) (sink : Sink) (initialDelay : Delay)
    (quantum : Duration) : HandedOver [] (start (I := I) state sink initialDelay quantum) where
  signal := rfl
  slot := fun _ hdelay => nomatch hdelay
  settled := fun _ _ hprogram => nomatch hprogram
  adoptions := .nil
  first := fun _ hs => nomatch hs

/-- A cycle that finds a request adopts it, counts anew from one and invokes nothing. -/
theorem recorded_of_pending {p : Player I} {delay : Delay}
    (pending : p.engine.reset.take.1 = some delay) :
    p.recorded .cycle = (⟨.cycle, .cycled (.adopted delay), []⟩, {
      scheduler := { p.scheduler with delay, counter := 1 }
      engine := { p.engine with
        reset := p.engine.reset.take.2
        metrics := { p.engine.metrics with
          resetsAdopted := p.engine.metrics.resetsAdopted + 1 } } }) := by
  have hop : (p.recorded .cycle).1.op = .cycle := rfl
  have htaken := p.taken .cycle
  rcases hr : p.recorded .cycle with ⟨s, q⟩
  rw [hr] at hop htaken
  cases htaken with
  | unfit compiled => cases hop
  | rejected compiled ran => cases hop
  | accepted compiled ran => cases hop
  | lostUpload loses => cases hop
  | adopted pending' =>
    cases pending.symm.trans pending'
    rfl
  | idle quiet => cases quiet.symm.trans pending
  | executed quiet => cases quiet.symm.trans pending
  | failed quiet => cases quiet.symm.trans pending
  | lostRun quiet => cases quiet.symm.trans pending

/-- Signal, slot and scheduler agree after every run of uploads and cycles on a sandbox. A pending
request is the one of the last accepted upload, whose program has not run since, and the next cycle
adopts it. When none is pending, the scheduler waits as the program in the slot asked for. Each
request is adopted by the next step that is not a rejected upload and was not lost, unless that step is
another accepted upload, and nothing else is ever adopted. -/
theorem handOver_of_history (state : Sandbox) (sink : Sink) (initialDelay : Delay)
    (quantum : Duration) (ops : List Op) :
    let player : Player Sandbox.interpreter := start state sink initialDelay quantum
    let (steps, p) := player.history ops
    steps.map Step.op = ops ∧ player.run ops = (steps.map Step.answer, p) ∧
      (p.engine.reset.isPending = true → ∃ source chunk outcome,
        (effective steps).getLast? = some (.published source chunk outcome) ∧
        p.engine.reset.take.1 = some outcome.delay ∧
        p.engine.program = kept ⟨source, chunk⟩ outcome ∧
        p.recorded .cycle = (⟨.cycle, .cycled (.adopted outcome.delay), []⟩, {
          scheduler := { p.scheduler with delay := outcome.delay, counter := 1 }
          engine := { p.engine with
            reset := p.engine.reset.take.2
            metrics := { p.engine.metrics with
              resetsAdopted := p.engine.metrics.resetsAdopted + 1 } } })) ∧
      (p.engine.reset.isPending = false → Settled steps p) ∧
      (effective steps).IsChain Step.Follows ∧
      ∀ s ∈ (effective steps).head?, s.adopted? = none := by
  intro player
  have h : HandedOver (player.history ops).1 (player.history ops).2 :=
    player.history_induction (motive := HandedOver)
      (handedOver_start (I := Sandbox.interpreter) state sink initialDelay quantum)
      (fun _ _ _ _ h taken => h.step Sandbox.interpreter_delaysFit taken) ops
  refine ⟨player.history_ops ops, player.run_eq_history ops, ?pending, ?settled, h.adoptions,
    h.first⟩
  case pending =>
    intro hpending
    rw [← ResetSignal.isSome_take, Option.isSome_iff_exists] at hpending
    obtain ⟨delay, hdelay⟩ := hpending
    obtain ⟨source, chunk, outcome, hlast, hslot⟩ := h.slot delay hdelay
    have hsignal := h.signal
    rw [hdelay, hlast] at hsignal
    cases hsignal
    exact ⟨source, chunk, outcome, hlast, hdelay, hslot, recorded_of_pending hdelay⟩
  case settled =>
    intro hquiet
    rw [← ResetSignal.isSome_take, Option.isSome_eq_false_iff, Option.isNone_iff_eq_none] at hquiet
    exact h.settled hquiet

end Player

end PixelHost
