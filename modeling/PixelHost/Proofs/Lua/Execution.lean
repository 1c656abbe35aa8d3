import PixelHost.Lua.Execution
import PixelHost.Proofs.Lua.Counting
import PixelHost.Proofs.Lua.Instructions
import PixelHost.Proofs.Lua.Library.Base
import PixelHost.Proofs.Lua.Library.Coroutines
import PixelHost.Proofs.Lua.Library.Numbers
import PixelHost.Proofs.Lua.Library.Strings
import PixelHost.Proofs.Lua.Library.Tables

/-!
# Runs in a realm

A whole run stays in a realm: each round does, whether it carries out an instruction or a library
function, and so does the unwinding after a fault. This is by induction on the rounds, for a library
function has calls carried out in a run with fewer rounds.

## Main results

* `Lua.Native.run_stays` — library functions.
* `Lua.execute_stays` — the loop.
* `Lua.Run.fromOutside_stays`, `Lua.Run.callFromOutside_stays` — calls of a machine at rest.
-/

namespace PixelHost.Lua

variable {ρ : Realm} {α : Type} {Q : α → Prop} {c : Caller} (hc : ρ.caller c)

include hc in
/-- A library function stays in the realm that it and its arguments lie in. -/
theorem Native.run_stays {f : Native} {args : Args} (hf : ρ.function f) (h : ρ.values args) :
    Stays ρ ρ.values (f.run c args) := by
  cases f with
  | base f => exact Library.Base.run_stays hc h f hf
  | string f => exact Library.Strings.run_stays h hc f
  | stringArith f => exact Library.Strings.arith_stays h hc f
  | table f => exact Library.Tables.run_stays hc h f
  | math f => exact Library.Maths.run_stays h hc f
  | utf8 f => exact Library.Characters.run_stays h f
  | coroutine f => exact Library.Coroutines.run_stays hc h f
  | system f => exact Library.System.run_stays h f hf
  | effect f => exact Library.Effects.run_stays f h
  | sequenceStep => exact Library.Base.sequenceStep_stays hc h
  | characterStep lax => exact Library.Characters.characterStep_stays h lax
  | matchStep i => exact Library.Strings.matchStep_stays hf
  | wrapped r => exact Library.Coroutines.wrapped_stays hc hf h
  | describeError =>
    have hv := Args.value_val h 1
    have hdescribe : Stays ρ ρ.value (describe c (args.val 1)) := by
      unfold describe
      generalize args.val 1 = v at hv
      split
      · exact .pure hv
      · exact (Caller.textOf_stays hc hv).bind fun _ _ => .pure (Realm.value_str _)
    exact hdescribe.bind fun _ hv => .pure (.one hv)

namespace Run

/-! ### One round -/

/-- The counts of machines that agree go on. -/
theorem agree_tick {m : Machine} {h : Heap} (agree : ρ.Agree m h) (id : Nat) :
    ρ.Agree { m.withMeter m.meter.tick with nextId := id } { h with meter := h.meter.tick } :=
  { agree with
    core := agree.core.of_eq rfl rfl rfl rfl rfl rfl rfl rfl rfl
    meter := ρ.metering.related_tick agree.meter
    same := fun e => by rw [agree.same e]; rfl }

/-- Either both machines are stopped or neither is, unless the first count is late from then on. -/
theorem countInstruction_stays : Stays ρ Plain countInstruction := by
  intro m h agree
  have hagree := agree_tick agree
  have hthread : (m.withHeap h).thread = m.thread := rfl
  have hrefused := Realm.Same.error (μ := m.meter) (Q := Plain (α := Unit))
    (e := m.meter.refusal m.nextId) trivial (hagree (m.nextId + 1)) ρ.metering.late_tick
  have hcounted := Realm.Same.ok (μ := m.meter) (Q := Plain) (a := ()) trivial (hagree m.nextId)
    ρ.metering.late_tick
  rw [countInstruction_eq, countInstruction_eq, hthread]
  by_cases hmain : m.thread = 0
  · rw [if_pos hmain, if_pos hmain]
    rcases ρ.metering.stops agree.meter with heq | ⟨hgoes, hgoes'⟩ | hlate
    · have hmeter : (m.withHeap h).meter = m.meter := heq
      rw [heq] at hrefused hcounted
      rw [hmeter]
      split
      · exact hrefused
      · exact hcounted
    · rw [if_neg hgoes, if_neg (c := (m.withHeap h).meter.Stops) hgoes']
      exact hcounted
    · split
      · exact .lateError trivial (hagree (m.nextId + 1)).self hlate
      · exact .lateOk trivial (hagree m.nextId).self hlate
  · rw [if_neg hmain, if_neg hmain]
    exact .ok trivial agree id

theorem checkMemory_stays : Stays ρ Plain checkMemory :=
  ifLacking_stays collect_stays (.plain _)

theorem anchor_stays {vs : Array Value} (hvs : ρ.values vs) : Stays ρ Plain (anchor vs) := by
  refine .changeCore (fun m hm => ?_) (fun m h => ?_) fun m => ?_
  · split
    · next f below heq =>
      split
      · next g args hactivity =>
        have hf := hm.frames f (heq ▸ List.mem_cons_self)
        have hbelow : ρ.frames below := fun f hf => hm.frames f (heq ▸ List.mem_cons_of_mem _ hf)
        have hg : ρ.activity (.native g args) := hactivity ▸ hf.1
        exact { hm with frames := List.forall_mem_cons.mpr ⟨⟨⟨hg.1, hvs⟩, hf.2⟩, hbelow⟩ }
      · exact hm
    · exact hm
  · rw [Machine.withHeap_frames]
    split
    · split <;> rfl
    · rfl
  · split
    · split <;> rfl
    · rfl

include hc in
theorem advance_stays {request : Request} (h : ρ.request request) :
    Stays ρ ρ.request (advance c request) := by
  cases request with
  | go =>
    exact countInstruction_stays.andThen <| step_stays.bind fun _ hnext =>
      checkMemory_stays.andThen (.pure hnext)
  | native f args =>
    refine (Native.run_stays hc h.1 h.2).bind fun results hresults => ?_
    exact ifLacking_stays (fun hexact => (anchor_stays hresults).andThen <|
      (collect_stays hexact).andThen (.pure hresults)) (.pure hresults)
  | finish results => exact finish_stays h
  | returned results => exact .pure h
  | yielded vs => exact .pure h

/-! ### Faults -/

theorem value_handler {m : Machine} (hm : ρ.core m) : ∀ v ∈ handler? m, ρ.value v := by
  intro v hv
  unfold handler? at hv
  split at hv
  · next args k returnTo floor depth isTail heq =>
    have hf := hm.frames _ (List.mem_of_find?_eq_some heq)
    exact hf.1.2.getElem? hv
  · cases hv
  · split at hv <;> cases hv
    exact ρ.native_of_arises _ trivial

include hc

theorem handle_stays {v : Value} (hv : ρ.value v) (n : Nat) : Stays ρ ρ.value (handle c v n) := by
  induction n generalizing v with
  | zero => exact .throw trivial
  | succ n ih =>
    refine .read (fun m hm => ?_) fun _ _ => rfl
    have hhandler := value_handler hm
    generalize handler? m = handler at hhandler
    cases handler with
    | none => exact .pure hv
    | some h =>
      have hh := hhandler h rfl
      refine topFloor_stays.bind fun floor _ => topDepth_stays.bind fun depth _ =>
        .read (fun m' _ => ?_) fun _ _ => rfl
      have hplace : ρ.frame ⟨.native .describeError #[v], .done, m'.pc, floor, depth + 1, false⟩ :=
        ⟨⟨ρ.native_of_arises _ trivial, .one hv⟩, trivial⟩
      refine (pushFrame_stays hplace).andThen <|
        (Library.Coroutines.try_stays (Caller.callOne_stays hc hh (.one hv))).bind fun r hr => ?_
      split
      · exact .pure hr
      · exact ih hr
      · exact .throw hr

theorem handled_stays {fault : Fault} (h : ρ.fault fault) :
    Stays ρ ρ.fault (handled c fault) := by
  unfold handled
  split
  · refine .read (fun m hm => ?_) fun _ _ => rfl
    refine .bind (P := ρ.fault) ?_ fun fault hfault => .andThen (P := Plain) ?_ (.pure hfault)
    · exact .tryCatch ((handle_stays hc h _).bind fun _ hv => .pure hv) fun _ he => .pure he
    · exact .changeCore (fun _ hm' => { hm' with frames := hm.frames }) (fun _ _ => rfl)
        fun _ => rfl
  · exact .pure h

omit hc

theorem frames_guard {fs below : List Frame} {guard : Frame} (hfs : ρ.frames fs)
    (h : guard? fs = some (guard, below)) : ρ.frames (guard :: below) := by
  induction fs with
  | nil => cases h
  | cons f fs ih =>
    unfold guard? at h
    split at h
    · cases h
      exact hfs
    · split at h
      · cases h
      · exact ih (fun g hg => hfs g (List.mem_cons_of_mem _ hg)) h

theorem frames_belowRun {fs : List Frame} (hfs : ρ.frames fs) : ρ.frames (belowRun fs) := by
  induction fs with
  | nil => exact hfs
  | cons f fs ih =>
    have hbelow : ρ.frames fs := fun g hg => hfs g (List.mem_cons_of_mem _ hg)
    unfold belowRun
    split
    · exact hbelow
    · exact ih hbelow

theorem shrinkStack_stays : Stays ρ Plain shrinkStack := by
  refine .changeCore (fun m hm => ?_) (fun m h => ?_) fun m => ?_
  · extract_lets inUse
    split
    · exact { hm with stack := hm.stack.extract _ _ }
    · exact hm
  · rw [Machine.withHeap_frames, Machine.withHeap_stack]
    extract_lets inUse
    split <;> rfl
  · extract_lets inUse
    split <;> rfl

include hc

theorem recover_stays (pinned holding : Nat) {fault : Fault} (h : ρ.fault fault) :
    Stays ρ ρ.request (recover c pinned holding fault) := by
  refine (handled_stays hc h).bind fun fault hfault => .whenThen (.throw hfault) ?_
  refine .read (fun m hm => ?_) fun _ _ => rfl
  have hframes := hm.frames
  generalize m.frames = frames at hframes ⊢
  split
  · next guard below heq =>
    have hguard := frames_guard hframes heq
    refine .andThen (P := Plain) ?_ <| (faultValue_stays hfault).bind fun v hv =>
      (closeCells_stays _).andThen ?_
    · exact .changeCore (fun _ hm => { hm with frames := hguard }) (fun _ _ => rfl) fun _ => rfl
    · refine .read (fun m' _ => ?_) fun _ _ => rfl
      have herror : ∀ w ∈ some v, ρ.value w := by
        rintro _ ⟨⟩
        exact hv
      refine (Library.Coroutines.closeAll_stays hc _ herror _).bind fun error hresult =>
        shrinkStack_stays.andThen (.pure (.two (Realm.value_bool _) ?_))
      cases error with
      | none => exact Realm.value_nil
      | some w => exact hresult w rfl
  · refine .andThen (P := Plain) ?_ (.throw hfault)
    exact .changeCore (fun _ hm => { hm with frames := frames_belowRun hm.frames })
      (fun _ _ => rfl) fun _ => rfl

end Run

/-! ### The loop -/

omit hc

/-- How calls are carried out inside of a run that has some more rounds. -/
def Caller.within (n : Nat) : Caller := ⟨fun request m => execute n m.pinned m.holding request m⟩

/-- A run that is not over goes on with one round and what comes after it. -/
theorem execute_succ (n pinned holding : Nat) {request : Request}
    (hreturned : ∀ vs, request ≠ .returned vs) (hyielded : ∀ vs, request ≠ .yielded vs) :
    execute (n + 1) pinned holding request =
      tryCatch (Run.advance (.within n) request) (Run.recover (.within n) pinned holding) >>=
        execute n pinned holding := by
  funext m
  change _ = EStateM.bind (EStateM.tryCatch _ _) _ m
  unfold EStateM.bind
  delta EStateM.tryCatch
  cases request with
  | returned vs => exact absurd rfl (hreturned vs)
  | yielded vs => exact absurd rfl (hyielded vs)
  | _ =>
    have hwithin : (⟨fun request m => execute n m.pinned m.holding request m⟩ : Caller) =
        .within n := rfl
    simp only [execute, hwithin]
    cases Run.advance (.within n) _ m with
    | ok next m => rfl
    | error fault m =>
      dsimp only [EStateM.Backtrackable.restore, EStateM.dummyRestore]
      cases Run.recover (.within n) pinned holding fault m <;> rfl

/-- By induction on the rounds: what a library function or a handler has called is carried out in
fewer of them. -/
theorem execute_stays (n pinned holding : Nat) {request : Request} (h : ρ.request request) :
    Stays ρ ρ.stop (execute n pinned holding request) := by
  induction n generalizing pinned holding request with
  | zero => exact .throw trivial
  | succ n ih =>
    have hc : ρ.caller (.within n) := fun request hrequest m heap agree =>
      ih m.pinned m.holding hrequest m heap agree
    have hround (hreturned : ∀ vs, request ≠ .returned vs) (hyielded : ∀ vs, request ≠ .yielded vs) :
        Stays ρ ρ.stop (execute (n + 1) pinned holding request) := by
      rw [execute_succ n pinned holding hreturned hyielded]
      exact (Stays.tryCatch (Run.advance_stays hc h) fun _ hfault =>
        Run.recover_stays hc pinned holding hfault).bind fun _ hnext => ih pinned holding hnext
    cases request with
    | returned results => exact .pure h
    | yielded values => exact .pure h
    | _ => exact hround (by simp) (by simp)

namespace Run

theorem rest_stays : Stays ρ Plain rest :=
  .change (fun _ => rfl) fun m h agree =>
    ⟨{ h with
        threads := h.threads.setIfInBounds 0 { status := .running }
        waiting := [] }, rfl,
      { agree with
        threads := agree.threads.set ρ.thread_zero
          { Realm.coroutine.empty with stack := .empty }
        core := { agree.core with
          stack := .replicate _
          frames := Realm.frames_nil
          openCells := fun _ h => nomatch h
          closure := fun _ h => nomatch h
          thread := ρ.thread_zero }
        same := fun e => by rw [agree.same e]; rfl }⟩

theorem outside_stays (hc : ρ.caller c) {body : Caller → Run α} (h : Stays ρ Q (body c)) :
    Stays ρ Q (outside c body) := by
  unfold outside
  refine rest_stays.andThen <| (Library.Coroutines.try_stays h).bind fun outcome hout => ?_
  split
  · exact rest_stays.andThen (.pure hout)
  · exact rest_stays.andThen (.throw trivial)
  · refine .andThen (P := Plain) ?_ <| (closeCells_stays 0).andThen <| .read (fun m _ => ?_)
      fun _ _ => rfl
    · exact .changeCore (fun _ hm => { hm with frames := Realm.frames_nil }) (fun _ _ => rfl)
        fun _ => rfl
    · split
      · exact rest_stays.andThen (.throw hout)
      · refine (faultValue_stays hout).bind fun v hv => ?_
        have hv' : ∀ w ∈ some v, ρ.value w := by
          rintro _ ⟨⟩
          exact hv
        refine (Library.Coroutines.closeAll_stays hc 0 hv' _).bind fun error herror =>
          rest_stays.andThen (raise_stays ?_)
        cases error with
        | none => exact Realm.value_nil
        | some w => exact herror w rfl

theorem fromOutside_stays (steps : Nat) {body : Caller → Run α}
    (h : ∀ c, ρ.caller c → Stays ρ Q (body c)) : Stays ρ Q (fromOutside steps body) := by
  have hc : ρ.caller (.within steps) := fun request hrequest m heap agree =>
    execute_stays steps m.pinned m.holding hrequest m heap agree
  exact outside_stays hc (h _ hc)

theorem calling_stays (hc : ρ.caller c) {f : Value} {args : Array Value} (hf : ρ.value f)
    (hargs : ρ.values args) : Stays ρ ρ.values (calling f args c) := by
  refine (callValue_stays (k := .done) hf hargs trivial).bind fun request hrequest =>
    (hc request hrequest).bind fun stop hstop => ?_
  cases stop with
  | returned vs => exact .pure hstop
  | yielded vs => exact .pure hstop

theorem callFromOutside_stays (steps : Nat) {f : Value} {args : Array Value} (hf : ρ.value f)
    (hargs : ρ.values args) : Stays ρ ρ.values (callFromOutside steps f args) :=
  fromOutside_stays steps fun _ hc => calling_stays hc hf hargs

/-! ### What comes of a call on a machine at rest -/

theorem outside_of_ok {body : Caller → Run α} {a : α} {m m' : Machine}
    (h : body c m.rested = .ok a m') : outside c body m = .ok a m'.rested := by
  have hcaught : (tryCatch (do return Except.ok (← body c)) fun fault => return .error fault :
      Run (Except Fault α)) m.rested = .ok (.ok a) m' := by
    change EStateM.tryCatch _ _ m.rested = _
    delta EStateM.tryCatch
    rw [bind_of_ok h]
    rfl
  exact bind_of_ok hcaught

theorem outside_of_outOfSteps {body : Caller → Run α} {m m' : Machine}
    (h : body c m.rested = .error .outOfSteps m') :
    outside c body m = .error .outOfSteps m'.rested := by
  have hcaught : (tryCatch (do return Except.ok (← body c)) fun fault => return .error fault :
      Run (Except Fault α)) m.rested = .ok (.error .outOfSteps) m' := by
    change EStateM.tryCatch _ _ m.rested = _
    delta EStateM.tryCatch
    rw [bind_of_error h]
    rfl
  exact bind_of_ok hcaught

end Run

end PixelHost.Lua
