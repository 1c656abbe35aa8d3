import PixelHost.Lua.Library.Coroutines
import PixelHost.Proofs.Lua.Library.Arguments

/-!
# Coroutines in a realm

A coroutine of a realm holds only what lies there, so to put the running coroutine aside for another
one stays in the realm.

## Main results

* `Lua.Run.switchTo_stays` — putting the running coroutine aside.
* `Lua.Library.Coroutines.closeAll_stays` — closing variables.
* `Lua.Library.Coroutines.run_stays` — the functions of `coroutine`.
-/

namespace PixelHost.Lua

variable {ρ : Realm} {α : Type} {Q : α → Prop}

namespace Run

theorem switchTo_stays {target : ThreadRef} (htarget : ρ.thread target) (status : ThreadStatus) :
    Stays ρ Plain (switchTo target status) := by
  refine .change (fun _ => rfl) fun m h agree => ?_
  let leave (t : Thread) : Thread := { t with
    status
    stack := m.stack
    top := m.top
    pc := m.pc
    frames := m.frames
    openCells := m.openCells
    toClose := m.toClose
    pinned := m.pinned }
  let enter (t : Thread) : Thread := { t with status := .running, stack := #[], frames := [] }
  have hleft := agree.threads.modify (f := leave) agree.core.thread fun ht =>
    { ht with
      stack := agree.core.stack
      frames := agree.core.frames
      openCells := agree.core.openCells }
  have hentered := hleft.modify (f := enter) htarget fun ht =>
    { ht with
      stack := .empty
      frames := Realm.frames_nil }
  have ht := hleft.ok target htarget
  refine ⟨{ h with threads := (h.threads.modify m.thread leave).modify target enter }, ?_, ?_⟩
  · let t := (h.threads.modify m.thread leave).getD target default
    change { m.withHeap h with
      threads := (h.threads.modify m.thread leave).modify target enter
      thread := target
      stack := t.stack
      top := t.top
      pc := t.pc
      frames := t.frames
      openCells := t.openCells
      toClose := t.toClose
      pinned := t.pinned } = _
    rw [show t = (m.threads.modify m.thread leave).getD target default from
      hleft.same target htarget]
    rfl
  · exact { agree with
      threads := hentered
      core := { agree.core with
        stack := ht.stack
        frames := ht.frames
        openCells := ht.openCells
        thread := htarget }
      same := fun e => by rw [agree.same e]; rfl }

theorem goOn_stays : Stays ρ Plain goOn :=
  .read (fun _ _ => goOnAt_stays _) fun _ _ => rfl

theorem newThread_stays {entry : Value} (hentry : ρ.value entry) :
    Stays ρ ρ.thread (newThread entry) := by
  let fresh : Thread := { entry, stack := Array.replicate 40 .nil }
  have hfresh : ρ.coroutine fresh :=
    { Realm.coroutine.empty with
      entry := hentry
      stack := .replicate _ }
  refine (charge_stays _).andThen fun m h agree => ?_
  change ρ.Same _ _ (.ok m.threads.size { m with threads := m.threads.push fresh })
    (.ok h.threads.size { m.withHeap h with threads := h.threads.push fresh })
  rw [agree.threads.size]
  exact .ok (h := { h with threads := h.threads.push fresh })
    (agree.threads.fresh _ (Nat.le_refl _))
    { agree with
      threads := agree.threads.push hfresh
      core := agree.core.of_eq rfl rfl rfl rfl rfl rfl rfl rfl rfl
      same := fun e => by rw [agree.same e]; rfl } id

theorem modifyThread_stays {r : ThreadRef} (hr : ρ.thread r) {f : Thread → Thread}
    (hf : ∀ t, ρ.coroutine t → ρ.coroutine (f t)) : Stays ρ Plain (modifyThread r f) :=
  .change (fun _ => rfl) fun m h agree => ⟨{ h with threads := h.threads.modify r f }, rfl,
    { agree with
      threads := agree.threads.modify hr (hf _)
      core := agree.core.of_eq rfl rfl rfl rfl rfl rfl rfl rfl rfl
      same := fun e => by rw [agree.same e]; rfl }⟩

theorem threadAt_stays {r : ThreadRef} (hr : ρ.thread r) : Stays ρ ρ.coroutine (threadAt r) := by
  intro m h agree
  change ρ.Same _ _ (.ok (m.threads.getD r default) m) (.ok (h.threads.getD r default) (m.withHeap h))
  rw [agree.threads.same r hr]
  exact .ok (agree.threads.ok r hr) agree id

theorem faultValue_stays {fault : Fault} (h : ρ.fault fault) :
    Stays ρ ρ.value (faultValue fault) := by
  cases fault with
  | raised v handled => exact .pure h
  | memory => exact .pure (Realm.value_str _)
  | inHandler => exact .pure (Realm.value_str _)
  | outOfSteps => exact .throw trivial

end Run

namespace Library.Coroutines

open Run

/-- How a coroutine of the realm stopped. -/
def resumed (ρ : Realm) : Resumed → Prop
  | .values vs => ρ.values vs
  | .failed v => ρ.value v

theorem statusOf_stays {r : ThreadRef} (hr : ρ.thread r) : Stays ρ Plain (statusOf r) :=
  .read (fun _ _ => .ite (fun _ => .plain _) fun _ => (threadAt_stays hr).bind fun _ _ => .plain _)
    fun _ _ => rfl

theorem goBack_stays {waiting : ThreadRef} (h : ρ.thread waiting) (status : ThreadStatus)
    (holding : Nat) : Stays ρ Plain (goBack waiting status holding) := by
  refine (switchTo_stays h status).andThen <| .andThen (P := Plain) ?_ goOn_stays
  exact .change (fun _ => rfl) fun m h agree => ⟨{ h with waiting := h.waiting.drop 1 }, rfl,
    { agree with
      core := agree.core.of_eq rfl rfl rfl rfl rfl rfl rfl rfl rfl
      same := fun e => by rw [agree.same e]; rfl }⟩

/-- The coroutine that waits is noted. -/
theorem pushWaiting_stays (self : ThreadRef) :
    Stays ρ Plain (modify fun m => { m with waiting := self :: m.waiting } : Run Unit) :=
  .change (fun _ => rfl) fun m h agree => ⟨{ h with waiting := self :: h.waiting }, rfl,
    { agree with
      core := agree.core.of_eq rfl rfl rfl rfl rfl rfl rfl rfl rfl
      same := fun e => by rw [agree.same e]; rfl }⟩

/-- A fault becomes a result. -/
theorem try_stays {x : Run α} (hx : Stays ρ Q x) :
    Stays ρ (fun r => match r with
      | .ok a => Q a
      | .error e => ρ.fault e)
      (tryCatch (do return Except.ok (← x)) fun e => return .error e : Run (Except Fault α)) :=
  .tryCatch (hx.bind fun _ ha => .pure ha) fun _ he => .pure he

variable {c : Caller} (hc : ρ.caller c)

include hc

theorem start_stays {self : ThreadRef} (hself : ρ.thread self) (depth : Nat) {args : Array Value}
    (hargs : ρ.values args) : Stays ρ ρ.stop (start c self depth args) := by
  refine (threadAt_stays hself).bind fun t ht => .ite (fun _ => ?_) fun _ => ?_
  · exact goOn_stays.andThen (hc _ hargs)
  · have hstarted := modifyThread_stays hself (f := fun t => { t with entry := .nil })
      fun t ht => { ht with entry := trivial }
    exact hstarted.andThen <| (ensureStack_stays _).andThen <| (setSlot_stays _ ht.entry).andThen <|
      (fillSlots_stays _ hargs).andThen <|
      (callSlot_stays _ _ _ (k := .done) trivial _ _ _).bind fun request hrequest => hc _ hrequest

theorem carryOn_stays {target : ThreadRef} (htarget : ρ.thread target) {args : Array Value}
    (hargs : ρ.values args) : Stays ρ (resumed ρ) (carryOn c target args) := by
  refine topDepth_stays.bind fun depth _ => .read (fun m hm => .read (fun _ _ => ?_)
    fun _ _ => rfl) fun _ _ => rfl
  have hself := hm.thread
  generalize m.thread = self at hself ⊢
  refine (switchTo_stays htarget _).andThen <| (pushWaiting_stays _).andThen <|
    (try_stays (start_stays hc htarget _ hargs)).bind fun stop hstop => ?_
  split
  · exact (goBack_stays hself _ _).andThen (.pure hstop)
  · exact (goBack_stays hself _ _).andThen (.pure hstop)
  · refine (faultValue_stays hstop).bind fun v hv => ?_
    have hfailure : ∀ w ∈ some v, ρ.value w := by
      rintro _ ⟨⟩
      exact hv
    have hfailed := modifyThread_stays htarget (f := fun t => { t with failure := some v })
      fun t ht => { ht with failure := hfailure }
    exact (popFrame_stays Realm.frames_nil).andThen <| (goBack_stays hself _ _).andThen <|
      hfailed.andThen (.pure hv)

theorem resume_stays {target : ThreadRef} (htarget : ρ.thread target) {args : Array Value}
    (hargs : ρ.values args) : Stays ρ (resumed ρ) (resume c target args) := by
  have hfailed (message : String) : resumed ρ (.failed (.ofString message)) := trivial
  refine (statusOf_stays htarget).bind fun status _ => ?_
  split
  · exact topDepth_stays.bind fun _ _ => .ite (fun _ => .pure (hfailed _))
      fun _ => carryOn_stays hc htarget hargs
  · exact .pure (hfailed _)
  · exact .pure (hfailed _)

theorem closeAll_stays (level : Nat) {error : Option Value} (herror : ∀ v ∈ error, ρ.value v)
    (n : Nat) : Stays ρ (fun e => ∀ v ∈ e, ρ.value v) (closeAll c level error n) := by
  induction n generalizing error with
  | zero => exact .pure herror
  | succ n ih =>
    refine .read (fun m _ => ?_) fun _ _ => rfl
    extract_lets toClose
    generalize toClose = toClose
    split
    · exact .pure herror
    · refine .ite (fun _ => .pure herror) fun _ => (slot_stays _).bind fun v hv => ?_
      refine .read (fun m hm => ?_) fun _ _ => rfl
      have hframes := hm.frames
      generalize m.frames = frames at hframes ⊢
      refine .read (fun _ _ => .read (fun _ _ => topDepth_stays.bind fun depth _ => ?_)
        fun _ _ => rfl) fun _ _ => rfl
      -- The call is an activation of its own, which is gone again when the next variable is closed.
      refine .andThen (P := Plain) ?_ <| (metamethod_stays hv _).bind fun h hh =>
        .bind (P := fun e => ∀ v ∈ e, ρ.value v) ?_ fun failure hfailure =>
        .andThen (P := Plain) ?_ (ih ?_)
      · have hplace : ρ.activity (.native (.coroutine .close) #[]) :=
          ⟨ρ.native_of_arises _ trivial, .empty⟩
        exact .changeCore (fun _ hm =>
          { hm with frames := List.forall_mem_cons.mpr ⟨⟨hplace, trivial⟩, hframes⟩ })
          (fun _ _ => rfl) fun _ => rfl
      · have hargs : ρ.values #[v, error.getD .nil] := by
          refine .two hv ?_
          cases error with
          | none => exact trivial
          | some e => exact herror e rfl
        refine .tryCatch ((Caller.call_stays hc hh hargs).discard.andThen
          (.pure fun _ h => nomatch h)) fun fault hfault =>
            (faultValue_stays hfault).bind fun w hw => .pure ?_
        rintro _ ⟨⟩
        exact hw
      · exact .changeCore (fun _ hm => { hm with frames := hframes }) (fun _ _ => rfl) fun _ => rfl
      · cases failure with
        | none => exact herror
        | some e => exact hfailure

theorem close_stays {target : ThreadRef} (htarget : ρ.thread target) :
    Stays ρ (fun e => ∀ v ∈ e, ρ.value v) (close c target) := by
  refine .read (fun m hm => .read (fun _ _ => ?_) fun _ _ => rfl) fun _ _ => rfl
  have hself := hm.thread
  generalize m.thread = self at hself ⊢
  refine (threadAt_stays htarget).bind fun t ht => (switchTo_stays htarget _).andThen <|
    .andThen (P := Plain) ?_ <| (closeCells_stays 0).andThen <| .read (fun _ _ =>
      (closeAll_stays hc 0 ht.failure _).bind fun error herror => .andThen (P := Plain) ?_ <|
      (goBack_stays hself _ _).andThen <| .andThen (P := Plain) ?_ (.pure herror))
      fun _ _ => rfl
  · refine .change (fun _ => rfl) fun m h agree => ⟨{ h with waiting := self :: h.waiting }, rfl,
      { agree with
        core := { agree.core with frames := Realm.frames_nil }
        same := fun e => by rw [agree.same e]; rfl }⟩
  · exact .changeCore (fun _ hm => { hm with
      frames := Realm.frames_nil
      stack := .empty }) (fun _ _ => rfl) fun _ => rfl
  · exact modifyThread_stays htarget fun t ht => { ht with
      entry := trivial
      failure := fun _ h => nomatch h }

theorem wrapped_stays {target : ThreadRef} (htarget : ρ.thread target) {args : Array Value}
    (hargs : ρ.values args) : Stays ρ ρ.values (wrapped c target args) := by
  refine (resume_stays hc htarget hargs).bind fun result hresult => ?_
  split
  · exact .pure hresult
  · next v =>
    refine (threadAt_stays htarget).bind fun t _ => ?_
    extract_lets hasFailed raised
    have hraised {v : Value} (hv : ρ.value v) : Stays ρ ρ.values (raised v) := by
      simp only [raised]
      split
      · exact .ite (fun _ => raise_stays hv) fun _ => (whereAt_stays _).bind fun _ _ =>
          raise_stays (Realm.value_str _)
      · exact raise_stays hv
    refine .ite (fun _ => (close_stays hc htarget).bind fun error herror => ?_) fun _ =>
      (Stays.pure (Q := ρ.value) hresult).bind fun _ hv => hraised hv
    refine (Stays.pure (Q := ρ.value) ?_).bind fun _ hv => hraised hv
    cases error with
    | none => exact hresult
    | some e => exact herror e rfl

theorem closed_stays {r : ThreadRef} (hr : ρ.thread r) : Stays ρ ρ.values (do
    match ← close c r with
    | none => return #[.bool true]
    | some v => return #[.bool false, v]) := by
  refine (close_stays hc hr).bind fun error herror => ?_
  cases error with
  | none => exact .pure (.one (Realm.value_bool _))
  | some v => exact .pure (.two (Realm.value_bool _) (herror v rfl))

variable {args : Args} (h : ρ.values args)

include h

omit hc in
theorem threadArgument_stays (n : Nat) : Stays ρ ρ.thread (threadArgument args n) := by
  have hv := Args.value_val h n
  unfold threadArgument
  generalize args.val n = v at hv
  split
  · exact .pure hv
  · exact badType_stays h _ _

theorem run_stays (f : CoroutineFn) : Stays ρ ρ.values (run c f args) := by
  cases f with
  | close =>
    refine (threadArgument_stays h 1).bind fun r hr => (statusOf_stays hr).bind fun status _ => ?_
    split
    · exact closed_stays hc hr
    · exact closed_stays hc hr
    · exact fail_stays _
  | create =>
    exact (Args.function_stays h 1).bind fun _ hf => (newThread_stays hf).bind fun r hr =>
      .pure (.one (v := .thread r) hr)
  | isyieldable =>
    refine .read (fun m _ => ?_) fun _ _ => rfl
    have hv := Args.value_val h 1
    generalize args.val 1 = v at hv
    split
    · exact .ite (fun _ => (Stays.plain _).bind fun _ _ => .pure (.one (Realm.value_bool _)))
        fun _ => (threadAt_stays hv).bind fun _ _ => (Stays.plain _).bind fun _ _ =>
          .pure (.one (Realm.value_bool _))
    · exact .pure (.one (Realm.value_bool _))
  | resume =>
    refine (threadArgument_stays h 1).bind fun r hr =>
      (resume_stays hc hr (h.extract _ _)).bind fun result hresult => ?_
    split
    · exact .pure ((Realm.values.one (Realm.value_bool _)).append hresult)
    · exact .pure (.two (Realm.value_bool _) hresult)
  | running =>
    exact .read (fun m hm => .pure (.two (v := .thread m.thread) hm.thread (Realm.value_bool _)))
      fun _ _ => rfl
  | status =>
    exact (threadArgument_stays h 1).bind fun _ hr => (statusOf_stays hr).bind fun _ _ =>
      .pure (.one (Realm.value_str _))
  | wrap =>
    exact (Args.function_stays h 1).bind fun _ hf => (newThread_stays hf).bind fun r hr =>
      .pure (.one (v := .native (.wrapped r)) hr)
  | yield => exact .pure .empty

end Library.Coroutines

end PixelHost.Lua
