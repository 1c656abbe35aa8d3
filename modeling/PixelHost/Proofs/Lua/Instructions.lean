import PixelHost.Lua.Step
import PixelHost.Proofs.Lua.Operations

/-!
# Single instructions in a realm

Every instruction stays in a realm. It works on registers, captured variables and what they refer
to, and a function of the program is made of captured variables of the one that makes it.

## Main results

* `Lua.Run.perform_stays` — each instruction.
* `Lua.Run.step_stays` — the next instruction.
-/

namespace PixelHost.Lua.Run

variable {ρ : Realm} {α : Type} {Q : α → Prop}

/-! ### Elements and operators -/

theorem settle_stays {outcome : Outcome} (h : ρ.outcome outcome) (dest : Nat) :
    Stays ρ ρ.request (settle outcome dest) := by
  cases outcome with
  | value v => exact (setSlot_stays _ h).andThen (.pure trivial)
  | call f args => exact callValue_stays h.1 h.2 (k := .value dest) trivial

theorem readElement_stays {v key : Value} (hv : ρ.value v) (hkey : ρ.value key) (a : Nat)
    (source : Source) : Stays ρ ρ.request (readElement v key a source) := by
  unfold readElement
  extract_lets found
  have hfound {w : Value} (hw : ρ.value w) : Stays ρ ρ.request (found w) := by
    refine .ite (fun _ => ?_) fun _ => (setRegister_stays _ hw).andThen (.pure trivial)
    exact .read (fun _ _ => (lookUp_stays hv hkey _).bind fun _ h => settle_stays h _)
      fun _ _ => rfl
  split
  · exact (rawGet_stays hv key).bind fun _ hw => hfound hw
  · exact (Stays.pure Realm.value_nil).bind fun _ hw => hfound hw

theorem writeElement_stays {v key new : Value} (hv : ρ.value v) (hkey : ρ.value key)
    (hnew : ρ.value new) (source : Source) :
    Stays ρ ρ.request (writeElement v key new source) := by
  refine (assign_stays hv hkey hnew _).bind fun p hp => ?_
  split
  · exact .pure trivial
  · exact callValue_stays (hp _ rfl).1 (hp _ rfl).2 (k := .ignore) trivial

theorem upvalueCell_stays (u : Nat) : Stays ρ ρ.cell (upvalueCell u) := by
  refine .read (fun m hm => ?_) fun _ _ => rfl
  split
  · next r hr => exact .pure (hm.closure r (Array.mem_of_getElem? hr))
  · exact newCell_stays (c := .closed .nil) trivial

theorem arithStep_stays (op : ArithOp) (a : Nat) (x y : Operand) :
    Stays ρ ρ.request (arithStep op a x y) := by
  refine (operand_stays x).bind fun v hv => (operand_stays y).bind fun w hw =>
    .ite (fun _ => ?_) fun _ => (setRegister_stays _ (value_quickArith _ _ _)).andThen
      (.pure trivial)
  exact .read (fun _ _ => (arithmetic_stays op hv hw _ _).bind fun _ h => settle_stays h _)
    fun _ _ => rfl

theorem compareStep_stays (op : CompareOp) {v w : Value} (hv : ρ.value v) (hw : ρ.value w)
    (expected : Bool) : Stays ρ ρ.request (compareStep op v w expected) := by
  refine (comparison_stays op hv hw).bind fun verdict h => ?_
  split
  · exact (branch_stays _).andThen (.pure trivial)
  · exact callValue_stays h.1 (.two h.2.1 h.2.2) (k := .test _) trivial

/-! ### Calls and returns -/

theorem takeOpen_stays (first : Nat) : Stays ρ Plain (takeOpen first) :=
  .read (fun _ _ => (setTop_stays 0).andThen (.plain _)) fun _ _ => rfl

theorem countFrom_stays (count : Option Nat) (first : Nat) :
    Stays ρ Plain (countFrom count first) := by
  cases count with
  | some n => exact .plain n
  | none => exact takeOpen_stays first

theorem tailCallStep_stays (n func count : Nat) :
    Stays ρ ρ.request (tailCallStep n func count) := by
  induction n generalizing func count with
  | zero => exact raiseHere_stays _
  | succ n ih =>
    refine (slot_stays func).bind fun v hv => ?_
    split
    · refine .read (fun m hm => ?_) fun _ _ => rfl
      refine (closeCells_stays _).andThen <| (slots_stays _ _).bind fun args hargs => ?_
      have hframes := hm.frames
      generalize m.frames = frames at hframes ⊢
      cases frames with
      | nil => exact .pure trivial
      | cons frame below =>
        have hk := (hframes _ List.mem_cons_self).2
        exact (popFrame_stays fun f hf => hframes f (List.mem_cons_of_mem _ hf)).andThen <|
          (ensureStack_stays _).andThen <| (setSlot_stays _ hv).andThen <|
          (fillSlots_stays _ hargs).andThen <| (enterProgram_stays hv _ _ hk _ _ _).andThen
          (.pure trivial)
    · exact topDepth_stays.bind fun _ _ => .read
        (fun _ _ => callSlot_stays _ _ _ (k := .results _ _) trivial _ _ _) fun _ _ => rfl
    · refine (metamethod_stays hv _).bind fun h hh => .whenThen (callError_stays hv) ?_
      exact (ensureStack_stays _).andThen <| (shiftUp_stays _ _).andThen <|
        (setSlot_stays _ hh).andThen (ih _ _)

theorem values_copySlots {stack : Array Value} (h : ρ.values stack) (source dest : Nat) :
    ∀ n, ρ.values (copySlots stack source dest n) := by
  intro n
  induction n generalizing stack source dest with
  | zero => exact h
  | succ n ih => exact ih (h.set _ (h.getD _)) _ _

theorem returnStep_stays (first count : Nat) : Stays ρ ρ.request (returnStep first count) := by
  refine .read (fun m hm => .ite (fun _ => ?_) fun _ => ?_) fun _ _ => rfl
  · refine (slots_stays _ _).bind fun vs hvs => closeFrom_stays _ ?_
    rintro _ ⟨⟩
    exact hvs
  · have hfinish : Stays ρ ρ.request (return .finish (← slots first count)) :=
      (slots_stays _ _).bind fun _ hvs => .pure hvs
    refine .unlessThen (closeCells_stays _) ?_
    have hframes := hm.frames
    generalize m.frames = frames at hframes ⊢
    cases frames with
    | nil => exact hfinish
    | cons frame below =>
      have hpop := popFrame_stays fun f hf => hframes f (List.mem_cons_of_mem _ hf)
      have hcopy (dest n : Nat) : Stays ρ Plain (modify fun m => { m with
          stack := copySlots m.stack first dest n } : Run Unit) :=
        changeStack_stays (fun _ hm => values_copySlots hm.stack _ _ _) fun _ _ => rfl
      simp only []
      split
      · exact hpop.andThen <| (goOnAt_stays _).andThen <| (hcopy _ _).andThen <|
          (clearSlots_stays _ _).andThen (.pure trivial)
      · refine hpop.andThen <| (goOnAt_stays _).andThen <| .andThen (P := Plain) ?_ (.pure trivial)
        exact .changeCore (fun _ hm => { hm with stack := values_copySlots hm.stack _ _ _ })
          (fun _ _ => rfl) fun _ => rfl
      · exact hfinish

theorem varargStep_stays (a : Nat) (wanted : Option Nat) :
    Stays ρ ρ.request (varargStep a wanted) := by
  refine .read (fun m hm => ?_) fun _ _ => rfl
  refine (placeResults_stays _ _ ?_).andThen (.pure trivial)
  split
  · next f base extra k returnTo floor depth isTail below heq =>
    have hframe := hm.frames _ (heq ▸ List.mem_cons_self)
    exact hframe.1.2
  · exact .empty

/-! ### Loops -/

theorem loopError_stays {v : Value} (hv : ρ.value v) (what : String) :
    Stays ρ Q (loopError v what : Run α) :=
  (typeNameOf_stays hv).bind fun _ _ => raiseHere_stays _

theorem loopLimit_stays {limit : Value} (hlimit : ρ.value limit) (step : Int64) :
    Stays ρ Plain (loopLimit limit step) := by
  unfold loopLimit
  split
  · exact loopError_stays hlimit _
  · exact .plain _
  · extract_lets whole
    split
    · exact .plain _
    · exact .ite (fun _ => .plain _) fun _ => .plain _

/-- Only the place in the code changes. -/
theorem setPc_stays (target : Nat) :
    Stays ρ Plain (modify fun m => { m with pc := target } : Run Unit) :=
  .changeCore (fun _ hm => { hm with }) (fun _ _ => rfl) fun _ => rfl

theorem forPrepStep_stays (a target : Nat) : Stays ρ ρ.request (forPrepStep a target) := by
  refine (register_stays _).bind fun first hfirst => (register_stays _).bind fun limit hlimit =>
    (register_stays _).bind fun step hstep => ?_
  extract_lets skip toFloat
  have hskip : Stays ρ ρ.request skip := (setPc_stays _).andThen (.pure trivial)
  have htoFloat {v : Value} (hv : ρ.value v) (what : String) :
      Stays ρ Plain (toFloat v what) := by
    simp only [toFloat]
    split
    · exact .plain _
    · exact loopError_stays hv _
  split
  · refine .whenThen (raiseHere_stays _) <| (loopLimit_stays hlimit _).bind fun last _ => ?_
    split
    · exact hskip
    · exact .ite (fun _ => hskip) fun _ => (setRegister_stays _ (Realm.value_int _)).andThen <|
        (setRegister_stays _ (Realm.value_int _)).andThen (.pure trivial)
  · refine (htoFloat hlimit _).bind fun last _ => (htoFloat hstep _).bind fun s _ =>
      (htoFloat hfirst _).bind fun x _ => .whenThen (raiseHere_stays _) ?_
    exact .ite (fun _ => hskip) fun _ => (setRegister_stays _ (Realm.value_num _)).andThen <|
      (setRegister_stays _ (Realm.value_num _)).andThen <|
      (setRegister_stays _ (Realm.value_num _)).andThen <|
      (setRegister_stays _ (Realm.value_num _)).andThen (.pure trivial)

theorem forLoopStep_stays (a target : Nat) : Stays ρ ρ.request (forLoopStep a target) := by
  refine (register_stays _).bind fun _ _ => (register_stays _).bind fun _ _ =>
    (register_stays _).bind fun _ _ => ?_
  split
  · refine .ite (fun _ => .pure trivial) fun _ => .andThen (P := Plain) ?_ (.pure trivial)
    refine .changeCore (fun m hm => { hm with stack := ?_ }) (fun _ _ => rfl) fun _ => rfl
    exact ((hm.stack.set _ (Realm.value_int _)).set _ (Realm.value_int _)).set _
      (Realm.value_int _)
  · refine .ite (fun _ => ?_) fun _ => .pure trivial
    exact (setRegister_stays _ (Realm.value_num _)).andThen <|
      (setRegister_stays _ (Realm.value_num _)).andThen <| (setPc_stays _).andThen (.pure trivial)
  · exact .pure trivial

theorem markToClose_stays (a : Nat) : Stays ρ Plain (markToClose a) := by
  have hmark : Stays ρ Plain (modify fun m =>
      { m with toClose := (m.base + a) :: m.toClose } : Run Unit) :=
    .changeCore (fun _ hm => { hm with }) (fun _ _ => rfl) fun _ => rfl
  refine (register_stays _).bind fun v hv => .ite (fun _ => ?_) fun _ => .plain ()
  refine (metamethod_stays hv _).bind fun h _ => .ite (fun _ => ?_) fun _ => hmark
  exact .read (fun _ _ => (raiseHere_stays _).stops) fun _ _ => rfl

theorem genericCallStep_stays (a count : Nat) : Stays ρ ρ.request (genericCallStep a count) := by
  refine .read (fun m _ => .andThen (P := Plain) ?_ ?_) fun _ _ => rfl
  · exact changeStack_stays (fun _ hm => values_copySlots hm.stack _ _ _) fun _ _ => rfl
  · exact topDepth_stays.bind fun _ _ =>
      callSlot_stays _ _ _ (k := .results _ _) trivial _ _ _

/-! ### Constructors -/

theorem closureStep_stays (a index : Nat) : Stays ρ ρ.request (closureStep a index) := by
  refine .read (fun m _ => ?_) fun _ _ => rfl
  extract_lets proto
  have hcaptured (source : UpvalueSource) : Stays ρ ρ.cell
      (if source.fromRegister then captureSlot (m.base + source.index)
        else upvalueCell source.index) :=
    .ite (fun _ => captureSlot_stays _) fun _ => upvalueCell_stays _
  refine (Stays.mapM_array _ fun source _ => hcaptured source).bind fun upvalues hupvalues => ?_
  exact (charge_stays _).andThen <| freshId_stays.bind fun id _ =>
    (setRegister_stays _ (v := .closure ⟨id, proto, upvalues⟩) hupvalues).andThen (.pure trivial)

theorem setListStep_stays (a : Nat) (count : Option Nat) (offset : Nat) :
    Stays ρ ρ.request (setListStep a count offset) := by
  refine .read (fun m _ => ?_) fun _ _ => rfl
  refine (countFrom_stays _ _).bind fun n _ => (slots_stays _ _).bind fun vs hvs =>
    (register_stays _).bind fun t ht => ?_
  split
  · refine (modifyTable_stays ht fun t ht => ?_).andThen (.pure trivial)
    cases count with
    | some n => exact ht.setSequence _ hvs
    | none => exact (ht.growArray _).setSequence _ hvs
  · exact .pure trivial

/-! ### The next instruction -/

theorem perform_stays (i : Instr) : Stays ρ ρ.request (perform i) := by
  cases i with
  | move a b =>
    exact (register_stays b).bind fun _ hv => (setRegister_stays a hv).andThen (.pure trivial)
  | load a l => exact (setRegister_stays a (Realm.value_ofLiteral l)).andThen (.pure trivial)
  | loadFalseSkip a =>
    refine (setRegister_stays a (Realm.value_bool _)).andThen <|
      .andThen (P := Plain) ?_ (.pure trivial)
    exact .changeCore (fun _ hm => { hm with }) (fun _ _ => rfl) fun _ => rfl
  | loadNil a count =>
    exact .read (fun _ _ => (clearSlots_stays _ _).andThen (.pure trivial)) fun _ _ => rfl
  | getUpvalue a u =>
    exact (upvalueCell_stays u).bind fun _ hr => (cellValue_stays hr).bind fun _ hv =>
      (setRegister_stays a hv).andThen (.pure trivial)
  | setUpvalue u a =>
    exact (upvalueCell_stays u).bind fun _ hr => (register_stays a).bind fun _ hv =>
      (setCell_stays hr hv).andThen (.pure trivial)
  | getUpField a u key =>
    exact (upvalueCell_stays u).bind fun _ hr => (cellValue_stays hr).bind fun _ hv =>
      readElement_stays hv (Realm.value_str key) a _
  | getIndex a t k =>
    exact (register_stays t).bind fun _ hv => (register_stays k).bind fun _ hk =>
      readElement_stays hv hk a _
  | getInt a t n =>
    exact (register_stays t).bind fun _ hv => readElement_stays hv (Realm.value_int n) a _
  | getField a t key =>
    exact (register_stays t).bind fun _ hv => readElement_stays hv (Realm.value_str key) a _
  | setUpField u key x =>
    exact (upvalueCell_stays u).bind fun _ hr => (cellValue_stays hr).bind fun _ hv =>
      (operand_stays x).bind fun _ hnew => writeElement_stays hv (Realm.value_str key) hnew _
  | setIndex t k x =>
    exact (register_stays t).bind fun _ hv => (register_stays k).bind fun _ hk =>
      (operand_stays x).bind fun _ hnew => writeElement_stays hv hk hnew _
  | setInt t n x =>
    exact (register_stays t).bind fun _ hv => (operand_stays x).bind fun _ hnew =>
      writeElement_stays hv (Realm.value_int n) hnew _
  | setField t key x =>
    exact (register_stays t).bind fun _ hv => (operand_stays x).bind fun _ hnew =>
      writeElement_stays hv (Realm.value_str key) hnew _
  | newTable a arraySize slots =>
    exact (newTable_stays (.withRoom _ _)).bind fun r hr =>
      (setRegister_stays a (v := .table r) hr).andThen (.pure trivial)
  | self a b key =>
    exact (register_stays b).bind fun _ hv => (setRegister_stays _ hv).andThen <|
      readElement_stays hv (Realm.value_str key) a _
  | arith op a x y => exact arithStep_stays op a x y
  | unary op a b =>
    exact .read (fun _ _ => (register_stays b).bind fun _ hv =>
      (unary_stays op hv _).bind fun _ h => settle_stays h _) fun _ _ => rfl
  | not a b =>
    exact (register_stays b).bind fun _ _ => (setRegister_stays a (Realm.value_bool _)).andThen
      (.pure trivial)
  | concat a count => exact .read (fun _ _ => concatFrom_stays _ count) fun _ _ => rfl
  | close a => exact .read (fun _ _ => closeFrom_stays _ fun _ h => nomatch h) fun _ _ => rfl
  | toBeClosed a => exact (markToClose_stays a).andThen (.pure trivial)
  | jump target => exact (setPc_stays target).andThen (.pure trivial)
  | compare op x y expected =>
    refine (operand_stays x).bind fun v hv => (operand_stays y).bind fun w hw => ?_
    split
    · exact (branch_stays _).andThen (.pure trivial)
    · exact compareStep_stays op hv hw expected
  | test a expected =>
    exact (register_stays a).bind fun _ _ => (branch_stays _).andThen (.pure trivial)
  | testSet a b expected =>
    exact (register_stays b).bind fun _ hv => .ite
      (fun _ => (setRegister_stays a hv).andThen <| (branch_stays _).andThen (.pure trivial))
      fun _ => (branch_stays _).andThen (.pure trivial)
  | call a args results =>
    exact .read (fun _ _ => (countFrom_stays args _).bind fun _ _ =>
      topDepth_stays.bind fun _ _ => .read
        (fun _ _ => callSlot_stays _ _ _ (k := .results _ _) trivial _ _ _) fun _ _ => rfl) fun _ _ => rfl
  | tailCall a args =>
    exact .read (fun _ _ => (countFrom_stays args _).bind fun _ _ => tailCallStep_stays _ _ _)
      fun _ _ => rfl
  | ret a count =>
    exact .read (fun _ _ => (countFrom_stays count _).bind fun _ _ => returnStep_stays _ _)
      fun _ _ => rfl
  | forLoop a target => exact forLoopStep_stays a target
  | forPrep a target => exact forPrepStep_stays a target
  | genericPrep a target =>
    exact (markToClose_stays _).andThen <| (setPc_stays target).andThen (.pure trivial)
  | genericCall a count => exact genericCallStep_stays a count
  | genericLoop a target =>
    exact (register_stays _).bind fun _ hv => .ite (fun _ => .pure trivial) fun _ =>
      (setRegister_stays _ hv).andThen <| (setPc_stays target).andThen (.pure trivial)
  | setList a count offset => exact setListStep_stays a count offset
  | closure a index => exact closureStep_stays a index
  | vararg a count => exact varargStep_stays a count
  | varargPrep => exact .pure trivial

theorem step_stays : Stays ρ ρ.request step := by
  intro m h agree
  exact perform_stays (m.code.getD m.pc .varargPrep) { m with pc := m.pc + 1 } h
    (agree.withCore { agree.core with } rfl)

end PixelHost.Lua.Run
