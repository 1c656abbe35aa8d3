import PixelHost.Proofs.Lua.Access

/-!
# Calls and returns in a realm

Starting and ending activations stays in a realm: what is called and its arguments lie there, and so
do the results that are handed on.

## Main results

* `Lua.Run.callSlot_stays`, `Lua.Run.callValue_stays` — calls.
* `Lua.Run.concatFrom_stays` — joining strings.
* `Lua.Run.closeFrom_stays`, `Lua.Run.finish_stays` — returns.
-/

namespace PixelHost.Lua.Run

variable {ρ : Realm} {α : Type} {Q : α → Prop}

/-! ### The stack -/

theorem ensureStack_stays (needed : Nat) : Stays ρ Plain (ensureStack needed) := by
  refine .read (fun m _ => .ite (fun _ => ?_) fun _ => .plain ()) fun _ _ => rfl
  extract_lets grow
  have hgrow (target : Nat) : Stays ρ Plain (grow target) :=
    (charge_stays _).andThen (changeStack_stays (fun _ hm => hm.stack.append (.replicate _))
      fun _ _ => rfl)
  exact .ite (fun _ => hgrow _) fun _ => .ite (fun _ => .throw trivial) fun _ =>
    (hgrow _).andThen (raiseHere_stays _)

theorem checkDepth_stays (depth : Nat) : Stays ρ Plain (checkDepth depth) :=
  .ite (fun _ => raiseHere_stays _) fun _ => .ite (fun _ => .throw trivial) fun _ => .plain ()

/-- The activation at the top says which function goes on. -/
theorem goOnAt_stays (pc : Nat) : Stays ρ Plain (goOnAt pc) := by
  refine .changeCore (fun m hm => ?_) (fun m h => ?_) fun m => ?_
  · split
    · next f base extra k returnTo floor depth isTail below heq =>
      have hframe := hm.frames _ (heq ▸ List.mem_cons_self)
      exact { hm with closure := hframe.1.1 }
    · exact { hm with }
  · rw [Machine.withHeap_frames]
    split <;> rfl
  · split <;> rfl

theorem topDepth_stays : Stays ρ Plain topDepth := by
  refine .read (fun m _ => ?_) fun _ _ => rfl
  split <;> exact .plain _

theorem topFloor_stays : Stays ρ Plain topFloor := by
  refine .read (fun m _ => ?_) fun _ _ => rfl
  split <;> exact .plain _

theorem clearSlots_stays (first : Nat) : ∀ n, Stays ρ Plain (clearSlots first n)
  | 0 => .plain ()
  | n + 1 => (setSlot_stays first Realm.value_nil).andThen (clearSlots_stays (first + 1) n)

theorem fillSlots_stays (first : Nat) {vs : Array Value} (hvs : ρ.values vs) :
    Stays ρ Plain (fillSlots first vs) :=
  changeStack_stays (fun _ hm => fold_invariant _ _ hm.stack fun _ _ _ hstack =>
    hstack.set _ (hvs _ (Array.getElem_mem _))) fun _ _ => rfl

/-- The end of the values last produced is no part of the heap. -/
theorem setTop_stays (top : Nat) :
    Stays ρ Plain (modify fun m => { m with top } : Run Unit) :=
  .changeCore (fun _ hm => { hm with }) (fun _ _ => rfl) fun _ => rfl

theorem placeResults_stays (first : Nat) (wanted : Option Nat) {vs : Array Value}
    (hvs : ρ.values vs) : Stays ρ Plain (placeResults first wanted vs) := by
  unfold placeResults
  split
  · exact setSlot_stays _ (hvs.getD 0)
  · exact (fillSlots_stays _ (hvs.extract _ _)).andThen (clearSlots_stays _ _)
  · exact (ensureStack_stays _).andThen ((fillSlots_stays _ hvs).andThen (setTop_stays _))

/-! ### Calls -/

/-- An activation is put on top of the others. -/
theorem pushFrame_stays {f : Frame} (hf : ρ.frame f) :
    Stays ρ Plain (modify fun m => { m with frames := f :: m.frames } : Run Unit) :=
  .changeCore (fun _ hm => { hm with frames := List.forall_mem_cons.mpr ⟨hf, hm.frames⟩ })
    (fun _ _ => rfl) fun _ => rfl

theorem enterProgram_stays {f : Closure} (hf : ρ.closure f) (func count : Nat)
    {k : Continuation} (hk : ρ.continuation k) (depth : Nat) (isTail : Bool) (returnTo : Nat) :
    Stays ρ Plain (enterProgram f func count k depth isTail returnTo) := by
  refine (ensureStack_stays _).andThen ?_
  extract_lets entered
  have hentered {extra : Array Value} (hextra : ρ.values extra) :
      Stays ρ Plain (entered extra) := by
    have hframe : ρ.frame ⟨.program f (func + 1) extra, k, returnTo,
        func + 1 + f.proto.frameSize, depth, isTail⟩ := ⟨⟨hf, hextra⟩, hk⟩
    have hmodify : Stays ρ Plain (modify fun m => { m with
        frames := ⟨.program f (func + 1) extra, k, returnTo, func + 1 + f.proto.frameSize, depth,
          isTail⟩ :: m.frames
        pc := 0
        closure := f
        code := f.proto.code
        base := func + 1 } : Run Unit) :=
      .changeCore (fun _ hm => { hm with
        frames := List.forall_mem_cons.mpr ⟨hframe, hm.frames⟩
        closure := hf }) (fun _ _ => rfl) fun _ => rfl
    exact .ite (fun _ => (clearSlots_stays _ _).andThen hmodify) fun _ => hmodify
  exact .ite (fun _ => (slots_stays _ _).bind fun _ hextra => hentered hextra)
    fun _ => (Stays.pure .empty).bind fun _ hextra => hentered hextra

theorem callError_stays {v : Value} (hv : ρ.value v) : Stays ρ Q (callError v : Run α) := by
  refine .read (fun m _ => ?_) fun _ _ => rfl
  split
  · exact .read (fun _ _ => (Stays.plain _).bind fun _ _ => typeError_stays hv _ _) fun _ _ => rfl
  · exact (Stays.plain _).bind fun _ _ => typeError_stays hv _ _

theorem shiftUp_stays (first : Nat) : ∀ n, Stays ρ Plain (shiftUp first n)
  | 0 => .plain ()
  | n + 1 => (slot_stays _).bind fun _ hv => (setSlot_stays _ hv).andThen (shiftUp_stays first n)

/-- A library function goes on, its arguments known. -/
theorem callSlot_stays (n func count : Nat) {k : Continuation} (hk : ρ.continuation k)
    (depth : Nat) (isTail : Bool) (returnTo : Nat) :
    Stays ρ ρ.request (callSlot n func count k depth isTail returnTo) := by
  induction n generalizing func count k depth isTail returnTo with
  | zero => exact raiseHere_stays _
  | succ n ih =>
    refine (slot_stays func).bind fun v hv => ?_
    split
    · exact (enterProgram_stays hv _ _ hk _ _ _).andThen (.pure trivial)
    · next f =>
      refine (slots_stays _ _).bind fun args hargs => ?_
      refine (pushFrame_stays (f := ⟨.native f args, k, returnTo, func, depth, false⟩)
        ⟨⟨hv, hargs⟩, hk⟩).andThen ?_
      split
      · exact .whenThen (badArgument_stays _ _) <| (checkDepth_stays _).andThen <|
          (fillSlots_stays _ hargs).andThen (ih _ _ (k := .guarded) trivial _ _ _)
      · have hinner := hargs.extract 2 args.size
        exact .unlessThen (badType_stays hargs _ _) <| (checkDepth_stays _).andThen <|
          (fillSlots_stays _ ((Realm.values.one (hargs.getD 0)).append hinner)).andThen
            (ih _ _ (k := .guarded) trivial _ _ _)
      · split
        · exact badArgument_stays _ _
        · next v hget =>
          have hv := hargs.getElem? hget
          refine (metamethod_stays hv _).bind fun h hh => .ite (fun _ => ?_) fun _ => ?_
          · split
            · exact .pure (.three (ρ.native_of_arises _ trivial) hv Realm.value_nil)
            · exact badType_stays hargs _ _
          · exact (checkDepth_stays _).andThen <| (fillSlots_stays _ (.two hh hv)).andThen
              (ih _ _ (k := .firstThree) trivial _ _ _)
      · exact .read (fun _ _ => .ite (fun _ => raiseHere_stays _) fun _ =>
          .ite (fun _ => raiseHere_stays _) fun _ => .pure hargs) fun _ _ => rfl
      · exact .pure ⟨hv, hargs⟩
    · refine (metamethod_stays hv _).bind fun h hh => .whenThen (callError_stays hv) ?_
      exact (ensureStack_stays _).andThen <| (shiftUp_stays _ _).andThen <|
        (setSlot_stays _ hh).andThen (ih _ _ hk _ _ _)

theorem callValue_stays {f : Value} {args : Array Value} (hf : ρ.value f) (hargs : ρ.values args)
    {k : Continuation} (hk : ρ.continuation k) : Stays ρ ρ.request (callValue f args k) :=
  topFloor_stays.bind fun _ _ => topDepth_stays.bind fun _ _ =>
    (ensureStack_stays _).andThen <| (setSlot_stays _ hf).andThen <|
    (fillSlots_stays _ hargs).andThen <| (checkDepth_stays _).andThen <|
    .read (fun _ _ => callSlot_stays _ _ _ hk _ _ _) fun _ _ => rfl

/-! ### Joining strings -/

theorem concatFrom_stays (first count : Nat) : Stays ρ ρ.request (concatFrom first count) := by
  unfold concatFrom
  refine .ite (fun _ => .pure trivial) fun _ => (slots_stays _ _).bind fun vs _ => ?_
  split
  next strings others _ =>
  extract_lets rest stringCount left joined
  have hjoined : Stays ρ ρ.request (joined ()) := by
    refine .ite (fun _ => .pure trivial) fun _ =>
      (slot_stays _).bind fun a ha => (slot_stays _).bind fun b hb =>
      (metamethod_stays ha _).bind fun own hown => ?_
    extract_lets called
    have hcalled {h : Value} (hh : ρ.value h) : Stays ρ ρ.request (called h) := by
      refine .ite (fun _ => ?_) fun _ => callValue_stays hh (.two ha hb) trivial
      have hfault {v : Value} (hv : ρ.value v) (i : Nat) : Stays ρ ρ.request (do
          typeError v "concatenate" (← registerOrigin? (i - (← get).base))) :=
        .read (fun _ _ => (registerOrigin?_stays _).bind fun _ _ => typeError_stays hv _ _)
          fun _ _ => rfl
      cases a.canConcat
      · exact hfault ha _
      · exact hfault hb _
    exact .ite (fun _ => (metamethod_stays hb _).bind fun _ hh => hcalled hh) fun _ =>
      (Stays.pure hown).bind fun _ hh => hcalled hh
  exact .ite (fun _ => (demand_stays _).andThen <| (newString_stays _).bind fun _ hv =>
    (setSlot_stays _ hv).andThen hjoined) fun _ => hjoined

/-! ### Returns -/

/-- A variable is closed, or what comes after the last one is asked for. -/
theorem closing_stays (level : Nat) (last : Request) (hlast : ρ.request last) (k : Continuation)
    (hk : ρ.continuation k) :
    Stays ρ ρ.request (do
      closeCells level
      let m ← get
      match m.toClose with
      | i :: rest =>
        if i ≥ level then
          set { m with toClose := rest }
          let v ← slot i
          let h ← metamethod v Event.close
          callValue h #[v, .nil] k
        else return last
      | [] => return last) := by
  have hcall (i : Nat) : Stays ρ ρ.request (do
      let v ← slot i
      let h ← metamethod v Event.close
      callValue h #[v, .nil] k) :=
    (slot_stays i).bind fun v hv => (metamethod_stays hv _).bind fun h hh =>
      callValue_stays hh (.two hv Realm.value_nil) hk
  refine (closeCells_stays _).andThen fun m h agree => ?_
  change ρ.Same _ _ ((match m.toClose with
      | i :: rest =>
        if i ≥ level then set { m with toClose := rest } >>= _ else pure last
      | [] => pure last : Run Request) m)
    ((match m.toClose with
      | i :: rest =>
        if i ≥ level then set { m.withHeap h with toClose := rest } >>= _ else pure last
      | [] => pure last : Run Request) (m.withHeap h))
  cases m.toClose with
  | nil => exact .ok hlast agree id
  | cons i rest =>
    simp only []
    split
    · exact hcall i { m with toClose := rest } h (agree.withCore { agree.core with } rfl)
    · exact .ok hlast agree id

theorem closeFrom_stays (level : Nat) {results : Option (Array Value)}
    (hresults : ∀ vs ∈ results, ρ.values vs) : Stays ρ ρ.request (closeFrom level results) := by
  cases results with
  | none => exact closing_stays level .go trivial (.closing level) trivial
  | some vs =>
    have hvs := hresults vs rfl
    exact closing_stays level (.finish vs) hvs (.closingReturn level vs) hvs

/-- The jump is read from the code of the running function. -/
theorem branch_stays (taken : Bool) : Stays ρ Plain (branch taken) := by
  refine .changeCore (fun m hm => ?_) (fun m h => ?_) fun m => ?_
  · split
    · split <;> exact { hm with }
    · exact { hm with }
  · rw [Machine.withHeap_code, Machine.withHeap_pc]
    split
    · split <;> rfl
    · rfl
  · split
    · split <;> rfl
    · rfl

/-- The activation at the top is taken away. -/
theorem popFrame_stays {below : List Frame} (h : ρ.frames below) :
    Stays ρ Plain (modify fun m => { m with frames := below } : Run Unit) :=
  .changeCore (fun _ hm => { hm with frames := h }) (fun _ _ => rfl) fun _ => rfl

theorem finish_stays {results : Array Value} (hresults : ρ.values results) :
    Stays ρ ρ.request (finish results) := by
  refine .read (fun m hm => ?_) fun _ _ => rfl
  have hframes := hm.frames
  generalize m.frames = frames at hframes ⊢
  cases frames with
  | nil => exact .pure hresults
  | cons frame below =>
    have hk := (hframes _ List.mem_cons_self).2
    refine (popFrame_stays fun f hf => hframes f (List.mem_cons_of_mem _ hf)).andThen <|
      (goOnAt_stays _).andThen ?_
    generalize frame.continuation = k at hk ⊢
    cases k with
    | results first wanted => exact (placeResults_stays _ _ hresults).andThen (.pure trivial)
    | value i => exact (setSlot_stays _ (hresults.getD 0)).andThen (.pure trivial)
    | ignore => exact .pure trivial
    | test expected => exact (branch_stays _).andThen (.pure trivial)
    | concat first count =>
      exact (setSlot_stays _ (hresults.getD 0)).andThen (concatFrom_stays _ _)
    | closing level => exact closeFrom_stays _ fun _ h => nomatch h
    | closingReturn level vs =>
      refine closeFrom_stays _ ?_
      rintro _ ⟨⟩
      exact hk
    | guarded => exact .pure ((Realm.values.one (v := .bool true) trivial).append hresults)
    | firstThree => exact .pure (.three (hresults.getD 0) (hresults.getD 1) (hresults.getD 2))
    | done => exact .pure hresults

end PixelHost.Lua.Run
