import PixelHost.Proofs.Lua.Calls

/-!
# Operations on values in a realm

Elements, operators and comparisons stay in a realm, whether the result is known at once or a
metamethod is called for it. A library function that has calls carried out stays in the realm if
these calls do.

## Main definitions

* `Lua.Realm.caller` — the calls that are carried out for library functions stay in a realm.

## Main results

* `Lua.Run.lookUp_stays`, `Lua.Run.assign_stays` — elements.
* `Lua.Run.arithmetic_stays`, `Lua.Run.unary_stays`, `Lua.Run.comparison_stays` — operators.
* `Lua.Caller.call_stays` — calls inside of library functions.
-/

namespace PixelHost.Lua

variable {ρ : Realm} {α : Type} {Q : α → Prop}

/-- A call that an assignment leaves to be carried out. -/
def Realm.pending (ρ : Realm) (c : Option (Value × Array Value)) : Prop :=
  ∀ p ∈ c, ρ.value p.1 ∧ ρ.values p.2

namespace Run

theorem originOf_stays (source : Source) : Stays ρ Plain (originOf source) := by
  cases source with
  | register r => exact registerOrigin?_stays r
  | upvalue u => exact .read (fun _ _ => .plain _) fun _ _ => rfl
  | unknown => exact .plain _

/-! ### Elements -/

theorem lookUpFor_stays (n : Nat) {v key : Value} (hv : ρ.value v) (hkey : ρ.value key)
    (source : Source) : Stays ρ ρ.outcome (lookUpFor n v key source) := by
  induction n generalizing v source with
  | zero => exact raiseHere_stays _
  | succ n ih =>
    unfold lookUpFor
    extract_lets found
    have hfound {h : Value} (hh : ρ.value h) : Stays ρ ρ.outcome (found h) :=
      .ite (fun _ => .pure ⟨hh, .two hv hkey⟩) fun _ => ih hh _
    split
    · refine (tableAt_stays hv).bind fun t ht => .ite (fun _ => .pure (ht.get key)) fun _ => ?_
      split
      · exact .pure trivial
      · next mt hmt =>
        exact (tableAt_stays (ht.metatable mt hmt)).bind fun t ht =>
          .ite (fun _ => .pure trivial) fun _ => (Stays.pure (ht.getStr _)).bind fun _ hh => hfound hh
    · exact (metamethod_stays hv _).bind fun h hh => .ite
        (fun _ => (originOf_stays _).bind fun _ _ => (typeError_stays hv _ _).stops)
        fun _ => (Stays.pure hh).bind fun _ hh => hfound hh

theorem lookUp_stays {v key : Value} (hv : ρ.value v) (hkey : ρ.value key) (source : Source) :
    Stays ρ ρ.outcome (lookUp v key source) := lookUpFor_stays _ hv hkey source

/-- A key that is refused ends in an error. -/
theorem checkKey_stays (key : Value) : Stays ρ Plain (checkKey key) := by
  unfold checkKey
  split
  · exact raiseHere_stays _
  · exact .ite (fun _ => raiseHere_stays _) fun _ => .plain _
  · exact .plain _

theorem assignFor_stays (n : Nat) {v key new : Value} (hv : ρ.value v) (hkey : ρ.value key)
    (hnew : ρ.value new) (source : Source) :
    Stays ρ ρ.pending (assignFor n v key new source) := by
  induction n generalizing v source with
  | zero => exact raiseHere_stays _
  | succ n ih =>
    unfold assignFor
    extract_lets found
    have hfound {h : Value} (hh : ρ.value h) : Stays ρ ρ.pending (found h) := by
      refine .ite (fun _ => .pure ?_) fun _ => ih hh _
      rintro _ ⟨⟩
      exact ⟨hh, .three hv hkey hnew⟩
    split
    · next r =>
      have hset : Stays ρ ρ.pending (do
          checkKey key
          rawSet r key new
          return none) :=
        (checkKey_stays key).andThen <| (rawSet_stays hv hkey hnew).andThen <|
          .pure fun _ h => nomatch h
      refine (tableAt_stays hv).bind fun t ht => ?_
      split
      · exact hset
      · next mt hmt =>
        refine (tableAt_stays (ht.metatable mt hmt)).bind fun mt hmt => ?_
        have hh : ρ.value (if (t.get key).isNil then mt.getStr Event.newIndex else .nil) := by
          split
          · exact hmt.getStr _
          · exact trivial
        exact .ite (fun _ => hset) fun _ => (Stays.pure hh).bind fun _ hh => hfound hh
    · exact (metamethod_stays hv _).bind fun h hh => .ite
        (fun _ => (originOf_stays _).bind fun _ _ => (typeError_stays hv _ _).stops)
        fun _ => (Stays.pure hh).bind fun _ hh => hfound hh

theorem assign_stays {v key new : Value} (hv : ρ.value v) (hkey : ρ.value key)
    (hnew : ρ.value new) (source : Source) : Stays ρ ρ.pending (assign v key new source) :=
  assignFor_stays _ hv hkey hnew source

/-! ### Operators -/

theorem value_quickArith (op : ArithOp) (x y : Value) : ρ.value (quickArith op x y) := by
  unfold quickArith
  split
  · split <;> first | exact trivial | (split <;> exact trivial)
  all_goals first | exact trivial | (split <;> exact trivial)

theorem operandError_stays {x y : Value} (hx : ρ.value x) (hy : ρ.value y) (sx sy : Source)
    (operation : String) : Stays ρ Q (operandError x y sx sy operation : Run α) := by
  unfold operandError
  split
  · exact (originOf_stays _).bind fun _ _ => typeError_stays hy _ _
  · exact (originOf_stays _).bind fun _ _ => typeError_stays hx _ _

theorem integerError_stays (x : Value) (sx sy : Source) :
    Stays ρ Q (integerError x sx sy : Run α) :=
  (originOf_stays _).bind fun _ _ => raiseHere_stays _

theorem binaryMetamethod_stays {x y : Value} (hx : ρ.value x) (hy : ρ.value y) (event : Bytes) :
    Stays ρ ρ.value (binaryMetamethod x y event) :=
  (metamethod_stays hx _).bind fun _ hh => .ite (fun _ => metamethod_stays hy _) fun _ => .pure hh

theorem arithError_stays (fault : ArithFault) (x : Value) (sx sy : Source) :
    Stays ρ Q (arithError fault x sx sy : Run α) := by
  cases fault with
  | floorDivByZero => exact raiseHere_stays _
  | moduloByZero => exact raiseHere_stays _
  | noInteger => exact integerError_stays x sx sy

theorem arithmetic_stays (op : ArithOp) {x y : Value} (hx : ρ.value x) (hy : ρ.value y)
    (sx sy : Source) : Stays ρ ρ.outcome (arithmetic op x y sx sy) := by
  unfold arithmetic
  extract_lets numbers
  generalize numbers = numbers
  split
  · exact .pure (Realm.value_ofNumeral _)
  · exact arithError_stays _ _ _ _
  · exact arithError_stays _ _ _ _
  · refine (binaryMetamethod_stays hx hy _).bind fun h hh => .ite (fun _ => ?_) fun _ => ?_
    · exact .pure ⟨hh, .two hx hy⟩
    · split
      · exact arithError_stays _ _ _ _
      · exact operandError_stays hx hy _ _ _

theorem unary_stays (op : UnaryOp) {v : Value} (hv : ρ.value v) (source : Source) :
    Stays ρ ρ.outcome (unary op v source) := by
  have hask (event : Bytes) (operation : String) : Stays ρ ρ.outcome (do
      let h ← metamethod v event
      if h.isNil then typeError v operation (← originOf source)
      return .call h #[v, v]) :=
    (metamethod_stays hv _).bind fun h hh => .ite
      (fun _ => (originOf_stays _).bind fun _ _ => (typeError_stays hv _ _).stops)
      fun _ => .pure ⟨hh, .two hv hv⟩
  unfold unary
  split
  · exact .pure trivial
  · exact .pure trivial
  · exact hask _ _
  · split
    · split
      · exact .pure trivial
      · exact integerError_stays _ _ _
    · exact hask _ _
  · exact .pure trivial
  · refine (metamethod_stays hv _).bind fun h hh => .ite (fun _ => .pure ⟨hh, .two hv hv⟩)
      fun _ => ?_
    split
    · exact (tableAt_stays hv).bind fun _ _ => .pure trivial
    · exact (originOf_stays _).bind fun _ _ => typeError_stays hv _ _

theorem compareError_stays {x y : Value} (hx : ρ.value x) (hy : ρ.value y) :
    Stays ρ Q (compareError x y : Run α) :=
  (typeNameOf_stays hx).bind fun _ _ => (typeNameOf_stays hy).bind fun _ _ =>
    .ite (fun _ => raiseHere_stays _) fun _ => raiseHere_stays _

theorem comparison_stays (op : CompareOp) {x y : Value} (hx : ρ.value x) (hy : ρ.value y) :
    Stays ρ ρ.verdict (comparison op x y) := by
  unfold comparison
  split
  · refine .ite (fun _ => .pure trivial) fun _ => ?_
    split
    · refine (binaryMetamethod_stays hx hy _).bind fun h hh => .pure ?_
      split
      · exact trivial
      · exact ⟨hh, hx, hy⟩
    · exact .pure trivial
  · split
    · exact .pure trivial
    · split
      · exact .pure trivial
      · exact (binaryMetamethod_stays hx hy _).bind fun h hh =>
          .ite (fun _ => compareError_stays hx hy) fun _ => .pure ⟨hh, hx, hy⟩
  · split
    · exact .pure trivial
    · split
      · exact .pure trivial
      · exact (binaryMetamethod_stays hx hy _).bind fun h hh =>
          .ite (fun _ => .pure ⟨hh, hx, hy⟩) fun _ =>
            (binaryMetamethod_stays hy hx _).bind fun h hh =>
              .ite (fun _ => compareError_stays hx hy) fun _ => .pure ⟨hh, hy, hx⟩

end Run

/-! ### Calls inside of library functions -/

/-- The calls that are carried out for library functions stay in the realm. -/
def Realm.caller (ρ : Realm) (c : Caller) : Prop :=
  ∀ r, ρ.request r → Stays ρ ρ.stop (c.run r)

namespace Caller

open Run

variable {c : Caller} (hc : ρ.caller c)

/-- How many runs that cannot be suspended are under way is outside of the heap. -/
theorem count_stays (pinned holding : Machine → Nat)
    (hpinned : ∀ m h, pinned (m.withHeap h) = pinned m)
    (hholding : ∀ m h, holding (m.withHeap h) = holding m) :
    Stays ρ Plain
      (modify fun m => { m with pinned := pinned m, holding := holding m } : Run Unit) :=
  .changeCore (fun _ hm => { hm with }) (fun m h => by rw [hpinned, hholding]; rfl) fun _ => rfl

include hc

theorem call_stays {f : Value} {args : Array Value} (hf : ρ.value f) (hargs : ρ.values args) :
    Stays ρ ρ.values (c.call f args) := by
  refine (count_stays _ _ (fun _ _ => rfl) fun _ _ => rfl).andThen <|
    (callValue_stays hf hargs (k := .done) trivial).bind fun request hrequest =>
      (hc request hrequest).bind fun stop hstop => ?_
  split
  · exact (count_stays _ _ (fun _ _ => rfl) fun _ _ => rfl).andThen (.pure hstop)
  · exact .pure hstop

theorem callOne_stays {f : Value} {args : Array Value} (hf : ρ.value f) (hargs : ρ.values args) :
    Stays ρ ρ.value (c.callOne f args) :=
  (call_stays hc hf hargs).bind fun _ hvs => .pure (hvs.getD 0)

theorem resolve_stays {outcome : Outcome} (h : ρ.outcome outcome) :
    Stays ρ ρ.value (c.resolve outcome) := by
  cases outcome with
  | value v => exact .pure h
  | call f args => exact callOne_stays hc h.1 h.2

theorem element_stays {v key : Value} (hv : ρ.value v) (hkey : ρ.value key) :
    Stays ρ ρ.value (c.element v key) :=
  (lookUp_stays hv hkey _).bind fun _ h => resolve_stays hc h

theorem setElement_stays {v key new : Value} (hv : ρ.value v) (hkey : ρ.value key)
    (hnew : ρ.value new) : Stays ρ Plain (c.setElement v key new) := by
  refine (assign_stays hv hkey hnew _).bind fun p hp => ?_
  split
  · exact .plain ()
  · next f args => exact .discard (call_stays hc (hp _ rfl).1 (hp _ rfl).2)

theorem lengthOf_stays {v : Value} (hv : ρ.value v) : Stays ρ Plain (c.lengthOf v) := by
  refine (unary_stays _ hv _).bind fun outcome h => (resolve_stays hc h).bind fun v _ => ?_
  split
  · exact .plain _
  · split
    · exact .plain _
    · exact fail_stays _

theorem holds_stays (op : CompareOp) {x y : Value} (hx : ρ.value x) (hy : ρ.value y) :
    Stays ρ Plain (c.holds op x y) := by
  refine (comparison_stays op hx hy).bind fun verdict h => ?_
  split
  · exact .plain _
  · exact (callOne_stays hc h.1 (.two h.2.1 h.2.2)).bind fun _ _ => .plain _

theorem textOf_stays {v : Value} (hv : ρ.value v) : Stays ρ Plain (c.textOf v) := by
  refine (metamethod_stays hv _).bind fun h hh => .ite (fun _ => ?_) fun _ => ?_
  · exact (typeNameOf_stays hv).bind fun _ _ => .plain _
  · refine (callOne_stays hc hh (.one hv)).bind fun w _ => ?_
    split
    · exact .plain _
    · exact fail_stays _

end Caller

end PixelHost.Lua
