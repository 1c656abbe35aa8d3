import PixelHost.Lua.Library.Characters
import PixelHost.Lua.Library.Effects
import PixelHost.Lua.Library.Maths
import PixelHost.Proofs.Lua.Library.Arguments

/-!
# Functions of numbers, characters and light in a realm

The functions of `math` and `utf8` and the light effects give numbers and strings. Of the heap they
see no more than the stops of a gradient.

## Main results

* `Lua.Library.Maths.run_stays` — the functions of `math`.
* `Lua.Library.Characters.run_stays` — the functions of `utf8`.
* `Lua.Library.Effects.run_stays` — the light effects.
-/

namespace PixelHost.Lua.Library

open Run

variable {ρ : Realm} {c : Caller} {args : Args}

/-! ### Numbers -/

namespace Maths

theorem value_wholeValue (n : Option Int) (x : Float) : ρ.value (wholeValue n x) := by
  unfold wholeValue
  split <;> exact trivial

theorem nextRandom_stays : Stays ρ Plain nextRandom := by
  refine .read (fun m _ => ?_) fun _ _ => rfl
  exact .andThen (P := Plain) (.changeCore (fun _ hm => { hm with }) (fun _ _ => rfl)
    fun _ => rfl) (.plain _)

theorem boundedRandom_stays (bound word : UInt64) (n : Nat) :
    Stays ρ Plain (boundedRandom bound word n) := by
  induction n generalizing word with
  | zero => exact .plain _
  | succ n ih => exact .ite (fun _ => .plain _) fun _ => nextRandom_stays.bind fun _ _ => ih _

theorem seed_stays (a b : UInt64) : Stays ρ Plain (seed a b) :=
  .andThen (P := Plain) (.changeCore (fun _ hm => { hm with }) (fun _ _ => rfl) fun _ => rfl) <|
    .bind (P := Plain) (.forIn_range _ trivial fun _ _ _ =>
      nextRandom_stays.discard.andThen (.pure trivial)) fun _ _ => .plain _

variable (h : ρ.values args)

include h

theorem random_stays : Stays ρ ρ.values (random args) := by
  refine nextRandom_stays.bind fun word _ => ?_
  extract_lets between
  have hbetween (low high : Int64) : Stays ρ ρ.values (between low high) :=
    (Args.require_stays _ _ _).andThen <| (boundedRandom_stays _ _ _).bind fun _ _ =>
      .pure (.one (Realm.value_int _))
  split
  · exact .pure (.one (Realm.value_num _))
  · exact (Args.integer_stays h 1).bind fun _ _ =>
      .ite (fun _ => .pure (.one (Realm.value_int _))) fun _ => hbetween _ _
  · exact (Args.integer_stays h 1).bind fun _ _ => (Args.integer_stays h 2).bind fun _ _ =>
      hbetween _ _
  · exact fail_stays _

theorem ofDouble_stays (f : Float → Float) : Stays ρ ρ.values (ofDouble args f) :=
  (Args.number_stays h 1).bind fun _ _ => .pure (.one (Realm.value_num _))

theorem extreme_stays (hc : ρ.caller c) (greatest : Bool) :
    Stays ρ ρ.values (extreme c args greatest) := by
  have hv (n : Nat) := Args.value_val h n
  refine (Args.require_stays _ _ _).andThen <| (Args.numeral_stays h 1).discard.andThen <|
    .bind (P := ρ.value) (.forIn_range _ (hv 1) fun i best hbest => ?_) fun _ hbest =>
      .pure (.one hbest)
  refine (Args.numeral_stays h _).discard.andThen ?_
  extract_lets v best' chosen
  have hchosen (better : Bool) : Stays ρ (Stays.step ρ.value) (chosen better) :=
    .ite (fun _ => .pure (hv _)) fun _ => .pure hbest
  exact .ite (fun _ => (Caller.holds_stays hc _ hbest (hv _)).bind fun _ _ => hchosen _)
    fun _ => (Caller.holds_stays hc _ (hv _) hbest).bind fun _ _ => hchosen _

theorem fmod_stays : Stays ρ ρ.values (fmod args) := by
  unfold fmod
  split
  · exact (Args.require_stays _ _ _).andThen (.pure (.one (Realm.value_int _)))
  · exact (Args.number_stays h 1).bind fun _ _ => (Args.number_stays h 2).bind fun _ _ =>
      .pure (.one (Realm.value_num _))

theorem logarithm_stays : Stays ρ ρ.values (logarithm args) :=
  (Args.number_stays h 1).bind fun _ _ =>
    .ite (fun _ => .pure (.one (Realm.value_num _))) fun _ => (Args.number_stays h 2).bind fun _ _ =>
      .ite (fun _ => .pure (.one (Realm.value_num _))) fun _ =>
      .ite (fun _ => .pure (.one (Realm.value_num _))) fun _ => .pure (.one (Realm.value_num _))

theorem run_stays (hc : ρ.caller c) (f : MathFn) : Stays ρ ρ.values (run c f args) := by
  have hnumber (f : Float → Array Value) (hf : ∀ x, ρ.values (f x)) :
      Stays ρ ρ.values (return f (← args.number 1)) :=
    (Args.number_stays h 1).bind fun x _ => .pure (hf x)
  cases f with
  | abs =>
    unfold run
    simp only []
    split
    · exact .pure (.one (Realm.value_int _))
    · exact ofDouble_stays h _
  | acos => exact ofDouble_stays h _
  | asin => exact ofDouble_stays h _
  | atan =>
    exact (Args.number_stays h 1).bind fun _ _ => (Args.numberOr_stays h 2 1).bind fun _ _ =>
      .pure (.one (Realm.value_num _))
  | ceil =>
    unfold run
    simp only []
    split
    · exact .pure (.one (Realm.value_int _))
    · exact hnumber _ fun _ => .one (value_wholeValue _ _)
  | cos => exact ofDouble_stays h _
  | cosh => exact ofDouble_stays h _
  | deg => exact ofDouble_stays h _
  | exp => exact ofDouble_stays h _
  | floor =>
    unfold run
    simp only []
    split
    · exact .pure (.one (Realm.value_int _))
    · exact hnumber _ fun _ => .one (value_wholeValue _ _)
  | fmod => exact fmod_stays h
  | frexp => exact hnumber _ fun _ => .two (Realm.value_num _) (Realm.value_int _)
  | ldexp =>
    exact (Args.number_stays h 1).bind fun _ _ => (Args.integer_stays h 2).bind fun _ _ =>
      .pure (.one (Realm.value_num _))
  | log => exact logarithm_stays h
  | log10 => exact ofDouble_stays h _
  | max => exact extreme_stays h hc true
  | min => exact extreme_stays h hc false
  | modf =>
    unfold run
    simp only []
    split
    · exact .pure (.two (Realm.value_int _) (Realm.value_num _))
    · exact hnumber _ fun _ => .two (value_wholeValue _ _) (Realm.value_num _)
  | pow =>
    exact (Args.number_stays h 1).bind fun _ _ => (Args.number_stays h 2).bind fun _ _ =>
      .pure (.one (Realm.value_num _))
  | rad => exact ofDouble_stays h _
  | random => exact random_stays h
  | randomseed =>
    have hseed (a b : UInt64) : Stays ρ ρ.values (do
        seed a b
        return #[]) := (seed_stays a b).andThen (.pure .empty)
    refine .ite (fun _ => nextRandom_stays.bind fun _ _ => hseed _ _) fun _ => ?_
    split
    · exact (Stays.plain _).bind fun _ _ => (Args.integerOr_stays h 2 0).bind fun _ _ => hseed _ _
    · exact (Args.number_stays h 1).bind fun _ _ => (Stays.plain _).bind fun _ _ =>
        (Args.integerOr_stays h 2 0).bind fun _ _ => hseed _ _
  | sin => exact ofDouble_stays h _
  | sinh => exact ofDouble_stays h _
  | sqrt => exact ofDouble_stays h _
  | tan => exact ofDouble_stays h _
  | tanh => exact ofDouble_stays h _
  | tointeger =>
    refine (Args.any_stays h 1).bind fun v _ => ?_
    split
    · exact .pure (.one (Realm.value_int _))
    · exact .pure (.one Realm.value_nil)
  | type =>
    refine (Args.any_stays h 1).bind fun v _ => ?_
    split
    · exact .pure (.one (Realm.value_str _))
    · exact .pure (.one (Realm.value_str _))
    · exact .pure (.one Realm.value_nil)
  | ult =>
    exact (Args.integer_stays h 1).bind fun _ _ => (Args.integer_stays h 2).bind fun _ _ =>
      .pure (.one (Realm.value_bool _))

end Maths

/-! ### Characters -/

namespace Characters

theorem codesFrom_stays (s : Bytes) (lax : Bool) (pos last : Nat) {acc : Array Value}
    (hacc : ρ.values acc) (n : Nat) : Stays ρ ρ.values (codesFrom s lax pos last acc n) := by
  induction n generalizing pos acc with
  | zero => exact .pure hacc
  | succ n ih =>
    refine .ite (fun _ => ?_) fun _ => .pure hacc
    split
    · exact fail_stays _
    · exact ih _ (hacc.push (Realm.value_int _))

theorem values_countFrom (s : Bytes) (lax : Bool) (pos : Nat) (last : Int) (count n : Nat) :
    ρ.values (countFrom s lax pos last count n) := by
  induction n generalizing pos count with
  | zero => exact .one (Realm.value_int _)
  | succ n ih =>
    unfold countFrom
    split
    · split
      · exact .two Realm.value_nil (Realm.value_int _)
      · exact ih _ _
    · exact .one (Realm.value_int _)

variable (h : ρ.values args)

include h

theorem char_stays : Stays ρ ρ.values (char args) :=
  (Stays.mapM (R := Plain) _ fun _ _ => (Args.integer_stays h _).bind fun _ _ =>
    (Args.require_stays _ _ _).andThen (.plain _)).bind fun _ _ =>
      (newString_stays _).bind fun _ hs => .pure (.one hs)

theorem codepoint_stays : Stays ρ ρ.values (codepoint args) :=
  (Args.string_stays h 1).bind fun _ _ => (Args.integerOr_stays h 2 _).bind fun _ _ =>
    (Args.integerOr_stays h 3 _).bind fun _ _ => (Args.require_stays _ _ _).andThen <|
    (Args.require_stays _ _ _).andThen <| .ite (fun _ => .pure .empty)
      fun _ => codesFrom_stays _ _ _ _ .empty _

theorem len_stays : Stays ρ ρ.values (len args) :=
  (Args.string_stays h 1).bind fun _ _ => (Args.integerOr_stays h 2 _).bind fun _ _ =>
    (Args.integerOr_stays h 3 _).bind fun _ _ => (Args.require_stays _ _ _).andThen <|
    (Args.require_stays _ _ _).andThen (.pure (values_countFrom _ _ _ _ _ _))

theorem offset_stays : Stays ρ ρ.values (offset args) := by
  refine (Args.string_stays h 1).bind fun s _ => (Args.integer_stays h 2).bind fun n _ =>
    (Args.integerOr_stays h 3 _).bind fun _ _ => (Args.require_stays _ _ _).andThen <|
    .ite (fun _ => .pure (.one (Realm.value_int _))) fun _ => .whenThen (fail_stays _) ?_
  have hresult (p : Nat × Nat) :
      ρ.values (if p.2 == 0 then #[.ofNat (p.1 + 1)] else #[.nil]) := by
    split
    · exact .one (Realm.value_int _)
    · exact .one Realm.value_nil
  exact .pure (hresult _)

theorem characterStep_stays (lax : Bool) : Stays ρ ρ.values (characterStep lax args) := by
  refine (Args.string_stays h 1).bind fun s _ => .ite (fun _ => .pure .empty) fun _ => ?_
  split
  · exact fail_stays _
  · exact .whenThen (fail_stays _) (.pure (.two (Realm.value_int _) (Realm.value_int _)))

theorem run_stays (f : Utf8Fn) : Stays ρ ρ.values (run f args) := by
  cases f with
  | char => exact char_stays h
  | codepoint => exact codepoint_stays h
  | codes =>
    exact (Args.string_stays h 1).bind fun _ _ => (Args.require_stays _ _ _).andThen
      (.pure (.three (ρ.native_of_arises (.characterStep _) trivial) (Realm.value_str _)
        (Realm.value_int _)))
  | len => exact len_stays h
  | offset => exact offset_stays h

end Characters

/-! ### Light -/

namespace Effects

open EffectFn

variable {tables tables' : TableRef → Table}

theorem stops_congr (hsame : ∀ r, ρ.table r → tables' r = tables r) {list : Table}
    (hlist : ρ.contents list) : stops tables' list = stops tables list := by
  have hstop (i : Nat) : stopAt tables' list i = stopAt tables list i := by
    have hv := hlist.getInt (Int64.ofNat i)
    unfold stopAt
    generalize list.getInt (Int64.ofNat i) = v at hv
    cases v with
    | table r => simp only [hsame r hv]
    | _ => rfl
  simp only [stops, hstop]

/-- What an effect gives depends on the tables of the realm only. -/
theorem apply_congr (f : EffectFn) (time : Nat) (h : ρ.values args)
    (hsame : ∀ r, ρ.table r → tables' r = tables r)
    (hcontents : ∀ r, ρ.table r → ρ.contents (tables r)) :
    f.apply tables' time args = f.apply tables time args := by
  cases f with
  | gradient =>
    have hv := Args.value_val h 1
    simp only [apply]
    generalize args.val 1 = v at hv
    cases v with
    | table r => simp only [hsame r hv, stops_congr hsame (hcontents r hv)]
    | _ => rfl
  | _ => rfl

theorem values_colorResults (color : Effect.Rgb Int64) : ρ.values (colorResults color) := by
  intro v hv
  rw [colorResults, Array.mem_map] at hv
  obtain ⟨n, -, rfl⟩ := hv
  exact trivial

/-- What holds of every result of the last step holds of every result. -/
theorem ok_bind {α β : Type} {Q : β → Prop} {x : Except EffectError α}
    {f : α → Except EffectError β} (hf : ∀ a b, f a = .ok b → Q b) :
    ∀ b, x >>= f = .ok b → Q b := by
  intro b hb
  cases x with
  | error e => cases hb
  | ok a => exact hf a b hb

/-- An effect gives numbers. -/
theorem values_apply (f : EffectFn) (time : Nat) :
    ∀ results, f.apply tables time args = .ok results → ρ.values results := by
  have hcolor (color : Effect.Rgb Int64) (results : Array Value)
      (h : (.ok (colorResults color) : Except EffectError (Array Value)) = .ok results) :
      ρ.values results := by
    cases h
    exact values_colorResults color
  cases f with
  | timestamp =>
    refine ok_bind fun _ results h => ?_
    cases h
    exact .one (Realm.value_int _)
  | hsv => exact ok_bind fun _ => ok_bind fun _ => ok_bind fun _ => ok_bind fun _ => hcolor _
  | gradient =>
    refine ok_bind fun _ => ?_
    split
    · exact ok_bind fun _ => ok_bind fun _ => hcolor _
    · exact fun results h => nomatch h
  | noise =>
    refine ok_bind fun _ => ok_bind fun _ => ?_
    have hnumber (x : Float) (results : Array Value)
        (h : (.ok #[.num x] : Except EffectError (Array Value)) = .ok results) :
        ρ.values results := by
      cases h
      exact .one (Realm.value_num _)
    split
    · exact ok_bind fun _ => hnumber _
    · exact ok_bind fun _ => hnumber _

theorem settle_stays {result : Except EffectError (Array Value)}
    (h : ∀ results, result = .ok results → ρ.values results) : Stays ρ ρ.values (settle result) := by
  cases result with
  | ok results => exact .pure (h results rfl)
  | error e => exact freshId_stays.bind fun id _ => raise_stays (v := .failure id e.hostError) trivial

theorem run_stays (f : EffectFn) (h : ρ.values args) : Stays ρ ρ.values (run f args) := by
  intro m heap agree
  have hsame : f.apply (heap.tables.getD · default) (m.clock * 1000000) args =
      f.apply (m.tables.getD · default) (m.clock * 1000000) args :=
    apply_congr f _ h agree.tables.same agree.tables.ok
  change ρ.Same _ _ (settle (f.apply (m.tables.getD · default) (m.clock * 1000000) args) m)
    (settle (f.apply (heap.tables.getD · default) (m.clock * 1000000) args) (m.withHeap heap))
  rw [hsame]
  exact settle_stays (values_apply f _) m heap agree

end Effects

end PixelHost.Lua.Library
