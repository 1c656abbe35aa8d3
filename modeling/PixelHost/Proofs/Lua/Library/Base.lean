import PixelHost.Lua.Library.Base
import PixelHost.Lua.Library.System
import PixelHost.Proofs.Lua.Counting
import PixelHost.Proofs.Lua.Library.Arguments

/-!
# Global functions in a realm

The global functions stay in a realm, those that reach outside of the interpreter among them: these
see the clock, and add to the output. To ask for the memory in use is possible in an exact realm
only.

## Main results

* `Lua.Library.Base.run_stays` — global functions.
* `Lua.Library.System.run_stays` — the functions that reach outside.
-/

namespace PixelHost.Lua

variable {ρ : Realm} {α : Type} {Q : α → Prop}

namespace Run

theorem loadChunk_stays (p : Prototype) {environment : Value} (h : ρ.value environment) :
    Stays ρ ρ.value (loadChunk p environment) := by
  refine (charge_stays _).andThen <| (newCell_stays (c := .closed environment) h).bind
    fun cell hcell => freshId_stays.bind fun id _ => .pure fun r hr => ?_
  rw [List.mem_toArray, List.mem_singleton] at hr
  exact hr ▸ hcell

theorem raiseAtLevel_stays {v : Value} (hv : ρ.value v) (level : Int64) :
    Stays ρ Q (raiseAtLevel v level : Run α) := by
  unfold raiseAtLevel
  split
  · exact .ite (fun _ => (whereAt_stays _).bind fun _ _ => raise_stays (Realm.value_str _))
      fun _ => raise_stays hv
  · exact raise_stays hv

theorem write_stays (s : Bytes) : Stays ρ Plain (write s) :=
  .change (fun _ => rfl) fun m h agree => ⟨{ h with output := h.output ++ s }, rfl,
    { agree with
      core := agree.core.of_eq rfl rfl rfl rfl rfl rfl rfl rfl rfl
      same := fun e => by rw [agree.same e]; rfl }⟩

end Run

namespace Library.Base

open Run

variable {c : Caller} (hc : ρ.caller c) {args : Args} (h : ρ.values args)

include hc in
theorem readParts_stays {f : Value} (hf : ρ.value f) (acc : Bytes) (n : Nat) :
    Stays ρ Plain (readParts c f acc n) := by
  induction n generalizing acc with
  | zero => exact .plain _
  | succ n ih =>
    refine (Caller.callOne_stays hc hf .empty).bind fun v _ => ?_
    split
    · exact .plain _
    · split
      · exact .ite (fun _ => .plain _) fun _ => ih _
      · exact fail_stays _

theorem loaded_stays (source name : Bytes) {environment : Value} (he : ρ.value environment) :
    Stays ρ ρ.values (match Chunk.compile source name with
      | .ok p => return #[← loadChunk p environment]
      | .error e => return #[.nil, .str e.message] : Run (Array Value)) := by
  split
  · exact (loadChunk_stays _ he).bind fun _ hv => .pure (.one hv)
  · exact .pure (.two Realm.value_nil (Realm.value_str _))

include hc h in
theorem load_stays : Stays ρ ρ.values (load c args) := by
  unfold load
  extract_lets compiled
  have hcompiled (p : Bytes × Bytes) : Stays ρ ρ.values (compiled p) := by
    refine .ite (fun _ => .read (fun m hm => ?_) fun _ _ => rfl) fun _ => ?_
    · exact (Stays.pure (Q := ρ.value) (a := .table m.globals) hm.globals).bind fun _ he =>
        loaded_stays _ _ he
    · exact (Stays.pure (Args.value_val h 4)).bind fun _ he => loaded_stays _ _ he
  split
  · exact (Args.stringOr_stays h 2 _).bind fun _ _ => (Stays.plain _).bind fun _ _ => hcompiled _
  · exact (Args.stringOr_stays h 2 _).bind fun _ _ => (Args.function_stays h 1).bind fun _ hf =>
      (readParts_stays hc hf _ _).bind fun _ _ => (Stays.plain _).bind fun _ _ => hcompiled _

include h in
theorem toNumber_stays : Stays ρ ρ.values (toNumber args) := by
  refine .ite (fun _ => ?_) fun _ => (Args.integer_stays h 2).bind fun base _ => ?_
  · split
    · exact .pure (.one (Realm.value_int _))
    · exact .pure (.one (Realm.value_num _))
    · split
      · exact .pure (.one (Realm.value_ofNumeral _))
      · exact .pure (.one Realm.value_nil)
    · exact (Args.any_stays h 1).discard.andThen (.pure (.one Realm.value_nil))
  · split
    · refine (Args.require_stays _ _ _).andThen ?_
      split
      · exact .pure (.one (Realm.value_int _))
      · exact .pure (.one Realm.value_nil)
    · exact badType_stays h _ _

include h in
theorem select_stays : Stays ρ ρ.values (select args) := by
  refine .ite (fun _ => .pure (.one (Realm.value_int _))) fun _ =>
    (Args.integer_stays h 1).bind fun i _ => .ite (fun _ => ?_) fun _ => ?_
  · exact (Args.require_stays _ _ _).andThen (.pure (h.extract _ _))
  · exact (Args.require_stays _ _ _).andThen (.pure (h.extract _ _))

include h in
theorem setMetatable_stays : Stays ρ ρ.values (setMetatable args) := by
  have hv := Args.value_val h 1
  have hmt := Args.value_val h 2
  refine (Args.table_stays h 1).bind fun r hr => ?_
  extract_lets changed
  have hchanged {mt : Option TableRef} (hmt : ∀ r ∈ mt, ρ.table r) :
      Stays ρ ρ.values (changed mt) := by
    refine (metamethod_stays hv _).bind fun shown _ => .ite (fun _ => ?_) fun _ =>
      (fail_stays _).stops
    refine (modifyTable_stays hr fun t ht => ?_).andThen (.pure (.one hv))
    exact ⟨ht.array, ht.keys, ht.values, hmt⟩
  generalize args.val 2 = mt at hmt
  have hpure {mt : Option TableRef} (hmt : ∀ r ∈ mt, ρ.table r) :
      Stays ρ ρ.values (do let mt ← pure mt; changed mt) :=
    (Stays.pure (Q := fun mt => ∀ r ∈ mt, ρ.table r) hmt).bind fun _ hmt => hchanged hmt
  split
  · refine hpure ?_
    rintro _ ⟨⟩
    exact hmt
  · exact .ite (fun _ => (badType_stays h _ _).stops) fun _ => hpure fun _ h => nomatch h
  · exact (badType_stays h _ _).stops

include h in
theorem getMetatable_stays : Stays ρ ρ.values (getMetatable args) := by
  refine (Args.any_stays h 1).bind fun v hv => ?_
  split
  · exact .pure (.one (Realm.value_bool _))
  · refine (metatable?_stays hv).bind fun mt hmt => ?_
    cases mt with
    | none => exact .pure (.one Realm.value_nil)
    | some mt =>
      refine (tableAt_stays (hmt mt rfl)).bind fun t ht => .pure (.one ?_)
      split
      · exact hmt mt rfl
      · exact ht.getStr _

include h in
theorem next_stays : Stays ρ ρ.values (next args) := by
  refine (Args.table_stays h 1).bind fun r hr => (tableAt_stays hr).bind fun t ht => ?_
  cases hnext : t.next? (args.val 2) with
  | error _ => exact raiseHere_stays _
  | ok entry =>
    cases entry with
    | none => exact .pure (.one Realm.value_nil)
    | some p =>
      have hp := ht.next? hnext p rfl
      exact .pure (.two hp.1 hp.2)

include h in
theorem collectGarbage_stays (hexact : ρ.exact) : Stays ρ ρ.values (collectGarbage args) := by
  refine (Args.stringOr_stays h 1 _).bind fun option _ => ?_
  split
  · exact .readAll hexact (fun _ => .pure (.one (Realm.value_num _))) fun _ _ => rfl
  · exact .pure (.one (Realm.value_bool _))
  · exact .pure (.one (Realm.value_bool _))
  · exact .pure (.one (Realm.value_str _))
  · exact .pure (.one (Realm.value_str _))
  · exact (recount_stays hexact).andThen (.pure (.one (Realm.value_int _)))
  all_goals first
    | exact .pure (.one (Realm.value_int _))
    | exact badArgument_stays _ _

include hc h in
/-- A global function; to look at the memory in use the realm must be exact. -/
theorem run_stays (f : BaseFn) (hf : ρ.native (.base f)) : Stays ρ ρ.values (run c f args) := by
  cases f with
  | assert =>
    refine .ite (fun _ => .pure h) fun _ => (Args.any_stays h 1).discard.andThen <|
      .ite (fun _ => raiseAtLevel_stays (Realm.value_str _) _)
        fun _ => raiseAtLevel_stays (Args.value_val h 2) _
  | collectgarbage => exact collectGarbage_stays h (ρ.exact_of_collects hf)
  | dofile => exact (Args.stringOr_stays h 1 _).bind fun _ _ => raise_stays (Realm.value_str _)
  | error =>
    exact (Args.integerOr_stays h 2 1).bind fun _ _ => raiseAtLevel_stays (Args.value_val h 1) _
  | getmetatable => exact getMetatable_stays h
  | ipairs =>
    exact (Args.any_stays h 1).bind fun _ hv =>
      .pure (.three (ρ.native_of_arises .sequenceStep trivial) hv (Realm.value_int _))
  | load => exact load_stays hc h
  | loadfile =>
    exact (Args.stringOr_stays h 1 _).bind fun _ _ =>
      .pure (.two Realm.value_nil (Realm.value_str _))
  | next => exact next_stays h
  | print =>
    refine .andThen (P := Plain) (.forIn_range _ trivial fun i _ _ => ?_) <|
      (write_stays _).andThen (.pure .empty)
    exact .whenThen (write_stays _) <| (Caller.textOf_stays hc (Args.value_val h _)).bind
      fun _ _ => (write_stays _).andThen (.pure trivial)
  | rawequal =>
    exact (Args.any_stays h 1).bind fun _ _ => (Args.any_stays h 2).bind fun _ _ =>
      .pure (.one (Realm.value_bool _))
  | rawget =>
    exact (Args.table_stays h 1).bind fun _ hr => (Args.any_stays h 2).bind fun k _ =>
      (rawGet_stays hr k).bind fun _ hv => .pure (.one hv)
  | rawlen =>
    have hv := Args.value_val h 1
    unfold run
    simp only []
    generalize args.val 1 = v at hv
    split
    · exact (tableAt_stays hv).bind fun _ _ => .pure (.one (Realm.value_int _))
    · exact .pure (.one (Realm.value_int _))
    · exact badType_stays h _ _
  | rawset =>
    exact (Args.table_stays h 1).bind fun _ hr => (Args.any_stays h 2).bind fun _ hk =>
      (Args.any_stays h 3).bind fun _ hv => (checkKey_stays _).andThen <|
      (rawSet_stays hr hk hv).andThen (.pure (.one (Args.value_val h 1)))
  | select => exact select_stays h
  | setmetatable => exact setMetatable_stays h
  | tonumber => exact toNumber_stays h
  | tostring =>
    exact (Args.any_stays h 1).bind fun _ hv => (Caller.textOf_stays hc hv).bind fun _ _ =>
      (newString_stays _).bind fun _ hs => .pure (.one hs)
  | type => exact (Args.any_stays h 1).bind fun _ _ => .pure (.one (Realm.value_str _))
  | warn =>
    refine .andThen (P := Plain) (.forIn_range _ trivial fun i _ _ => ?_) (.pure .empty)
    exact (Args.string_stays h _).discard.andThen (.pure trivial)
  | pairs => exact .pure .empty
  | pcall => exact .pure .empty
  | xpcall => exact .pure .empty

include hc h in
theorem sequenceStep_stays : Stays ρ ρ.values (sequenceStep c args) := by
  refine (Args.integer_stays h 2).bind fun i _ =>
    (Caller.element_stays hc (Args.value_val h 1) (Realm.value_int _)).bind fun v hv => .pure ?_
  split
  · exact .one Realm.value_nil
  · exact .two (Realm.value_int _) hv

end Library.Base

/-! ### The libraries that reach outside -/

namespace Library.System

open Run

variable {args : Args} (h : ρ.values args)

theorem timeField_stays (t : Table) (name : String) (absent : Option Int) :
    Stays ρ Plain (timeField t name absent) := by
  unfold timeField
  split
  · exact .plain _
  · split
    · exact .plain _
    · exact fail_stays _
    · exact fail_stays _

theorem timeOf_stays (t : Table) : Stays ρ Plain (timeOf t) :=
  (timeField_stays _ _ _).bind fun _ _ => (timeField_stays _ _ _).bind fun _ _ =>
    (timeField_stays _ _ _).bind fun _ _ => (timeField_stays _ _ _).bind fun _ _ =>
    (timeField_stays _ _ _).bind fun _ _ => (timeField_stays _ _ _).bind fun _ _ => .plain _

theorem values_noFile (name : Bytes) : ρ.values (noFile name) :=
  .three Realm.value_nil (Realm.value_str _) (Realm.value_int _)

include h in
theorem writeAll_stays : Stays ρ Plain (writeAll args) :=
  .bind (P := Plain) (.forIn_range _ trivial fun _ _ _ => (Args.string_stays h _).bind fun _ _ =>
    (write_stays _).andThen (.pure trivial)) fun _ _ => .plain _

include h in
theorem requireLoaded_stays (hf : ρ.native (.system .require)) :
    Stays ρ ρ.values (requireLoaded args) := by
  refine (Args.string_stays h 1).bind fun name _ => .read (fun m hm => ?_) fun _ _ => rfl
  exact (rawGet_stays (hm.loaded hf) _).bind fun v hv =>
    .ite (fun _ => .pure (.two hv (Realm.value_str _))) fun _ => raiseAtCaller_stays _

include h in
/-- A function that reaches outside; only `require` looks at a table of its own. -/
theorem run_stays (f : SystemFn) (hf : ρ.native (.system f)) : Stays ρ ρ.values (run f args) := by
  have hnofile : Stays ρ ρ.values (return noFile (← args.string 1)) :=
    (Args.string_stays h 1).bind fun _ _ => .pure (values_noFile _)
  cases f with
  | clock => exact .read (fun _ _ => .pure (.one (Realm.value_num _))) fun _ _ => rfl
  | date => exact (Args.stringOr_stays h 1 _).bind fun _ _ => .pure (.one (Realm.value_str _))
  | difftime =>
    exact (Args.number_stays h 1).bind fun _ _ => (Args.number_stays h 2).bind fun _ _ =>
      .pure (.one (Realm.value_num _))
  | execute =>
    exact .ite (fun _ => .pure (.one (Realm.value_bool _)))
      fun _ => .pure (.three Realm.value_nil (Realm.value_str _) (Realm.value_int _))
  | exit => exact fail_stays _
  | getenv => exact (Args.string_stays h 1).discard.andThen (.pure (.one Realm.value_nil))
  | remove => exact hnofile
  | rename => exact (Args.string_stays h 2).discard.andThen hnofile
  | setlocale =>
    refine .pure (.one ?_)
    split <;> exact trivial
  | time =>
    refine .ite (fun _ => .read (fun _ _ => .pure (.one (Realm.value_int _))) fun _ _ => rfl)
      fun _ => (Args.table_stays h 1).bind fun r hr => (tableAt_stays hr).bind fun t _ =>
        (timeOf_stays t).bind fun _ _ => .pure (.one (Realm.value_int _))
  | tmpname => exact fail_stays _
  | ioClose => exact .pure (.one (Realm.value_bool _))
  | ioFlush => exact .pure (.one (Realm.value_bool _))
  | ioInput => exact .pure (.one (v := .file "stdin") trivial)
  | ioOutput => exact .pure (.one (v := .file "stdout") trivial)
  | ioLines => exact .pure (.one Realm.value_nil)
  | ioRead => exact .pure (.one Realm.value_nil)
  | ioOpen => exact hnofile
  | ioPopen => exact fail_stays _
  | ioTmpfile => exact .pure (.three Realm.value_nil (Realm.value_str _) (Realm.value_int _))
  | ioType =>
    refine (Args.any_stays h 1).bind fun v _ => ?_
    split
    · exact .pure (.one (Realm.value_str _))
    · exact .pure (.one Realm.value_nil)
  | ioWrite => exact (writeAll_stays h).andThen (.pure (.one (v := .file "stdout") trivial))
  | loadlib => exact .pure (.three Realm.value_nil (Realm.value_str _) (Realm.value_str _))
  | searchpath =>
    exact (Args.string_stays h 1).bind fun _ _ =>
      .pure (.two Realm.value_nil (Realm.value_str _))
  | require => exact requireLoaded_stays h hf

end Library.System

end PixelHost.Lua
