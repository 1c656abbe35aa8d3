import PixelHost.Lua.Library.Tables
import PixelHost.Proofs.Lua.Library.Arguments

/-!
# The table library in a realm

The functions of `table` read and assign elements and call an order function, all of which stays in
a realm.

## Main results

* `Lua.Library.Tables.sortRange_stays` — sorting.
* `Lua.Library.Tables.run_stays` — the functions of `table`.
-/

namespace PixelHost.Lua.Library.Tables

open Run Caller

variable {ρ : Realm} {c : Caller} (hc : ρ.caller c) {args : Args} (h : ρ.values args)

include hc

include h in
theorem sized_stays (n : Nat) : Stays ρ (fun p => ρ.value p.1) (sized c args n) :=
  (Args.table_stays h n).discard.andThen <| (lengthOf_stays hc (Args.value_val h n)).bind
    fun _ _ => .pure (Args.value_val h n)

theorem join_stays {t : Value} (ht : ρ.value t) (separator : Bytes) (i : Int64) (acc : Bytes)
    (n : Nat) : Stays ρ Plain (concat.join c t separator i acc n) := by
  induction n generalizing i acc with
  | zero => exact .plain _
  | succ n ih =>
    refine (element_stays hc ht (Realm.value_int _)).bind fun v _ => ?_
    split
    · exact fail_stays _
    · exact (demand_stays _).andThen <| .ite (fun _ => .plain _) fun _ => ih _ _

include h in
theorem concat_stays : Stays ρ ρ.values (concat c args) :=
  (sized_stays hc h 1).bind fun _ ht => (Args.stringOr_stays h 2 _).bind fun _ _ =>
    (Args.integerOr_stays h 3 _).bind fun _ _ => (Args.integerOr_stays h 4 _).bind fun _ _ =>
    (join_stays hc ht _ _ _ _).bind fun _ _ => (newString_stays _).bind fun _ hs =>
    .pure (.one hs)

theorem moveUp_stays {t : Value} (ht : ρ.value t) (last : Int64) (n : Nat) :
    Stays ρ Plain (moveUp c t last n) := by
  induction n generalizing last with
  | zero => exact .plain _
  | succ n ih =>
    exact (element_stays hc ht (Realm.value_int _)).bind fun _ hv =>
      (setElement_stays hc ht (Realm.value_int _) hv).andThen (ih _)

theorem moveDown_stays {t : Value} (ht : ρ.value t) (first : Int64) (n : Nat) :
    Stays ρ Plain (moveDown c t first n) := by
  induction n generalizing first with
  | zero => exact .plain _
  | succ n ih =>
    exact (element_stays hc ht (Realm.value_int _)).bind fun _ hv =>
      (setElement_stays hc ht (Realm.value_int _) hv).andThen (ih _)

include h in
theorem insert_stays : Stays ρ ρ.values (insert c args) := by
  refine (sized_stays hc h 1).bind fun p ht => ?_
  have hv (n : Nat) := Args.value_val h n
  simp only []
  split
  · exact (setElement_stays hc ht (Realm.value_int _) (hv 2)).andThen (.pure .empty)
  · exact (Args.integer_stays h 2).bind fun _ _ => (Args.require_stays _ _ _).andThen <|
      (moveUp_stays hc ht _ _).andThen <|
      (setElement_stays hc ht (Realm.value_int _) (hv 3)).andThen (.pure .empty)
  · exact (fail_stays _).stops

include h in
theorem remove_stays : Stays ρ ρ.values (remove c args) := by
  refine (sized_stays hc h 1).bind fun p ht => (Args.integerOr_stays h 2 _).bind fun pos _ =>
    .whenThen (Args.require_stays _ _ _) ?_
  exact (element_stays hc ht (Realm.value_int _)).bind fun v hv =>
    (moveDown_stays hc ht _ _).andThen <|
    (setElement_stays hc ht (Realm.value_int _) Realm.value_nil).andThen (.pure (.one hv))

theorem copy_stays {source dest : Value} (hsource : ρ.value source) (hdest : ρ.value dest)
    (from' to' step : Int64) (n : Nat) :
    Stays ρ Plain (copy c source dest from' to' step n) := by
  induction n generalizing from' to' with
  | zero => exact .plain _
  | succ n ih =>
    exact (element_stays hc hsource (Realm.value_int _)).bind fun _ hv =>
      (setElement_stays hc hdest (Realm.value_int _) hv).andThen (ih _ _)

include h in
theorem move_stays : Stays ρ ρ.values (move c args) := by
  have hv (n : Nat) := Args.value_val h n
  refine (Args.integer_stays h 2).bind fun first _ => (Args.integer_stays h 3).bind fun last _ =>
    (Args.integer_stays h 4).bind fun target _ => ?_
  extract_lets position source dest moved count apart copied
  have hdone : Stays ρ ρ.values (moved ()) := .pure (.one (hv position))
  have hcopied (apart : Bool) : Stays ρ ρ.values (copied apart) :=
    .ite (fun _ => (copy_stays hc (hv 1) (hv position) _ _ _ _).andThen hdone)
      fun _ => (copy_stays hc (hv 1) (hv position) _ _ _ _).andThen hdone
  refine .unlessThen (Args.table_stays h 1).discard <| (Args.table_stays h _).discard.andThen <|
    .ite (fun _ => (Args.require_stays _ _ _).andThen <| (Args.require_stays _ _ _).andThen ?_)
      fun _ => hdone
  refine .ite (fun _ => (Stays.plain _).bind fun _ _ => hcopied _) fun _ =>
    .ite (fun _ => (Stays.plain _).bind fun _ _ => hcopied _) fun _ => ?_
  exact (holds_stays hc _ (hv 1) (hv position)).bind fun _ _ => (Stays.plain _).bind fun _ _ => hcopied _

omit hc in
include h in
theorem pack_stays : Stays ρ ρ.values (pack args) :=
  (newTable_stays (((Realm.contents.ofSequence h).withCapacity 1).setStr _
    (Realm.value_int _))).bind fun r hr => .pure (.one (v := .table r) hr)

theorem collect_stays {t : Value} (ht : ρ.value t) (i : Int64) {acc : Array Value}
    (hacc : ρ.values acc) (n : Nat) : Stays ρ ρ.values (unpack.collect c t i acc n) := by
  induction n generalizing i acc with
  | zero => exact .pure hacc
  | succ n ih =>
    exact (element_stays hc ht (Realm.value_int _)).bind fun _ hv => ih _ (hacc.push hv)

include h in
theorem unpack_stays : Stays ρ ρ.values (unpack c args) := by
  have ht := Args.value_val h 1
  refine (Args.integerOr_stays h 2 _).bind fun first _ => ?_
  extract_lets rest
  have hrest (last : Int64) : Stays ρ ρ.values (rest last) :=
    .ite (fun _ => .pure .empty) fun _ => .read (fun m _ => topFloor_stays.bind fun _ _ =>
      .whenThen (fail_stays _) (collect_stays hc ht _ .empty _)) fun _ _ => rfl
  exact .ite (fun _ => (lengthOf_stays hc ht).bind fun _ _ => hrest _)
    fun _ => (Args.integer_stays h 3).bind fun _ _ => hrest _

/-! ### Sorting -/

theorem before_stays {order a b : Value} (horder : ρ.value order) (ha : ρ.value a)
    (hb : ρ.value b) : Stays ρ Plain (before c order a b) :=
  .ite (fun _ => holds_stays hc _ ha hb) fun _ =>
    (callOne_stays hc horder (.two ha hb)).bind fun _ _ => .plain _

theorem elementAt_stays {t : Value} (ht : ρ.value t) (i : Nat) :
    Stays ρ ρ.value (elementAt c t i) := element_stays hc ht (Realm.value_int _)

theorem setTwo_stays {t a b : Value} (ht : ρ.value t) (ha : ρ.value a) (hb : ρ.value b)
    (i j : Nat) : Stays ρ Plain (setTwo c t i a j b) :=
  (setElement_stays hc ht (Realm.value_int _) ha).andThen
    (setElement_stays hc ht (Realm.value_int _) hb)

variable {t order : Value} (ht : ρ.value t) (horder : ρ.value order)

include ht horder

theorem searchUp_stays {pivot : Value} (hpivot : ρ.value pivot) (up i n : Nat) :
    Stays ρ (fun p => ρ.value p.2) (searchUp c t order pivot up i n) := by
  induction n generalizing i with
  | zero => exact .pure Realm.value_nil
  | succ n ih =>
    exact (elementAt_stays hc ht _).bind fun _ ha => (before_stays hc horder ha hpivot).bind
      fun _ _ => .ite (fun _ => .whenThen (fail_stays _) (ih _)) fun _ => .pure ha

theorem searchDown_stays {pivot : Value} (hpivot : ρ.value pivot) (i j n : Nat) :
    Stays ρ (fun p => ρ.value p.2) (searchDown c t order pivot i j n) := by
  induction n generalizing j with
  | zero => exact .pure Realm.value_nil
  | succ n ih =>
    exact (elementAt_stays hc ht _).bind fun _ ha => (before_stays hc horder hpivot ha).bind
      fun _ _ => .ite (fun _ => .whenThen (fail_stays _) (ih _)) fun _ => .pure ha

theorem partition_stays {pivot : Value} (hpivot : ρ.value pivot) (up i j n : Nat) :
    Stays ρ Plain (partition c t order pivot up i j n) := by
  induction n generalizing i j with
  | zero => exact .plain _
  | succ n ih =>
    exact (searchUp_stays hc ht horder hpivot _ _ _).bind fun p ha =>
      (searchDown_stays hc ht horder hpivot _ _ _).bind fun q hb =>
      .ite (fun _ => (setTwo_stays hc ht ha hpivot _ _).andThen (.plain _))
        fun _ => (setTwo_stays hc ht hb ha _ _).andThen (ih _ _)

theorem sortRange_stays (n lo up : Nat) : Stays ρ Plain (sortRange c t order n lo up) := by
  induction n generalizing lo up with
  | zero => exact .plain _
  | succ n ih =>
    refine .ite (fun _ => (elementAt_stays hc ht _).bind fun a ha =>
      (elementAt_stays hc ht _).bind fun b hb => (before_stays hc horder hb ha).bind fun _ _ =>
      .whenThen (setTwo_stays hc ht hb ha _ _) ?_) fun _ => .plain _
    refine .ite (fun _ => (elementAt_stays hc ht _).bind fun mid hmid =>
      (elementAt_stays hc ht _).bind fun low hlow =>
      (before_stays hc horder hmid hlow).bind fun _ _ => ?_) fun _ => .plain _
    extract_lets divided
    have hdivided : Stays ρ Plain (divided ()) :=
      .ite (fun _ => (elementAt_stays hc ht _).bind fun pivot hpivot =>
        (elementAt_stays hc ht _).bind fun last hlast =>
        (setTwo_stays hc ht hlast hpivot _ _).andThen <|
        (partition_stays hc ht horder hpivot _ _ _ _).bind fun _ _ =>
        .ite (fun _ => (ih _ _).andThen (ih _ _)) fun _ => (ih _ _).andThen (ih _ _))
        fun _ => .plain _
    refine .ite (fun _ => (setTwo_stays hc ht hlow hmid _ _).andThen hdivided) fun _ => ?_
    exact (elementAt_stays hc ht _).bind fun high hhigh =>
      (before_stays hc horder hhigh hmid).bind fun _ _ =>
      .whenThen (setTwo_stays hc ht hhigh hmid _ _) hdivided

omit ht horder

include h in
theorem sort_stays : Stays ρ ρ.values (sort c args) := by
  have horder := Args.value_val h 2
  refine (sized_stays hc h 1).bind fun p ht => .ite (fun _ => ?_) fun _ => .pure .empty
  exact (Args.require_stays _ _ _).andThen <| .unlessThen (Args.function_stays h 2).discard <|
    (sortRange_stays hc ht horder _ _ _).andThen (.pure .empty)

include h in
theorem run_stays (f : TableFn) : Stays ρ ρ.values (run c f args) := by
  cases f with
  | concat => exact concat_stays hc h
  | insert => exact insert_stays hc h
  | move => exact move_stays hc h
  | pack => exact pack_stays h
  | remove => exact remove_stays hc h
  | sort => exact sort_stays hc h
  | unpack => exact unpack_stays hc h

end PixelHost.Lua.Library.Tables
