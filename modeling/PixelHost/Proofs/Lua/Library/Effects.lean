import Mathlib
import PixelHost.Lua.Library.Effects

/-!
# Checks of the arguments of light effects

An effect accepts its arguments if none of them has a fault. Otherwise it reports the first fault:
that of the number of arguments, then those of the arguments from left to right, and within the
stops of a gradient those of an earlier stop, and of a stop those of an earlier channel.

One fault is not reported like the others. The host makes room for the stops before it looks at
them, and breaks off if there are more than memory can hold. A list that long need not be large,
since the length of a list with gaps may be any of its borders.

## Main definitions

* `Lua.EffectFn.Place` — where a fault may be, in the order in which faults are reported.
* `Lua.EffectFn.HasFault`, `Lua.EffectFn.ArgumentFault`, `Lua.EffectFn.StopsFault` — the faults of
  what is given to an effect, of its arguments, and of a list of stops.
* `Lua.EffectFn.IsApt` — arguments as an effect needs them.
* `Lua.EffectFn.Finds` — a check reports the first of some faults.

## Main results

* `Lua.EffectFn.Finds.bind`, `Lua.EffectFn.Finds.mapM` — checks one after another.
* `Lua.EffectFn.apply_ok_iff`, `Lua.EffectFn.apply_error_iff` — which arguments are accepted, and
  which fault is reported.
* `Lua.EffectFn.crowded_of_powers` — a list with gaps that is too long.
* `Lua.EffectFn.apply_eq_of_sameStops` — what is read of the heap.
* `Lua.Library.Effects.run_outcome` — an effect in a script.
* `Lua.Library.Effects.run_fatal_iff` — when the host breaks off.
-/

namespace PixelHost.Lua

/-! ### Lists with gaps -/

namespace Table

theorem le_borderBetween {present : Nat → Bool} {i j : Nat} (hle : i ≤ j) (n : Nat) :
    i ≤ borderBetween present i j n := by
  induction n generalizing i j with
  | zero => exact le_rfl
  | succ n ih =>
    rw [borderBetween]
    split
    · next hfar =>
      dsimp only
      split
      · exact le_trans (by omega) (ih (by omega))
      · exact ih (by omega)
    · exact le_rfl

/-- As long as the next power of two is present, a border is looked for beyond it. -/
theorem le_borderBeyond {present : Nat → Bool} (powers : ∀ k ≤ 62, present (2 ^ k) = true)
    {k n : Nat} (hk : k ≤ 62) (steps : 62 - k < n) :
    2 ^ 62 ≤ borderBeyond present (2 ^ k) n := by
  induction n generalizing k with
  | zero => omega
  | succ n ih =>
    rw [borderBeyond]
    rcases Nat.eq_or_lt_of_le hk with rfl | hlt
    · rw [if_neg (by decide)]
      split
      · decide
      · exact le_borderBetween (by decide) 64
    · have hpow : 2 ^ k ≤ 2 ^ 61 := Nat.pow_le_pow_right (by decide) (by omega)
      rw [if_pos (by omega), ← Nat.pow_succ', if_pos (powers (k + 1) hlt)]
      exact ih hlt (by omega)

theorem le_length_of_powers {t : Table} (slots : 0 < t.capacity) (empty : t.array = #[])
    (powers : ∀ k ≤ 62, (t.getInt (Int64.ofNat (2 ^ k))).isNil = false) :
    2 ^ 62 ≤ t.length := by
  let present (i : Nat) : Bool := !(t.getInt (Int64.ofNat i)).isNil
  have hpowers (k : Nat) (hk : k ≤ 62) : present (2 ^ k) = true := congrArg not (powers k hk)
  have hbeyond : 2 ^ 62 ≤ borderBeyond present (2 ^ 0) 64 :=
    le_borderBeyond hpowers (Nat.zero_le 62) (by decide)
  unfold length
  rw [empty]
  dsimp only
  rw [if_neg (by simp), if_neg (Nat.ne_of_gt slots)]
  exact hbeyond.trans_eq (if_pos (hpowers 0 (Nat.zero_le 62))).symm

end Table

namespace EffectFn

/-! ### Faults and their places -/

/-- A place among the arguments, in the order in which faults are reported. -/
abbrev Place := ℕ ×ₗ ℕ ×ₗ ℕ

/-- The place of a channel of a stop of an argument. The position `0` stands for what is checked
before the parts. -/
def place (argument stop channel : ℕ) : Place := toLex (argument, toLex (stop, channel))

theorem place_lt_place_iff {a a' s s' c c' : ℕ} :
    place a s c < place a' s' c' ↔ a < a' ∨ a = a' ∧ (s < s' ∨ s = s' ∧ c < c') := by
  simp only [place, Prod.Lex.toLex_lt_toLex]

theorem place_le_place_iff {a a' s s' c c' : ℕ} :
    place a s c ≤ place a' s' c' ↔ a < a' ∨ a = a' ∧ (s < s' ∨ s = s' ∧ c ≤ c') := by
  simp only [place, Prod.Lex.toLex_le_toLex]

/-- The value is an integer or a finite double. -/
inductive IsFinite : Value → Prop
  | int (n : Int64) : IsFinite (.int n)
  | num {x : Float} (finite : x.isFinite = true) : IsFinite (.num x)

theorem finite?_isSome_iff {v : Value} : (finite? v).isSome = true ↔ IsFinite v := by
  constructor
  · intro h
    cases v with
    | int n => exact .int n
    | num x =>
      refine .num ?_
      by_contra hnot
      rw [finite?, if_neg hnot] at h
      cases h
    | _ => cases h
  · rintro (n | ⟨finite⟩)
    · rfl
    · rw [finite?, if_pos finite]
      rfl

/-- The name by which scripts know an effect. -/
def name : EffectFn → String
  | .hsv => "hsv"
  | .gradient => "gradient"
  | .noise => "noise"
  | .timestamp => "timestamp"

/-- The least and the greatest number of arguments. -/
def counts : EffectFn → ℕ × ℕ
  | .hsv => (3, 3)
  | .gradient => (2, 2)
  | .noise => (1, 2)
  | .timestamp => (0, 0)

/-- The positions of the arguments that are numbers. -/
def numbers : EffectFn → List ℕ
  | .hsv => [1, 2, 3]
  | .gradient => [2]
  | .noise => [1, 2]
  | .timestamp => []

theorem eq_two_of_mem_numbers {i : ℕ} (hi : i ∈ gradient.numbers) : i = 2 :=
  List.mem_singleton.mp hi

/-- The numbers of arguments that an effect may have, as they are reported. -/
def expected (least most : ℕ) : String :=
  if least = most then toString least else s!"{least} to {most}"

/-- An entry of a table, read without metamethods. -/
def entry (t : Table) (i : ℕ) : Value := t.getInt (Int64.ofNat i)

section

variable (tables : TableRef → Table)

/-- The faults of a stop. -/
inductive StopFault (list : Table) (i : ℕ) : Place → EffectError → Prop
  | noTable (other : ∀ r, entry list i ≠ .table r) :
      StopFault list i (place 1 i 0) (.stop i (entry list i).hostTypeName)
  | channel {r : TableRef} {c : ℕ} (table : entry list i = .table r) (channel : c ∈ Set.Icc 1 3)
      (other : ¬ IsFinite (entry (tables r) c)) :
      StopFault list i (place 1 i c) (.channel i c (entry (tables r) c).hostTypeName)

/-- The faults of a list of stops. -/
inductive StopsFault (list : Table) : Place → EffectError → Prop
  | empty (empty : list.length = 0) : StopsFault list (place 1 0 0) .noStops
  | crowded (crowded : mostStops < list.length) : StopsFault list (place 1 0 0) .noRoom
  | stop {i : ℕ} {p : Place} {e : EffectError} (within : i ∈ Set.Icc 1 list.length)
      (fault : StopFault tables list i p e) : StopsFault list p e

/-- The faults of the arguments that are given to an effect. -/
inductive ArgumentFault (args : Args) : EffectFn → Place → EffectError → Prop
  | number {f : EffectFn} {i : ℕ} (number : i ∈ f.numbers) (given : i ≤ args.size)
      (other : ¬ IsFinite (args.val i)) :
      ArgumentFault args f (place i 0 0)
        (.argument f.name i "a finite number" (args.val i).hostTypeName)
  | noTable (other : ∀ r, args.val 1 ≠ .table r) :
      ArgumentFault args .gradient (place 1 0 0)
        (.argument "gradient" 1 "a table of \x7br, g, b\x7d stops" (args.val 1).hostTypeName)
  | stops {r : TableRef} {p : Place} {e : EffectError} (table : args.val 1 = .table r)
      (fault : StopsFault tables (tables r) p e) : ArgumentFault args .gradient p e

/-- The faults of what is given to an effect. -/
inductive HasFault (args : Args) (f : EffectFn) : Place → EffectError → Prop
  | count (other : args.size ∉ Set.Icc f.counts.1 f.counts.2) :
      HasFault args f (place 0 0 0) (.count f.name (expected f.counts.1 f.counts.2) args.size)
  | argument {p : Place} {e : EffectError} (fault : ArgumentFault tables args f p e) :
      HasFault args f p e

/-- A list of stops as a gradient needs it. -/
structure AreStops (list : Table) : Prop where
  nonempty : 0 < list.length
  room : list.length ≤ mostStops
  stop : ∀ i ∈ Set.Icc 1 list.length, ∃ r, entry list i = .table r ∧
    ∀ c ∈ Set.Icc 1 3, IsFinite (entry (tables r) c)

/-- Arguments as an effect needs them. -/
structure IsApt (f : EffectFn) (args : Args) : Prop where
  count : args.size ∈ Set.Icc f.counts.1 f.counts.2
  number : ∀ i ∈ f.numbers, i ≤ args.size → IsFinite (args.val i)
  stops : f = .gradient → ∃ r, args.val 1 = .table r ∧ AreStops tables (tables r)

end

/-! ### Checks one after another -/

/-- A check reports the first of some faults, and succeeds if there is none. No other fault is at
the same place. -/
def Finds {α : Type} (x : Except EffectError α) (F : Place → EffectError → Prop) : Prop :=
  match x with
  | .ok _ => ∀ p e, ¬ F p e
  | .error e => ∃ p, F p e ∧ ∀ p' e', F p' e' → p < p' ∨ p' = p ∧ e' = e

namespace Finds

variable {α β : Type} {x : Except EffectError α} {f : α → Except EffectError β}
  {F G : Place → EffectError → Prop}

theorem congr (h : Finds x F) (same : ∀ p e, F p e ↔ G p e) : Finds x G := by
  obtain rfl : F = G := funext₂ fun p e => propext (same p e)
  exact h

/-- Nothing is checked. -/
theorem none (a : α) : Finds (.ok a) fun _ _ => False := fun _ _ => id

/-- A check for one fault. -/
theorem one {bad : Prop} {p : Place} {e : EffectError} (ok : ¬ bad → ∃ a, x = .ok a)
    (error : bad → x = .error e) : Finds x fun p' e' => bad ∧ p' = p ∧ e' = e := by
  by_cases hbad : bad
  · rw [error hbad]
    exact ⟨p, ⟨hbad, rfl, rfl⟩, fun _ _ h => .inr h.2⟩
  · obtain ⟨a, ha⟩ := ok hbad
    rw [ha]
    exact fun _ _ h => hbad h.1

/-- Two checks, of which the first one is for the earlier faults. -/
theorem bind (hx : Finds x F) (hf : ∀ a, x = .ok a → Finds (f a) G)
    (ordered : ∀ p e p' e', F p e → G p' e' → p < p') :
    Finds (x >>= f) fun p e => F p e ∨ G p e := by
  cases x with
  | error e =>
    obtain ⟨p, hp, hleast⟩ := hx
    refine ⟨p, .inl hp, ?_⟩
    rintro p' e' (h | h)
    · exact hleast p' e' h
    · exact .inl (ordered p e p' e' hp h)
  | ok a => exact (hf a rfl).congr fun p e => ⟨.inr, fun h => h.resolve_left (hx p e)⟩

/-- The checks for what is at some positions, in their order. -/
theorem mapM {f : ℕ → Except EffectError α} {F : ℕ → Place → EffectError → Prop}
    (hf : ∀ i, Finds (f i) (F i))
    (ordered : ∀ i j p e p' e', i < j → F i p e → F j p' e' → p < p') (i n : ℕ) :
    Finds ((List.range' i n).mapM f) fun p e => ∃ j ∈ Set.Ico i (i + n), F j p e := by
  induction n generalizing i with
  | zero =>
    refine (none []).congr fun p e => ⟨False.elim, ?_⟩
    rintro ⟨j, ⟨hi, hj⟩, -⟩
    omega
  | succ n ih =>
    rw [List.range'_succ, List.mapM_cons]
    have hrest (a : α) : Finds
        ((List.range' (i + 1) n).mapM f >>= fun as => Pure.pure (a :: as))
        fun p e => ∃ j ∈ Set.Ico (i + 1) (i + 1 + n), F j p e :=
      ((ih (i + 1)).bind (fun as _ => none (a :: as)) fun _ _ _ _ _ => False.elim).congr
        fun p e => iff_of_eq (or_false _)
    refine ((hf i).bind (fun a _ => hrest a) ?_).congr fun p e => ?_
    · rintro p e p' e' h ⟨j, ⟨hj, -⟩, h'⟩
      exact ordered i j p e p' e' hj h h'
    · constructor
      · rintro (h | ⟨j, ⟨hi, hj⟩, h⟩)
        · exact ⟨i, ⟨le_rfl, by omega⟩, h⟩
        · exact ⟨j, ⟨by omega, by omega⟩, h⟩
      · rintro ⟨j, ⟨hi, hj⟩, h⟩
        rcases Nat.eq_or_lt_of_le hi with rfl | hlt
        · exact .inl h
        · exact .inr ⟨j, ⟨hlt, by omega⟩, h⟩

/-- What is made of the result of a check is not checked. -/
theorem result {g : α → β} (h : Finds x F) : Finds (x >>= fun a => .ok (g a)) F :=
  (h.bind (fun a _ => none (g a)) fun _ _ _ _ _ => False.elim).congr
    fun _ _ => iff_of_eq (or_false _)

/-- Three checks of one kind, in their order. -/
theorem three {f : ℕ → Except EffectError α} {g : α → α → α → β}
    {F : ℕ → Place → EffectError → Prop} (hf : ∀ i, Finds (f i) (F i))
    (ordered : ∀ i j p e p' e', i < j → F i p e → F j p' e' → p < p') :
    Finds (f 1 >>= fun x => f 2 >>= fun y => f 3 >>= fun z => .ok (g x y z))
      fun p e => ∃ i ∈ Set.Icc 1 3, F i p e := by
  have hsecond (x : α) := (hf 2).bind (fun y _ => (hf 3).result (g := g x y))
    fun p e p' e' => ordered 2 3 p e p' e' (by omega)
  refine ((hf 1).bind (fun x _ => hsecond x) ?_).congr fun p e => ?_
  · rintro p e p' e' h (h' | h')
    · exact ordered 1 2 p e p' e' (by omega) h h'
    · exact ordered 1 3 p e p' e' (by omega) h h'
  · constructor
    · rintro (h | h | h)
      · exact ⟨1, by simp, h⟩
      · exact ⟨2, by simp, h⟩
      · exact ⟨3, by simp, h⟩
    · rintro ⟨i, hi, h⟩
      obtain rfl | rfl | rfl : i = 1 ∨ i = 2 ∨ i = 3 := by
        rw [Set.mem_Icc] at hi
        omega
      · exact .inl h
      · exact .inr (.inl h)
      · exact .inr (.inr h)

/-- A check for one fault before others. -/
theorem guard {bad : Prop} [Decidable bad] {p : Place} {e : EffectError}
    (rest : ¬ bad → Finds x G) (ordered : bad → ∀ p' e', G p' e' → p < p') :
    Finds (if bad then .error e else x) fun p' e' => bad ∧ p' = p ∧ e' = e ∨ G p' e' := by
  split
  · next hbad =>
    refine ⟨p, .inl ⟨hbad, rfl, rfl⟩, ?_⟩
    rintro p' e' (h | h)
    · exact .inr h.2
    · exact .inl (ordered hbad p' e' h)
  · next hbad =>
    exact (rest hbad).congr fun p e => ⟨.inr, fun h => h.resolve_left fun h => hbad h.1⟩

end Finds

/-! ### The checks of an effect -/

theorem checkCount_finds (effect : String) (args : Args) (least most : ℕ) :
    Finds (checkCount effect args least most) fun p e => args.size ∉ Set.Icc least most ∧
      p = place 0 0 0 ∧ e = .count effect (expected least most) args.size := by
  have hcount :
      (args.size < least || args.size > most) = true ↔ args.size ∉ Set.Icc least most := by
    simp only [Bool.or_eq_true, decide_eq_true_eq, Set.mem_Icc]
    omega
  refine .one (fun h => ⟨(), ?_⟩) fun h => ?_
  · exact if_neg (hcount.not.mpr h)
  · exact if_pos (hcount.mpr h)

/-- A value that must be an integer or a finite double. -/
theorem finite_finds (v : Value) (p : Place) (e : EffectError) :
    Finds (match finite? v with
      | some x => .ok x
      | none => .error e) fun p' e' => ¬ IsFinite v ∧ p' = p ∧ e' = e := by
  rw [← finite?_isSome_iff]
  cases finite? v with
  | none => exact .one (fun h => absurd nofun h) fun _ => rfl
  | some x => exact .one (fun _ => ⟨x, rfl⟩) fun h => absurd rfl h

theorem numberAt_finds (effect : String) (args : Args) (i : ℕ) :
    Finds (numberAt effect args i) fun p e => ¬ IsFinite (args.val i) ∧ p = place i 0 0 ∧
      e = .argument effect i "a finite number" (args.val i).hostTypeName :=
  finite_finds _ _ _

theorem channelAt_finds (t : Table) (i c : ℕ) :
    Finds (channelAt t i c) fun p e => ¬ IsFinite (entry t c) ∧ p = place 1 i c ∧
      e = .channel i c (entry t c).hostTypeName :=
  finite_finds _ _ _

variable {tables : TableRef → Table}

theorem stopAt_finds (list : Table) (i : ℕ) :
    Finds (stopAt tables list i) (StopFault tables list i) := by
  unfold stopAt
  rw [← entry]
  split
  · next r htable =>
    refine (Finds.three (channelAt_finds (tables r) i) ?_).congr fun p e => ?_
    · rintro c c' _ _ _ _ hlt ⟨-, rfl, -⟩ ⟨-, rfl, -⟩
      exact place_lt_place_iff.mpr (by omega)
    · constructor
      · rintro ⟨c, hc, hother, rfl, rfl⟩
        exact .channel htable hc hother
      · rintro (other | @⟨r', c, htable', hc, hother⟩)
        · exact absurd htable (other r)
        · obtain rfl : r' = r := Value.table.inj (htable'.symm.trans htable)
          exact ⟨c, hc, hother, rfl, rfl⟩
  · next v hother =>
    refine ⟨place 1 i 0, .noTable hother, ?_⟩
    rintro p e (_ | ⟨htable, -, -⟩)
    · exact .inr ⟨rfl, rfl⟩
    · exact absurd htable (hother _)

/-- The faults of a stop lie within it. -/
theorem StopFault.exists_place {list : Table} {i : ℕ} {p : Place} {e : EffectError}
    (h : StopFault tables list i p e) : ∃ c, p = place 1 i c := by
  cases h with
  | noTable => exact ⟨0, rfl⟩
  | channel => exact ⟨_, rfl⟩

/-- The stops are checked in their order. -/
theorem mapM_stopAt_finds (list : Table) :
    Finds ((Array.range list.length).mapM fun i => stopAt tables list (i + 1))
      fun p e => ∃ i ∈ Set.Icc 1 list.length, StopFault tables list i p e := by
  rw [Array.mapM_eq_mapM_toList, Array.toList_range, List.range_eq_range']
  refine (Finds.result (g := List.toArray)
    (.mapM (fun i => stopAt_finds list (i + 1)) ?_ 0 _)).congr fun p e => ?_
  · intro i j p e p' e' hlt h h'
    obtain ⟨c, rfl⟩ := h.exists_place
    obtain ⟨c', rfl⟩ := h'.exists_place
    exact place_lt_place_iff.mpr (by omega)
  · -- positions are counted from zero here and from one in what is reported
    constructor
    · rintro ⟨i, ⟨-, hi⟩, h⟩
      exact ⟨i + 1, ⟨by omega, by omega⟩, h⟩
    · rintro ⟨i, ⟨hone, hi⟩, h⟩
      obtain ⟨i, rfl⟩ : ∃ j, i = j + 1 := ⟨i - 1, by omega⟩
      exact ⟨i, ⟨by omega, by omega⟩, h⟩

theorem stops_finds (list : Table) : Finds (stops tables list) (StopsFault tables list) := by
  have hfirst {p : Place} {e : EffectError}
      (h : ∃ i ∈ Set.Icc 1 list.length, StopFault tables list i p e) : place 1 0 0 < p := by
    obtain ⟨i, ⟨hone, -⟩, h⟩ := h
    obtain ⟨c, rfl⟩ := h.exists_place
    exact place_lt_place_iff.mpr (by omega)
  refine (Finds.guard (p := place 1 0 0) (e := .noStops) (fun _ =>
    Finds.guard (p := place 1 0 0) (e := .noRoom) (fun _ => mapM_stopAt_finds list) ?_)
      ?_).congr fun p e => ?_
  · exact fun _ p e h => hfirst h
  · rintro hempty p e (⟨hcrowded, -⟩ | h)
    · omega
    · exact hfirst h
  · constructor
    · rintro (⟨hempty, rfl, rfl⟩ | ⟨hcrowded, rfl, rfl⟩ | ⟨i, hi, h⟩)
      · exact .empty hempty
      · exact .crowded hcrowded
      · exact .stop hi h
    · rintro (hempty | hcrowded | ⟨hi, h⟩)
      · exact .inl ⟨hempty, rfl, rfl⟩
      · exact .inr (.inl ⟨hcrowded, rfl, rfl⟩)
      · exact .inr (.inr ⟨_, hi, h⟩)

theorem StopsFault.exists_place {list : Table} {p : Place} {e : EffectError}
    (h : StopsFault tables list p e) : ∃ i c, p = place 1 i c := by
  cases h with
  | empty => exact ⟨0, 0, rfl⟩
  | crowded => exact ⟨0, 0, rfl⟩
  | stop _ fault => exact ⟨_, fault.exists_place⟩

section

variable {args : Args}

/-- The number of arguments is checked before them. -/
theorem ArgumentFault.place_lt {f : EffectFn} {p : Place} {e : EffectError}
    (h : ArgumentFault tables args f p e) : place 0 0 0 < p := by
  rcases h with @⟨_, i, hi, -, -⟩ | - | ⟨-, fault⟩
  · have hpos : 0 < i := by
      cases f <;> simp [numbers] at hi <;> omega
    exact place_lt_place_iff.mpr (.inl hpos)
  · exact place_lt_place_iff.mpr (by omega)
  · obtain ⟨i, c, rfl⟩ := fault.exists_place
    exact place_lt_place_iff.mpr (by omega)

theorem HasFault.finds {α : Type} {f : EffectFn} {x : Unit → Except EffectError α}
    (arguments : args.size ∈ Set.Icc f.counts.1 f.counts.2 →
      Finds (x ()) (ArgumentFault tables args f)) :
    Finds (checkCount f.name args f.counts.1 f.counts.2 >>= x) (HasFault tables args f) := by
  have hcount := checkCount_finds f.name args f.counts.1 f.counts.2
  refine (hcount.bind (G := ArgumentFault tables args f) (fun _ hok => arguments ?_) ?_).congr
    fun p e => ?_
  · rw [hok] at hcount
    by_contra hbad
    exact hcount _ _ ⟨hbad, rfl, rfl⟩
  · rintro _ _ _ _ ⟨-, rfl, -⟩ h
    exact h.place_lt
  · constructor
    · rintro (⟨hother, rfl, rfl⟩ | h)
      · exact .count hother
      · exact .argument h
    · rintro (hother | h)
      · exact .inl ⟨hother, rfl, rfl⟩
      · exact .inr h

theorem hsv_finds (time : ℕ) : Finds (apply .hsv tables time args) (HasFault tables args .hsv) := by
  refine HasFault.finds (f := .hsv) fun ⟨hleast, _⟩ => ?_
  change 3 ≤ args.size at hleast
  refine (Finds.three (numberAt_finds "hsv" args) ?_).congr fun p e => ?_
  · rintro i j _ _ _ _ hlt ⟨-, rfl, -⟩ ⟨-, rfl, -⟩
    exact place_lt_place_iff.mpr (by omega)
  · constructor
    · rintro ⟨i, ⟨hi, hi'⟩, hother, rfl, rfl⟩
      have hnumber : i = 1 ∨ i = 2 ∨ i = 3 := by omega
      exact .number (by simpa [numbers] using hnumber) (by omega) hother
    · rintro @⟨_, i, hi, -, hother⟩
      have hnumber : i = 1 ∨ i = 2 ∨ i = 3 := by simpa [numbers] using hi
      exact ⟨i, ⟨by omega, by omega⟩, hother, rfl, rfl⟩

theorem noise_finds (time : ℕ) :
    Finds (apply .noise tables time args) (HasFault tables args .noise) := by
  refine HasFault.finds (f := .noise) fun ⟨hleast, _⟩ => ?_
  change 1 ≤ args.size at hleast
  have hfirst := numberAt_finds "noise" args 1
  dsimp only
  split
  · next hgiven =>
    refine (hfirst.bind (fun x _ => (numberAt_finds "noise" args 2).result
      (g := fun y => #[Value.num (Effect.noise x y)])) ?_).congr fun p e => ?_
    · rintro _ _ _ _ ⟨-, rfl, -⟩ ⟨-, rfl, -⟩
      exact place_lt_place_iff.mpr (by omega)
    · constructor
      · rintro (⟨hother, rfl, rfl⟩ | ⟨hother, rfl, rfl⟩) <;>
          exact .number (by simp [numbers]) (by omega) hother
      · rintro @⟨_, i, hi, -, hother⟩
        obtain rfl | rfl : i = 1 ∨ i = 2 := by simpa [numbers] using hi
        · exact .inl ⟨hother, rfl, rfl⟩
        · exact .inr ⟨hother, rfl, rfl⟩
  · next habsent =>
    refine (hfirst.result (g := fun x => #[Value.num (Effect.noise x 0)])).congr fun p e => ?_
    constructor
    · rintro ⟨hother, rfl, rfl⟩
      exact .number (by simp [numbers]) hleast hother
    · rintro @⟨_, i, hi, hgiven, hother⟩
      obtain rfl | rfl : i = 1 ∨ i = 2 := by simpa [numbers] using hi
      · exact ⟨hother, rfl, rfl⟩
      · omega

theorem gradient_finds (time : ℕ) :
    Finds (apply .gradient tables time args) (HasFault tables args .gradient) := by
  refine HasFault.finds (f := .gradient) fun ⟨hleast, _⟩ => ?_
  change 2 ≤ args.size at hleast
  split
  · next r htable =>
    refine ((stops_finds (tables r)).bind (fun stops _ => (numberAt_finds "gradient" args 2).result
      (g := fun t => colorResults (Effect.onGradient stops t))) ?_).congr fun p e => ?_
    · rintro p e _ _ h ⟨-, rfl, -⟩
      obtain ⟨i, c, rfl⟩ := h.exists_place
      exact place_lt_place_iff.mpr (by omega)
    · constructor
      · rintro (h | ⟨hother, rfl, rfl⟩)
        · exact .stops htable h
        · exact .number (by simp [numbers]) hleast hother
      · rintro (@⟨_, i, hi, -, hother⟩ | hother | @⟨r', _, _, htable', h⟩)
        · obtain rfl := eq_two_of_mem_numbers hi
          exact .inr ⟨hother, rfl, rfl⟩
        · exact absurd htable (hother r)
        · obtain rfl : r' = r := Value.table.inj (htable'.symm.trans htable)
          exact .inl h
  · next v hother =>
    refine ⟨place 1 0 0, .noTable hother, ?_⟩
    rintro p e (@⟨_, i, hi, -, -⟩ | _ | ⟨htable, -⟩)
    · obtain rfl := eq_two_of_mem_numbers hi
      exact .inl (place_lt_place_iff.mpr (by omega))
    · exact .inr ⟨rfl, rfl⟩
    · exact absurd htable (hother _)

theorem apply_finds (f : EffectFn) (time : ℕ) :
    Finds (f.apply tables time args) (HasFault tables args f) := by
  cases f with
  | hsv => exact hsv_finds time
  | gradient => exact gradient_finds time
  | noise => exact noise_finds time
  | timestamp =>
    refine HasFault.finds (f := .timestamp) fun _ => (Finds.none _).congr fun p e => ?_
    refine ⟨False.elim, ?_⟩
    rintro ⟨hi, -, -⟩
    cases hi

/-! ### What is accepted, and what is reported -/

section

variable {list : Table} {f : EffectFn}

theorem areStops_iff : AreStops tables list ↔ ∀ p e, ¬ StopsFault tables list p e := by
  constructor
  · rintro ⟨nonempty, room, stop⟩ _ _ (empty | crowded | ⟨within, fault⟩)
    · omega
    · omega
    · obtain ⟨r, htable, hchannels⟩ := stop _ within
      rcases fault with other | ⟨htable', channel, other⟩
      · exact other r htable
      · obtain rfl := Value.table.inj (htable'.symm.trans htable)
        exact other (hchannels _ channel)
  · intro h
    refine ⟨?_, ?_, fun i hi => ?_⟩
    · by_contra hempty
      exact h _ _ (.empty (by omega))
    · by_contra hcrowded
      exact h _ _ (.crowded (by omega))
    · by_cases htable : ∃ r, entry list i = .table r
      · obtain ⟨r, htable⟩ := htable
        refine ⟨r, htable, fun c hc => ?_⟩
        by_contra hother
        exact h _ _ (.stop hi (.channel htable hc hother))
      · exact absurd (.stop hi (.noTable (not_exists.mp htable))) (h _ _)

/-- Arguments are as an effect needs them if they have no fault. -/
theorem isApt_iff : IsApt tables f args ↔ ∀ p e, ¬ HasFault tables args f p e := by
  constructor
  · rintro ⟨count, number, stops⟩ _ _ (other | (⟨hi, given, other⟩ | other | ⟨htable, fault⟩))
    · exact other count
    · exact other (number _ hi given)
    · obtain ⟨r, htable, -⟩ := stops rfl
      exact other r htable
    · obtain ⟨r, htable', hstops⟩ := stops rfl
      obtain rfl := Value.table.inj (htable.symm.trans htable')
      exact areStops_iff.mp hstops _ _ fault
  · intro h
    refine ⟨?_, fun i hi given => ?_, ?_⟩
    · by_contra hother
      exact h _ _ (.count hother)
    · by_contra hother
      exact h _ _ (.argument (.number hi given hother))
    · rintro rfl
      by_cases htable : ∃ r, args.val 1 = .table r
      · obtain ⟨r, htable⟩ := htable
        exact ⟨r, htable, areStops_iff.mpr fun p e fault => h p e (.argument (.stops htable fault))⟩
      · exact absurd (.argument (.noTable (not_exists.mp htable))) (h _ _)

end

/-- An effect accepts the arguments that it needs. -/
theorem apply_ok_iff (f : EffectFn) (time : ℕ) :
    (∃ results, f.apply tables time args = .ok results) ↔ IsApt tables f args := by
  have hfinds : Finds (f.apply tables time args) (HasFault tables args f) := apply_finds f time
  rw [isApt_iff]
  cases h : f.apply tables time args with
  | ok results =>
    rw [h] at hfinds
    exact iff_of_true ⟨results, rfl⟩ hfinds
  | error e =>
    rw [h] at hfinds
    obtain ⟨p, hp, -⟩ := hfinds
    exact iff_of_false nofun fun hnone => hnone p e hp

/-- Of the arguments that an effect does not accept the first fault is reported. -/
theorem apply_error_iff (f : EffectFn) (time : ℕ) (e : EffectError) :
    f.apply tables time args = .error e ↔
      ∃ p, HasFault tables args f p e ∧ ∀ p' e', HasFault tables args f p' e' → p ≤ p' := by
  have hfinds : Finds (f.apply tables time args) (HasFault tables args f) := apply_finds f time
  cases h : f.apply tables time args with
  | ok results =>
    rw [h] at hfinds
    refine iff_of_false nofun ?_
    rintro ⟨p, hp, -⟩
    exact hfinds p e hp
  | error e' =>
    rw [h] at hfinds
    obtain ⟨p, hp, hfirst⟩ := hfinds
    constructor
    · rintro ⟨⟩
      refine ⟨p, hp, fun p' e' hp' => ?_⟩
      rcases hfirst p' e' hp' with hlt | ⟨rfl, -⟩
      · exact hlt.le
      · exact le_rfl
    · rintro ⟨p', hp', hleast⟩
      rcases hfirst p' e hp' with hlt | ⟨-, rfl⟩
      · exact absurd (hleast p e' hp) (not_le_of_gt hlt)
      · rfl

/-- That there is no room is reported of a list with too many stops. -/
theorem apply_error_noRoom_iff (f : EffectFn) (time : ℕ) :
    f.apply tables time args = .error .noRoom ↔
      f = .gradient ∧ args.size = 2 ∧
        ∃ r, args.val 1 = .table r ∧ mostStops < (tables r).length := by
  rw [apply_error_iff]
  constructor
  · rintro ⟨p, hp, hleast⟩
    rcases hp with - | (- | - | ⟨htable, (- | crowded | ⟨-, (- | -)⟩)⟩)
    refine ⟨rfl, ?_, _, htable, crowded⟩
    by_contra hcount
    have hother : args.size ∉ Set.Icc 2 2 := fun h => hcount (le_antisymm h.2 h.1)
    have hle := place_le_place_iff.mp (hleast _ _ (.count hother))
    omega
  · rintro ⟨rfl, hcount, r, htable, hcrowded⟩
    refine ⟨place 1 0 0, .argument (.stops htable (.crowded hcrowded)), ?_⟩
    rintro p e (hother | (@⟨_, i, hi, -, -⟩ | - | ⟨-, fault⟩))
    · exact absurd ⟨hcount.ge, hcount.le⟩ hother
    · obtain rfl := eq_two_of_mem_numbers hi
      exact place_le_place_iff.mpr (by omega)
    · exact le_rfl
    · obtain ⟨i, c, rfl⟩ := fault.exists_place
      exact place_le_place_iff.mpr (by omega)

/-- The entries at the powers of two alone make a list too long. -/
theorem crowded_of_powers {list : Table} (slots : 0 < list.capacity) (empty : list.array = #[])
    (powers : ∀ k ≤ 62, (list.getInt (Int64.ofNat (2 ^ k))).isNil = false) :
    mostStops < list.length :=
  Nat.lt_of_lt_of_le (by decide) (list.le_length_of_powers slots empty powers)

end

/-! ### What is read of the heap -/

/-- Two heaps agree on what a gradient reads of a list of stops: its length, the entries up to that,
and three channels of each. -/
structure SameStops (tables tables' : TableRef → Table) (r : TableRef) : Prop where
  length : (tables' r).length = (tables r).length
  stop : ∀ i ∈ Set.Icc 1 (tables r).length, entry (tables' r) i = entry (tables r) i
  channel : ∀ i ∈ Set.Icc 1 (tables r).length, ∀ s, entry (tables r) i = .table s →
    ∀ c ∈ Set.Icc 1 3, entry (tables' s) c = entry (tables s) c

section

variable {tables' : TableRef → Table} {r : TableRef}

theorem channelAt_congr {t t' : Table} {c : ℕ} (same : entry t' c = entry t c) (i : ℕ) :
    channelAt t' i c = channelAt t i c := by
  unfold channelAt
  rw [← entry, ← entry, same]

theorem SameStops.stopAt_eq (same : SameStops tables tables' r) {i : ℕ}
    (within : i ∈ Set.Icc 1 (tables r).length) :
    stopAt tables' (tables' r) i = stopAt tables (tables r) i := by
  unfold stopAt
  rw [← entry, ← entry, same.stop i within]
  split
  · next s hstop =>
    have hchannel (c : ℕ) (hc : c ∈ Set.Icc 1 3) :=
      channelAt_congr (same.channel i within s hstop c hc) i
    simp only [hchannel 1 (by simp), hchannel 2 (by simp), hchannel 3 (by simp)]
  · rfl

theorem mapM_congr_mem {α β : Type} {f g : α → Except EffectError β} {xs : List α}
    (h : ∀ a ∈ xs, f a = g a) : xs.mapM f = xs.mapM g := by
  induction xs with
  | nil => rfl
  | cons a xs ih =>
    rw [List.mapM_cons, List.mapM_cons, h a List.mem_cons_self,
      ih fun b hb => h b (List.mem_cons_of_mem a hb)]

theorem SameStops.stops_eq (same : SameStops tables tables' r) :
    stops tables' (tables' r) = stops tables (tables r) := by
  have hmapM : (Array.range (tables r).length).mapM (fun i => stopAt tables' (tables' r) (i + 1)) =
      (Array.range (tables r).length).mapM fun i => stopAt tables (tables r) (i + 1) := by
    rw [Array.mapM_eq_mapM_toList, Array.mapM_eq_mapM_toList, Array.toList_range]
    refine congrArg _ (mapM_congr_mem fun i hi => same.stopAt_eq ?_)
    rw [List.mem_range] at hi
    exact ⟨by omega, by omega⟩
  unfold stops
  rw [same.length, hmapM]

/-- The results depend on the arguments and on what is read of the stops. Metatables are not among
that, nor are entries beyond the length of the list. -/
theorem apply_eq_of_sameStops (f : EffectFn) (time : ℕ) {args : Args}
    (same : ∀ r, args.val 1 = .table r → SameStops tables tables' r) :
    f.apply tables' time args = f.apply tables time args := by
  cases f with
  | gradient =>
    simp only [apply]
    split
    · next r htable => rw [(same r htable).stops_eq]
    · rfl
  | _ => rfl

end

end EffectFn

/-! ### Effects in a script -/

theorem EffectError.hostError_eq_fatal_iff {e : EffectError} {text : String} :
    e.hostError = .fatal text ↔ e = .noRoom ∧ text = e.message := by
  cases e with
  | noRoom => simp [hostError, eq_comm]
  | _ => simp [hostError]

namespace Library.Effects

open EffectFn

variable (f : EffectFn) (args : Args) (m : Machine)

/-- The heap of a machine. -/
abbrev heap (m : Machine) : TableRef → Table := (m.tables.getD · default)

theorem run_eq : run f args m = settle (f.apply (heap m) (m.clock * 1000000) args) m := rfl

/-- An effect in a script either accepts its arguments and changes nothing, or it raises the first
fault. -/
theorem run_outcome :
    (IsApt (heap m) f args ∧ ∃ results, run f args m = .ok results m) ∨
      ∃ p e, HasFault (heap m) args f p e ∧
        (∀ p' e', HasFault (heap m) args f p' e' → p ≤ p') ∧
        run f args m = .error (.raised (.failure m.nextId e.hostError) false)
          { m with nextId := m.nextId + 1 } := by
  rw [run_eq]
  cases h : f.apply (heap m) (m.clock * 1000000) args with
  | ok results => exact .inl ⟨(apply_ok_iff f _).mp ⟨results, h⟩, results, rfl⟩
  | error e =>
    obtain ⟨p, hp, hleast⟩ := (apply_error_iff f _ e).mp h
    exact .inr ⟨p, e, hp, hleast, rfl⟩

/-- The error is fatal if there are more stops than memory can hold, and otherwise never. -/
theorem run_fatal_iff :
    (∃ id text dealt m', run f args m = .error (.raised (.failure id (.fatal text)) dealt) m') ↔
      f = .gradient ∧ args.size = 2 ∧
        ∃ r, args.val 1 = .table r ∧ mostStops < (heap m r).length := by
  rw [← apply_error_noRoom_iff f (m.clock * 1000000), run_eq]
  cases f.apply (heap m) (m.clock * 1000000) args with
  | ok results =>
    refine iff_of_false ?_ nofun
    rintro ⟨_, _, _, _, ⟨⟩⟩
  | error e =>
    have hraised : settle (.error e) m =
        .error (.raised (.failure m.nextId e.hostError) false) { m with nextId := m.nextId + 1 } :=
      rfl
    rw [Except.error.injEq, hraised]
    constructor
    · rintro ⟨id, text, dealt, m', heq⟩
      have hfatal : e.hostError = .fatal text := by
        injection heq with hfault
        injection hfault with hvalue
        injection hvalue
      exact (EffectError.hostError_eq_fatal_iff.mp hfatal).1
    · rintro rfl
      exact ⟨_, _, _, _, rfl⟩

end Library.Effects

end PixelHost.Lua
