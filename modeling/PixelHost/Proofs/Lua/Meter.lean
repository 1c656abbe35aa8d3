import PixelHost.Lua.Execution

/-!
# The count of instructions

A machine counts the instructions of its main coroutine. At the end of every interval it looks at
what is left of the budget. Once nothing is, the instruction is stopped, and so is the last one of
every interval from then on. What stops it is an error like any other: a protected call catches it,
and the program goes on until the end of the next interval.

## Main definitions

* `Lua.Meter` — the count.
* `Lua.Meter.tick`, `Lua.Meter.after` — the count after one and after several more instructions.
* `Lua.Meter.Stops` — the next instruction is stopped.
* `Lua.Meter.full` — the count at the start.
* `Lua.Metering` — how the counts of two machines may differ.

## Main results

* `Lua.Run.countInstruction_eq` — what it is to count an instruction.
* `Lua.Meter.stops_after_iff` — which instructions are stopped.
* `Lua.Meter.exists_stops` — the first of them comes at most two intervals late.
-/

namespace PixelHost.Lua

/-- The count of the instructions of the main coroutine. -/
structure Meter where
  /-- The number of instructions until the next check of the budget. -/
  untilCheck : Nat
  /-- The number of instructions between two checks; `0` if there is no budget. -/
  checkInterval : Nat
  /-- The instructions that are left. -/
  budget : Int
  /-- The budget in the message that it is used up. -/
  budgetLimit : Nat

/-- The count of a machine. -/
def Machine.meter (m : Machine) : Meter :=
  ⟨m.untilCheck, m.checkInterval, m.budget, m.budgetLimit⟩

/-- The machine with another count. -/
def Machine.withMeter (m : Machine) (μ : Meter) : Machine :=
  { m with
    untilCheck := μ.untilCheck
    checkInterval := μ.checkInterval
    budget := μ.budget
    budgetLimit := μ.budgetLimit }

namespace Meter

/-! ### One instruction -/

/-- The count after one more instruction. -/
def tick (μ : Meter) : Meter :=
  if μ.checkInterval = 0 then μ
  else if μ.untilCheck ≤ 1 then
    { μ with untilCheck := μ.checkInterval, budget := μ.budget - Int.ofNat μ.checkInterval }
  else { μ with untilCheck := μ.untilCheck - 1 }

/-- The next instruction is stopped: it is the last one of an interval, and nothing is left. -/
def Stops (μ : Meter) : Prop := μ.checkInterval ≠ 0 ∧ μ.untilCheck ≤ 1 ∧ μ.budget ≤ 0

instance (μ : Meter) : Decidable μ.Stops := inferInstanceAs (Decidable (_ ∧ _ ∧ _))

/-- What an instruction is stopped with. -/
def refusal (μ : Meter) (id : Nat) : Fault :=
  .raised (.failure id (.reported s!"instruction limit exceeded ({μ.budgetLimit} instructions)")) false

variable {μ : Meter}

theorem tick_idle (h : μ.checkInterval = 0) : μ.tick = μ := by rw [tick, if_pos h]

theorem tick_last (h : μ.checkInterval ≠ 0) (hlast : μ.untilCheck ≤ 1) : μ.tick =
    { μ with untilCheck := μ.checkInterval, budget := μ.budget - Int.ofNat μ.checkInterval } := by
  rw [tick, if_neg h, if_pos hlast]

theorem tick_within (h : μ.checkInterval ≠ 0) (hlast : ¬μ.untilCheck ≤ 1) :
    μ.tick = { μ with untilCheck := μ.untilCheck - 1 } := by rw [tick, if_neg h, if_neg hlast]

end Meter

/-- Instructions of the main coroutine are counted, and one that is stopped ends with an error that
can be caught. Those of other coroutines make no difference. -/
theorem Run.countInstruction_eq (m : Machine) : Run.countInstruction m =
    if m.thread = 0 then
      if m.meter.Stops then
        .error (m.meter.refusal m.nextId) { m.withMeter m.meter.tick with nextId := m.nextId + 1 }
      else .ok () (m.withMeter m.meter.tick)
    else .ok () m := by
  have hcount : countInstruction m =
      (if m.checkInterval != 0 && m.thread == 0 then
        if m.untilCheck ≤ 1 then checkBudget
        else modify fun m => { m with untilCheck := m.untilCheck - 1 }
      else pure () : Run Unit) m := rfl
  have hcheck : checkBudget m =
      (if m.budget ≤ 0 then do
        raise (.failure (← freshId)
          (.reported s!"instruction limit exceeded ({m.budgetLimit} instructions)"))
      else pure () : Run Unit) { m with
        untilCheck := m.checkInterval
        budget := m.budget - Int.ofNat m.checkInterval } := rfl
  have hcounts : (m.checkInterval != 0 && m.thread == 0) = true ↔
      m.checkInterval ≠ 0 ∧ m.thread = 0 := by
    rw [Bool.and_eq_true, bne_iff_ne, beq_iff_eq]
  rw [hcount]
  by_cases hthread : m.thread = 0
  · rw [if_pos hthread]
    by_cases hidle : m.checkInterval = 0
    · rw [if_neg fun h => (hcounts.mp h).1 hidle, if_neg fun h : m.meter.Stops => h.1 hidle,
        Meter.tick_idle (μ := m.meter) hidle]
      rfl
    · rw [if_pos (hcounts.mpr ⟨hidle, hthread⟩)]
      by_cases hlast : m.untilCheck ≤ 1
      · rw [if_pos hlast, hcheck, Meter.tick_last (μ := m.meter) hidle hlast]
        by_cases hleft : m.budget ≤ 0
        · rw [if_pos hleft, if_pos (c := m.meter.Stops) ⟨hidle, hlast, hleft⟩]
          rfl
        · rw [if_neg hleft, if_neg fun h : m.meter.Stops => hleft h.2.2]
          rfl
      · rw [if_neg hlast, if_neg fun h : m.meter.Stops => hlast h.2.1,
          Meter.tick_within (μ := m.meter) hidle hlast]
        rfl
  · rw [if_neg hthread, if_neg fun h => hthread (hcounts.mp h).2]
    rfl

namespace Meter

/-! ### Several instructions -/

/-- The count after some more instructions. -/
def after (μ : Meter) : Nat → Meter
  | 0 => μ
  | n + 1 => (μ.after n).tick

/-- The instructions that a budget allows, in a signed word. -/
def allowed (limit : Nat) : Nat := min limit 0x7FFFFFFFFFFFFFFF

/-- The count at the start, with a budget that is looked at in intervals; `0` for no budget. -/
def full (interval limit : Nat) : Meter where
  untilCheck := interval
  checkInterval := if limit = 0 then 0 else interval
  budget := Int.ofNat (allowed limit)
  budgetLimit := limit

/-- How many instructions were counted. -/
def counted (μ : Meter) : Nat :=
  (Int.ofNat (allowed μ.budgetLimit) - μ.budget).toNat + (μ.checkInterval - μ.untilCheck)

variable {interval limit : Nat}

/-- Without a budget nothing is counted. -/
theorem after_full_zero (interval n : Nat) : (full interval 0).after n = full interval 0 := by
  induction n with
  | zero => rfl
  | succ n ih =>
    rw [after, ih]
    exact tick_idle rfl

/-- After some full intervals and a part of one. By induction on the instructions. -/
theorem after_full (hlimit : limit ≠ 0) {q r n : Nat} (hn : n = interval * q + r)
    (hr : r < interval) : (full interval limit).after n =
      ⟨interval - r, interval, Int.ofNat (allowed limit) - Int.ofNat (interval * q), limit⟩ := by
  have hinterval : interval ≠ 0 := by omega
  induction n generalizing q r with
  | zero =>
    obtain ⟨hq, rfl⟩ : interval * q = 0 ∧ r = 0 := by omega
    rw [after, full, if_neg hlimit, hq]
    simp
  | succ n ih =>
    cases r with
    | zero =>
      have hq : q ≠ 0 := by
        rintro rfl
        omega
      obtain ⟨p, rfl⟩ := Nat.exists_eq_succ_of_ne_zero hq
      have hbefore : n = interval * p + (interval - 1) := by
        rw [Nat.mul_succ] at hn
        omega
      have hlast : interval - (interval - 1) ≤ 1 := by omega
      rw [after, ih hbefore (by omega), tick_last hinterval hlast]
      simp only [Nat.sub_zero, Nat.mul_succ, Int.ofNat_eq_natCast, Int.natCast_add, Int.sub_sub]
    | succ r =>
      have hwithin : ¬interval - r ≤ 1 := by omega
      rw [after, ih (by omega : n = interval * q + r) (by omega), tick_within hinterval hwithin,
        Nat.sub_sub]

/-- The count tells how many instructions there were. -/
theorem counted_after (hinterval : 0 < interval) (hlimit : limit ≠ 0) (n : Nat) :
    ((full interval limit).after n).counted = n := by
  have hn : n = interval * (n / interval) + n % interval := (Nat.div_add_mod n interval).symm
  have hr := Nat.mod_lt n hinterval
  rw [after_full hlimit hn hr, counted]
  simp only [Int.ofNat_eq_natCast]
  omega

/-- The instructions that are stopped are the last ones of the intervals, from the first interval on
that begins with nothing left. -/
theorem stops_after_iff (hinterval : 0 < interval) (n : Nat) :
    ((full interval limit).after n).Stops ↔
      limit ≠ 0 ∧ interval ∣ n + 1 ∧ allowed limit + interval ≤ n + 1 := by
  by_cases hlimit : limit = 0
  · subst hlimit
    rw [after_full_zero]
    exact iff_of_false (fun h => h.1 rfl) fun h => h.1 rfl
  have hn : n = interval * (n / interval) + n % interval := (Nat.div_add_mod n interval).symm
  have hr := Nat.mod_lt n hinterval
  rw [after_full hlimit hn hr]
  generalize n / interval = q at hn
  generalize n % interval = r at hn hr
  have hdvd : interval ∣ n + 1 ↔ r + 1 = interval := by
    rw [hn, Nat.add_assoc, Nat.dvd_add_right (Nat.dvd_mul_right _ _)]
    exact ⟨fun h => Nat.le_antisymm hr (Nat.le_of_dvd (Nat.succ_pos r) h),
      fun h => h ▸ Nat.dvd_refl (r + 1)⟩
  rw [hdvd]
  simp only [Stops, Int.ofNat_eq_natCast]
  omega

/-- With a budget of two intervals, the first instruction that is stopped is the last one of the
third. -/
example : ((full 10000 20000).after 29999).Stops ∧ ¬((full 10000 20000).after 19999).Stops := by
  simp only [stops_after_iff (by decide : 0 < 10000)]
  decide

/-- With a budget an instruction is stopped at most two intervals late. -/
theorem exists_stops (hinterval : 0 < interval) (hlimit : limit ≠ 0) :
    ∃ n < limit + 2 * interval, ((full interval limit).after n).Stops := by
  let q := (allowed limit + interval - 1) / interval
  have hq : interval * q + (allowed limit + interval - 1) % interval =
      allowed limit + interval - 1 := Nat.div_add_mod _ _
  have hr := Nat.mod_lt (allowed limit + interval - 1) hinterval
  have hallowed : allowed limit ≤ limit := Nat.min_le_left _ _
  have hnext : interval * (q + 1) - 1 + 1 = interval * q + interval := by
    rw [Nat.mul_add, Nat.mul_one]
    omega
  refine ⟨interval * (q + 1) - 1, by omega, (stops_after_iff hinterval _).mpr ⟨hlimit, ?_, ?_⟩⟩
  · rw [hnext]
    exact ⟨q + 1, by rw [Nat.mul_add, Nat.mul_one]⟩
  · omega

end Meter

/-! ### Two machines -/

/-- How the counts of two machines may differ that do the same. Once the first count is late, nothing
is said any more of the second machine. -/
structure Metering where
  related : Meter → Meter → Prop
  late : Meter → Prop
  related_self : ∀ {μ μ'}, related μ μ' → related μ μ
  related_tick : ∀ {μ μ'}, related μ μ' → related μ.tick μ'.tick
  late_tick : ∀ {μ}, late μ → late μ.tick
  /-- Until then, the same instructions are stopped, with the same error. -/
  stops : ∀ {μ μ'}, related μ μ' → μ' = μ ∨ ¬μ.Stops ∧ ¬μ'.Stops ∨ late μ.tick

namespace Metering

/-- The counts are the same. -/
def same : Metering where
  related μ μ' := μ' = μ
  late _ := False
  related_self _ := rfl
  related_tick h := congrArg Meter.tick h
  late_tick h := h
  stops h := .inl h

/-- The second machine has a larger budget, or none at all. The first count is late from the
instruction on that could be stopped for its budget. -/
def larger {interval limit limit' : Nat} (hinterval : 0 < interval)
    (hlimit : limit' = 0 ∨ limit ≤ limit') : Metering where
  related μ μ' := ∃ n, μ = (Meter.full interval limit).after n ∧
    (μ' = μ ∨ μ' = (Meter.full interval limit').after n)
  late μ := ∃ n, Meter.allowed limit + interval ≤ n ∧ μ = (Meter.full interval limit).after n
  related_self := fun ⟨n, h, _⟩ => ⟨n, h, .inl rfl⟩
  related_tick := fun ⟨n, h, h'⟩ => ⟨n + 1, congrArg Meter.tick h,
    h'.imp (congrArg Meter.tick) (congrArg Meter.tick)⟩
  late_tick := fun ⟨n, hn, h⟩ => ⟨n + 1, by omega, congrArg Meter.tick h⟩
  stops := by
    rintro μ μ' ⟨n, rfl, h | rfl⟩
    · exact .inl h
    by_cases hn : Meter.allowed limit + interval ≤ n + 1
    · exact .inr (.inr ⟨n + 1, hn, rfl⟩)
    · refine .inr (.inl ⟨fun h => hn ((Meter.stops_after_iff hinterval n).mp h).2.2, fun h => ?_⟩)
      obtain ⟨hlimit', -, hlast⟩ := (Meter.stops_after_iff hinterval n).mp h
      have hallowed : Meter.allowed limit ≤ Meter.allowed limit' := by
        have hle := hlimit.resolve_left hlimit'
        simp only [Meter.allowed]
        omega
      omega

end Metering

end PixelHost.Lua
