import PixelHost.Proofs.Lua.Access
import PixelHost.Proofs.Lua.Marking

/-!
# Counting memory in a realm

To count the memory in use is to look at everything that can be reached. This stays in an exact
realm; in any other realm there is no bound, so that the memory is never counted.

## Main results

* `Lua.Run.recount_stays`, `Lua.Run.collect_stays` — counting.
-/

namespace PixelHost.Lua

variable {ρ : Realm} {α : Type} {Q : α → Prop}

/-- Places are emptied that hold nothing that is kept. -/
theorem Agreement.clear {α : Type} [Inhabited α] {known : Nat → Prop} {ok : α → Prop} {taken : Nat}
    {keep : Nat → α → Prop} {xs : Array α} (h : Agreement known ok taken keep xs xs)
    (marks : Array Bool) {empty : α} (hempty : ok empty)
    (hmarks : ∀ r, ¬known r → marks.getD r true = true ∨ ∀ a, keep r a) :
    Agreement known ok taken keep (clear marks empty xs) (clear marks empty xs) where
  size := rfl
  same := fun _ _ => rfl
  ok := by
    intro r hr
    rcases Marking.getD_clear_cases marks empty xs r with hkept | hemptied
    · rw [hkept]
      exact h.ok r hr
    · rw [hemptied]
      exact hempty
  fresh := by
    intro r hr
    rw [Lua.clear, Array.size_mapIdx] at hr
    exact h.fresh r hr
  grown := by
    rw [Lua.clear, Array.size_mapIdx]
    exact h.grown
  kept := by
    intro r hr
    rcases hmarks r hr with hmarked | hkeep
    · rw [Marking.getD_clear_of_marked marks empty xs r hmarked]
      exact h.kept r hr
    · exact hkeep _

namespace Realm.Agree

variable {m : Machine} {h : Heap} {t : Target}

/-- What is in use elsewhere leads where it led at the start. -/
theorem targetsAt_anchored (agree : ρ.Agree m h) (ht : ρ.anchored t) :
    m.heap.targetsAt t = ρ.start.targetsAt t := by
  have hout := ht.free
  cases t with
  | table r => exact congrArg Table.targets (agree.tables.kept r hout ht)
  | cell r => exact congrArg Cell.targets (agree.cells.kept r hout ht)
  | thread r => exact congrArg Thread.targets (agree.threads.kept r hout ht)
  | iteration i => rfl
  | native f => rfl

/-- What is in use elsewhere can still be reached from the values that are held. -/
theorem reaches_anchored (agree : ρ.Agree m h) (ht : ρ.anchored t) :
    m.heap.ReachesAround ρ.has (targetsOf m.held) t := by
  induction ht with
  | start ht free =>
    obtain ⟨v, hv, ht⟩ := List.mem_flatMap.mp ht
    have hheld := Array.mem_toList_iff.mpr (agree.held v hv)
    exact .start (List.mem_flatMap.mpr ⟨v, hheld, ht⟩) free
  | step way ht free ih => exact .step ih (agree.targetsAt_anchored way ▸ ht) free

/-- What is in use elsewhere is marked when the memory is counted. -/
theorem marked_anchored (agree : ρ.Agree m h) (ht : ρ.anchored t) : (m.marking true).has t :=
  m.marking_reaches agree.core.thread (agree.reaches_anchored ht)

end Realm.Agree

namespace Run

/-- What is marked does not depend on the count of instructions. -/
theorem close_withMeter (all : Bool) (m : Machine) (μ : Meter) (n : Nat) (k : Marking) :
    Marking.close all (m.withMeter μ) n k = Marking.close all m n k := by
  induction n generalizing k with
  | zero => rfl
  | succ n ih =>
    have hcontents : Marking.markContents all (m.withMeter μ) = Marking.markContents all m := rfl
    simp only [Marking.close, hcontents, ih]

theorem recounted_withMeter (m : Machine) (μ : Meter) :
    (m.withMeter μ).recounted = m.recounted.withMeter μ := by
  have hmarking (all : Bool) (m : Machine) : (m.withMeter μ).marking all = m.marking all :=
    close_withMeter all m μ _ _
  have hcounted : ({ m.withMeter μ with charge := ((m.withMeter μ).marking false).bytes } : Machine) =
      ({ m with charge := (m.marking false).bytes } : Machine).withMeter μ := by
    rw [hmarking]
    rfl
  unfold Machine.recounted
  rw [hcounted]
  extract_lets _ k _ k'
  have hk : k = k' := hmarking true _
  rw [hk]
  by_cases hholding : m.holding > 0
  · exact (if_pos hholding).trans (congrArg (Machine.withMeter · μ) (if_pos hholding)).symm
  · refine (if_neg hholding).trans ?_
    refine Eq.trans ?_ (congrArg (Machine.withMeter · μ) (if_neg hholding).symm)
    rfl

theorem recounted_meter (m : Machine) : m.recounted.meter = m.meter := by
  unfold Machine.recounted
  extract_lets m' k
  split <;> rfl

/-- The memory in use is counted, and what is out of reach is emptied. -/
theorem agree_recounted {m : Machine} (agree : ρ.Agree m m.heap) :
    ρ.Agree m.recounted m.recounted.heap := by
  unfold Machine.recounted
  extract_lets m' k
  have hcounted : ρ.Agree m' m'.heap := { agree with
    core := agree.core.of_eq rfl rfl rfl rfl rfl rfl rfl rfl rfl
    same := fun _ => rfl }
  have hmarked (t : Target) : k.has t ∨ ¬ρ.anchored t := by
    by_cases ht : ρ.anchored t
    · exact .inl (hcounted.marked_anchored ht)
    · exact .inr ht
  have hnil : ρ.captured (.closed .nil) := trivial
  split
  · exact hcounted
  · exact { hcounted with
      tables := hcounted.tables.clear _ Realm.contents.empty fun r _ =>
        (hmarked (.table r)).imp_right fun hout _ hin => absurd hin hout
      cells := hcounted.cells.clear _ hnil fun r _ =>
        (hmarked (.cell r)).imp_right fun hout _ hin => absurd hin hout
      threads := hcounted.threads.clear _ Realm.coroutine.empty fun r _ =>
        (hmarked (.thread r)).imp_right fun hout _ hin => absurd hin hout
      core := hcounted.core.of_eq rfl rfl rfl rfl rfl rfl rfl rfl rfl
      same := fun _ => rfl }

theorem recount_stays (hexact : ρ.exact) : Stays ρ Plain recount := by
  refine .change recounted_meter fun m h agree =>
    ⟨{ m.recounted.heap with meter := h.meter }, ?_, ?_⟩
  · have hmeter : m.withHeap h = m.withMeter h.meter := by
      rw [agree.same hexact]
      rfl
    rw [hmeter, recounted_withMeter]
    rfl
  · exact { agree_recounted agree.self with
      meter := by rw [recounted_meter]; exact agree.meter
      same := fun _ => rfl }

/-- Without a bound there is always enough memory. -/
theorem ifLacking_stays {x y : Run α} (hx : ρ.exact → Stays ρ Q x) (hy : Stays ρ Q y) :
    Stays ρ Q (do
      let m ← get
      if m.lacks m.charge then x else y) := by
  intro m h agree
  rcases agree.core.bounded with hexact | hnone
  · exact Stays.readAll (f := fun m => if m.lacks m.charge then x else y) hexact
      (fun m => .ite (fun _ => hx hexact) fun _ => hy) (fun _ _ => rfl) m h agree
  · have hlacks (n : Nat) : m.lacks n = false := by rw [Machine.lacks, hnone]
    change ρ.Same _ Q ((if m.lacks m.charge then x else y) m)
      ((if m.lacks h.charge then x else y) (m.withHeap h))
    rw [hlacks, hlacks]
    exact hy m h agree

theorem collect_stays (hexact : ρ.exact) : Stays ρ Plain collect :=
  (recount_stays hexact).andThen <|
    .readAll hexact (fun _ => .ite (fun _ => .throw trivial) fun _ => .plain ()) fun _ _ => rfl

end Run

end PixelHost.Lua
