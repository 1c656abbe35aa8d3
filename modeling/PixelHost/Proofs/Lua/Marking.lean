import PixelHost.Proofs.Lua.Reach

/-!
# The count reaches all that can be reached

When the memory is counted, places that were not marked are emptied. Every place that can be reached
from a value in use elsewhere is marked, so it keeps its contents. Only the running coroutine does
not count as a place on the way, for its part of the state is not in the heap.

Each step of the marking does nothing or marks a place and makes it wait for its contents to be
reached. So the number of places that are not marked, together with those that wait, never changes
within a round, and the rounds are enough.

## Main definitions

* `Lua.Marking.Marks` — a part of the marking reaches targets.
* `Lua.Marking.Settled` — what was marked waits, or what it leads to is marked.

## Main results

* `Lua.Marking.close_settled` — in the end nothing waits.
* `Lua.Machine.marking_reaches` — what can be reached from values in use is marked.
-/

namespace PixelHost.Lua

/-- A place as a target. -/
def Place.target : Place → Target
  | .table r => .table r
  | .cell r => .cell r
  | .thread r => .thread r

namespace Marking

/-- A target is marked, or it is no place that is counted. -/
def has (k : Marking) : Target → Prop
  | .table r => k.tables.getD r true = true
  | .cell r => k.cells.getD r true = true
  | .thread r => k.threads.getD r true = true
  | .iteration _ | .native _ => True

/-- The number of places that are not marked or wait for their contents to be reached. -/
def work (k : Marking) : Nat :=
  k.tables.count false + k.cells.count false + k.threads.count false + k.fresh.size

/-- A part of the marking reaches targets. What it marks waits afterwards. -/
structure Marks (k k' : Marking) (targets : List Target) : Prop where
  grows : ∀ t, k.has t → k'.has t
  waits : ∀ p ∈ k.fresh, p ∈ k'.fresh
  fresh : ∀ t, k'.has t → k.has t ∨ ∃ p ∈ k'.fresh, p.target = t
  work : k'.work = k.work
  reached : ∀ t ∈ targets, k'.has t

namespace Marks

variable {k k' k'' : Marking} {ts ts' : List Target}

/-- Nothing is marked. -/
theorem of_eq (htables : k'.tables = k.tables) (hcells : k'.cells = k.cells)
    (hthreads : k'.threads = k.threads) (hfresh : k'.fresh = k.fresh) : Marks k k' [] := by
  have hhas (t : Target) : k'.has t ↔ k.has t := by
    cases t <;> simp only [has, htables, hcells, hthreads]
  exact {
    grows := fun t ht => (hhas t).mpr ht
    waits := fun p hp => hfresh ▸ hp
    fresh := fun t ht => .inl ((hhas t).mp ht)
    work := by simp only [Marking.work, htables, hcells, hthreads, hfresh]
    reached := fun _ h => nomatch h }

theorem refl : Marks k k [] := of_eq rfl rfl rfl rfl

theorem trans (h : Marks k k' ts) (h' : Marks k' k'' ts') : Marks k k'' (ts ++ ts') where
  grows t ht := h'.grows t (h.grows t ht)
  waits p hp := h'.waits p (h.waits p hp)
  fresh t ht := by
    rcases h'.fresh t ht with ht | ht
    · rcases h.fresh t ht with ht | ⟨p, hp, heq⟩
      · exact .inl ht
      · exact .inr ⟨p, h'.waits p hp, heq⟩
    · exact .inr ht
  work := h'.work.trans h.work
  reached t ht := by
    rcases List.mem_append.mp ht with ht | ht
    · exact h'.grows t (h.reached t ht)
    · exact h'.reached t ht

/-- A part that reaches nothing of its own comes first. -/
theorem after (h : Marks k k' []) (h' : Marks k' k'' ts) : Marks k k'' ts := h.trans h'

/-- A part that reaches nothing of its own comes last. -/
theorem before (h : Marks k k' ts) (h' : Marks k' k'' []) : Marks k k'' ts :=
  List.append_nil ts ▸ h.trans h'

/-- The parts of a list, one after the other. -/
theorem foldl {α : Type} {f : Marking → α → Marking} {g : α → List Target}
    (hf : ∀ k a, Marks k (f k a) (g a)) (xs : List α) (k : Marking) :
    Marks k (xs.foldl f k) (xs.flatMap g) := by
  induction xs generalizing k with
  | nil => exact refl
  | cons a xs ih => exact (hf k a).trans (ih _)

/-- The parts of an array, one after the other. -/
theorem foldl_array {α : Type} {f : Marking → α → Marking} {g : α → List Target}
    (hf : ∀ k a, Marks k (f k a) (g a)) (xs : Array α) (k : Marking) :
    Marks k (xs.foldl f k) (xs.toList.flatMap g) := by
  rw [← Array.foldl_toList]
  exact foldl hf xs.toList k

end Marks

/-! ### Places -/

/-- A place is marked and waits. -/
theorem Marks.of_mark {k k' : Marking} {p : Place} (hhas : ∀ t, k'.has t ↔ k.has t ∨ t = p.target)
    (hfresh : k'.fresh = k.fresh.push p) (hwork : k'.work = k.work) : Marks k k' [p.target] where
  grows t ht := (hhas t).mpr (.inl ht)
  waits q hq := by
    rw [hfresh]
    exact Array.mem_push_of_mem p hq
  fresh t ht := by
    rcases (hhas t).mp ht with ht | rfl
    · exact .inl ht
    · exact .inr ⟨p, by rw [hfresh]; exact Array.mem_push_self, rfl⟩
  work := hwork
  reached := List.forall_mem_singleton.mpr ((hhas _).mpr (.inr rfl))

theorem Marks.of_has {k : Marking} {t : Target} (h : k.has t) : Marks k k [t] :=
  { refl with reached := List.forall_mem_singleton.mpr h }

theorem getD_mark {marks : Array Bool} {r i : Nat} :
    (marks.setIfInBounds r true).getD i true = true ↔ marks.getD i true = true ∨ i = r := by
  simp only [Array.getD_eq_getD_getElem?, Array.getElem?_setIfInBounds]
  by_cases heq : r = i
  · rw [if_pos heq]
    refine iff_of_true ?_ (.inr heq.symm)
    split <;> rfl
  · rw [if_neg heq]
    exact ⟨.inl, fun h => h.resolve_right fun h => heq h.symm⟩

section

variable {α : Type} [Inhabited α] (marks : Array Bool) (empty : α) (xs : Array α) (r : Nat)

/-- A place that is marked keeps its contents. -/
theorem getD_clear_of_marked (h : marks.getD r true = true) :
    (clear marks empty xs).getD r default = xs.getD r default := by
  simp only [clear, Array.getD_eq_getD_getElem?, Array.getElem?_mapIdx] at h ⊢
  simp only [h, if_true, Option.map_id']

/-- A place keeps its contents or is emptied. -/
theorem getD_clear_cases :
    (clear marks empty xs).getD r default = xs.getD r default ∨
      (clear marks empty xs).getD r default = empty := by
  simp only [clear, Array.getD_eq_getD_getElem?, Array.getElem?_mapIdx]
  cases xs[r]? with
  | none => exact .inl rfl
  | some a =>
    simp only [Option.map_some, Option.getD_some]
    split
    · exact .inl rfl
    · exact .inr rfl

end

theorem count_mark {marks : Array Bool} {r : Nat} (h : ¬marks.getD r true = true) :
    (marks.setIfInBounds r true).count false + 1 = marks.count false := by
  rcases Nat.lt_or_ge r marks.size with hlt | hge
  · have hfalse : marks[r] = false := by
      rw [Array.getD_eq_getD_getElem?, Array.getElem?_eq_getElem hlt, Option.getD_some,
        Bool.not_eq_true] at h
      exact h
    have hpos : 0 < marks.count false := Array.count_pos_iff.mpr (hfalse ▸ Array.getElem_mem hlt)
    rw [Array.setIfInBounds, dif_pos hlt, Array.count_set hlt, hfalse,
      if_pos BEq.rfl, if_neg (by decide)]
    omega
  · rw [Array.getD_eq_getD_getElem?, Array.getElem?_eq_none hge] at h
    exact absurd rfl h

theorem markTable_marks (k : Marking) (r : TableRef) : Marks k (k.markTable r) [.table r] := by
  unfold markTable
  split
  · next h => exact .of_has h
  · next h =>
    have hcount := count_mark h
    refine .of_mark (p := .table r) (fun t => ?_) rfl ?_
    · cases t <;> simp only [has, Place.target, getD_mark, Target.table.injEq, reduceCtorEq, or_false]
    · simp only [work, Array.size_push]
      omega

theorem markCell_marks (k : Marking) (r : CellRef) : Marks k (k.markCell r) [.cell r] := by
  unfold markCell
  split
  · next h => exact .of_has h
  · next h =>
    have hcount := count_mark h
    refine .of_mark (p := .cell r) (fun t => ?_) rfl ?_
    · cases t <;> simp only [has, Place.target, getD_mark, Target.cell.injEq, reduceCtorEq, or_false]
    · simp only [work, Array.size_push]
      omega

theorem markThread_marks (k : Marking) (r : ThreadRef) : Marks k (k.markThread r) [.thread r] := by
  unfold markThread
  split
  · next h => exact .of_has h
  · next h =>
    have hcount := count_mark h
    refine .of_mark (p := .thread r) (fun t => ?_) rfl ?_
    · cases t <;> simp only [has, Place.target, getD_mark, Target.thread.injEq, reduceCtorEq, or_false]
    · simp only [work, Array.size_push]
      omega

/-! ### Values and activations -/

theorem markClosure_marks (k : Marking) (f : Closure) : Marks k (k.markClosure f) f.targets := by
  unfold markClosure
  extract_lets counted
  have hcounted : Marks k counted [] := by
    simp only [counted]
    split
    · exact .refl
    · exact .of_eq rfl rfl rfl rfl
  refine hcounted.after ?_
  rw [Closure.targets, List.map_eq_flatMap]
  exact .foldl_array markCell_marks f.upvalues counted

theorem markValue_marks (k : Marking) (v : Value) : Marks k (k.markValue v) v.targets := by
  cases v with
  | str s =>
    unfold markValue
    simp only []
    split
    · exact .refl
    · exact .of_eq rfl rfl rfl rfl
  | table r => exact markTable_marks k r
  | closure f => exact markClosure_marks k f
  | thread r => exact markThread_marks k r
  | native f =>
    cases f with
    | wrapped r => exact markThread_marks k r
    | _ => exact .of_has trivial
  | _ => exact .refl

theorem markValues_marks (k : Marking) (vs : Array Value) :
    Marks k (k.markValues vs) (targetsOf vs) :=
  .foldl_array markValue_marks vs k

theorem markHeld_marks (k : Marking) (v : Value) : Marks k (k.markHeld v) v.targets := by
  unfold markHeld
  split
  · exact (markClosure_marks k _).before (.of_eq rfl rfl rfl rfl)
  · exact markValue_marks k v

theorem markFrame_marks (k : Marking) (f : Frame) : Marks k (k.markFrame f) f.targets := by
  unfold markFrame
  extract_lets counted carried
  have hcounted : Marks k counted [] := .of_eq rfl rfl rfl rfl
  have hcarried : Marks counted carried f.activity.targets := by
    simp only [carried]
    split
    · next h => 
      rw [h]
      exact (markClosure_marks _ _).trans (markValues_marks _ _)
    · next h =>
      rw [h]
      exact (markValue_marks _ _).trans (markValues_marks _ _)
  refine (hcounted.after hcarried).trans ?_
  split
  · next h =>
    rw [h]
    exact markValues_marks _ _
  · next h =>
    have hnone : f.continuation.targets = [] := by
      cases hk : f.continuation with
      | closingReturn level results => exact absurd hk (h level results)
      | _ => rfl
    rw [hnone]
    exact .refl

theorem markStack_marks (k : Marking) (stack : Array Value) (top : Nat) (frames : List Frame)
    (openCells : List (Nat × CellRef)) :
    Marks k (k.markStack true stack top frames openCells)
      (targetsOf stack ++ openCells.map (.cell ·.2) ++ frames.flatMap Frame.targets) := by
  have hcounted : Marks k { k with bytes := k.bytes + 16 * stack.size } [] := .of_eq rfl rfl rfl rfl
  refine hcounted.after (((markValues_marks _ _).trans ?_).trans (.foldl markFrame_marks _ _))
  rw [List.map_eq_flatMap]
  exact .foldl (fun k c => markCell_marks k c.2) _ _

/-! ### Contents -/

/-- What the marking reaches from a place: the running coroutine is not in the heap. -/
def targetsFrom (m : Machine) : Target → List Target
  | .thread r => if r == m.thread then [] else m.heap.targetsAt (.thread r)
  | t => m.heap.targetsAt t

theorem mem_targetsFrom {m : Machine} {t t' : Target} (h : t' ∈ targetsFrom m t) :
    t' ∈ m.heap.targetsAt t := by
  cases t with
  | thread r =>
    rw [targetsFrom] at h
    split at h
    · exact absurd h List.not_mem_nil
    · exact h
  | _ => exact h

theorem markFailure_marks (k : Marking) (failure : Option Value) :
    Marks k (match failure with
      | some v => k.markValue v
      | none => k) (failure.toList.flatMap Value.targets) := by
  cases failure with
  | none => exact .refl
  | some v =>
    rw [Option.toList_some, List.flatMap_singleton]
    exact markValue_marks k v

theorem markContents_marks (m : Machine) (k : Marking) (p : Place) :
    Marks k (k.markContents true m p) (targetsFrom m p.target) := by
  cases p with
  | table r =>
    simp only [markContents, Place.target, targetsFrom, Heap.targetsAt, Machine.heap, Table.targets]
    generalize m.tables.getD r default = t
    have hcounted : Marks k { k with bytes := k.bytes + t.bytes } [] := .of_eq rfl rfl rfl rfl
    refine hcounted.after <| (((markValues_marks _ t.array).trans
      (markValues_marks _ t.keys)).trans (markValues_marks _ t.values)).trans ?_
    cases t.metatable with
    | none => exact .refl
    | some mt => exact markTable_marks _ mt
  | cell r =>
    simp only [markContents, Place.target, targetsFrom, Heap.targetsAt, Machine.heap]
    cases m.cells.getD r default with
    | closed v => exact markValue_marks k v
    | inStack thread i => exact markThread_marks k thread
  | thread r =>
    simp only [markContents, Place.target, targetsFrom, Heap.targetsAt, Machine.heap,
      Thread.targets]
    split
    · exact .refl
    · generalize m.threads.getD r default = t
      have hmarks := ((markValue_marks k t.entry).trans (markFailure_marks _ t.failure)).trans
        (markStack_marks _ t.stack t.top t.frames t.openCells)
      refine { hmarks with reached := fun t ht => hmarks.reached t ?_ }
      simp only [List.mem_append] at ht ⊢
      rcases ht with (((ht | ht) | ht) | ht) | ht
      · exact .inl (.inl ht)
      · exact .inr (.inl (.inl ht))
      · exact .inr (.inr ht)
      · exact .inr (.inl (.inr ht))
      · exact .inl (.inr ht)

/-! ### Rounds -/

/-- What was marked waits, or what it leads to is marked as well. -/
def Settled (m : Machine) (k : Marking) : Prop :=
  ∀ t, k.has t → (∃ p ∈ k.fresh, p.target = t) ∨ ∀ t' ∈ targetsFrom m t, k.has t'

/-- What is marked further waits. -/
theorem Settled.marks {m : Machine} {k k' : Marking} {ts : List Target} (h : k.Settled m)
    (marks : Marks k k' ts) : k'.Settled m := by
  intro t ht
  rcases marks.fresh t ht with hold | hnew
  · rcases h t hold with ⟨p, hp, heq⟩ | hdone
    · exact .inl ⟨p, marks.waits p hp, heq⟩
    · exact .inr fun t' ht' => marks.grows t' (hdone t' ht')
  · exact .inl hnew

/-- When nothing waits, all that was marked leads to marked places only. -/
theorem Settled.done {m : Machine} {k : Marking} (h : k.Settled m) (hempty : k.fresh.size = 0) :
    ∀ t, k.has t → ∀ t' ∈ targetsFrom m t, k.has t' := by
  intro t ht
  rcases h t ht with ⟨p, hp, -⟩ | hdone
  · rw [Array.size_eq_zero_iff.mp hempty] at hp
    exact absurd hp (Array.not_mem_empty p)
  · exact hdone

/-- A round reaches what those lead to that waited before it. -/
theorem Settled.round {m : Machine} {k k' : Marking} (h : k.Settled m)
    (marks : Marks { k with fresh := #[] } k' (k.fresh.toList.flatMap (targetsFrom m ·.target))) :
    k'.Settled m := by
  intro t ht
  rcases marks.fresh t ht with hold | hnew
  · refine .inr fun t' ht' => ?_
    rcases h t hold with ⟨p, hp, rfl⟩ | hdone
    · exact marks.reached t' (List.mem_flatMap.mpr ⟨p, Array.mem_toList_iff.mpr hp, ht'⟩)
    · exact marks.grows t' (hdone t' ht')
  · exact .inl hnew

/-- In the end nothing waits. The number of rounds is no less than the places that are not marked or
wait, and each round takes those off that waited before it. -/
theorem close_settled {m : Machine} {k : Marking} (n : Nat) (h : k.Settled m) (hn : k.work ≤ n) :
    (∀ t, k.has t → (k.close true m n).has t) ∧
      ∀ t, (k.close true m n).has t → ∀ t' ∈ targetsFrom m t, (k.close true m n).has t' := by
  induction n generalizing k with
  | zero =>
    have hempty : k.fresh.size = 0 := by
      unfold work at hn
      omega
    exact ⟨fun _ ht => ht, h.done hempty⟩
  | succ n ih =>
    unfold close
    split
    · next hempty => exact ⟨fun _ ht => ht, h.done (Array.isEmpty_iff_size_eq_zero.mp hempty)⟩
    · next hfresh =>
      rw [Array.isEmpty_iff_size_eq_zero] at hfresh
      have marks := Marks.foldl_array (markContents_marks m) k.fresh { k with fresh := #[] }
      have hwork := marks.work
      obtain ⟨hgrows, hclosed⟩ := ih (h.round marks) (by
        simp only [work, Array.size_empty] at hwork hn ⊢
        omega)
      exact ⟨fun t ht => hgrows t (marks.grows t ht), hclosed⟩

end Marking

namespace Machine

open Marking

variable (m : Machine)

theorem untaken_of_unmarked {n r : Nat} (h : (Array.replicate n false).getD r true = true) :
    ¬r < n := by
  intro hlt
  rw [Array.getD_eq_getD_getElem?, Array.getElem?_replicate, if_pos hlt] at h
  exact absurd h Bool.false_ne_true

/-- Nothing is marked at the start but what is no place of the heap, and that leads nowhere. -/
theorem unmarked_settled {k : Marking} (htables : k.tables = Array.replicate m.tables.size false)
    (hcells : k.cells = Array.replicate m.cells.size false)
    (hthreads : k.threads = Array.replicate m.threads.size false) : k.Settled m := by
  have hnowhere {t : Target} (ht : ¬m.heap.Taken t) : ∀ t' ∈ targetsFrom m t, k.has t' := by
    have hnone := Heap.targetsAt_untaken ht
    intro t' ht'
    have hsub : t' ∈ m.heap.targetsAt t := mem_targetsFrom ht'
    rw [hnone] at hsub
    exact absurd hsub List.not_mem_nil
  intro t ht
  refine .inr ?_
  cases t with
  | table r =>
    rw [has, htables] at ht
    exact hnowhere (untaken_of_unmarked ht)
  | cell r =>
    rw [has, hcells] at ht
    exact hnowhere (untaken_of_unmarked ht)
  | thread r =>
    rw [has, hthreads] at ht
    exact hnowhere (untaken_of_unmarked ht)
  | iteration i => exact fun _ h => nomatch h
  | native f => exact fun _ h => nomatch h

/-- The table of the global names and the values in use elsewhere are marked, and so is what marked
places lead to. -/
theorem marking_closed :
    (∀ t ∈ .table m.globals :: targetsOf m.held, (m.marking true).has t) ∧
      ∀ t, (m.marking true).has t → ∀ t' ∈ targetsFrom m t, (m.marking true).has t' := by
  unfold marking
  extract_lets unmarked names held waiting roots
  have hnames : Marks unmarked names _ :=
    ((markTable_marks _ _).trans (markTable_marks _ _)).trans (markTable_marks _ _)
  have hheld : Marks (names.markThread m.thread) held (targetsOf m.held) :=
    .foldl_array markHeld_marks m.held _
  have hroots : Marks held roots _ :=
    (Marks.foldl markThread_marks m.waiting held).trans (markStack_marks _ _ _ _ _)
  have hmarks := (hnames.trans (markThread_marks names m.thread)).trans (hheld.trans hroots)
  have hwork : roots.work ≤ m.tables.size + m.cells.size + m.threads.size + 1 := by
    rw [hmarks.work]
    simp only [unmarked, work, Array.count_replicate_self, Array.size_empty]
    omega
  have hsettled : roots.Settled m := (m.unmarked_settled rfl rfl rfl).marks hmarks
  obtain ⟨hgrows, hclosed⟩ := close_settled _ hsettled hwork
  have hglobals : roots.has (.table m.globals) :=
    hroots.grows _ (hheld.grows _ ((markThread_marks names m.thread).grows _
      (hnames.reached _ List.mem_cons_self)))
  refine ⟨List.forall_mem_cons.mpr ⟨hgrows _ hglobals, fun t ht => ?_⟩, hclosed⟩
  exact hgrows t (hroots.grows t (hheld.reached t ht))

/-- What can be reached from values in use elsewhere is marked. -/
theorem marking_reaches {barred : Target → Prop} (hrunning : barred (.thread m.thread)) {t : Target}
    (way : m.heap.ReachesAround barred (targetsOf m.held) t) : (m.marking true).has t := by
  obtain ⟨hheld, hclosed⟩ := m.marking_closed
  induction way with
  | start ht => exact hheld _ (List.mem_cons_of_mem _ ht)
  | @step t t' way ht _ ih =>
    refine hclosed t ih t' ?_
    cases t with
    | thread r =>
      have hne : r ≠ m.thread := fun heq => way.free (heq ▸ hrunning)
      rw [targetsFrom, if_neg (by rwa [beq_iff_eq])]
      exact ht
    | _ => exact ht

end Machine

end PixelHost.Lua
