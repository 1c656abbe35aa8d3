import PixelHost.Proofs.Lua.Realm

/-!
# Sequences and tables in a realm

Whatever is done to a table with keys and values of a realm, its contents stay in the realm, and
what is read from it lies there.

## Main results

* `Lua.Realm.contents.get`, `Lua.Realm.contents.set` — reading and writing a table.
* `Lua.Realm.contents.next?` — the steps of an iteration.
-/

namespace PixelHost.Lua

variable {ρ : Realm}

/-- What each round of a loop preserves holds at its end. -/
theorem fold_invariant {α : Type} {P : α → Prop} {start : α} (n : Nat)
    (f : (i : Nat) → i < n → α → α) (hstart : P start)
    (hf : ∀ i h a, P a → P (f i h a)) : P (Nat.fold n f start) := by
  induction n with
  | zero => exact hstart
  | succ n ih =>
    rw [Nat.fold_succ]
    exact hf _ _ _ (ih _ fun i h a => hf i (by omega) a)

namespace Realm

/-! ### Sequences -/

namespace values

variable {vs ws : Array Value} {v w : Value}

theorem empty : ρ.values #[] := fun _ h => nomatch h

theorem one (hv : ρ.value v) : ρ.values #[v] := by
  simpa only [values, List.mem_toArray, List.mem_singleton, forall_eq] using hv

theorem two (hv : ρ.value v) (hw : ρ.value w) : ρ.values #[v, w] := by
  intro u hu
  simp only [List.mem_toArray, List.mem_cons, List.not_mem_nil, or_false] at hu
  rcases hu with rfl | rfl
  · exact hv
  · exact hw

theorem three {u : Value} (hu : ρ.value u) (hv : ρ.value v) (hw : ρ.value w) :
    ρ.values #[u, v, w] := by
  intro x hx
  simp only [List.mem_toArray, List.mem_cons, List.not_mem_nil, or_false] at hx
  rcases hx with rfl | rfl | rfl
  · exact hu
  · exact hv
  · exact hw

/-- An entry, or nothing beyond the end. -/
theorem getD (h : ρ.values vs) (i : Nat) : ρ.value (vs.getD i .nil) := by
  rw [Array.getD_eq_getD_getElem?]
  cases hi : vs[i]? with
  | none => exact trivial
  | some v => exact h v (Array.mem_of_getElem? hi)

theorem getElem? {i : Nat} (h : ρ.values vs) (hi : vs[i]? = some v) : ρ.value v :=
  h v (Array.mem_of_getElem? hi)

theorem push (h : ρ.values vs) (hv : ρ.value v) : ρ.values (vs.push v) := by
  intro u hu
  rcases Array.mem_push.mp hu with hu | rfl
  · exact h u hu
  · exact hv

theorem append (hvs : ρ.values vs) (hws : ρ.values ws) : ρ.values (vs ++ ws) := by
  intro u hu
  rcases Array.mem_append.mp hu with hu | hu
  · exact hvs u hu
  · exact hws u hu

theorem extract (h : ρ.values vs) (i j : Nat) : ρ.values (vs.extract i j) := by
  intro u hu
  obtain ⟨k, hk, rfl⟩ := Array.mem_iff_getElem.mp hu
  rw [Array.getElem_extract]
  exact h _ (Array.getElem_mem _)

theorem replicate (n : Nat) : ρ.values (Array.replicate n .nil) := by
  intro u hu
  rw [Array.eq_of_mem_replicate hu]
  exact trivial

theorem set (h : ρ.values vs) (i : Nat) (hv : ρ.value v) : ρ.values (vs.setIfInBounds i v) := by
  intro u hu
  rcases Array.mem_or_eq_of_mem_setIfInBounds hu with hu | rfl
  · exact h u hu
  · exact hv

end values

theorem value_nil : ρ.value .nil := trivial

theorem value_bool (b : Bool) : ρ.value (.bool b) := trivial

theorem value_int (n : Int64) : ρ.value (.int n) := trivial

theorem value_num (x : Float) : ρ.value (.num x) := trivial

theorem value_str (s : Bytes) : ρ.value (.str s) := trivial

/-- What a literal stands for holds no place. -/
theorem value_ofLiteral (l : Literal) : ρ.value (.ofLiteral l) := by
  cases l <;> exact trivial

theorem value_ofNumeral (n : Numeral) : ρ.value (.ofNumeral n) := by
  cases n <;> exact trivial

theorem value_normalKey {k : Value} (hk : ρ.value k) : ρ.value k.normalKey := by
  cases k with
  | num x =>
    rw [Value.normalKey]
    split <;> exact trivial
  | _ => exact hk

/-! ### Tables -/

namespace contents

open Table

variable {t : Table} {k v : Value}

theorem empty : ρ.contents {} where
  array := .empty
  keys := .empty
  values := .empty
  metatable := fun _ h => nomatch h

theorem inSlot (h : ρ.contents t) (k : Value) : ρ.value (t.inSlot k) := by
  unfold Table.inSlot
  split
  · exact h.values.getD _
  · exact trivial

theorem getInt (h : ρ.contents t) (n : Int64) : ρ.value (t.getInt n) := by
  unfold Table.getInt
  extract_lets i
  by_cases hi : i.toNat < t.array.size
  · rw [if_pos hi]
    exact h.array.getD _
  · rw [if_neg hi]
    exact h.inSlot _

theorem get (h : ρ.contents t) (k : Value) : ρ.value (t.get k) := by
  unfold Table.get
  split
  · exact trivial
  · exact h.getInt _
  · split
    · exact h.getInt _
    · exact h.inSlot _
  · exact h.inSlot _

theorem getStr (h : ρ.contents t) (k : Bytes) : ρ.value (t.getStr k) := h.inSlot _

/-- The parts of a table that may change without touching what it holds. -/
theorem withCapacity (h : ρ.contents t) (n : Nat) : ρ.contents { t with capacity := n } :=
  ⟨h.array, h.keys, h.values, h.metatable⟩

theorem pushSlot (h : ρ.contents t) (hk : ρ.value k) (hv : ρ.value v) :
    ρ.contents (t.pushSlot k v) :=
  ⟨h.array, h.keys.push hk, h.values.push hv, h.metatable⟩

theorem withArray (h : ρ.contents t) {array : Array Value} (harray : ρ.values array) :
    ρ.contents { t with array } :=
  ⟨harray, h.keys, h.values, h.metatable⟩

theorem place (h : ρ.contents t) (hk : ρ.value k) (hv : ρ.value v) : ρ.contents (t.place k v) := by
  unfold Table.place
  split
  · simp only []
    split
    · exact h.withArray (h.array.set _ hv)
    · exact h.pushSlot hk hv
  · exact h.pushSlot hk hv

/-- The slots in use hold keys and values of the table. -/
theorem liveSlots (h : ρ.contents t) : ∀ p ∈ t.liveSlots, ρ.value p.1 ∧ ρ.value p.2 := by
  intro p hp
  rw [Table.liveSlots, Array.mem_filter] at hp
  obtain ⟨i, hi, heq⟩ := Array.mem_iff_getElem.mp hp.1
  rw [Array.getElem_zip] at heq
  cases heq
  exact ⟨h.keys _ (Array.getElem_mem _), h.values _ (Array.getElem_mem _)⟩

theorem resize (h : ρ.contents t) (arraySize slots : Nat) :
    ρ.contents (t.resize arraySize slots) := by
  unfold Table.resize
  simp only []
  have harray : ρ.values (if arraySize ≤ t.array.size then t.array.extract 0 arraySize
      else t.array ++ Array.replicate (arraySize - t.array.size) Value.nil) := by
    split
    · exact h.array.extract _ _
    · exact h.array.append (.replicate _)
  -- The entries that leave the array come into slots, then those of the old slots follow.
  refine Array.foldl_induction (fun _ t => ρ.contents t) ?_ ?_
  · refine fold_invariant _ _ ⟨harray, .empty, .empty, h.metatable⟩ fun i _ t ht => ?_
    split
    · exact ht
    · exact ht.pushSlot trivial (h.array.getD _)
  · intro i t ht
    have hlive := h.liveSlots _ (Array.getElem_mem i.isLt)
    exact ht.place hlive.1 hlive.2

theorem rehash (h : ρ.contents t) (extra : Value) : ρ.contents (t.rehash extra) := h.resize _ _

theorem growArray (h : ρ.contents t) (arraySize : Nat) : ρ.contents (t.growArray arraySize) := by
  unfold Table.growArray
  split
  · exact h
  · exact (h.resize _ _).withCapacity _

theorem setInSlots (h : ρ.contents t) (hk : ρ.value k) (hv : ρ.value v) :
    ρ.contents (match t.index[k]? with
      | some i => { t with values := t.values.setIfInBounds i v }
      | none =>
        if v.isNil then t
        else if t.keys.size < t.capacity then t.pushSlot k v
        else (t.rehash k).place k v) := by
  split
  · exact ⟨h.array, h.keys, h.values.set _ hv, h.metatable⟩
  · split
    · exact h
    · split
      · exact h.pushSlot hk hv
      · exact (h.rehash k).place hk hv

theorem setNormal (h : ρ.contents t) (hk : ρ.value k) (hv : ρ.value v) :
    ρ.contents (t.setNormal k v) := by
  unfold Table.setNormal
  simp only []
  split
  · split
    · exact h.withArray (h.array.set _ hv)
    · exact h.setInSlots hk hv
  · exact h.setInSlots hk hv

/-- A value is written at a key. -/
theorem set (h : ρ.contents t) (hk : ρ.value k) (hv : ρ.value v) : ρ.contents (t.set k v) :=
  h.setNormal (value_normalKey hk) hv

theorem setStr (h : ρ.contents t) (k : String) (hv : ρ.value v) : ρ.contents (t.setStr k v) :=
  h.set trivial hv

theorem setSequence (h : ρ.contents t) (offset : Nat) {vs : Array Value} (hvs : ρ.values vs) :
    ρ.contents (t.setSequence offset vs) :=
  fold_invariant _ _ h fun _ _ _ ht => ht.set trivial (hvs _ (Array.getElem_mem _))

theorem withRoom (arraySize slots : Nat) : ρ.contents (.withRoom arraySize slots) :=
  ⟨.replicate _, .empty, .empty, fun _ h => nomatch h⟩

theorem ofSequence {vs : Array Value} (hvs : ρ.values vs) : ρ.contents (.ofSequence vs) :=
  ⟨hvs, .empty, .empty, fun _ h => nomatch h⟩

/-! ### Iteration -/

theorem nextSlot? (h : ρ.contents t) (i : Nat) :
    ∀ p ∈ t.nextSlot? i, ρ.value p.1 ∧ ρ.value p.2 := by
  fun_induction t.nextSlot? i with
  | case1 i hi v hv ih => exact ih
  | case2 i hi v hv =>
    rintro _ ⟨⟩
    exact ⟨h.keys _ (Array.getElem_mem _), h.values.getD _⟩
  | case3 i hi => exact fun _ hp => nomatch hp

theorem nextEntry? (h : ρ.contents t) (i : Nat) :
    ∀ p ∈ t.nextEntry? i, ρ.value p.1 ∧ ρ.value p.2 := by
  fun_induction t.nextEntry? i with
  | case1 i hi hv ih => exact ih
  | case2 i hi hv =>
    rintro _ ⟨⟩
    exact ⟨trivial, h.array _ (Array.getElem_mem _)⟩
  | case3 i hi => exact h.nextSlot? 0

/-- The entry after a key. -/
theorem next? (h : ρ.contents t) {entry : Option (Value × Value)}
    (hentry : t.next? k = .ok entry) : ∀ p ∈ entry, ρ.value p.1 ∧ ρ.value p.2 := by
  unfold Table.next? at hentry
  split at hentry
  · cases hentry
    exact h.nextEntry? _
  · simp only [] at hentry
    split at hentry
    · cases hentry
      exact h.nextEntry? _
    · split at hentry <;> cases hentry
      exact h.nextSlot? _
  · split at hentry <;> cases hentry
    exact h.nextSlot? _

theorem entries (h : ρ.contents t) : ∀ p ∈ t.entries, ρ.value p.1 ∧ ρ.value p.2 := by
  intro p hp
  rw [Table.entries, List.mem_append, List.mem_filterMap] at hp
  rcases hp with ⟨i, -, hi⟩ | hp
  · simp only [] at hi
    split at hi <;> cases hi
    exact ⟨trivial, h.array.getD _⟩
  · exact h.liveSlots p (Array.mem_toList_iff.mp hp)

end contents

/-! ### Coroutines -/

theorem frames_nil : ρ.frames [] := fun _ h => nomatch h

theorem coroutine.empty : ρ.coroutine {} where
  entry := trivial
  stack := .empty
  frames := frames_nil
  openCells := fun _ h => nomatch h
  failure := fun _ h => nomatch h

end Realm

end PixelHost.Lua
