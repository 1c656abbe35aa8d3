import PixelHost.Proofs.Lua.Contents

/-!
# Names in tables

A table of names files each of them in a slot of its own. So an assignment gives a name its value and
leaves the values of all other names alone, whether there was room for the name or the table had to
be laid out again.

## Main definitions

* `Lua.Table.Named` — the keys of a table are names with slots of their own.
* `Lua.Table.Has` — a table holds what was assigned to its names.

## Main results

* `Lua.Table.Named.inSlot_set` — the value of a name after an assignment.
* `Lua.Table.Named.contents` — what a table of names holds are the values of the names.
* `Lua.Table.Has.ofFields` — the table of named values.
-/

namespace PixelHost.Lua

/-! ### Keys -/

/-- What a table files a value under. -/
inductive Key where
  | nil
  | bool (b : Bool)
  | int (n : Int64)
  | num (bits : UInt64)
  | str (s : Bytes)
  | table (r : TableRef)
  | closure (id : Nat)
  | native (f : Native)
  | thread (r : ThreadRef)
  | failure (id : Nat)
  | file (name : String)

namespace Value

/-- What a table files a value under. -/
def key : Value → Key
  | .nil => .nil
  | .bool b => .bool b
  | .int n => .int n
  | .num x => .num x.toBits
  | .str s => .str s
  | .table r => .table r
  | .closure f => .closure f.id
  | .native f => .native f
  | .thread r => .thread r
  | .failure id _ => .failure id
  | .file name => .file name

theorem beq_bytes {s s' : Bytes} : (s == s') = true ↔ s = s' := by
  change (s.data == s'.data) = true ↔ _
  rw [beq_iff_eq, ByteArray.ext_iff]

theorem beq_iff {v w : Value} : (v == w) = true ↔ v.key = w.key := by
  change sameKey v w = true ↔ _
  cases v <;> cases w <;> simp [sameKey, key, beq_bytes]

instance : EquivBEq Value where
  rfl := beq_iff.mpr rfl
  symm h := beq_iff.mpr (beq_iff.mp h).symm
  trans h h' := beq_iff.mpr ((beq_iff.mp h).trans (beq_iff.mp h'))

/-- A string is the same key as no other value. -/
theorem beq_str {v : Value} {s : Bytes} : (v == .str s) = true ↔ v = .str s := by
  rw [beq_iff]
  cases v <;> simp [key]

theorem hash_of_key {v w : Value} (h : v.key = w.key) : hash v = hash w := by
  change hashKey v = hashKey w
  cases v <;> cases w <;> simp_all [key, hashKey]

instance : LawfulHashable Value where
  hash_eq _ _ h := hash_of_key (beq_iff.mp h)

theorem eq_nil_of_isNil {v : Value} (h : v.isNil = true) : v = .nil := by
  cases v <;> first | rfl | cases h

end Value

namespace Table

/-- The keys of a table are names, and its index leads to the slot of each. Nothing is in the array. -/
structure Named (t : Table) : Prop where
  size : t.values.size = t.keys.size
  slot : ∀ s (i : Nat), t.index[Value.str s]? = some i ↔ t.keys[i]? = some (Value.str s)
  names : ∀ k ∈ t.keys, ∃ s, k = Value.str s
  array : ∀ v ∈ t.array, v = Value.nil

variable {t : Table} {s s' : Bytes} {v : Value}

/-! ### Reading -/

/-- A name has the value that is in its slot. -/
theorem Named.inSlot (named : t.Named) {i : Nat} (hkey : t.keys[i]? = some (.str s))
    (hvalue : t.values[i]? = some v) : t.inSlot (.str s) = v := by
  rw [Table.inSlot, (named.slot s i).mpr hkey]
  simp only [Array.getD_eq_getD_getElem?, hvalue, Option.getD_some]

/-- A name that is no key has no value. -/
theorem Named.inSlot_absent (named : t.Named) (h : Value.str s ∉ t.keys) :
    t.inSlot (.str s) = .nil := by
  rw [Table.inSlot]
  cases hindex : t.index[Value.str s]? with
  | none => rfl
  | some i => exact absurd (Array.mem_of_getElem? ((named.slot s i).mp hindex)) h

/-- A name has one slot only. -/
theorem Named.slot_unique (named : t.Named) {i j : Nat} (hi : t.keys[i]? = some (.str s))
    (hj : t.keys[j]? = some (.str s)) : i = j :=
  Option.some.inj (((named.slot s i).mpr hi).symm.trans ((named.slot s j).mpr hj))

/-- Each slot holds the value of a name. -/
theorem Named.slot_value (named : t.Named) {i : Nat} (hi : i < t.keys.size) :
    ∃ s, t.keys[i]? = some (.str s) ∧ t.values[i]? = some (t.inSlot (.str s)) := by
  obtain ⟨s, hs⟩ := named.names _ (Array.getElem_mem hi)
  have hkey : t.keys[i]? = some (.str s) := by rw [Array.getElem?_eq_getElem hi, hs]
  have hi' : i < t.values.size := by rwa [named.size]
  have hvalue : t.values[i]? = some t.values[i] := Array.getElem?_eq_getElem hi'
  exact ⟨s, hkey, by rw [hvalue, named.inSlot hkey hvalue]⟩

/-- What a table of names holds are the values of the names. -/
theorem Named.contents {ρ : Realm} (named : t.Named) (hvalues : ∀ s, ρ.value (t.inSlot (.str s)))
    (hmetatable : ∀ mt ∈ t.metatable, ρ.table mt) : ρ.contents t where
  array := by
    intro v hv
    rw [named.array v hv]
    trivial
  keys := by
    intro k hk
    obtain ⟨s, rfl⟩ := named.names k hk
    trivial
  values := by
    intro v hv
    obtain ⟨i, hi, rfl⟩ := Array.mem_iff_getElem.mp hv
    obtain ⟨s, -, hvalue⟩ := named.slot_value (named.size ▸ hi)
    rw [Array.getElem?_eq_getElem hi, Option.some_inj] at hvalue
    rw [hvalue]
    exact hvalues s
  metatable := hmetatable

theorem Named.getD_array (named : t.Named) (i : Nat) : t.array.getD i .nil = .nil := by
  rw [Array.getD_eq_getD_getElem?]
  cases hget : t.array[i]? with
  | none => rfl
  | some v => exact named.array v (Array.mem_of_getElem? hget)

/-- The entries of a table of names are names with their values. -/
theorem Named.entries (named : t.Named) :
    ∀ p ∈ t.entries, ∃ s, p = (Value.str s, t.inSlot (.str s)) := by
  intro p hp
  rcases List.mem_append.mp hp with hp | hp
  · obtain ⟨i, -, hi⟩ := List.mem_filterMap.mp hp
    rw [named.getD_array] at hi
    cases hi
  · obtain ⟨i, hi, rfl⟩ := Array.mem_iff_getElem.mp
      (Array.mem_filter.mp (Array.mem_toList_iff.mp hp)).1
    rw [Array.size_zip] at hi
    obtain ⟨s, hkey, hvalue⟩ := named.slot_value (i := i) (by omega)
    obtain ⟨_, hkey⟩ := Array.getElem?_eq_some_iff.mp hkey
    obtain ⟨_, hvalue⟩ := Array.getElem?_eq_some_iff.mp hvalue
    exact ⟨s, by rw [Array.getElem_zip, hkey, hvalue]⟩

/-! ### Slots -/

/-- A table without slots. -/
theorem Named.empty {capacity : Nat} {metatable : Option TableRef} {array : Array Value}
    (harray : ∀ v ∈ array, v = .nil) : ({ array, capacity, metatable } : Table).Named where
  size := rfl
  slot s i := by simp only [Std.HashMap.getElem?_empty, Array.getElem?_empty, reduceCtorEq]
  names := fun _ h => absurd h (Array.not_mem_empty _)
  array := harray

/-- A new name is given a slot. -/
theorem Named.pushSlot (named : t.Named) (hs : Value.str s ∉ t.keys) (v : Value) :
    (t.pushSlot (.str s) v).Named where
  size := by simp only [Table.pushSlot, Array.size_push, named.size]
  slot s' i := by
    have hold := named.slot s' i
    simp only [Table.pushSlot, Std.HashMap.getElem?_insert, Array.getElem?_push, Value.beq_str,
      Value.str.injEq]
    by_cases hname : s = s'
    · subst hname
      rw [if_pos rfl, Option.some_inj]
      by_cases hi : i = t.keys.size
      · rw [if_pos hi]
        exact iff_of_true hi.symm rfl
      · rw [if_neg hi]
        exact iff_of_false (Ne.symm hi) fun h => hs (Array.mem_of_getElem? h)
    · rw [if_neg hname, hold]
      by_cases hi : i = t.keys.size
      · subst hi
        rw [if_pos rfl, Array.getElem?_eq_none (Nat.le_refl _)]
        exact iff_of_false nofun fun h => hname (Value.str.inj (Option.some.inj h))
      · rw [if_neg hi]
  names k hk := by
    rcases Array.mem_push.mp hk with hk | rfl
    · exact named.names k hk
    · exact ⟨s, rfl⟩
  array := named.array

theorem Named.inSlot_pushSlot (named : t.Named) (s : Bytes) (v : Value) (s' : Bytes) :
    (t.pushSlot (.str s) v).inSlot (.str s') = if s' = s then v else t.inSlot (.str s') := by
  simp only [Table.inSlot, Table.pushSlot, Std.HashMap.getElem?_insert, Value.beq_str,
    Value.str.injEq]
  by_cases hname : s' = s
  · subst hname
    rw [if_pos rfl, if_pos rfl, ← named.size]
    simp only [Array.getD_eq_getD_getElem?, Array.getElem?_push_size, Option.getD_some]
  · rw [if_neg (Ne.symm hname), if_neg hname]
    cases hindex : t.index[Value.str s']? with
    | none => rfl
    | some i =>
      have hi := (Array.getElem?_eq_some_iff.mp ((named.slot s' i).mp hindex)).1
      have hne : i ≠ t.values.size := Nat.ne_of_lt (named.size ▸ hi)
      simp only [Array.getD_eq_getD_getElem?, Array.getElem?_push, if_neg hne]

/-! ### Laying out -/

/-- The values of a list are put in slots of their own. -/
def pushAll (t : Table) (entries : List (Value × Value)) : Table :=
  entries.foldl (fun t (k, v) => t.pushSlot k v) t

/-- A list gives values to names, to each at most one. -/
structure Lists (entries : List (Value × Value)) : Prop where
  names : ∀ p ∈ entries, ∃ s, p.1 = Value.str s
  distinct : (entries.map Prod.fst).Nodup

/-- A table has the values of a list, and all that another one has besides. -/
structure Extends (t : Table) (entries : List (Value × Value)) (t' : Table) : Prop where
  named : t'.Named
  metatable : t'.metatable = t.metatable
  keys : ∀ k ∈ t'.keys, k ∈ t.keys ∨ k ∈ entries.map Prod.fst
  listed : ∀ s v, (Value.str s, v) ∈ entries → t'.inSlot (.str s) = v
  others : ∀ s, Value.str s ∉ entries.map Prod.fst → t'.inSlot (.str s) = t.inSlot (.str s)

/-- New names are given slots. By induction on their list. -/
theorem Named.pushAll {entries : List (Value × Value)} (lists : Lists entries) (named : t.Named)
    (hnew : ∀ p ∈ entries, p.1 ∉ t.keys) : Extends t entries (t.pushAll entries) := by
  induction entries generalizing t with
  | nil => exact {
      named
      metatable := rfl
      keys := fun _ => .inl
      listed := fun _ _ h => nomatch h
      others := fun _ _ => rfl }
  | cons p entries ih =>
    obtain ⟨k, w⟩ := p
    obtain ⟨s, rfl⟩ : ∃ s, k = Value.str s := lists.names _ List.mem_cons_self
    obtain ⟨hs, hdistinct⟩ := List.nodup_cons.mp lists.distinct
    have hslot : Value.str s ∉ t.keys := hnew _ List.mem_cons_self
    have hrest : ∀ p ∈ entries, p.1 ∉ (t.pushSlot (.str s) w).keys := by
      intro p hp hin
      rcases Array.mem_push.mp hin with hin | hin
      · exact hnew p (List.mem_cons_of_mem _ hp) hin
      · exact hs (List.mem_map.mpr ⟨p, hp, hin⟩)
    have hext := ih ⟨fun p hp => lists.names p (List.mem_cons_of_mem _ hp), hdistinct⟩
      (named.pushSlot hslot w) hrest
    refine ⟨hext.named, hext.metatable, fun k hk => ?_, fun s' v hin => ?_, fun s' hout => ?_⟩
    · rcases hext.keys k hk with hk | hk
      · rcases Array.mem_push.mp hk with hk | rfl
        · exact .inl hk
        · exact .inr List.mem_cons_self
      · exact .inr (List.mem_cons_of_mem _ hk)
    · rcases List.mem_cons.mp hin with heq | hin
      · cases heq
        exact (hext.others s hs).trans ((named.inSlot_pushSlot s w s).trans (if_pos rfl))
      · exact hext.listed s' v hin
    · rw [List.map_cons, List.mem_cons, not_or] at hout
      have hne : s' ≠ s := fun h => hout.1 (congrArg Value.str h)
      exact (hext.others s' hout.2).trans ((named.inSlot_pushSlot s w s').trans (if_neg hne))

/-- The slots in use list the names that have a value. -/
theorem Named.liveSlots (named : t.Named) : Lists t.liveSlots.toList ∧
    ∀ p ∈ t.liveSlots.toList, p.1 ∈ t.keys ∧ ∃ s, p = (Value.str s, t.inSlot (.str s)) := by
  have hlist : t.liveSlots.toList =
      (t.keys.toList.zip t.values.toList).filter fun p => !p.2.isNil := by
    rw [Table.liveSlots, Array.toList_filter, Array.toList_zip]
  have hslots : ∀ p ∈ t.liveSlots.toList,
      p.1 ∈ t.keys ∧ ∃ s, p = (Value.str s, t.inSlot (.str s)) := by
    intro p hp
    refine ⟨?_, named.entries p (List.mem_append_right _ hp)⟩
    rw [hlist] at hp
    exact Array.mem_toList_iff.mp (List.of_mem_zip (List.mem_filter.mp hp).1).1
  refine ⟨⟨fun p hp => ?_, ?_⟩, hslots⟩
  · obtain ⟨-, s, rfl⟩ := hslots p hp
    exact ⟨s, rfl⟩
  · have hkeys : t.keys.toList.Nodup := by
      refine List.pairwise_iff_getElem.mpr fun i j hi hj hij heq => ?_
      obtain ⟨s, hs⟩ := named.names _ (Array.getElem_mem (show i < t.keys.size from hi))
      simp only [Array.getElem_toList] at heq
      exact Nat.ne_of_lt hij <| named.slot_unique
        (Array.getElem?_eq_some_iff.mpr ⟨hi, hs⟩) (Array.getElem?_eq_some_iff.mpr ⟨hj, heq ▸ hs⟩)
    have hzip : (t.keys.toList.zip t.values.toList).map Prod.fst = t.keys.toList :=
      List.map_fst_zip (by simp only [Array.length_toList, named.size, Nat.le_refl])
    rw [← hzip] at hkeys
    rw [hlist]
    exact (List.filter_sublist.map Prod.fst).nodup hkeys

/-- A name that has a value is listed with it. -/
theorem Named.mem_liveSlots (named : t.Named) (h : (t.inSlot (.str s)).isNil = false) :
    (Value.str s, t.inSlot (.str s)) ∈ t.liveSlots.toList := by
  have hin : Value.str s ∈ t.keys := by
    refine Classical.not_not.mp fun hout => ?_
    rw [named.inSlot_absent hout] at h
    cases h
  obtain ⟨i, hi, hkey⟩ := Array.mem_iff_getElem.mp hin
  have hi' : i < t.values.size := by rwa [named.size]
  have hvalue : t.values[i]? = some t.values[i] := Array.getElem?_eq_getElem hi'
  have hslot := named.inSlot (Array.getElem?_eq_some_iff.mpr ⟨hi, hkey⟩) hvalue
  rw [Array.mem_toList_iff, Table.liveSlots, Array.mem_filter]
  refine ⟨Array.mem_iff_getElem.mpr ⟨i, ?_, ?_⟩, ?_⟩
  · rw [Array.size_zip, named.size]
    omega
  · rw [Array.getElem_zip, hkey, hslot]
  · simp only [h, Bool.not_false]

/-- A table holds the names of another one, with the same values. -/
structure Relaid (t t' : Table) : Prop where
  named : t'.Named
  inSlot : ∀ s, t'.inSlot (.str s) = t.inSlot (.str s)
  keys : ∀ k ∈ t'.keys, k ∈ t.keys
  metatable : t'.metatable = t.metatable

/-- Nothing of the array of a table of names is left to be put in slots. -/
theorem Named.spill_eq (named : t.Named) (arraySize n : Nat) (start : Table) :
    (Nat.fold n (fun i _ (start : Table) =>
      let v := t.array.getD (arraySize + i) .nil
      if v.isNil then start else start.pushSlot (.ofNat (arraySize + i + 1)) v) start) = start := by
  induction n with
  | zero => rfl
  | succ n ih =>
    have hnil : (t.array.getD (arraySize + n) .nil).isNil = true := by
      rw [named.getD_array]
      rfl
    rw [Nat.fold_succ, ih]
    exact if_pos hnil

/-- Names are placed in slots. -/
theorem foldl_place {entries : List (Value × Value)} (hnames : ∀ p ∈ entries, ∃ s, p.1 = Value.str s)
    (start : Table) :
    entries.foldl (fun t (k, v) => t.place k v) start = start.pushAll entries := by
  induction entries generalizing start with
  | nil => rfl
  | cons p entries ih =>
    obtain ⟨k, v⟩ := p
    obtain ⟨s, rfl⟩ : ∃ s, k = Value.str s := hnames _ List.mem_cons_self
    exact ih (fun p hp => hnames p (List.mem_cons_of_mem _ hp)) _

/-- The table that the slots in use are put in when a table is laid out again. -/
theorem Named.resize_eq (named : t.Named) (arraySize slots : Nat) :
    ∃ array, (∀ v ∈ array, v = Value.nil) ∧ array.size = arraySize ∧ t.resize arraySize slots =
      Table.pushAll { array, capacity := slotsFor slots, metatable := t.metatable }
        t.liveSlots.toList := by
  let array := if arraySize ≤ t.array.size then t.array.extract 0 arraySize
    else t.array ++ Array.replicate (arraySize - t.array.size) Value.nil
  refine ⟨array, fun v hv => ?_, ?_, ?_⟩
  · simp only [array] at hv
    split at hv
    · obtain ⟨i, hi, rfl⟩ := Array.mem_iff_getElem.mp hv
      rw [Array.getElem_extract]
      exact named.array _ (Array.getElem_mem _)
    · rcases Array.mem_append.mp hv with hv | hv
      · exact named.array v hv
      · exact (Array.mem_replicate.mp hv).2
  · simp only [array]
    split
    · rw [Array.size_extract]
      omega
    · rw [Array.size_append, Array.size_replicate]
      omega
  · unfold Table.resize
    extract_lets old _ live start spilled
    have hstart : spilled = start := named.spill_eq arraySize (old.size - arraySize) start
    rw [hstart, ← Array.foldl_toList]
    exact foldl_place named.liveSlots.1.names start

/-- A table is laid out again. -/
theorem Named.resize (named : t.Named) (arraySize slots : Nat) :
    Relaid t (t.resize arraySize slots) := by
  obtain ⟨array, harray, -, heq⟩ := named.resize_eq arraySize slots
  have hempty : Named { array, capacity := slotsFor slots, metatable := t.metatable } :=
    .empty harray
  obtain ⟨hlists, hlive⟩ := named.liveSlots
  have hext := hempty.pushAll hlists fun _ _ => Array.not_mem_empty _
  rw [heq]
  refine ⟨hext.named, fun s => ?_, fun k hk => ?_, hext.metatable⟩
  · cases hnil : (t.inSlot (.str s)).isNil with
    | false => exact hext.listed s _ (named.mem_liveSlots hnil)
    | true =>
      rw [Value.eq_nil_of_isNil hnil]
      refine (hext.others s fun hin => ?_).trans (hempty.inSlot_absent (Array.not_mem_empty _))
      obtain ⟨p, hp, hname⟩ := List.mem_map.mp hin
      obtain ⟨-, s', rfl⟩ := hlive p hp
      cases hname
      have hused := (Array.mem_filter.mp (Array.mem_toList_iff.mp hp)).2
      simp only [hnil, Bool.not_true, Bool.false_eq_true] at hused
  · rcases hext.keys k hk with hk | hk
    · exact absurd hk (Array.not_mem_empty _)
    · obtain ⟨p, hp, rfl⟩ := List.mem_map.mp hk
      exact (hlive p hp).1

/-! ### Assignments -/

/-- A name is filed in the slots of a table. -/
theorem set_str (t : Table) (s : Bytes) (v : Value) :
    t.set (.str s) v = match t.index[Value.str s]? with
      | some i => { t with values := t.values.setIfInBounds i v }
      | none =>
        if v.isNil then t
        else if t.keys.size < t.capacity then t.pushSlot (.str s) v
        else (t.rehash (.str s)).pushSlot (.str s) v := rfl

/-- What the assignment of a name does: the name has a slot, or there is nothing to assign, or a slot
is taken, maybe after the table was laid out again. -/
theorem Named.set_cases (named : t.Named) (s : Bytes) (v : Value) :
    (∃ i : Nat, t.keys[i]? = some (Value.str s) ∧
        t.set (.str s) v = { t with values := t.values.setIfInBounds i v }) ∨
      (Value.str s ∉ t.keys ∧ v = .nil ∧ t.set (.str s) v = t) ∨
      ∃ t', Relaid t t' ∧ Value.str s ∉ t.keys ∧ t.set (.str s) v = t'.pushSlot (.str s) v := by
  rw [set_str]
  cases hindex : t.index[Value.str s]? with
  | some i => exact .inl ⟨i, (named.slot s i).mp hindex, rfl⟩
  | none =>
    have habsent : Value.str s ∉ t.keys := fun hin => by
      obtain ⟨i, hi, hkey⟩ := Array.mem_iff_getElem.mp hin
      have hslot := (named.slot s i).mpr (Array.getElem?_eq_some_iff.mpr ⟨hi, hkey⟩)
      rw [hindex] at hslot
      cases hslot
    refine .inr ?_
    cases hnil : v.isNil with
    | true => exact .inl ⟨habsent, Value.eq_nil_of_isNil hnil, rfl⟩
    | false =>
      refine .inr ?_
      by_cases hroom : t.keys.size < t.capacity
      · refine ⟨t, ⟨named, fun _ => rfl, fun _ h => h, rfl⟩, habsent, ?_⟩
        simp only [Bool.false_eq_true, if_false, if_pos hroom]
      · refine ⟨t.rehash (.str s), named.resize _ _, habsent, ?_⟩
        simp only [Bool.false_eq_true, if_false, if_neg hroom]

theorem Named.set (named : t.Named) (s : Bytes) (v : Value) : (t.set (.str s) v).Named := by
  obtain ⟨i, -, heq⟩ | ⟨-, -, heq⟩ | ⟨t', hrelaid, habsent, heq⟩ := named.set_cases s v
  · rw [heq]
    exact { named with size := by rw [Array.size_setIfInBounds, named.size] }
  · rw [heq]
    exact named
  · rw [heq]
    exact hrelaid.named.pushSlot (fun h => habsent (hrelaid.keys _ h)) v

/-- The value of a name after an assignment. -/
theorem Named.inSlot_set (named : t.Named) (s : Bytes) (v : Value) (s' : Bytes) :
    (t.set (.str s) v).inSlot (.str s') = if s' = s then v else t.inSlot (.str s') := by
  obtain ⟨i, hi, heq⟩ | ⟨habsent, rfl, heq⟩ | ⟨t', hrelaid, -, heq⟩ := named.set_cases s v
  · rw [heq]
    simp only [Table.inSlot, Array.getD_eq_getD_getElem?, Array.getElem?_setIfInBounds]
    by_cases hname : s' = s
    · subst hname
      have hlt : i < t.values.size := named.size ▸ (Array.getElem?_eq_some_iff.mp hi).1
      simp only [(named.slot s' i).mpr hi, if_true, if_pos hlt, Option.getD_some]
    · rw [if_neg hname]
      cases hindex : t.index[Value.str s']? with
      | none => rfl
      | some j =>
        have hij : i ≠ j := by
          rintro rfl
          have hsame := hi.symm.trans ((named.slot s' i).mp hindex)
          cases hsame
          exact hname rfl
        simp only [if_neg hij]
  · rw [heq]
    by_cases hname : s' = s
    · rw [if_pos hname, hname, named.inSlot_absent habsent]
    · rw [if_neg hname]
  · rw [heq, hrelaid.named.inSlot_pushSlot, hrelaid.inSlot]

/-- An assignment adds no other name than its own. -/
theorem Named.keys_set (named : t.Named) (s : Bytes) (v : Value) {s' : Bytes}
    (h : Value.str s' ∈ (t.set (.str s) v).keys) : Value.str s' ∈ t.keys ∨ s' = s := by
  obtain ⟨i, -, heq⟩ | ⟨-, -, heq⟩ | ⟨t', hrelaid, -, heq⟩ := named.set_cases s v
  · rw [heq] at h
    exact .inl h
  · rw [heq] at h
    exact .inl h
  · rw [heq] at h
    rcases Array.mem_push.mp h with h | h
    · exact .inl (hrelaid.keys _ h)
    · exact .inr (Value.str.inj h)

theorem Named.metatable_set (named : t.Named) (s : Bytes) (v : Value) :
    (t.set (.str s) v).metatable = t.metatable := by
  obtain ⟨i, -, heq⟩ | ⟨-, -, heq⟩ | ⟨t', hrelaid, -, heq⟩ := named.set_cases s v
  · rw [heq]
  · rw [heq]
  · rw [heq]
    exact hrelaid.metatable

/-! ### Sizes -/

/-- A table with room for so many names, and for not too many more. -/
structure Fits (t : Table) (n : Nat) : Prop where
  array : t.array = #[]
  keys : t.keys.size ≤ n
  capacity : t.capacity ≤ 2 * n

theorem Fits.mono {n n' : Nat} (fits : t.Fits n) (le : n ≤ n') : t.Fits n' where
  array := fits.array
  keys := Nat.le_trans fits.keys le
  capacity := Nat.le_trans fits.capacity (Nat.mul_le_mul_left 2 le)

/-- The memory of a table is bounded by the number of its names. -/
theorem Fits.bytes_le {n : Nat} (fits : t.Fits n) : t.bytes ≤ 56 + 48 * n := by
  have hcapacity := fits.capacity
  rw [Table.bytes, headerBytes, fits.array]
  simp only [Array.size_empty]
  omega

theorem slotsFor_le (n : Nat) : slotsFor n ≤ 2 * n := by
  rw [slotsFor, ceilLog2]
  split
  · omega
  · split
    · simp only [Nat.shiftLeft_zero]
      omega
    · have hlog : 2 ^ (n - 1).log2 ≤ n - 1 := Nat.log2_self_le (by omega)
      rw [Nat.one_shiftLeft, Nat.pow_succ]
      omega

theorem pushAll_parts (t : Table) (entries : List (Value × Value)) :
    (t.pushAll entries).array = t.array ∧ (t.pushAll entries).capacity = t.capacity ∧
      (t.pushAll entries).keys.size = t.keys.size + entries.length := by
  induction entries generalizing t with
  | nil => exact ⟨rfl, rfl, rfl⟩
  | cons p entries ih =>
    obtain ⟨harray, hcapacity, hkeys⟩ := ih (t.pushSlot p.1 p.2)
    refine ⟨harray, hcapacity, hkeys.trans ?_⟩
    rw [List.length_cons, pushSlot, Array.size_push]
    omega

theorem size_liveSlots_le (t : Table) : t.liveSlots.size ≤ t.keys.size := by
  refine Nat.le_trans Array.size_filter_le ?_
  rw [Array.size_zip]
  exact Nat.min_le_left _ _

/-- A name is no integer key. -/
theorem Named.foldl_countKey (named : t.Named) (counts : Array Nat) :
    t.liveSlots.foldl (fun counts p => countKey counts p.1) counts = counts := by
  have hall : ∀ p ∈ t.liveSlots.toList, ∃ s, p.1 = Value.str s := named.liveSlots.1.names
  rw [← Array.foldl_toList]
  generalize t.liveSlots.toList = entries at hall
  induction entries with
  | nil => rfl
  | cons p entries ih =>
    obtain ⟨s, hs⟩ := hall p List.mem_cons_self
    rw [List.foldl_cons, hs]
    exact ih fun q hq => hall q (List.mem_cons_of_mem _ hq)

/-- A table of names is laid out again with room for its names and for one more. -/
theorem Named.rehash_parts (named : t.Named) (harray : t.array = #[]) (s : Bytes) :
    (t.rehash (.str s)).array = #[] ∧ (t.rehash (.str s)).keys.size ≤ t.keys.size ∧
      (t.rehash (.str s)).capacity ≤ 2 * (t.keys.size + 1) := by
  have hlive := t.size_liveSlots_le
  have hcounts : countArray t.array (Array.replicate 27 0) = Array.replicate 27 0 := by
    rw [harray]
    rfl
  have hrehash : t.rehash (.str s) = t.resize 0 (0 + t.liveSlots.size + 1 - 0) := by
    rw [rehash]
    simp only [hcounts, named.foldl_countKey]
    rfl
  obtain ⟨array, -, hsize, hresize⟩ := named.resize_eq 0 (0 + t.liveSlots.size + 1 - 0)
  obtain ⟨hempty, hcapacity, hslots⟩ := pushAll_parts
    { array, capacity := slotsFor (0 + t.liveSlots.size + 1 - 0), metatable := t.metatable }
    t.liveSlots.toList
  rw [← hresize, ← hrehash] at hempty hcapacity hslots
  refine ⟨hempty.trans (Array.size_eq_zero_iff.mp hsize), ?_, ?_⟩
  · rw [hslots, Array.length_toList, Array.size_empty]
    omega
  · have hroom := slotsFor_le (0 + t.liveSlots.size + 1 - 0)
    rw [hcapacity]
    exact Nat.le_trans hroom (by omega)

/-- An assignment takes a slot for one name at most. -/
theorem Named.fits_set (named : t.Named) {n : Nat} (fits : t.Fits n) (room : t.keys.size < n)
    (s : Bytes) (v : Value) :
    (t.set (.str s) v).Fits n ∧ (t.set (.str s) v).keys.size ≤ t.keys.size + 1 := by
  obtain ⟨harray, hkeys, hcapacity⟩ := named.rehash_parts fits.array s
  have hpush (t' : Table) : (Table.pushSlot t' (.str s) v).keys.size = t'.keys.size + 1 :=
    Array.size_push _
  rw [set_str]
  split
  · exact ⟨⟨fits.array, fits.keys, fits.capacity⟩, Nat.le_succ _⟩
  · split
    · exact ⟨fits, Nat.le_succ _⟩
    · split
      · exact ⟨⟨fits.array, Nat.le_trans (Nat.le_of_eq (hpush t)) room, fits.capacity⟩,
          Nat.le_of_eq (hpush t)⟩
      · have hsize := hpush (t.rehash (.str s))
        exact ⟨⟨harray, by omega, Nat.le_trans hcapacity (Nat.mul_le_mul_left 2 room)⟩, by omega⟩

/-! ### Lists of assignments -/

/-- The value that a name has after assignments to names: the last one counts. -/
def assigned (fields : List (String × Value)) (s : Bytes) : Value :=
  fields.foldl (fun v f => if s = f.1.toUTF8 then f.2 else v) .nil

/-- A table without a metatable holds what was assigned to its names, and nothing else. -/
structure Has (t : Table) (fields : List (String × Value)) : Prop where
  named : t.Named
  metatable : t.metatable = none
  inSlot : ∀ s, t.inSlot (.str s) = assigned fields s
  keys : ∀ s, Value.str s ∈ t.keys → ∃ f ∈ fields, f.1.toUTF8 = s

variable {fields : List (String × Value)}

theorem Has.empty (capacity : Nat) : ({ capacity } : Table).Has [] where
  named := .empty fun _ h => absurd h (Array.not_mem_empty _)
  metatable := rfl
  inSlot s := by simp only [Table.inSlot, Std.HashMap.getElem?_empty, assigned, List.foldl_nil]
  keys := fun _ h => absurd h (Array.not_mem_empty _)

theorem Has.setStr (has : t.Has fields) (name : String) (v : Value) :
    (t.setStr name v).Has (fields ++ [(name, v)]) where
  named := has.named.set _ _
  metatable := (has.named.metatable_set _ _).trans has.metatable
  inSlot s := by
    rw [assigned, List.foldl_append, List.foldl_cons, List.foldl_nil, ← assigned, ← has.inSlot]
    exact has.named.inSlot_set _ v s
  keys s hs := by
    rcases has.named.keys_set _ v hs with hold | hnew
    · obtain ⟨f, hf, hname⟩ := has.keys s hold
      exact ⟨f, List.mem_append_left _ hf, hname⟩
    · exact ⟨(name, v), List.mem_append_right _ (List.mem_singleton_self _), hnew.symm⟩

theorem Has.ofFields (fields : List (String × Value)) : (Table.ofFields fields).Has fields := by
  have hfold (t : Table) (before : List (String × Value)) (has : t.Has before) :
      (fields.foldl (fun t f => t.setStr f.1 f.2) t).Has (before ++ fields) := by
    induction fields generalizing t before with
    | nil => rwa [List.append_nil]
    | cons f fields ih =>
      rw [List.append_cons]
      exact ih _ _ (has.setStr f.1 f.2)
  exact hfold _ [] (.empty _)

/-- A table of named values has room for them, and for not too many more. -/
theorem fits_ofFields (fields : List (String × Value)) :
    (Table.ofFields fields).Fits fields.length := by
  have hfold (rest : List (String × Value)) (t : Table) (named : t.Named) (n : Nat)
      (fits : t.Fits n) (room : t.keys.size + rest.length ≤ n) :
      (rest.foldl (fun t f => t.setStr f.1 f.2) t).Fits n := by
    induction rest generalizing t with
    | nil => exact fits
    | cons f rest ih =>
      rw [List.length_cons] at room
      obtain ⟨hfits, hkeys⟩ := named.fits_set fits (by omega) f.1.toUTF8 f.2
      exact ih _ (named.set _ _) hfits (Nat.le_trans (Nat.add_le_add_right hkeys _) (by omega))
  have hempty : (withRoom 0 fields.length).Fits fields.length :=
    ⟨rfl, Nat.zero_le _, slotsFor_le _⟩
  exact hfold fields _ (.empty fun _ h => absurd h (Array.not_mem_empty _)) _ hempty
    (Nat.le_of_eq (Nat.zero_add _))

/-- A table holds what was assigned to its names and has room for them, and for not too many more. -/
structure Holds (t : Table) (fields : List (String × Value)) : Prop extends t.Has fields where
  fits : t.Fits fields.length

theorem Holds.empty : ({} : Table).Holds [] where
  toHas := .empty 0
  fits := ⟨rfl, Nat.zero_le _, Nat.zero_le _⟩

theorem Holds.setStr (holds : t.Holds fields) (name : String) (v : Value) :
    (t.setStr name v).Holds (fields ++ [(name, v)]) where
  toHas := holds.toHas.setStr name v
  fits := by
    have hroom : t.keys.size < (fields ++ [(name, v)]).length := by
      rw [List.length_append, List.length_singleton]
      exact Nat.lt_succ_of_le holds.fits.keys
    have hmore : fields.length ≤ (fields ++ [(name, v)]).length := by
      rw [List.length_append]
      exact Nat.le_add_right _ _
    exact (holds.named.fits_set (holds.fits.mono hmore) hroom name.toUTF8 v).1

theorem Holds.ofFields (fields : List (String × Value)) : (Table.ofFields fields).Holds fields where
  toHas := .ofFields fields
  fits := fits_ofFields fields

/-- A name has no value or one that was assigned to it. -/
theorem assigned_cases (fields : List (String × Value)) (s : Bytes) :
    assigned fields s = .nil ∨ ∃ f ∈ fields, f.1.toUTF8 = s ∧ assigned fields s = f.2 := by
  have hfold (v : Value) : fields.foldl (fun v f => if s = f.1.toUTF8 then f.2 else v) v = v ∨
      ∃ f ∈ fields, f.1.toUTF8 = s ∧
        fields.foldl (fun v f => if s = f.1.toUTF8 then f.2 else v) v = f.2 := by
    induction fields generalizing v with
    | nil => exact .inl rfl
    | cons f fields ih =>
      rcases ih (if s = f.1.toUTF8 then f.2 else v) with hkept | ⟨g, hg, hgs⟩
      · by_cases hname : s = f.1.toUTF8
        · rw [if_pos hname] at hkept
          exact .inr ⟨f, List.mem_cons_self, hname.symm,
            by rw [List.foldl_cons, if_pos hname, hkept]⟩
        · rw [if_neg hname] at hkept
          exact .inl (by rw [List.foldl_cons, if_neg hname, hkept])
      · exact .inr ⟨g, List.mem_cons_of_mem _ hg, hgs⟩
  exact hfold .nil

/-- A name that is removed has no value, and the others keep theirs. -/
theorem assigned_removed (fields : List (String × Value)) (names : List String) (s : Bytes) :
    assigned (fields ++ names.map fun name => (name, .nil)) s = .nil ∨
      (∀ name ∈ names, name.toUTF8 ≠ s) ∧
        assigned (fields ++ names.map fun name => (name, .nil)) s = assigned fields s := by
  rw [assigned, List.foldl_append, ← assigned]
  generalize assigned fields s = v
  induction names generalizing v with
  | nil => exact .inr ⟨(fun _ h => nomatch h), rfl⟩
  | cons name names ih =>
    rw [List.map_cons, List.foldl_cons]
    rcases ih (if s = name.toUTF8 then .nil else v) with hnil | ⟨hothers, hkept⟩
    · exact .inl hnil
    · by_cases hname : s = name.toUTF8
      · rw [if_pos hname] at hkept ⊢
        exact .inl hkept
      · rw [if_neg hname] at hkept ⊢
        exact .inr ⟨List.forall_mem_cons.mpr ⟨Ne.symm hname, hothers⟩, hkept⟩

end Table

end PixelHost.Lua
