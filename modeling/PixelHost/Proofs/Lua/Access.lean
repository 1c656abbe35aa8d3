import PixelHost.Proofs.Lua.Contents

/-!
# Access to a machine

Reading and writing tables, slots and captured variables stays in a realm, as does everything that
ends in an error with the place where it came up.

## Main results

* `Lua.Run.newTable_stays`, `Lua.Run.modifyTable_stays` — tables.
* `Lua.Run.cellValue_stays`, `Lua.Run.setCell_stays`, `Lua.Run.captureSlot_stays`,
  `Lua.Run.closeCells_stays` — captured variables.
* `Lua.Run.badArgument_stays`, `Lua.Run.typeError_stays` — errors.
-/

namespace PixelHost.Lua

variable {ρ : Realm} {α : Type} {Q : α → Prop}

namespace Realm

/-! ### Machines that agree, after a change -/

theorem core.of_eq {m m' : Machine} (hm : ρ.core m) (stack : m'.stack = m.stack)
    (frames : m'.frames = m.frames) (openCells : m'.openCells = m.openCells)
    (closure : m'.closure = m.closure) (thread : m'.thread = m.thread)
    (globals : m'.globals = m.globals) (stringMetatable : m'.stringMetatable = m.stringMetatable)
    (loaded : m'.loaded = m.loaded) (limit : m'.limit = m.limit) : ρ.core m' where
  stack := stack ▸ hm.stack
  frames := frames ▸ hm.frames
  openCells := openCells ▸ hm.openCells
  closure := closure ▸ hm.closure
  thread := thread ▸ hm.thread
  names := by rw [globals, stringMetatable, hm.names]
  globals := globals ▸ hm.globals
  stringMetatable := stringMetatable ▸ hm.stringMetatable
  loaded := loaded ▸ hm.loaded
  bounded := limit ▸ hm.bounded

end Realm

namespace Run

/-! ### Memory -/

theorem charge_stays (n : Nat) : Stays ρ Plain (charge n) :=
  .change (fun _ => rfl) fun m h agree => ⟨{ h with charge := h.charge + n }, rfl,
    { agree with
      core := agree.core.of_eq rfl rfl rfl rfl rfl rfl rfl rfl rfl
      same := fun e => by rw [agree.same e]; rfl }⟩

theorem demand_stays (n : Nat) : Stays ρ Plain (demand n) :=
  .read (fun _ _ => .ite (fun _ => .throw trivial) fun _ => .plain ()) fun _ _ => rfl

theorem newString_stays (s : Bytes) : Stays ρ ρ.value (newString s) :=
  (charge_stays _).andThen (.pure trivial)

/-! ### Tables -/

theorem tableAt_stays {r : TableRef} (hr : ρ.table r) : Stays ρ ρ.contents (tableAt r) := by
  intro m h agree
  change ρ.Same _ _ (.ok (m.tables.getD r default) m) (.ok (h.tables.getD r default) (m.withHeap h))
  rw [agree.tables.same r hr]
  exact .ok (agree.tables.ok r hr) agree id

theorem newTable_stays {t : Table} (ht : ρ.contents t) : Stays ρ ρ.table (newTable t) := by
  refine (charge_stays _).andThen fun m h agree => ?_
  change ρ.Same _ _ (.ok m.tables.size { m with tables := m.tables.push t })
    (.ok h.tables.size { m.withHeap h with tables := h.tables.push t })
  rw [agree.tables.size]
  exact .ok (h := { h with tables := h.tables.push t }) (agree.tables.fresh _ (Nat.le_refl _))
    { agree with
      tables := agree.tables.push ht
      core := agree.core.of_eq rfl rfl rfl rfl rfl rfl rfl rfl rfl
      same := fun e => by rw [agree.same e]; rfl } id

theorem modifyTable_stays {r : TableRef} {f : Table → Table} (hr : ρ.table r)
    (hf : ∀ t, ρ.contents t → ρ.contents (f t)) : Stays ρ Plain (modifyTable r f) := by
  refine (tableAt_stays hr).bind fun before _ => .andThen (P := Plain) ?_
    ((tableAt_stays hr).bind fun after _ => .ite (fun _ => charge_stays _) fun _ => .plain ())
  exact .change (fun _ => rfl) fun m h agree => ⟨{ h with tables := h.tables.modify r f }, rfl,
    { agree with
      tables := agree.tables.modify hr (hf _)
      core := agree.core.of_eq rfl rfl rfl rfl rfl rfl rfl rfl rfl
      same := fun e => by rw [agree.same e]; rfl }⟩

theorem rawGet_stays {r : TableRef} (hr : ρ.table r) (k : Value) :
    Stays ρ ρ.value (rawGet r k) :=
  (tableAt_stays hr).bind fun _ ht => .pure (ht.get k)

theorem rawSet_stays {r : TableRef} {k v : Value} (hr : ρ.table r) (hk : ρ.value k)
    (hv : ρ.value v) : Stays ρ Plain (rawSet r k v) :=
  modifyTable_stays hr fun _ ht => ht.set hk hv

theorem metatable?_stays {v : Value} (hv : ρ.value v) :
    Stays ρ (fun mt => ∀ r ∈ mt, ρ.table r) (metatable? v) := by
  unfold metatable?
  split
  · exact (tableAt_stays hv).bind fun _ ht => .pure ht.metatable
  · refine .read (fun m hm => .pure ?_) fun _ _ => rfl
    rintro _ ⟨⟩
    exact hm.stringMetatable
  · exact .pure fun _ h => nomatch h

theorem metamethod_stays {v : Value} (hv : ρ.value v) (event : Bytes) :
    Stays ρ ρ.value (metamethod v event) := by
  refine (metatable?_stays hv).bind fun mt hmt => ?_
  cases mt with
  | some mt => exact (tableAt_stays (hmt mt rfl)).bind fun _ ht => .pure (ht.getStr event)
  | none => exact .pure trivial

/-! ### Registers and captured variables -/

theorem slot_stays (i : Nat) : Stays ρ ρ.value (slot i) :=
  .read (fun _ hm => .pure (hm.stack.getD i)) fun _ _ => rfl

/-- The stack may change as long as its values lie in the realm. -/
theorem changeStack_stays {f : Machine → Array Value} (hf : ∀ m, ρ.core m → ρ.values (f m))
    (outside : ∀ m h, f (m.withHeap h) = f m) :
    Stays ρ Plain (modify fun m => { m with stack := f m } : Run Unit) :=
  .changeCore (fun m hm => { hm with stack := hf m hm })
    (fun m h => by rw [outside]; rfl) fun _ => rfl

theorem setSlot_stays (i : Nat) {v : Value} (hv : ρ.value v) : Stays ρ Plain (setSlot i v) :=
  changeStack_stays (fun _ hm => hm.stack.set i hv) fun _ _ => rfl

theorem register_stays (r : Nat) : Stays ρ ρ.value (register r) :=
  .read (fun _ hm => .pure (hm.stack.getD _)) fun _ _ => rfl

theorem setRegister_stays (r : Nat) {v : Value} (hv : ρ.value v) :
    Stays ρ Plain (setRegister r v) :=
  changeStack_stays (fun _ hm => hm.stack.set _ hv) fun _ _ => rfl

theorem operand_stays (x : Operand) : Stays ρ ρ.value (operand x) := by
  cases x with
  | reg r => exact register_stays r
  | lit l => exact .pure (Realm.value_ofLiteral l)

theorem slots_stays (first count : Nat) : Stays ρ ρ.values (slots first count) :=
  .read (fun _ hm => .ite (fun _ => .pure ((hm.stack.extract _ _).append (.replicate _)))
    fun _ => .pure (hm.stack.extract _ _)) fun _ _ => rfl

theorem newCell_stays {c : Cell} (hc : ρ.captured c) : Stays ρ ρ.cell (newCell c) := by
  refine (charge_stays _).andThen fun m h agree => ?_
  change ρ.Same _ _ (.ok m.cells.size { m with cells := m.cells.push c })
    (.ok h.cells.size { m.withHeap h with cells := h.cells.push c })
  rw [agree.cells.size]
  exact .ok (h := { h with cells := h.cells.push c }) (agree.cells.fresh _ (Nat.le_refl _))
    { agree with
      cells := agree.cells.push hc
      core := agree.core.of_eq rfl rfl rfl rfl rfl rfl rfl rfl rfl
      same := fun e => by rw [agree.same e]; rfl } id

section

variable {r : CellRef} {v : Value} {thread : ThreadRef} {i : Nat}

theorem get_bind (f : Machine → Run α) (m : Machine) : (get >>= f) m = f m m := rfl

theorem cellValue_of_closed {m : Machine} (hc : m.cells.getD r default = .closed v) :
    cellValue r m = .ok v m := by
  rw [cellValue, get_bind, hc]
  rfl

theorem cellValue_of_inStack {m : Machine} (hc : m.cells.getD r default = .inStack thread i) :
    cellValue r m = .ok (if thread == m.thread then m.stack.getD i .nil
      else (m.threads.getD thread default).stack.getD i .nil) m := by
  rw [cellValue, get_bind, hc]
  simp only []
  split <;> rfl

theorem setCell_of_closed {m : Machine} {w : Value} (hc : m.cells.getD r default = .closed w) :
    setCell r v m = .ok () { m with cells := m.cells.setIfInBounds r (.closed v) } := by
  rw [setCell, get_bind, hc]
  rfl

theorem setCell_of_inStack {m : Machine} (hc : m.cells.getD r default = .inStack thread i) :
    setCell r v m = .ok () (if thread == m.thread then
        { m with stack := m.stack.setIfInBounds i v }
      else { m with threads := m.threads.modify thread fun t =>
        { t with stack := t.stack.setIfInBounds i v } }) := by
  rw [setCell, get_bind, hc]
  simp only []
  split <;> rfl

end

theorem cellValue_stays {r : CellRef} (hr : ρ.cell r) : Stays ρ ρ.value (cellValue r) := by
  intro m h agree
  have hok := agree.cells.ok r hr
  have hsame := agree.cells.same r hr
  cases hc : m.cells.getD r default with
  | closed v =>
    rw [hc] at hok hsame
    rw [cellValue_of_closed hc, cellValue_of_closed (m := m.withHeap h) hsame]
    exact .ok hok agree id
  | inStack thread i =>
    rw [hc] at hok hsame
    have hthread : (m.withHeap h).threads.getD thread default = m.threads.getD thread default :=
      agree.threads.same thread hok
    rw [cellValue_of_inStack hc, cellValue_of_inStack (m := m.withHeap h) hsame, hthread]
    refine .ok ?_ agree id
    split
    · exact agree.core.stack.getD i
    · exact (agree.threads.ok thread hok).stack.getD i

theorem setCell_stays {r : CellRef} {v : Value} (hr : ρ.cell r) (hv : ρ.value v) :
    Stays ρ Plain (setCell r v) := by
  intro m h agree
  have hok := agree.cells.ok r hr
  have hsame := agree.cells.same r hr
  -- The cell is the same on both sides; what it is says which part of the machine changes.
  cases hc : m.cells.getD r default with
  | closed w =>
    rw [hc] at hsame
    rw [setCell_of_closed hc, setCell_of_closed (m := m.withHeap h) hsame]
    exact .ok (h := { h with cells := h.cells.setIfInBounds r (.closed v) }) trivial
      { agree with
        cells := agree.cells.set hr hv
        core := agree.core.of_eq rfl rfl rfl rfl rfl rfl rfl rfl rfl
        same := fun e => by rw [agree.same e]; rfl } id
  | inStack thread i =>
    rw [hc] at hok hsame
    rw [setCell_of_inStack hc, setCell_of_inStack (m := m.withHeap h) hsame]
    have hrunning : (m.withHeap h).thread = m.thread := rfl
    rw [hrunning]
    split
    · exact changeStack_stays (f := fun m => m.stack.setIfInBounds i v)
        (fun _ hm => hm.stack.set i hv) (fun _ _ => rfl) m h agree
    · exact .ok (h := { h with threads := h.threads.modify thread fun t =>
          { t with stack := t.stack.setIfInBounds i v } }) trivial
        { agree with
          threads := agree.threads.modify (f := fun t =>
            { t with stack := t.stack.setIfInBounds i v }) hok
            fun ht => { ht with stack := ht.stack.set i hv }
          core := agree.core.of_eq rfl rfl rfl rfl rfl rfl rfl rfl rfl
          same := fun e => by rw [agree.same e]; rfl } id

theorem insert_stays {fresh : Run CellRef} (i : Nat) (hfresh : Stays ρ ρ.cell fresh) :
    ∀ {cs : List (Nat × CellRef)}, ρ.openCells cs →
      Stays ρ (fun p => ρ.cell p.1 ∧ ρ.openCells p.2) (captureSlot.insert i fresh cs)
  | [], _ => hfresh.bind fun r hr => .pure ⟨hr, by simpa [Realm.openCells] using hr⟩
  | (j, c) :: rest, h => by
    have hc : ρ.cell c := h _ List.mem_cons_self
    have hrest : ρ.openCells rest := fun _ hmem => h _ (List.mem_cons_of_mem _ hmem)
    unfold captureSlot.insert
    refine .ite (fun _ => .pure ⟨hc, h⟩) fun _ => .ite (fun _ => ?_) fun _ => ?_
    · exact hfresh.bind fun r hr => .pure ⟨hr, List.forall_mem_cons.mpr ⟨hr, h⟩⟩
    · exact (insert_stays i hfresh hrest).bind fun p hp =>
        .pure ⟨hp.1, List.forall_mem_cons.mpr ⟨hc, hp.2⟩⟩

theorem captureSlot_stays (i : Nat) : Stays ρ ρ.cell (captureSlot i) := by
  refine .read (fun m hm => ?_) fun _ _ => rfl
  refine (insert_stays i (newCell_stays (c := .inStack m.thread i) hm.thread) hm.openCells).bind fun p hp => ?_
  exact .andThen (.changeCore (fun m hm => { hm with openCells := hp.2 }) (fun _ _ => rfl)
    fun _ => rfl) (.pure hp.1)

/-- Captured variables move into the heap. -/
theorem closed_agreement {taken : Nat} {keep : CellRef → Cell → Prop} {stack : Array Value}
    (hstack : ρ.values stack) {cs : List (Nat × CellRef)} (hcs : ρ.openCells cs)
    {xs ys : Array Cell} (h : Agreement ρ.cell ρ.captured taken keep xs ys) :
    Agreement ρ.cell ρ.captured taken keep
      (cs.foldl (fun cells (i, r) => cells.setIfInBounds r (.closed (stack.getD i .nil))) xs)
      (cs.foldl (fun cells (i, r) => cells.setIfInBounds r (.closed (stack.getD i .nil))) ys) := by
  induction cs generalizing xs ys with
  | nil => exact h
  | cons c cs ih =>
    rw [List.foldl_cons, List.foldl_cons]
    exact ih (fun _ hmem => hcs _ (List.mem_cons_of_mem _ hmem))
      (h.set (hcs c List.mem_cons_self) (hstack.getD _))

theorem closeCells_stays (level : Nat) : Stays ρ Plain (closeCells level) := by
  refine .read (fun m hm => ?_) fun _ _ => rfl
  have hopen := hm.openCells
  generalize m.openCells = openCells at hopen ⊢
  split
  · exact .plain ()
  · refine .ite (fun _ => .plain ()) fun _ => ?_
    refine .change (fun _ => rfl) fun m h agree => ⟨{ h with cells := _ }, rfl, ?_⟩
    have hscope : ρ.openCells (openCells.takeWhile (·.1 ≥ level)) :=
      fun _ hmem => hopen _ (List.takeWhile_subset _ hmem)
    exact { agree with
      cells := closed_agreement agree.core.stack hscope agree.cells
      core := { agree.core with openCells := fun _ hmem => hopen _ (List.drop_subset _ _ hmem) }
      same := fun e => by rw [agree.same e]; rfl }

theorem freshId_stays : Stays ρ Plain freshId :=
  .read (fun _ _ => .andThen (.changeCore
    (fun _ hm => hm.of_eq rfl rfl rfl rfl rfl rfl rfl rfl rfl) (fun _ _ => rfl) fun _ => rfl)
    (.plain _)) fun _ _ => rfl

/-! ### Errors -/

theorem raise_stays {v : Value} (hv : ρ.value v) : Stays ρ Q (raise v : Run α) := by
  unfold raise
  split
  · exact .ite (fun _ => .throw trivial) fun _ => .throw hv
  · exact .throw hv

theorem whereAt_stays (level : Nat) : Stays ρ Plain (whereAt level) := by
  refine .read (fun m _ => ?_) fun _ _ => rfl
  split <;> exact .plain _

theorem raiseHere_stays (message : Bytes) : Stays ρ Q (raiseHere message : Run α) :=
  (whereAt_stays 0).bind fun _ _ => raise_stays trivial

theorem raiseAtCaller_stays (message : Bytes) : Stays ρ Q (raiseAtCaller message : Run α) :=
  (whereAt_stays 1).bind fun _ _ => raise_stays trivial

theorem fail_stays (message : String) : Stays ρ Q (fail message : Run α) :=
  raiseAtCaller_stays _

theorem registerOrigin?_stays (r : Nat) : Stays ρ Plain (registerOrigin? r) := by
  refine .read (fun m _ => ?_) fun _ _ => rfl
  split <;> exact .plain _

theorem calleeName?_stays : Stays ρ Plain calleeName? := by
  refine .read (fun m _ => ?_) fun _ _ => rfl
  split
  · exact .ite (fun _ => .plain _) fun _ => .plain _
  · exact .plain _

theorem typeNameOf_stays {v : Value} (hv : ρ.value v) : Stays ρ Plain (typeNameOf v) := by
  unfold typeNameOf
  split
  · refine (metamethod_stays hv _).bind fun h _ => ?_
    split <;> exact .plain _
  · exact .plain _

theorem typeError_stays {v : Value} (hv : ρ.value v) (operation : String)
    (origin : Option Origin) : Stays ρ Q (typeError v operation origin : Run α) :=
  (typeNameOf_stays hv).bind fun _ _ => raiseHere_stays _

theorem badArgument_stays (position : Nat) (what : Bytes) :
    Stays ρ Q (badArgument position what : Run α) := by
  refine calleeName?_stays.bind fun origin _ => ?_
  split
  · exact .ite (fun _ => raiseAtCaller_stays _) fun _ => raiseAtCaller_stays _
  · exact raiseAtCaller_stays _
  · exact .read (fun _ _ => raiseAtCaller_stays _) fun _ _ => rfl

theorem badType_stays {args : Array Value} (hargs : ρ.values args) (position : Nat)
    (expected : String) : Stays ρ Q (badType args position expected : Run α) := by
  unfold badType
  split
  · next v hv => exact (typeNameOf_stays (hargs.getElem? hv)).bind fun _ _ => badArgument_stays _ _
  · exact badArgument_stays _ _

end Run

end PixelHost.Lua
