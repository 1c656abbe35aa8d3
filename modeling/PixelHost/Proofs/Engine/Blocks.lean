import Mathlib.Data.List.Forall2
import PixelHost.Proofs.Engine.History
import PixelHost.Proofs.Engine.Signal

/-!
# The invocations of a run

Apart from rejected uploads, the invocations of a run fall into blocks, one for each accepted upload.
A block begins with the invocation of the upload itself; what follows are periodic invocations of the
same chunk, numbered from one, each with the value that the one before handed on. Nothing follows an
invocation that fails or asks for no further one. The sink is offered the frames of the successful
invocations, one each and in this order. Steps that are lost have no result; they are left out like
rejected uploads, and they change none of this.

## Main definitions

* `effective`, `activities` — the steps of a run without rejected uploads and without lost steps, and
  what the interpreter was asked in them.
* `IsChain`, `IsBlock` — the invocations of one accepted upload.

## Main results

* `Player.blocks_of_history` — the activities of a run are the blocks of its accepted uploads.
-/

namespace PixelHost

variable {I : Interpreter}

/-! ### Activities of a run -/

/-- The step is an upload that was turned down. -/
def Step.isRejected (s : Step I) : Bool :=
  match s.answer with
  | .uploaded (.error _) => true
  | _ => false

/-- The step was lost. -/
def Step.isLost (s : Step I) : Bool :=
  match s.answer with
  | .uploaded .lost | .cycled .lost => true
  | _ => false

/-- The source text of an accepted upload. -/
def Step.accepted? (s : Step I) : Option String :=
  match s.op, s.answer with
  | .upload source, .uploaded (.ok _) => some source
  | _, _ => none

/-- The steps that are no rejected uploads and were not lost. -/
def effective (steps : List (Step I)) : List (Step I) :=
  steps.filter fun s => !s.isRejected && !s.isLost

/-- What the interpreter was asked, rejected uploads and lost steps left out. -/
def activities (steps : List (Step I)) : List (Activity I) := (effective steps).flatMap Step.record

/-- The source texts of the accepted uploads. -/
def acceptedSources (steps : List (Step I)) : List String := steps.filterMap Step.accepted?

/-- The frame of a successful invocation. -/
def Activity.frame? : Activity I → Option Bytes
  | .invoke ⟨_, _, _, .ok outcome⟩ => some outcome.frame
  | _ => none

/-- The sink after it was offered frames. -/
def Sink.offer (s : Sink) (frames : List Bytes) : Sink := frames.foldl (fun s f => (s.write f).2) s

/-- The invocations of a chunk from its upload on. The first one has counter zero and nothing handed
on to it, and it succeeds. Each later one has its number as counter, wrapped around at 65536, and
the value that the one before handed on; the one before succeeded and asked for it. -/
structure IsChain (chunk : I.Chunk) (calls : List (Call I)) : Prop where
  first : ∃ outcome, calls[0]? = some ⟨chunk, 0, none, .ok outcome⟩
  later : ∀ n call, calls[n + 1]? = some call → ∃ before outcome,
    calls[n]? = some before ∧ before.result = .ok outcome ∧ outcome.delay ≠ .forever ∧
      call.chunk = chunk ∧ call.counter.toNat = (n + 1) % 65536 ∧ call.memo = outcome.memo

/-- The activities of one accepted upload: its source text is compiled, and the chunk is invoked. -/
def IsBlock (source : String) (block : List (Activity I)) : Prop :=
  ∃ chunk calls, block = .compile source (.ok chunk) :: calls.map .invoke ∧ IsChain chunk calls

/-! ### Growing chains -/

theorem IsChain.single (chunk : I.Chunk) (outcome : Outcome I.Memo) :
    IsChain chunk [⟨chunk, 0, none, .ok outcome⟩] where
  first := ⟨outcome, rfl⟩
  later := by simp

theorem IsChain.length_pos {chunk : I.Chunk} {calls : List (Call I)} (h : IsChain chunk calls) :
    0 < calls.length := by
  obtain ⟨outcome, h0⟩ := h.first
  exact (List.getElem?_eq_some_iff.mp h0).1

/-- One more invocation after a successful one that asked for it. -/
theorem IsChain.concat {chunk : I.Chunk} {calls : List (Call I)} (h : IsChain chunk calls)
    {before : Call I} {outcome : Outcome I.Memo} (last : calls.getLast? = some before)
    (succeeded : before.result = .ok outcome) (goes : outcome.delay ≠ .forever)
    {counter : UInt32} (counted : counter.toNat = calls.length % 65536)
    (result : Ending ScriptError (Outcome I.Memo)) :
    IsChain chunk (calls ++ [⟨chunk, counter, outcome.memo, result⟩]) where
  first := by
    obtain ⟨first, h0⟩ := h.first
    exact ⟨first, by rw [List.getElem?_append_left h.length_pos, h0]⟩
  later := by
    intro n call hcall
    rw [List.getLast?_eq_getElem?] at last
    have hpos := h.length_pos
    rcases Nat.lt_trichotomy (n + 1) calls.length with hlt | heq | hgt
    · rw [List.getElem?_append_left hlt] at hcall
      obtain ⟨b, o, hb, rest⟩ := h.later n call hcall
      exact ⟨b, o, by rw [List.getElem?_append_left (by omega), hb], rest⟩
    · rw [List.getElem?_append_right (by omega), heq, Nat.sub_self] at hcall
      have hn : n = calls.length - 1 := by omega
      cases hcall
      refine ⟨before, outcome, ?_, succeeded, goes, rfl, ?_, rfl⟩
      · rw [List.getElem?_append_left (by omega), hn, last]
      · rw [counted, heq]
    · rw [List.getElem?_eq_none (by simp only [List.length_append, List.length_singleton]; omega)]
        at hcall
      cases hcall

/-! ### The program and its block -/

/-- The program in the slot comes from the last invocation of a chain, and the next one will be
counted right: at once, or after the request that is pending was adopted. -/
structure Awaits (p : Player I) (program : Program I) (chunk : I.Chunk) (calls : List (Call I)) :
    Prop where
  chain : IsChain chunk calls
  chunk_eq : program.script.chunk = chunk
  last : ∃ before outcome, calls.getLast? = some before ∧ before.result = .ok outcome ∧
    outcome.delay ≠ .forever ∧ program.memo = outcome.memo
  fresh : p.engine.reset.isPending = true → calls.length = 1
  counted : p.engine.reset.isPending = false →
    p.scheduler.counter.toNat = calls.length % 65536

/-- What the run so far has to do with the state it led to. -/
structure InBlocks (steps : List (Step I)) (p : Player I) (sink : Sink)
    (blocks : List (List (Activity I))) : Prop where
  all : activities steps = blocks.flatten
  each : List.Forall₂ IsBlock (acceptedSources steps) blocks
  offered : p.engine.sink = sink.offer ((activities steps).filterMap Activity.frame?)
  current : ∀ program, p.engine.program = some program → ∃ before source chunk calls,
    blocks = before ++ [.compile source (.ok chunk) :: calls.map .invoke] ∧
      Awaits p program chunk calls

/-! ### Appending a step -/

theorem effective_concat (steps : List (Step I)) (s : Step I) :
    effective (steps ++ [s]) = effective steps ++ effective [s] := List.filter_append _ _

theorem activities_concat (steps : List (Step I)) (s : Step I) :
    activities (steps ++ [s]) = activities steps ++ activities [s] := by
  simp only [activities, effective_concat, List.flatMap_append]

theorem acceptedSources_concat (steps : List (Step I)) (s : Step I) :
    acceptedSources (steps ++ [s]) = acceptedSources steps ++ acceptedSources [s] := by
  simp only [acceptedSources, List.filterMap_append]

theorem Sink.offer_append (s : Sink) (frames rest : List Bytes) :
    s.offer (frames ++ rest) = (s.offer frames).offer rest := by
  simp only [Sink.offer, List.foldl_append]

/-- The last entry on the right may give way to one that is related to whatever it was related
to. -/
private theorem forall₂_replace_last {α β : Type*} {R : α → β → Prop} {old new : β} {left : List α}
    {before : List β} (h : List.Forall₂ R left (before ++ [old])) (grows : ∀ a, R a old → R a new) :
    List.Forall₂ R left (before ++ [new]) := by
  induction before generalizing left with
  | nil =>
    obtain _ | ⟨hold, hnil⟩ := h
    exact .cons (grows _ hold) hnil
  | cons b before ih =>
    obtain _ | ⟨hb, hrest⟩ := h
    exact .cons hb (ih hrest)

theorem nextCounter_toNat (counter : UInt32) :
    (nextCounter counter).toNat = (counter.toNat + 1) % 65536 := by
  simp only [nextCounter, UInt32.toNat_mod, UInt32.toNat_add, UInt32.reduceToNat]
  omega

namespace InBlocks

variable {steps : List (Step I)} {p q : Player I} {s : Step I} {sink : Sink}
  {blocks : List (List (Activity I))}

/-- A step that asks the interpreter for nothing and accepts nothing leaves the blocks as they
are. -/
theorem quiet (h : InBlocks steps p sink blocks) (silent : activities [s] = [])
    (none_accepted : acceptedSources [s] = []) (same_sink : q.engine.sink = p.engine.sink)
    (current : ∀ program, q.engine.program = some program →
      p.engine.program = some program ∧ ∀ chunk calls,
        Awaits p program chunk calls → Awaits q program chunk calls) :
    InBlocks (steps ++ [s]) q sink blocks where
  all := by rw [activities_concat, silent, List.append_nil, h.all]
  each := by rw [acceptedSources_concat, none_accepted, List.append_nil]; exact h.each
  offered := by rw [activities_concat, silent, List.append_nil, same_sink, h.offered]
  current := by
    intro program hprogram
    obtain ⟨hsame, hawaits⟩ := current program hprogram
    obtain ⟨before, source, chunk, calls, hblocks, awaits⟩ := h.current program hsame
    exact ⟨before, source, chunk, calls, hblocks, hawaits chunk calls awaits⟩

/-- An accepted upload begins a block. -/
theorem begin {source : String} {chunk : I.Chunk} {outcome : Outcome I.Memo}
    (h : InBlocks steps p sink blocks)
    (asked : activities [s] =
      [.compile source (.ok chunk), .invoke ⟨chunk, 0, none, .ok outcome⟩])
    (accepted : acceptedSources [s] = [source])
    (wrote : q.engine.sink = (p.engine.sink.write outcome.frame).2)
    (slot : q.engine.program = Player.kept ⟨source, chunk⟩ outcome)
    (raised : q.engine.reset.isPending = true) :
    InBlocks (steps ++ [s]) q sink
      (blocks ++ [[.compile source (.ok chunk), .invoke ⟨chunk, 0, none, .ok outcome⟩]]) where
  all := by
    rw [activities_concat, asked, h.all, List.flatten_append, List.flatten_singleton]
  each := by
    rw [acceptedSources_concat, accepted]
    refine List.rel_append h.each (.cons ?_ .nil)
    exact ⟨chunk, [⟨chunk, 0, none, .ok outcome⟩], rfl, .single chunk outcome⟩
  offered := by
    rw [activities_concat, asked, List.filterMap_append, Sink.offer_append, wrote, h.offered]
    rfl
  current := by
    intro program hprogram
    refine ⟨blocks, source, chunk, [⟨chunk, 0, none, .ok outcome⟩], rfl, ?_⟩
    rw [slot, Player.kept] at hprogram
    split at hprogram
    · cases hprogram
    · next goes =>
      cases hprogram
      exact {
        chain := .single chunk outcome
        chunk_eq := rfl
        last := ⟨_, outcome, rfl, rfl, fun hd => goes (by rw [hd]; rfl), rfl⟩
        fresh := fun _ => rfl
        counted := fun hp => by rw [raised] at hp; cases hp }

/-- A periodic invocation goes on with the last block. -/
theorem extend {program : Program I} {result : Ending ScriptError (Outcome I.Memo)}
    (h : InBlocks steps p sink blocks) (settled : p.engine.reset.isPending = false)
    (found : p.engine.program = some program)
    (asked : activities [s] =
      [.invoke ⟨program.script.chunk, p.scheduler.counter, program.memo, result⟩])
    (none_accepted : acceptedSources [s] = [])
    (wrote : q.engine.sink = p.engine.sink.offer ((activities [s]).filterMap Activity.frame?))
    (settled' : q.engine.reset.isPending = false)
    (slot : ∀ after, q.engine.program = some after → ∃ outcome, result = .ok outcome ∧
      Player.kept program.script outcome = some after ∧
      q.scheduler.counter = nextCounter p.scheduler.counter) :
    ∃ blocks', InBlocks (steps ++ [s]) q sink blocks' := by
  obtain ⟨before, source, chunk, calls, hblocks, awaits⟩ := h.current program found
  obtain ⟨b, o, hlast, hok, hgoes, hmemo⟩ := awaits.last
  have hcount := awaits.counted settled
  obtain rfl := awaits.chunk_eq
  have hchain := awaits.chain.concat hlast hok hgoes hcount result
  rw [← hmemo] at hchain
  let call : Call I := ⟨program.script.chunk, p.scheduler.counter, program.memo, result⟩
  refine ⟨before ++ [.compile source (.ok program.script.chunk) :: (calls ++ [call]).map .invoke],
    ?all, ?each, ?offered, ?current⟩
  case all =>
    rw [activities_concat, asked, h.all, hblocks]
    simp only [List.flatten_append, List.flatten_singleton, List.map_append, List.map_cons,
      List.map_nil, List.cons_append, List.append_assoc, call]
  case each =>
    have heach := h.each
    rw [hblocks] at heach
    rw [acceptedSources_concat, none_accepted, List.append_nil]
    refine forall₂_replace_last heach fun src hblock => ?_
    obtain ⟨chunk, calls', heq, -⟩ := hblock
    injection heq with hhead
    cases hhead
    exact ⟨program.script.chunk, calls ++ [call], rfl, hchain⟩
  case offered =>
    rw [activities_concat, List.filterMap_append, Sink.offer_append, wrote, h.offered]
  case current =>
    intro after hafter
    obtain ⟨outcome, rfl, hkept, hcounter⟩ := slot after hafter
    refine ⟨before, source, program.script.chunk, _, rfl, ?_⟩
    rw [Player.kept] at hkept
    split at hkept
    · cases hkept
    · next goes =>
      cases hkept
      exact {
        chain := hchain
        chunk_eq := rfl
        last := ⟨_, outcome, by rw [List.getLast?_concat], rfl,
          fun hd => goes (by rw [hd]; rfl), rfl⟩
        fresh := fun hp => by rw [settled'] at hp; cases hp
        counted := fun _ => by
          rw [hcounter, nextCounter_toNat, hcount, List.length_append, List.length_singleton]
          omega }

/-- No step breaks the order of blocks. -/
theorem step (h : InBlocks steps p sink blocks) (taken : p.Taken s q) :
    ∃ blocks', InBlocks (steps ++ [s]) q sink blocks' := by
  cases taken with
  | unfit compiled =>
    exact ⟨blocks, h.quiet rfl rfl rfl fun program found => ⟨found, fun _ _ aw =>
      ⟨aw.chain, aw.chunk_eq, aw.last, aw.fresh, aw.counted⟩⟩⟩
  | rejected compiled ran =>
    exact ⟨blocks, h.quiet rfl rfl rfl fun program found => ⟨found, fun _ _ aw =>
      ⟨aw.chain, aw.chunk_eq, aw.last, aw.fresh, aw.counted⟩⟩⟩
  | accepted compiled ran =>
    exact ⟨_, h.begin rfl rfl rfl rfl (p.engine.reset.isPending_raise _)⟩
  | lostUpload loses =>
    exact ⟨blocks, h.quiet rfl rfl rfl fun program found => ⟨found, fun _ _ aw =>
      ⟨aw.chain, aw.chunk_eq, aw.last, aw.fresh, aw.counted⟩⟩⟩
  | adopted pending =>
    have hpending := ResetSignal.isPending_of_take pending
    refine ⟨blocks, h.quiet rfl rfl rfl fun program found => ⟨found, fun _ calls aw => ?_⟩⟩
    have hlength := aw.fresh hpending
    exact {
      chain := aw.chain
      chunk_eq := aw.chunk_eq
      last := aw.last
      fresh := fun _ => hlength
      counted := fun _ => by rw [hlength]; rfl }
  | idle quiet empty =>
    refine ⟨blocks, h.quiet rfl rfl rfl fun program found => ?_⟩
    change p.engine.program = some program at found
    rw [empty] at found
    cases found
  | executed quiet found ran =>
    refine h.extend (ResetSignal.not_isPending_of_take quiet) found rfl rfl rfl
      p.engine.reset.isPending_take fun after hafter => ⟨_, rfl, hafter, rfl⟩
  | failed quiet found ran =>
    refine h.extend (ResetSignal.not_isPending_of_take quiet) found rfl rfl rfl
      p.engine.reset.isPending_take fun after hafter => ?_
    cases hafter
  | lostRun quiet found ran =>
    have hquiet := ResetSignal.not_isPending_of_take quiet
    refine ⟨blocks, h.quiet rfl rfl rfl fun program found => ⟨found, fun _ _ aw => ?_⟩⟩
    exact {
      chain := aw.chain
      chunk_eq := aw.chunk_eq
      last := aw.last
      fresh := fun hp => by rw [p.engine.reset.isPending_take] at hp; cases hp
      counted := fun _ => aw.counted hquiet }

end InBlocks

namespace Player

/-- Before the first step there is no block. -/
theorem inBlocks_start (state : I.State) (sink : Sink) (initialDelay : Delay) (quantum : Duration) :
    InBlocks [] (start (I := I) state sink initialDelay quantum) sink [] where
  all := rfl
  each := .nil
  offered := rfl
  current := by
    intro program hprogram
    cases hprogram

/-- The activities of every run of uploads and cycles, rejected uploads and lost steps left out, are
blocks, one for each accepted upload, and the sink was offered the frames of their successful invocations and
nothing else. The interpreter is arbitrary, and the run is the one without a record. -/
theorem blocks_of_history (state : I.State) (sink : Sink) (initialDelay : Delay)
    (quantum : Duration) (ops : List Op) :
    let player : Player I := start state sink initialDelay quantum
    let (steps, last) := player.history ops
    steps.map Step.op = ops ∧ player.run ops = (steps.map Step.answer, last) ∧
      last.engine.sink = sink.offer ((activities steps).filterMap Activity.frame?) ∧
      ∃ blocks, activities steps = blocks.flatten ∧
        List.Forall₂ IsBlock (acceptedSources steps) blocks := by
  intro player
  have hblocks : ∃ blocks, InBlocks (player.history ops).1 (player.history ops).2 sink blocks :=
    player.history_induction (motive := fun steps q => ∃ blocks, InBlocks steps q sink blocks)
      ⟨[], inBlocks_start state sink initialDelay quantum⟩
      (fun steps q s r ⟨blocks, h⟩ taken => h.step taken) ops
  obtain ⟨blocks, h⟩ := hblocks
  exact ⟨player.history_ops ops, player.run_eq_history ops, h.offered, blocks, h.all, h.each⟩

end Player

end PixelHost
