import PixelHost.Proofs.Server.Passes
import PixelHost.Proofs.Server.Visits

/-!
# How many connections a reactor has

There are two bounds, one on the pending connections and one on the upload connections, and a
connection passes one of them where it comes in and the other one where its request is classified.
Both hold after every arrival and after every visit, in whatever order these come.

A connection goes through its stages in one direction only, and its number is never given out again.
Turning a client away is counted once and touches no other connection.

## Main definitions

* `Stage`, `Reactor.stage?` — how far a connection has come.
* `Reactor.Admitted` — the bounds.
* `Reactor.TurnsAway` — a client is turned away.

## Main results

* `Reactor.onward` — what becomes of a connection that is visited.
* `Reactor.Admitted.act`, `Reactor.stage?_act` — what a step keeps.
* `Reactor.admission_of_history` — the bounds, the stages and the refusals of a run.
-/

namespace PixelHost

variable {I : Interpreter}

/-! ### Stages -/

/-- How far a connection has come. -/
inductive Stage where
  | pending
  | handshaking
  | opened
  | closing
  | gone
  deriving DecidableEq, Repr, Inhabited

/-- The place of a stage in the order of the stages. -/
def Stage.rank : Stage → Nat
  | pending => 0
  | handshaking => 1
  | opened => 2
  | closing => 3
  | gone => 4

theorem Stage.rank_le_gone (stage : Stage) : stage.rank ≤ Stage.gone.rank := by
  cases stage <;> decide

/-- The stage of a connection that is there. -/
def Connection.stage : Connection → Stage
  | pending => .pending
  | handshaking => .handshaking
  | upload u => if u.closing then .closing else .opened

theorem Connection.opened_le_stage (u : Upload) :
    Stage.opened.rank ≤ (Connection.upload u).stage.rank := by
  rw [Connection.stage]
  split <;> decide

/-- All stages but the first count as those of an upload connection. -/
theorem Connection.isUpload_iff (c : Connection) : c.isUpload = true ↔ 0 < c.stage.rank := by
  cases c with
  | pending => exact iff_of_false Bool.noConfusion (Nat.lt_irrefl 0)
  | handshaking => exact iff_of_true rfl Nat.one_pos
  | upload u =>
    exact iff_of_true rfl (Nat.lt_of_lt_of_le (by decide) (Connection.opened_le_stage u))

/-! ### Refusals are not counted while an upload connection is served -/

namespace Upload

theorem takeMessage_refused (u : Upload) (data : Bytes) (s : Serving I) :
    (u.takeMessage data s).2.metrics.connectionsRefused = s.metrics.connectionsRefused := by
  rw [takeMessage]
  rcases u.session.receive data true s.engine with ⟨_ | (_ | _) | _, session, engine⟩ <;> rfl

theorem read_refused (u : Upload) (s : Serving I) (arrived : List Incoming) :
    (u.read s arrived).2.metrics.connectionsRefused = s.metrics.connectionsRefused := by
  induction arrived generalizing u s with
  | nil => rfl
  | cons first rest ih =>
    cases first with
    | message data =>
      have htaken := u.takeMessage_refused data s
      rw [read]
      rcases htake : u.takeMessage data s with ⟨_ | u', s'⟩ <;> rw [htake] at htaken
      · exact htaken
      · dsimp only
        split
        · exact htaken
        · exact (ih u' s').trans htaken
    | control => exact ih u s
    | nothing | tooLong | ended | failed => rfl

theorem write_refused (u : Upload) (flush send : Departure) (s : Serving I) :
    (u.write flush send s).2.metrics.connectionsRefused = s.metrics.connectionsRefused := by
  cases flush with
  | blocked | failed => rfl
  | done =>
    simp only [write]
    split
    · rfl
    · split <;> rfl

theorem serve_refused (u : Upload) (arrived : List Incoming) (flush send : Departure)
    (timedOut : Bool) (s : Serving I) :
    (u.serve arrived flush send timedOut s).2.metrics.connectionsRefused =
      s.metrics.connectionsRefused := by
  have hread := u.read_refused s arrived
  rw [serve]
  split
  · rfl
  · split <;> next heq =>
      rw [heq] at hread
      first | exact hread | exact (write_refused _ flush send _).trans hread

end Upload

namespace Reactor

variable {r : Reactor I} {h : Happening} {s : Serving I} {c next : Connection} {id : Nat}

theorem Greeted.refused {outcome : Option Connection × Serving I} (greeted : r.Greeted s outcome) :
    outcome.2.metrics.connectionsRefused = s.metrics.connectionsRefused := by
  cases greeted <;> rfl

/-- A visit to a pending connection turns away a client only if it is one too many. -/
theorem Waited.refused {outcome : Option Connection × Serving I} (waited : r.Waited h s outcome)
    (fits : ¬ (h.AsksForUpload ∧ r.config.maxClients ≤ r.connectionCount)) :
    outcome.2.metrics.connectionsRefused = s.metrics.connectionsRefused := by
  cases waited with
  | crowded asks full => exact absurd ⟨asks, full⟩ fits
  | admitted asks room greeted => exact greeted.refused
  | waits | dropped | rejected | answered => rfl

/-! ### What becomes of a connection -/

/-- A connection that goes on does not go back, and becomes an upload connection only where there is
room for one. -/
structure Onward (r : Reactor I) (c next : Connection) : Prop where
  forward : c.stage.rank ≤ next.stage.rank
  room : next.isUpload = true → c.isUpload = true ∨ r.connectionCount < r.config.maxClients

private theorem onward_greeted {outcome : Option Connection × Serving I}
    (greeted : r.Greeted s outcome) (low : c.stage.rank ≤ Stage.handshaking.rank)
    (room : c.isUpload = true ∨ r.connectionCount < r.config.maxClients)
    (goes : outcome.1 = some next) : r.Onward c next := by
  refine ⟨Nat.le_trans low ?_, fun _ => room⟩
  cases greeted with
  | opened =>
    cases goes
    exact Nat.le_trans (by decide) (Connection.opened_le_stage _)
  | goesOn =>
    cases goes
    exact Nat.le_refl _
  | dropped => cases goes

theorem onward (goes : (r.serveConnection c h s).1 = some next) : r.Onward c next := by
  cases c with
  | pending =>
    have hwaited : r.Waited h s (r.serveConnection .pending h s) := r.waited h s
    generalize r.serveConnection .pending h s = outcome at hwaited goes
    cases hwaited with
    | waits =>
      cases goes
      exact ⟨Nat.le_refl _, fun hupload => nomatch hupload⟩
    | admitted asks room greeted => exact onward_greeted greeted (by decide) (.inr room) goes
    | dropped | rejected | answered | crowded => cases goes
  | handshaking =>
    exact onward_greeted (r.greeted h s) (Nat.le_refl _) (.inl rfl) goes
  | upload u =>
    have hnext : ∃ v, (u.serve h.arrived h.flush h.send h.timedOut s).1 = some v ∧
        .upload v = next := by
      simpa only [serveConnection, Option.map_eq_some_iff] using goes
    obtain ⟨v, hv, rfl⟩ := hnext
    refine ⟨?_, fun _ => .inl rfl⟩
    cases hclosing : u.closing with
    | true => exact (Upload.serve_of_closing hclosing _ _ _ _ s).2 v hv ▸ Nat.le_refl _
    | false =>
      have hopened : (Connection.upload u).stage = .opened := by
        simp only [Connection.stage, hclosing, Bool.false_eq_true, if_false]
      rw [hopened]
      exact Connection.opened_le_stage v

/-! ### The bounds -/

/-- There are no more connections of either kind than there may be. -/
structure Admitted (r : Reactor I) : Prop where
  numbered : r.Numbered
  uploads : r.connectionCount ≤ r.config.maxClients
  pending : r.pendingCount ≤ maxPending

/-- Every connection is counted once, so the number of pending ones is found by a subtraction that
cannot go below zero. -/
theorem pendingCount_add_connectionCount (r : Reactor I) :
    r.pendingCount + r.connectionCount = r.connections.length :=
  Nat.sub_add_cancel List.countP_le_length

theorem pendingCount_eq_countP (r : Reactor I) :
    r.pendingCount = r.connections.countP fun e => !e.2.isUpload := by
  have hall := r.connections.length_eq_countP_add_countP fun e => e.2.isUpload
  have hsum := r.pendingCount_add_connectionCount
  simp only [connectionCount, Bool.not_eq_true, Bool.decide_eq_false] at hall hsum
  omega

/-- A pending connection is not among the upload connections. -/
theorem connectionCount_without (numbered : r.Numbered)
    (found : r.connections.lookup id = some c) :
    r.connectionCount = (r.without id).connectionCount + c.isUpload.toNat := by
  rw [connectionCount, (perm_of_lookup numbered.distinct found).countP_eq, List.countP_cons]
  cases c.isUpload <;> rfl

theorem pendingCount_without (numbered : r.Numbered)
    (found : r.connections.lookup id = some c) :
    r.pendingCount = (r.without id).pendingCount + (!c.isUpload).toNat := by
  rw [pendingCount_eq_countP, pendingCount_eq_countP,
    (perm_of_lookup numbered.distinct found).countP_eq, List.countP_cons]
  cases c.isUpload <;> rfl

theorem connectionCount_settle (r : Reactor I) (id : Nat) (next : Option Connection)
    (s : Serving I) :
    (r.settle id (next, s)).connectionCount =
      r.connectionCount + (next.map fun c => c.isUpload.toNat).getD 0 := by
  cases next with
  | none => rfl
  | some c =>
    have hcount : (r.settle id (some c, s)).connectionCount =
        ((id, c) :: r.connections).countP (·.2.isUpload) := rfl
    rw [hcount, List.countP_cons, connectionCount]
    cases hupload : c.isUpload <;> simp [hupload]

theorem pendingCount_settle (r : Reactor I) (id : Nat) (next : Option Connection)
    (s : Serving I) :
    (r.settle id (next, s)).pendingCount =
      r.pendingCount + (next.map fun c => (!c.isUpload).toNat).getD 0 := by
  rw [pendingCount_eq_countP, pendingCount_eq_countP]
  cases next with
  | none => rfl
  | some c =>
    have hcount : ((r.settle id (some c, s)).connections.countP fun e => !e.2.isUpload) =
        ((id, c) :: r.connections).countP fun e => !e.2.isUpload := rfl
    rw [hcount, List.countP_cons]
    cases hupload : c.isUpload <;> simp [hupload]

namespace Admitted

theorem start (config : ServerConfig) (engine : Engine I) : (start config engine).Admitted where
  numbered := .start config engine
  uploads := Nat.zero_le _
  pending := Nat.zero_le _

theorem accept (admitted : r.Admitted) (usable : Bool) : (r.act (.accept usable)).Admitted := by
  have hnumbered := admitted.numbered.act (.accept usable)
  rcases r.accept_cases usable with ⟨-, h⟩ | ⟨-, -, h⟩ | ⟨room, -, h⟩ <;>
    rw [Reactor.act, h] at hnumbered ⊢
  · exact ⟨hnumbered, admitted.uploads, admitted.pending⟩
  · exact admitted
  · refine ⟨hnumbered, ?_, ?_⟩
    · rw [connectionCount, List.countP_cons_of_neg Bool.noConfusion]
      exact admitted.uploads
    · rw [pendingCount_eq_countP] at room ⊢
      rw [List.countP_cons_of_pos rfl]
      exact room

/-- The connection that is visited is not counted meanwhile, so the limit is met again when it comes
back. -/
theorem visit (admitted : r.Admitted) (id : Nat) (h : Happening) :
    (r.act (.visit id h)).Admitted := by
  have hnumbered := admitted.numbered.visit id h
  cases found : r.connections.lookup id with
  | none => rwa [Reactor.act, serve_of_absent found]
  | some c =>
    have huploads := admitted.uploads
    have hpending := admitted.pending
    rw [connectionCount_without admitted.numbered found] at huploads
    rw [pendingCount_without admitted.numbered found] at hpending
    rw [Reactor.act, serve_of_found found] at hnumbered ⊢
    rcases houtcome : (r.without id).serveConnection c h r.serving with ⟨_ | next, s⟩
    · rw [houtcome] at hnumbered
      refine ⟨hnumbered, ?_, ?_⟩
      · rw [connectionCount_settle]
        exact Nat.le_trans (Nat.le_add_right _ _) huploads
      · rw [pendingCount_settle]
        exact Nat.le_trans (Nat.le_add_right _ _) hpending
    · rw [houtcome] at hnumbered
      have honward : (r.without id).Onward c next := onward (congrArg Prod.fst houtcome)
      have hroom := honward.room
      have hkind : c.isUpload = true → next.isUpload = true := fun hc =>
        next.isUpload_iff.mpr (Nat.lt_of_lt_of_le (c.isUpload_iff.mp hc) honward.forward)
      have hconfig : (r.without id).config = r.config := rfl
      rw [hconfig] at hroom
      refine ⟨hnumbered, ?_, ?_⟩
      · have hlimit : ((r.without id).settle id (some next, s)).config = r.config := rfl
        rw [connectionCount_settle, hlimit, Option.map_some, Option.getD_some]
        cases hnext : next.isUpload with
        | false => exact Nat.le_trans (Nat.le_add_right _ _) huploads
        | true =>
          rcases hroom hnext with hc | hc
          · rwa [hc] at huploads
          · exact hc
      · rw [pendingCount_settle, Option.map_some, Option.getD_some]
        cases hnext : next.isUpload with
        | true => exact Nat.le_trans (Nat.le_add_right _ _) hpending
        | false =>
          have hc : c.isUpload = false := Bool.eq_false_iff.mpr fun hc => by
            rw [hkind hc] at hnext
            cases hnext
          rwa [hc] at hpending

theorem act (admitted : r.Admitted) (input : Input I) : (r.act input).Admitted := by
  cases input with
  | accept usable => exact admitted.accept usable
  | visit id h => exact admitted.visit id h
  | share engine =>
    exact ⟨admitted.numbered.act (.share engine), admitted.uploads, admitted.pending⟩

/-- By induction on the steps. -/
theorem run (config : ServerConfig) (engine : Engine I) (inputs : List (Input I)) :
    ((Reactor.start config engine).run inputs).Admitted :=
  trace_induction (motive := fun _ r => r.Admitted) _ (.start config engine)
    (fun _ _ input admitted => admitted.act input) inputs

end Admitted

/-! ### The stages of a connection -/

/-- The stage of the connection with a number, if the number was given out. -/
def stage? (r : Reactor I) (id : Nat) : Option Stage :=
  match r.connections.lookup id with
  | some c => some c.stage
  | none => if id < r.nextId then some .gone else none

private theorem stage?_of_gone (given : id < r.nextId) (absent : r.connections.lookup id = none) :
    r.stage? id = some .gone := by
  simp only [stage?, absent, if_pos given]

private theorem stage?_of_found (found : r.connections.lookup id = some c) :
    r.stage? id = some c.stage := by
  simp only [stage?, found]

/-- A step takes a connection to a later stage, if it takes it anywhere. -/
theorem stage?_act (numbered : r.Numbered) (input : Input I) {stage : Stage}
    (now : r.stage? id = some stage) :
    ∃ later, (r.act input).stage? id = some later ∧ stage.rank ≤ later.rank := by
  have hgiven : id < r.nextId := by
    refine Nat.lt_of_not_le fun new => ?_
    simp [stage?, numbered.lookup_eq_none new, Nat.not_lt.mpr new] at now
  have hlater : id < (r.act input).nextId := Nat.lt_of_lt_of_le hgiven (r.nextId_le_act input)
  -- Whatever the step is, the connection is gone, as it was, or it was visited.
  have hsame (same : (r.act input).connections.lookup id = r.connections.lookup id) :
      ∃ later, (r.act input).stage? id = some later ∧ stage.rank ≤ later.rank := by
    refine ⟨stage, ?_, Nat.le_refl _⟩
    simp only [stage?, same, hlater, hgiven, if_true] at now ⊢
    exact now
  cases input with
  | accept usable => exact hsame (lookup_accept_of_ne (Nat.ne_of_lt hgiven) usable)
  | share engine => exact hsame rfl
  | visit visited h =>
    by_cases hid : id = visited
    · subst hid
      cases found : r.connections.lookup id with
      | none =>
        refine hsame ?_
        rw [act, serve_of_absent found]
      | some c =>
        have hafter := lookup_visit_self found h
        rw [stage?_of_found found, Option.some.injEq] at now
        subst now
        cases goes : ((r.without id).serveConnection c h r.serving).1 with
        | none =>
          rw [goes] at hafter
          exact ⟨.gone, stage?_of_gone hlater hafter, c.stage.rank_le_gone⟩
        | some next =>
          rw [goes] at hafter
          exact ⟨next.stage, stage?_of_found hafter, (onward goes).forward⟩
    · exact hsame (lookup_visit_of_ne hid h)

/-- By induction on the rest of the run. -/
theorem stage?_run (numbered : r.Numbered) (inputs : List (Input I)) {stage : Stage}
    (now : r.stage? id = some stage) :
    ∃ later, (r.run inputs).stage? id = some later ∧ stage.rank ≤ later.rank := by
  induction inputs generalizing r stage with
  | nil => exact ⟨stage, now, Nat.le_refl _⟩
  | cons input rest ih =>
    obtain ⟨next, hnext, hrank⟩ := stage?_act numbered input now
    obtain ⟨later, hlater, hrest⟩ := ih (numbered.act input) hnext
    exact ⟨later, hlater, Nat.le_trans hrank hrest⟩

/-! ### Clients that are turned away -/

/-- A client is turned away: it comes in when too many connections are pending already, or asks for
a WebSocket when there are as many upload connections as there may be. -/
inductive TurnsAway (r : Reactor I) : Input I → Prop
  | overflow {usable : Bool} (full : maxPending ≤ r.pendingCount) : TurnsAway r (.accept usable)
  | crowded {id : Nat} {h : Happening} (found : r.connections.lookup id = some .pending)
      (asks : h.AsksForUpload) (full : r.config.maxClients ≤ r.connectionCount) :
      TurnsAway r (.visit id h)

theorem serve_of_crowded (numbered : r.Numbered) (found : r.connections.lookup id = some .pending)
    (asks : h.AsksForUpload) (full : r.config.maxClients ≤ r.connectionCount) :
    r.serve id h = ([.response (.text 503 "Too many connections")],
      { r.without id with metrics := refuse r.metrics }) := by
  rw [connectionCount_without numbered found] at full
  have hserve := servePending_of_crowded (r := r.without id) (s := r.serving) asks full
  rw [serve_of_found found, serveConnection, hserve]
  rfl

/-- The one client that is turned away is counted and its connection ends. All else is as it was. -/
theorem act_of_turnsAway (numbered : r.Numbered) {input : Input I} (away : r.TurnsAway input) :
    r.act input = { r with
      metrics := refuse r.metrics
      connections := r.connections.filter fun c => !input.visits c.1 } := by
  cases away with
  | overflow full =>
    have hkeep : r.connections.filter (fun _ => !false) = r.connections :=
      List.filter_eq_self.mpr fun _ _ => rfl
    simp only [act, accept, ge_iff_le, full, if_true, Input.visits, hkeep]
  | @crowded id h found asks full =>
    rw [act, serve_of_crowded numbered found asks full]
    have hsame : (fun c : Nat × Connection => c.1 != id) = fun c => !(id == c.1) :=
      funext fun c => by rw [bne, BEq.comm]
    simp only [without, hsame, Input.visits]

/-- Nothing else is counted as a refusal. -/
theorem refused_of_not_turnsAway (numbered : r.Numbered) {input : Input I}
    (stays : ¬ r.TurnsAway input) :
    (r.act input).metrics.connectionsRefused = r.metrics.connectionsRefused := by
  cases input with
  | accept usable =>
    rcases r.accept_cases usable with ⟨full, -⟩ | ⟨-, -, h⟩ | ⟨-, -, h⟩
    · exact absurd (.overflow full) stays
    · rw [act, h]
    · rw [act, h]
  | share engine => rfl
  | visit id h =>
    cases found : r.connections.lookup id with
    | none => rw [act, serve_of_absent found]
    | some c =>
      rw [act, serve_of_found found]
      cases c with
      | pending =>
        refine ((r.without id).waited h r.serving).refused fun crowded => ?_
        obtain ⟨asks, full⟩ := crowded
        have hcount : r.connectionCount = (r.without id).connectionCount :=
          connectionCount_without numbered found
        exact stays (.crowded found asks (hcount ▸ full))
      | handshaking => exact ((r.without id).greeted h r.serving).refused
      | upload u => exact u.serve_refused _ _ _ _ r.serving

/-! ### The connections of a run -/

/-- However many connections come in, in whatever order they are visited and whatever their sockets
answer: after every step of a run there are no more upload connections than the configuration allows
and no more pending ones than there may be, and both numbers together are the number of all
connections. The connections have distinct numbers, and a connection that is registered gets a
number that none of them has. A connection never goes back to an earlier stage in the rest of the
run. A client that is turned away is counted once and leaves all else as it was, one whose request
was read is told so, and nothing else is counted as a refusal. -/
theorem admission_of_history (config : ServerConfig) (engine : Engine I) (inputs : List (Input I)) :
    let r := (start config engine).run inputs
    (r.connectionCount ≤ config.maxClients ∧ r.pendingCount ≤ maxPending ∧
      r.pendingCount + r.connectionCount = r.connections.length) ∧
    ((r.connections.map Prod.fst).Nodup ∧
      ∀ usable number, (r.accept usable).1 = some number → r.connections.lookup number = none) ∧
    (∀ rest id stage, r.stage? id = some stage →
      ∃ later, (r.run rest).stage? id = some later ∧ stage.rank ≤ later.rank) ∧
    (∀ input, r.TurnsAway input → r.act input = { r with
      metrics := refuse r.metrics
      connections := r.connections.filter fun c => !input.visits c.1 }) ∧
    (∀ id h, r.TurnsAway (.visit id h) →
      (r.serve id h).1 = [.response (.text 503 "Too many connections")]) ∧
    ∀ input, ¬ r.TurnsAway input →
      (r.act input).metrics.connectionsRefused = r.metrics.connectionsRefused := by
  intro r
  have hadmitted : r.Admitted := .run config engine inputs
  have hnumbered := hadmitted.numbered
  have huploads := hadmitted.uploads
  rw [run_config] at huploads
  refine ⟨⟨huploads, hadmitted.pending, r.pendingCount_add_connectionCount⟩,
    ⟨hnumbered.distinct, fun usable number hgiven => ?_⟩,
    fun rest id stage now => stage?_run hnumbered rest now,
    fun input away => act_of_turnsAway hnumbered away, fun id h away => ?_,
    fun input stays => refused_of_not_turnsAway hnumbered stays⟩
  · rcases r.accept_cases usable with ⟨-, h⟩ | ⟨-, -, h⟩ | ⟨-, -, h⟩ <;> rw [h] at hgiven
    · cases hgiven
    · cases hgiven
    · cases hgiven
      exact hnumbered.lookup_eq_none (Nat.le_refl _)
  · cases away with
    | crowded found asks full => rw [serve_of_crowded hnumbered found asks full]

end Reactor

end PixelHost
