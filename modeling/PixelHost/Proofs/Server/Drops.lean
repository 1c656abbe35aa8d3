import Mathlib.Algebra.BigOperators.Group.Finset.Basic
import PixelHost.Proofs.Server.Courses

/-!
# Replies that are dropped, and replies that are sent

Each session counts the replies that it drops, and the server counts those of all sessions. A
session is only used in visits to its connection, and a visit adds to the counter of the server what
it adds to that of the session. So at any time the counter of the server is the sum over all
connections there have ever been, and a connection that ends takes nothing out of it.

The replies that were not dropped are sent in the order of the messages, at most one in a visit.

## Main definitions

* `Reactor.dropsOf` — the replies that the session of a connection has dropped.
* `Reactor.Accounted` — the counter of the server is the sum of those.

## Main results

* `Reactor.drops_act` — what a step adds to the counter of the server.
* `Reactor.drops_of_history` — the counter, and the replies of each connection, after a run.
-/

namespace PixelHost

variable {I : Interpreter}

namespace Reactor

variable {config : ServerConfig} {id : Nat} {steps : List (Step I)} {step : Step I} {r : Reactor I}
  {input : Input I} {h : Happening} {u : Upload}

/-! ### The counter of the server -/

/-- The number of replies that the session of a connection has dropped, also of one that is gone. -/
def dropsOf (config : ServerConfig) (id : Nat) (steps : List (Step I)) : Nat :=
  (sessionOf config id steps).2.outbox.dropped

theorem dropsOf_of_quiet (quiet : step.Quiet id) (steps : List (Step I)) :
    dropsOf config id (steps ++ [step]) = dropsOf config id steps := by
  obtain ⟨-, huses, -⟩ := quiet.same steps
  rw [dropsOf, sessionOf, huses, dropsOf, sessionOf]

/-- A visit adds to the counter of the server what it adds to that of the session. -/
theorem drops_visit (tracked : Tracked config id steps r)
    (found : r.connections.lookup id = some (.upload u)) :
    (r.act (.visit id h)).metrics.notificationsDropped + dropsOf config id steps =
      r.metrics.notificationsDropped + dropsOf config id (steps ++ [⟨r, .visit id h⟩]) := by
  obtain ⟨-, hmetrics, -⟩ := act_visit_upload (h := h) found
  cases hclosing : u.closing with
  | true =>
    have huses := (told_visit (h := h) found steps).2.1
    rw [Upload.uses, if_pos hclosing, List.append_nil] at huses
    rw [hmetrics,
      (Upload.serve_of_closing hclosing h.arrived h.flush h.send h.timedOut r.serving).1,
      dropsOf, dropsOf, sessionOf, sessionOf, huses]
    rfl
  | false =>
    obtain ⟨-, hsteady, hsession⟩ := tracked.steady found hclosing
    have hpassed := Upload.passed hsteady h.arrived h.flush h.send h.timedOut r.serving
    rw [hmetrics, dropsOf, dropsOf, tracked.sessionOf_visit found hclosing, ← hsession]
    exact hpassed.drops

/-- A sum in which one summand is replaced. -/
private theorem sum_of_one {n : Nat} {f g : Nat → Nat} (given : id < n)
    (others : ∀ other, other ≠ id → g other = f other) :
    ∑ i ∈ Finset.range n, g i + f id = ∑ i ∈ Finset.range n, f i + g id := by
  have hid := Finset.mem_range.mpr given
  have hsame : ∑ i ∈ (Finset.range n).erase id, g i = ∑ i ∈ (Finset.range n).erase id, f i :=
    Finset.sum_congr rfl fun i hi => others i (Finset.ne_of_mem_erase hi)
  rw [← Finset.add_sum_erase _ g hid, ← Finset.add_sum_erase _ f hid, hsame]
  omega

/-- The counter of the server is the sum over all numbers that were given out, and a connection that
has not come in yet has dropped nothing. -/
structure Accounted (config : ServerConfig) (steps : List (Step I)) (r : Reactor I) : Prop where
  sum : r.metrics.notificationsDropped = ∑ id ∈ Finset.range r.nextId, dropsOf config id steps
  new : ∀ id, r.nextId ≤ id → dropsOf config id steps = 0

theorem drops_act (accounted : Accounted config steps r) (numbered : r.Numbered)
    (tracked : ∀ id, Tracked config id steps r) (input : Input I) :
    Accounted config (steps ++ [⟨r, input⟩]) (r.act input) := by
  have hquiet (id : Nat) (closed : Step.upload? id ⟨r, input⟩ = none) :
      dropsOf config id (steps ++ [⟨r, input⟩]) = dropsOf config id steps :=
    dropsOf_of_quiet (passes numbered closed).quiet steps
  have hnew : ∀ id, r.nextId ≤ id → dropsOf config id (steps ++ [⟨r, input⟩]) = 0 := by
    intro id new
    rw [hquiet id, accounted.new id new]
    cases hupload : Step.upload? id ⟨r, input⟩ with
    | none => rfl
    | some visited =>
      obtain ⟨-, found⟩ := visited_of_upload? hupload
      rw [numbered.lookup_eq_none new] at found
      cases found
  have hless := r.nextId_le_act input
  have hrange : ∑ id ∈ Finset.range r.nextId, dropsOf config id (steps ++ [⟨r, input⟩]) =
      ∑ id ∈ Finset.range (r.act input).nextId, dropsOf config id (steps ++ [⟨r, input⟩]) :=
    Finset.sum_subset (Finset.range_mono hless) fun id _ hid =>
      hnew id (Nat.le_of_not_lt fun h => hid (Finset.mem_range.mpr h))
  refine ⟨?_, fun id new => hnew id (Nat.le_trans hless new)⟩
  rw [← hrange]
  by_cases hnone : ∀ id, Step.upload? id ⟨r, input⟩ = none
  · rw [(metrics_of_still hnone).1, accounted.sum]
    exact Finset.sum_congr rfl fun id _ => (hquiet id (hnone id)).symm
  · obtain ⟨id, hid⟩ := not_forall.mp hnone
    obtain ⟨⟨u, h⟩, hupload⟩ := Option.ne_none_iff_exists'.mp hid
    obtain ⟨rfl, found⟩ := visited_of_upload? hupload
    have hvisit := drops_visit (h := h) (tracked id) found
    have hgiven : id < r.nextId := numbered.given _ (mem_of_lookup found)
    have hone := sum_of_one hgiven fun other ne =>
      hquiet other (by simp only [Step.upload?, if_neg (Ne.symm ne)])
    have hsum := accounted.sum
    omega

/-! ### Replies -/

/-- No more than one reply is sent on a connection in a step. -/
theorem Tracked.single (tracked : Tracked config id steps r) (numbered : r.Numbered)
    (input : Input I) :
    ((Step.sent id ⟨r, input⟩).filterMap Outgoing.reply?).length ≤ 1 := by
  cases hupload : Step.upload? id ⟨r, input⟩ with
  | none =>
    rw [(Reactor.passes numbered hupload).quiet.replies]
    exact Nat.zero_le _
  | some visited =>
    obtain ⟨u, h⟩ := visited
    obtain ⟨rfl, found⟩ := visited_of_upload? hupload
    cases hclosing : u.closing with
    | false => exact (tracked.sent_visit found hclosing).2.1
    | true =>
      rw [(act_visit_upload found).2.2,
        (Upload.serve_of_closing hclosing h.arrived h.flush h.send h.timedOut r.serving).1]
      exact Nat.zero_le _

/-- Of what is sent on all connections, the replies on one. -/
def repliesTo (id : Nat) (sent : List (Nat × Outgoing)) : List String :=
  sent.filterMap fun e => if e.1 = id then e.2.reply? else none

theorem repliesTo_visit (id visited : Nat) (sent : List Outgoing) :
    repliesTo id (sent.map (visited, ·)) =
      if visited = id then sent.filterMap Outgoing.reply? else [] := by
  rw [repliesTo, List.filterMap_map]
  split
  · next hid => simp only [Function.comp_def, if_pos hid]
  · next hid => simp [if_neg hid]

theorem repliesTo_serveAll (r : Reactor I) (visits : List (Nat × Happening)) (id : Nat) :
    repliesTo id (r.serveAll visits).1 =
      repliesOn id (r.trace (visits.map fun (id, h) => .visit id h)) := by
  induction visits generalizing r with
  | nil => rfl
  | cons visit rest ih =>
    obtain ⟨visited, h⟩ := visit
    have hfirst := repliesTo_visit id visited (r.serve visited h).1
    have hrest := ih (r.serve visited h).2
    simp only [repliesTo, repliesOn, sentOn, serveAll, List.map_cons, trace, List.flatMap_cons,
      List.filterMap_append, Step.sent] at hfirst hrest ⊢
    rw [hfirst, hrest]
    split
    · next hid =>
      subst hid
      rfl
    · rfl

/-- What a pass sends is what is sent in its steps. -/
theorem repliesTo_pass (r : Reactor I) (usable : List Bool) (visits : List (Nat × Happening))
    (id : Nat) :
    repliesTo id (r.pass usable visits).1 = repliesOn id (r.trace (passInputs usable visits)) := by
  have hnothing : sentOn id (r.trace (usable.map .accept)) = [] := by
    induction usable generalizing r with
    | nil => rfl
    | cons first rest ih => exact ih _
  rw [pass, repliesTo_serveAll, acceptAll_eq_run, passInputs, trace_append, repliesOn, repliesOn,
    sentOn_append, hnothing, List.nil_append]

/-- No more replies are sent than there are visits. -/
theorem length_repliesOn (single : ∀ step ∈ steps,
      ((Step.sent id step).filterMap Outgoing.reply?).length ≤ 1) :
    (repliesOn id steps).length ≤ steps.countP fun step => step.input.visits id := by
  induction steps with
  | nil => exact Nat.le_refl _
  | cons step rest ih =>
    have hrest := ih fun other hother => single other (List.mem_cons_of_mem _ hother)
    have hfirst := single step List.mem_cons_self
    simp only [repliesOn, sentOn, List.flatMap_cons, List.filterMap_append, List.length_append,
      List.countP_cons] at hrest ⊢
    cases hvisits : step.input.visits id with
    | true =>
      simp only [if_true]
      omega
    | false =>
      have hnothing : step.sent id = [] := by
        refine List.eq_nil_iff_forall_not_mem.mpr fun o mem => ?_
        rw [visits_of_mem_sent mem] at hvisits
        cases hvisits
      simpa [hnothing] using hrest

/-- In a pass, a connection is visited once at most. -/
theorem countP_pass (r : Reactor I) (usable : List Bool) {visits : List (Nat × Happening)}
    (distinct : (visits.map Prod.fst).Nodup) (id : Nat) :
    (r.trace (passInputs usable visits)).countP (fun step => step.input.visits id) ≤ 1 := by
  have htrace (r : Reactor I) (inputs : List (Input I)) :
      (r.trace inputs).countP (fun step => step.input.visits id) =
        inputs.countP fun input => input.visits id := by
    induction inputs generalizing r with
    | nil => rfl
    | cons input rest ih => simp only [trace, List.countP_cons, ih]
  have haccepts :
      (usable.map Input.accept).countP (fun input : Input I => input.visits id) = 0 := by
    simp [Input.visits]
  have hvisits : (visits.map fun e => Input.visit (I := I) e.1 e.2).countP
      (fun input => input.visits id) = (visits.map Prod.fst).count id := by
    simp only [List.count, List.countP_map]
    rfl
  rw [htrace, passInputs, List.countP_append, haccepts, hvisits, Nat.zero_add]
  exact List.nodup_iff_count_le_one.mp distinct id

/-! ### Runs -/

/-- The session of a connection has dropped the replies that it did not keep, and the replies that
were sent are the first ones that it kept. -/
theorem Tracked.accounts (tracked : Tracked config id steps r) :
    dropsOf config id steps =
        (Session.answers (sessionOf config id steps).1).countP (fun answer => !answer.kept) ∧
      repliesOn id steps <+:
        ((Session.answers (sessionOf config id steps).1).filter Session.Answer.kept).map
          Session.Answer.reply := by
  have haccounts := (Session.Accounts.start config.maxUpload config.outboxDepth).history
    (usesOf id steps)
  rw [List.nil_append, ← sessionOf] at haccounts
  have hdropped := haccounts.dropped
  have hall := (Session.answers (sessionOf config id steps).1).length_eq_countP_add_countP
    Session.Answer.kept
  simp only [Bool.not_eq_true, Bool.decide_eq_false] at hall
  refine ⟨?_, ?_⟩
  · rw [← List.countP_eq_length_filter] at hdropped
    rw [dropsOf]
    omega
  · rw [← haccounts.order]
    exact tracked.replies.trans (List.prefix_append _ _)

/-- In any run of a reactor, with any connections that come in, are read, are written to and end:
the replies that the server has counted as dropped are the ones that the sessions of all connections
have dropped, whether these are still there or not. The session of each connection is given its own
messages in the order in which they arrive, and replies to them in this order. What was sent on the
connection are the first ones of the replies that were not dropped. A pass sends one more at
most. -/
theorem drops_of_history (config : ServerConfig) (engine : Engine I) (inputs : List (Input I)) :
    let r := (start config engine).run inputs
    let steps := (start config engine).trace inputs
    r.metrics.notificationsDropped = ∑ id ∈ Finset.range r.nextId, dropsOf config id steps ∧
    (∀ id,
      let answers := Session.answers (sessionOf config id steps).1
      (∀ u, r.connections.lookup id = some (.upload u) →
        u.session = (sessionOf config id steps).2) ∧
      Session.given (usesOf id steps) <+: (arrivedOn id steps).filterMap Incoming.message? ∧
      answers.map Session.Answer.reply <+: Session.replies (usesOf id steps) ∧
      dropsOf config id steps = answers.countP (fun answer => !answer.kept) ∧
      repliesOn id steps <+: (answers.filter Session.Answer.kept).map Session.Answer.reply) ∧
    ∀ usable visits, (visits.map Prod.fst).Nodup → ∀ id,
      let after := inputs ++ passInputs usable visits
      let sent := repliesTo id (r.pass usable visits).1
      (r.pass usable visits).2 = (start config engine).run after ∧
        repliesOn id ((start config engine).trace after) = repliesOn id steps ++ sent ∧
        sent.length ≤ 1 := by
  intro r steps
  have htracked : ∀ id, Tracked config id steps r := tracked_run config engine inputs
  refine ⟨?_, fun id => ⟨fun u hu => ?_, ?_, ?_, (htracked id).accounts⟩,
    fun usable visits distinct id => ⟨?_, ?_, ?_⟩⟩
  · exact (tracked_induction (motive := Accounted config) config engine
      ⟨rfl, fun _ _ => rfl⟩ (fun _ _ input numbered tracked accounted =>
        drops_act accounted numbered tracked input) inputs).2.sum
  · rw [((htracked id).live u hu).1]
    rfl
  · rw [(htracked id).used.given]
    exact (htracked id).cut.handed_prefix.trans (Incoming.intake_handed _ _)
  · rw [sessionOf, (htracked id).used.answers]
    exact List.take_prefix _ _
  · rw [pass_eq_run, run_append]
  · rw [trace_append, repliesTo_pass, repliesOn, sentOn_append, List.filterMap_append]
    rfl
  · rw [repliesTo_pass]
    refine Nat.le_trans (length_repliesOn fun step mem => ?_) (r.countP_pass usable distinct id)
    have hmem : step ∈ (start config engine).trace (inputs ++ passInputs usable visits) := by
      rw [trace_append]
      exact List.mem_append_right _ mem
    obtain ⟨numbered, front, tracked⟩ := exists_tracked hmem
    exact (tracked id).single numbered step.input

end Reactor

end PixelHost
