import PixelHost.Proofs.Server.Passes
import PixelHost.Proofs.Server.Visits

/-!
# The course of a connection

What a run of a reactor does to the upload connection with a number is told by four lists, each of
which only grows: what has arrived on it, the uses of its session, the replies and the closings that
were sent on it. They depend on the visits to this connection only, however many others are visited
in between, and they stay as they are when the connection is gone.

## Main definitions

* `Reactor.arrivedOn`, `Reactor.usesOf`, `Reactor.repliesOn`, `Reactor.closesOn` — the four lists.
* `Reactor.sessionOf` — the session of a connection, also of one that is gone.
* `Reactor.Tracked` — how the lists hang together.

## Main results

* `Reactor.Tracked.act` — what every step keeps.
* `Reactor.tracked_run`, `Reactor.exists_tracked` — the connections after a run, and in its steps.
-/

namespace PixelHost

variable {I : Interpreter}

namespace Outgoing

/-- The text of a reply. -/
def reply? : Outgoing → Option String
  | reply text => some text
  | response _ | close .. => none

/-- The closing of a connection is started. -/
def isClose : Outgoing → Bool
  | close .. => true
  | response _ | reply _ => false

end Outgoing

/-- Of what a pass sends, the replies and the closings can be told apart. -/
theorem Intake.told_notices (k : Intake) (replies : List String) :
    (k.notices ++ replies.map Outgoing.reply).filterMap Outgoing.reply? = replies ∧
      (k.notices ++ replies.map Outgoing.reply).filter Outgoing.isClose = k.notices := by
  have hreply : Outgoing.reply? ∘ Outgoing.reply = some := rfl
  have hclose : Outgoing.isClose ∘ Outgoing.reply = fun _ => false := rfl
  rw [List.filterMap_append, List.filterMap_map, hreply, List.filterMap_some, List.filter_append,
    List.filter_map, hclose, Intake.notices]
  cases k.isOverlong <;> simp [Outgoing.reply?, Outgoing.isClose]

namespace Reactor

/-! ### What is told of a connection -/

/-- The upload connection with a number, if it is visited in a step. -/
def Step.upload? (id : Nat) (s : Step I) : Option (Upload × Happening) :=
  match s.input with
  | .visit visited h =>
    if visited = id then
      match s.before.connections.lookup id with
      | some (.upload u) => some (u, h)
      | _ => none
    else none
  | .accept _ | .share _ => none

/-- What has arrived on an upload connection in a run, also after its closing was started. -/
def arrivedOn (id : Nat) (steps : List (Step I)) : List Incoming :=
  steps.flatMap fun s => match s.upload? id with
    | some (_, h) => Incoming.available h.arrived
    | none => []

/-- The uses of the session of an upload connection in a run. -/
def usesOf (id : Nat) (steps : List (Step I)) : List (Session.Input I) :=
  steps.flatMap fun s => match s.upload? id with
    | some (u, h) => u.uses h.arrived h.flush s.before.serving
    | none => []

/-- The replies that are sent on a connection in a run. -/
def repliesOn (id : Nat) (steps : List (Step I)) : List String :=
  (sentOn id steps).filterMap Outgoing.reply?

/-- The closings that are started on a connection in a run. -/
def closesOn (id : Nat) (steps : List (Step I)) : List Outgoing :=
  (sentOn id steps).filter Outgoing.isClose

/-- What came of the uses of the session of a connection, and the session after them. -/
def sessionOf (config : ServerConfig) (id : Nat) (steps : List (Step I)) :
    List Session.Output × Session :=
  (Session.start config.maxUpload config.outboxDepth).history (usesOf id steps)

/-- What is taken on an upload connection in a run. -/
def intakeOf (id : Nat) (steps : List (Step I)) : Intake :=
  steps.foldl (fun k s => match s.upload? id with
    | some (u, h) => k.andThen (u.intake s.before.engine h.arrived)
    | none => k) ⟨[], none⟩

variable {config : ServerConfig} {id : Nat} {steps : List (Step I)} {step : Step I}

/-- A step that does nothing to an upload connection with a number, and sends no more than responses
on the connection. -/
structure Step.Quiet (id : Nat) (s : Step I) : Prop where
  closed : s.upload? id = none
  sent : ∀ o ∈ s.sent id, ∃ response, o = .response response

theorem Step.Quiet.replies (quiet : step.Quiet id) :
    (step.sent id).filterMap Outgoing.reply? = [] := by
  refine List.filterMap_eq_nil_iff.mpr fun o ho => ?_
  obtain ⟨response, rfl⟩ := quiet.sent o ho
  rfl

/-- A step that does nothing adds nothing. -/
theorem Step.Quiet.same (quiet : step.Quiet id) (steps : List (Step I)) :
    arrivedOn id (steps ++ [step]) = arrivedOn id steps ∧
      usesOf id (steps ++ [step]) = usesOf id steps ∧
      intakeOf id (steps ++ [step]) = intakeOf id steps ∧
      repliesOn id (steps ++ [step]) = repliesOn id steps ∧
      closesOn id (steps ++ [step]) = closesOn id steps := by
  have hcloses : (step.sent id).filter Outgoing.isClose = [] := by
    refine List.filter_eq_nil_iff.mpr fun o ho => ?_
    obtain ⟨response, rfl⟩ := quiet.sent o ho
    exact Bool.noConfusion
  simp [arrivedOn, usesOf, intakeOf, repliesOn, closesOn, sentOn, quiet.closed, quiet.replies,
    hcloses]

/-! ### Connections that are not open yet -/

/-- The connection with a number has not been opened so far. -/
structure Early (r : Reactor I) (id : Nat) : Prop where
  closed : ∀ u, r.connections.lookup id ≠ some (.upload u)
  new : r.connections.lookup id = none → r.nextId ≤ id

variable {r : Reactor I} {input : Input I} {h : Happening} {c : Connection} {u : Upload}

theorem upload?_visit_self (found : r.connections.lookup id = some (.upload u)) :
    Step.upload? id ⟨r, .visit id h⟩ = some (u, h) := by
  simp only [Step.upload?, if_true, found]

theorem sent_visit_self (found : r.connections.lookup id = some c) :
    Step.sent id ⟨r, .visit id h⟩ = ((r.without id).serveConnection c h r.serving).2.sent := by
  simp only [Step.sent, if_true, serve_of_found found]

/-- An upload connection that is found in a step is visited in it. -/
theorem visited_of_upload? (found : step.upload? id = some (u, h)) :
    step.input = .visit id h ∧ step.before.connections.lookup id = some (.upload u) := by
  obtain ⟨r, input⟩ := step
  cases input with
  | accept | share => cases found
  | visit visited h' =>
    simp only [Step.upload?] at found
    split at found
    · next hid =>
      subst hid
      split at found
      · next v hlookup =>
        cases found
        exact ⟨rfl, hlookup⟩
      · cases found
    · cases found

/-- What is told of a connection after a visit while it is open. -/
theorem told_visit (found : r.connections.lookup id = some (.upload u)) (steps : List (Step I)) :
    let step : Step I := ⟨r, .visit id h⟩
    arrivedOn id (steps ++ [step]) = arrivedOn id steps ++ Incoming.available h.arrived ∧
      usesOf id (steps ++ [step]) = usesOf id steps ++ u.uses h.arrived h.flush r.serving ∧
      intakeOf id (steps ++ [step]) = (intakeOf id steps).andThen (u.intake r.engine h.arrived) ∧
      repliesOn id (steps ++ [step]) =
        repliesOn id steps ++ (step.sent id).filterMap Outgoing.reply? ∧
      closesOn id (steps ++ [step]) =
        closesOn id steps ++ (step.sent id).filter Outgoing.isClose := by
  simp [arrivedOn, usesOf, intakeOf, repliesOn, closesOn, sentOn, upload?_visit_self found]

/-- What is left of an upload connection that is visited. -/
theorem lookup_visit_upload (found : r.connections.lookup id = some (.upload u)) :
    (r.act (.visit id h)).connections.lookup id =
      (u.serve h.arrived h.flush h.send h.timedOut r.serving).1.map .upload :=
  lookup_visit_self found h

/-- What a visit to an upload connection changes besides. -/
theorem act_visit_upload (found : r.connections.lookup id = some (.upload u)) :
    let outcome := u.serve h.arrived h.flush h.send h.timedOut r.serving
    (r.act (.visit id h)).engine = outcome.2.engine ∧
      (r.act (.visit id h)).metrics = outcome.2.metrics ∧
      Step.sent id ⟨r, .visit id h⟩ = outcome.2.sent := by
  refine ⟨?_, ?_, sent_visit_self found⟩ <;>
  · rw [act, serve_of_found found]
    rfl

theorem not_early_visit (numbered : r.Numbered)
    (found : r.connections.lookup id = some (.upload u)) :
    ¬ (r.act (.visit id h)).Early id := by
  intro early
  cases houtcome : (u.serve h.arrived h.flush h.send h.timedOut r.serving).1 with
  | some v => exact early.closed v (by rw [lookup_visit_upload found, houtcome]; rfl)
  | none =>
    have hnew := early.new (by rw [lookup_visit_upload found, houtcome]; rfl)
    rw [numbered.lookup_eq_none (Nat.le_trans (r.nextId_le_act _) hnew)] at found
    cases found

/-- What a step does to a connection that is not open, or that it does not visit. -/
structure Step.Passes (id : Nat) (s : Step I) : Prop where
  quiet : s.Quiet id
  live : ∀ u, s.after.connections.lookup id = some (.upload u) →
    s.before.connections.lookup id = some (.upload u) ∨
      u = .start s.before.config.maxUpload s.before.config.outboxDepth ∧ s.before.Early id
  early : s.after.Early id → s.before.Early id

/-- A step that leaves the connection with a number as it is. -/
private theorem passes_of_same (closed : Step.upload? id ⟨r, input⟩ = none)
    (sent : Step.sent id ⟨r, input⟩ = [])
    (same : (r.act input).connections.lookup id = r.connections.lookup id)
    (given : r.nextId ≤ (r.act input).nextId) : Step.Passes id ⟨r, input⟩ where
  quiet := ⟨closed, by rw [sent]; exact List.forall_mem_nil _⟩
  live := fun u hu => .inl (same.symm.trans hu)
  early := fun early => ⟨fun u hu => early.closed u (same.trans hu), fun hnone =>
    Nat.le_trans given (early.new (same.trans hnone))⟩

theorem passes (numbered : r.Numbered) (closed : Step.upload? id ⟨r, input⟩ = none) :
    Step.Passes id ⟨r, input⟩ := by
  cases input with
  | share engine => exact passes_of_same closed rfl rfl (Nat.le_refl _)
  | accept usable =>
    by_cases hid : id = r.nextId
    · subst hid
      have hnone := numbered.lookup_eq_none (Nat.le_refl r.nextId)
      refine ⟨⟨closed, List.forall_mem_nil _⟩, fun u hu => ?_, fun _ => ⟨fun u hu => ?_, fun _ =>
        Nat.le_refl _⟩⟩
      · simp only [Step.after] at hu
        rcases r.accept_cases usable with ⟨-, h⟩ | ⟨-, -, h⟩ | ⟨-, -, h⟩ <;>
          rw [act, h] at hu
        · exact .inl hu
        · exact .inl hu
        · rw [List.lookup_cons_self] at hu
          cases hu
      · rw [hnone] at hu
        cases hu
    · exact passes_of_same closed rfl (lookup_accept_of_ne hid usable) (r.nextId_le_act _)
  | visit visited h =>
    have hgiven := r.nextId_le_act (.visit visited h)
    by_cases hid : visited = id
    · subst hid
      cases found : r.connections.lookup visited with
      | none =>
        have hact : r.act (.visit visited h) = r := by rw [act, serve_of_absent found]
        refine passes_of_same closed ?_ (by rw [hact]) hgiven
        simp only [Step.sent, if_true, serve_of_absent found]
      | some c =>
        have hclosed : ∀ u, c ≠ .upload u := by
          rintro u rfl
          rw [upload?_visit_self found] at closed
          cases closed
        have hearly : r.Early visited := by
          refine ⟨fun u hu => ?_, fun hnone => ?_⟩
          · rw [found] at hu
            exact hclosed u (Option.some.inj hu)
          · rw [found] at hnone
            cases hnone
        have hunopened := unopened hclosed (r.without visited) h r.serving
        refine ⟨⟨closed, fun o ho => ?_⟩, fun u hu => .inr ⟨?_, hearly⟩, fun _ => hearly⟩
        · rw [sent_visit_self found] at ho
          exact (hunopened.sent o ho).resolve_left List.not_mem_nil
        · exact hunopened.opens u ((lookup_visit_self found h).symm.trans hu)
    · refine passes_of_same closed ?_ (lookup_visit_of_ne (Ne.symm hid) h) hgiven
      simp only [Step.sent, if_neg hid]

/-! ### How the lists hang together -/

/-- What is told of a connection in a run. -/
structure Tracked (config : ServerConfig) (id : Nat) (steps : List (Step I)) (r : Reactor I) :
    Prop where
  /-- The session was given what is taken. -/
  used : Session.Used (.start config.maxUpload config.outboxDepth) (intakeOf id steps)
    (usesOf id steps)
  /-- Of what has arrived everything is taken, unless an upload is lost. -/
  cut : (Incoming.intake config.maxUpload (arrivedOn id steps)).Cut (intakeOf id steps)
  /-- The closing was started once if a message was too long. -/
  closes : closesOn id steps = (intakeOf id steps).notices
  /-- The replies that were sent are those that were taken, but for one that could not be sent. -/
  replies : repliesOn id steps <+: Session.taken (sessionOf config id steps).1
  early : r.Early id → usesOf id steps = [] ∧ intakeOf id steps = ⟨[], none⟩
  /-- An open connection has the session that was used, and goes on reading if it is not closing. -/
  live : ∀ u, r.connections.lookup id = some (.upload u) →
    u = .settled (sessionOf config id steps).2 (intakeOf id steps).isOverlong ∧
      ((intakeOf id steps).isOverlong = false → (intakeOf id steps).stop = none) ∧
      repliesOn id steps = Session.taken (sessionOf config id steps).1

namespace Tracked

theorem start (config : ServerConfig) (id : Nat) (engine : Engine I) :
    Tracked config id [] (start config engine) where
  used := .nothing rfl rfl rfl rfl
  cut := .whole
  closes := rfl
  replies := List.nil_prefix
  early := fun _ => ⟨rfl, rfl⟩
  live := fun _ hu => nomatch hu

variable (tracked : Tracked config id steps r)

include tracked

/-- A step that does not visit the connection while it is open changes nothing of what is told. The
connection may be opened by it. -/
theorem passes (same : r.config = config) (passes : Step.Passes id ⟨r, input⟩) :
    Tracked config id (steps ++ [⟨r, input⟩]) (r.act input) := by
  obtain ⟨harrived, huses, hintake, hreplies, hcloses⟩ := passes.quiet.same steps
  have hsession : sessionOf config id (steps ++ [⟨r, input⟩]) = sessionOf config id steps := by
    rw [sessionOf, huses, sessionOf]
  constructor
  · rw [hintake, huses]
    exact tracked.used
  · rw [harrived, hintake]
    exact tracked.cut
  · rw [hcloses, hintake]
    exact tracked.closes
  · rw [hreplies, hsession]
    exact tracked.replies
  · rw [huses, hintake]
    exact fun early => tracked.early (passes.early early)
  · intro u hu
    rw [hintake, hsession, hreplies]
    rcases passes.live u hu with hlive | ⟨rfl, hearly⟩
    · exact tracked.live u hlive
    · obtain ⟨hunused, hnothing⟩ := tracked.early hearly
      have hreplies := tracked.replies
      rw [sessionOf, hunused] at hreplies ⊢
      rw [hnothing, ← same]
      exact ⟨rfl, fun _ => rfl, List.prefix_nil.mp hreplies⟩

/-- A visit to a connection that closes changes nothing of what is told, but for what arrives. -/
theorem drains (numbered : r.Numbered) (found : r.connections.lookup id = some (.upload u))
    (closing : u.closing = true) :
    Tracked config id (steps ++ [⟨r, .visit id h⟩]) (r.act (.visit id h)) := by
  obtain ⟨hu, -, hall⟩ := tracked.live u found
  have hoverlong : (intakeOf id steps).isOverlong = true := by
    rw [hu] at closing
    exact closing
  obtain ⟨shown, hstop⟩ := Intake.exists_of_isOverlong hoverlong
  obtain ⟨hserve, hnext⟩ := Upload.serve_of_closing closing h.arrived h.flush h.send h.timedOut
    r.serving
  obtain ⟨harrived, huses, hintake, hreplies, hcloses⟩ := told_visit (h := h) found steps
  rw [(act_visit_upload found).2.2, hserve] at hreplies hcloses
  have hcut := tracked.cut.andThen (.whole (k := Incoming.intake config.maxUpload
    (Incoming.available h.arrived)))
  rw [Intake.andThen_of_stop hstop] at hintake hcut
  rw [Upload.uses, if_pos closing, List.append_nil] at huses
  have hsession :
      sessionOf config id (steps ++ [⟨r, .visit id h⟩]) = sessionOf config id steps := by
    rw [sessionOf, huses, sessionOf]
  have hsame : repliesOn id (steps ++ [⟨r, .visit id h⟩]) = repliesOn id steps :=
    hreplies.trans (List.append_nil _)
  constructor
  · rw [hintake, huses]
    exact tracked.used
  · rw [harrived, Incoming.intake_append, hintake]
    exact hcut
  · rw [hcloses, hintake]
    exact (List.append_nil _).trans tracked.closes
  · rw [hsame, hsession]
    exact tracked.replies
  · exact fun early => absurd early (not_early_visit numbered found)
  · intro v hv
    rw [lookup_visit_upload found, Option.map_eq_some_iff] at hv
    obtain ⟨w, hw, heq⟩ := hv
    cases heq
    rw [hintake, hsession, hsame, hnext v hw]
    exact tracked.live u found

/-- A connection that is not closing is open between two passes, with the session that was used. -/
theorem steady (found : r.connections.lookup id = some (.upload u)) (opened : u.closing = false) :
    (intakeOf id steps).stop = none ∧ u.Steady ∧
      u.session = (sessionOf config id steps).2 := by
  obtain ⟨hu, hgoes, -⟩ := tracked.live u found
  have hoverlong : (intakeOf id steps).isOverlong = false := by
    rw [hu] at opened
    exact opened
  have hstop := hgoes hoverlong
  refine ⟨hstop, ?_, by rw [hu]; rfl⟩
  rw [hu, hoverlong]
  exact ⟨tracked.used.opened hstop, tracked.used.fresh, rfl⟩

/-- What a visit takes of what arrives in it. -/
theorem cut_visit (found : r.connections.lookup id = some (.upload u))
    (opened : u.closing = false) (arrived : List Incoming) :
    (Incoming.intake config.maxUpload (Incoming.available arrived)).Cut
      (u.intake r.engine arrived) := by
  obtain ⟨-, hsteady, hsession⟩ := tracked.steady found opened
  have hcap : u.session.maxUpload = config.maxUpload := by
    rw [hsession]
    exact tracked.used.cap
  rw [← hcap]
  exact Session.intake_cut hsteady.opened hsteady.fresh r.engine (Incoming.available arrived)

/-- The session is used further in a visit. -/
theorem sessionOf_visit (found : r.connections.lookup id = some (.upload u))
    (opened : u.closing = false) :
    sessionOf config id (steps ++ [⟨r, .visit id h⟩]) =
      ((sessionOf config id steps).1 ++
          (u.session.history (u.uses h.arrived h.flush r.serving)).1,
        (u.session.history (u.uses h.arrived h.flush r.serving)).2) := by
  obtain ⟨-, -, hsession⟩ := tracked.steady found opened
  rw [sessionOf, (told_visit found steps).2.1, Session.history_append, ← sessionOf, hsession]

/-- What is sent in a visit is the closing, if a message is too long, or the reply that is taken. -/
theorem sent_visit (found : r.connections.lookup id = some (.upload u))
    (opened : u.closing = false) :
    let sent := Step.sent id ⟨r, .visit id h⟩
    let outcome := u.serve h.arrived h.flush h.send h.timedOut r.serving
    let outputs := (u.session.history (u.uses h.arrived h.flush r.serving)).1
    sent.filter Outgoing.isClose = (u.intake r.engine h.arrived).notices ∧
      (sent.filterMap Outgoing.reply?).length ≤ 1 ∧
      sent.filterMap Outgoing.reply? <+: Session.taken outputs ∧
      (outcome.1.isSome → sent.filterMap Outgoing.reply? = Session.taken outputs) := by
  obtain ⟨-, hsteady, -⟩ := tracked.steady found opened
  have hpassed := Upload.passed hsteady h.arrived h.flush h.send h.timedOut r.serving
  obtain ⟨replies, hsent, hone, hpart, hwhole⟩ := hpassed.sent
  obtain ⟨hreply, hclose⟩ := (u.intake r.engine h.arrived).told_notices replies
  intro sent
  have hvisit : sent = (u.intake r.engine h.arrived).notices ++ replies.map Outgoing.reply :=
    (act_visit_upload found).2.2.trans hsent
  rw [hvisit, hreply, hclose]
  exact ⟨rfl, hone, hpart, hwhole⟩

/-- A visit to an open connection adds what the pass does. -/
theorem reads (numbered : r.Numbered) (found : r.connections.lookup id = some (.upload u))
    (opened : u.closing = false) :
    Tracked config id (steps ++ [⟨r, .visit id h⟩]) (r.act (.visit id h)) := by
  obtain ⟨-, -, hall⟩ := tracked.live u found
  obtain ⟨hstop, hsteady, hsession⟩ := tracked.steady found opened
  have hpassed := Upload.passed hsteady h.arrived h.flush h.send h.timedOut r.serving
  have hhistory := tracked.sessionOf_visit (h := h) found opened
  obtain ⟨harrived, huses, hintake, hreplies, hcloses⟩ := told_visit (h := h) found steps
  obtain ⟨hclose, -, hpart, hwhole⟩ := tracked.sent_visit (h := h) found opened
  have hoverlong := Intake.isOverlong_andThen hstop (u.intake r.engine h.arrived)
  constructor
  · rw [hintake, huses]
    refine tracked.used.append hstop ?_
    rw [← sessionOf, ← hsession]
    exact Upload.used hsteady r.serving h.arrived h.flush
  · rw [harrived, Incoming.intake_append, hintake]
    exact tracked.cut.andThen (tracked.cut_visit found opened h.arrived)
  · rw [hcloses, hclose, tracked.closes, hintake, Intake.notices_of_goes hstop, List.nil_append,
      Intake.notices, Intake.notices, hoverlong]
  · rw [hreplies, hall, hhistory, Session.taken_append]
    exact (List.prefix_append_right_inj _).mpr hpart
  · exact fun early => absurd early (not_early_visit numbered found)
  · intro v hv
    rw [lookup_visit_upload found, Option.map_eq_some_iff] at hv
    obtain ⟨w, hw, heq⟩ := hv
    cases heq
    have hthere : (u.serve h.arrived h.flush h.send h.timedOut r.serving).1.isSome := by
      rw [hw]
      rfl
    rw [hintake, hoverlong, hhistory, hreplies, hall, Session.taken_append, hwhole hthere]
    refine ⟨hpassed.next v hw, fun hfits => ?_, rfl⟩
    rw [Intake.andThen_of_goes hstop]
    exact hpassed.goes hthere hfits

/-- Every step keeps what is told of a connection in order. -/
theorem act (numbered : r.Numbered) (same : r.config = config) (input : Input I) :
    Tracked config id (steps ++ [⟨r, input⟩]) (r.act input) := by
  cases hupload : Step.upload? id ⟨r, input⟩ with
  | none => exact tracked.passes same (Reactor.passes numbered hupload)
  | some visited =>
    obtain ⟨u, h⟩ := visited
    obtain ⟨rfl, found⟩ := visited_of_upload? hupload
    cases hclosing : u.closing with
    | true => exact tracked.drains numbered found hclosing
    | false => exact tracked.reads numbered found hclosing

end Tracked

/-- By induction on the steps. What holds at the start and is kept by every step holds after every
run, and a step may rely on what is told of the connections before it. -/
theorem tracked_induction {motive : List (Step I) → Reactor I → Prop} (config : ServerConfig)
    (engine : Engine I) (begin_ : motive [] (start config engine))
    (step : ∀ steps r input, r.Numbered → (∀ id, Tracked config id steps r) → motive steps r →
      motive (steps ++ [⟨r, input⟩]) (r.act input)) (inputs : List (Input I)) :
    (∀ id, Tracked config id ((start config engine).trace inputs)
        ((start config engine).run inputs)) ∧
      motive ((start config engine).trace inputs) ((start config engine).run inputs) := by
  have hall := trace_induction (motive := fun steps r =>
    r.Numbered ∧ r.config = config ∧ (∀ id, Tracked config id steps r) ∧ motive steps r)
    (start config engine)
    ⟨.start config engine, rfl, fun id => .start config id engine, begin_⟩
    (fun steps r input ⟨numbered, same, tracked, now⟩ =>
      ⟨numbered.act input, (r.act_config input).trans same,
        fun id => (tracked id).act numbered same input, step steps r input numbered tracked now⟩)
    inputs
  exact hall.2.2

theorem tracked_run (config : ServerConfig) (engine : Engine I) (inputs : List (Input I))
    (id : Nat) :
    Tracked config id ((start config engine).trace inputs) ((start config engine).run inputs) :=
  (tracked_induction (motive := fun _ _ => True) config engine trivial
    (fun _ _ _ _ _ _ => trivial) inputs).1 id

/-- Every step of a run happens to a reactor with numbers, of whose connections is told what the
steps before it did. -/
theorem exists_tracked {engine : Engine I} {inputs : List (Input I)}
    (mem : step ∈ (start config engine).trace inputs) :
    step.before.Numbered ∧ ∃ front, ∀ id, Tracked config id front step.before := by
  have hall := (tracked_induction (motive := fun steps _ => ∀ step ∈ steps,
    step.before.Numbered ∧ ∃ front, ∀ id, Tracked config id front step.before) config engine
    (List.forall_mem_nil _) (fun steps r input numbered tracked before step hstep => by
      rcases List.mem_append.mp hstep with hbefore | hlast
      · exact before step hbefore
      · rw [List.mem_singleton.mp hlast]
        exact ⟨numbered, steps, tracked⟩) inputs).2
  exact hall step mem

/-! ### Counters -/

/-- Where no upload connection is visited, nothing about messages and replies is counted. -/
theorem metrics_of_still (still : ∀ id, Step.upload? id ⟨r, input⟩ = none) :
    (r.act input).metrics.notificationsDropped = r.metrics.notificationsDropped ∧
      (r.act input).metrics.oversizeClosed = r.metrics.oversizeClosed := by
  cases input with
  | share engine => exact ⟨rfl, rfl⟩
  | accept usable =>
    rcases r.accept_cases usable with ⟨-, h⟩ | ⟨-, -, h⟩ | ⟨-, -, h⟩ <;> rw [act, h] <;>
      exact ⟨rfl, rfl⟩
  | visit id h =>
    cases found : r.connections.lookup id with
    | none =>
      rw [act, serve_of_absent found]
      exact ⟨rfl, rfl⟩
    | some c =>
      have hclosed : ∀ u, c ≠ .upload u := by
        rintro u rfl
        have hnone := still id
        rw [upload?_visit_self found] at hnone
        cases hnone
      have hunopened := unopened hclosed (r.without id) h r.serving
      rw [act, serve_of_found found]
      exact ⟨hunopened.drops, hunopened.oversize⟩

end Reactor

end PixelHost
