import PixelHost.Proofs.Server.Courses
import PixelHost.Sandbox.Basic

/-!
# Messages that are too long

A session takes messages up to a limit, and a connection delivers messages that are one byte longer.
So it is the session that refuses a message that is too long by one byte, and the connection that
refuses a longer one. To the client this makes no difference: the first message that is too long
starts the closing of the connection, and nothing after it is taken.

## Main definitions

* `Reactor.Step.Rejects`, `Reactor.Step.Keeps` — a step that starts the closing of a connection, and
  one that starts none.
* `Reactor.Step.Submits` — what a step does to the engine.

## Main results

* `Reactor.Tracked.rejects_or_keeps` — a visit starts the closing and counts that, or does neither.
* `Reactor.Tracked.of_overlong`, `Reactor.Tracked.of_fits` — which messages are taken.
* `Reactor.oversize_of_history` — what becomes of the messages on a connection in a run.
-/

namespace PixelHost

variable {I : Interpreter}

deriving instance DecidableEq for Incoming

namespace Reactor

/-! ### What a step does about messages that are too long -/

/-- The closing of a connection is started in a step because a message is too long. -/
structure Step.Rejects (id : Nat) (s : Step I) : Prop where
  sent : s.sent id = [.close Outgoing.sizeCode "Upload too large"]
  closing : ∃ u, s.after.connections.lookup id = some (.upload u) ∧ u.closing = true
  counted : s.after.metrics.oversizeClosed = s.before.metrics.oversizeClosed + 1

/-- No closing of a connection is started in a step, and none is counted. -/
structure Step.Keeps (id : Nat) (s : Step I) : Prop where
  sent : ∀ o ∈ s.sent id, o.isClose = false
  counted : s.after.metrics.oversizeClosed = s.before.metrics.oversizeClosed

/-- If an upload connection is visited in a step, the engine is used by its session only, and only
to take the messages that the session is given. -/
def Step.Submits (id : Nat) (s : Step I) : Prop :=
  ∀ u h, s.upload? id = some (u, h) →
    s.after.engine = (u.session.takeAll
      (Session.given (u.uses h.arrived h.flush s.before.serving)) s.before.engine).2.2

variable {config : ServerConfig} {id : Nat} {steps : List (Step I)} {r : Reactor I}
  {h : Happening} {u : Upload}

namespace Tracked

variable (tracked : Tracked config id steps r)

include tracked

/-- A visit to an open connection starts the closing if it takes a message that is too long. -/
private theorem rejects_or_keeps_open (found : r.connections.lookup id = some (.upload u))
    (opened : u.closing = false) :
    Step.Rejects id ⟨r, .visit id h⟩ ∨ Step.Keeps id ⟨r, .visit id h⟩ := by
  obtain ⟨-, hsteady, -⟩ := tracked.steady found opened
  have hpassed := Upload.passed hsteady h.arrived h.flush h.send h.timedOut r.serving
  obtain ⟨-, hmetrics, hvisit⟩ := act_visit_upload (h := h) found
  have hcounted := hpassed.oversize
  rw [← hmetrics] at hcounted
  cases hoverlong : (u.intake r.serving.engine h.arrived).isOverlong with
  | true =>
    obtain ⟨hthere, hsent⟩ := hpassed.closes hoverlong
    obtain ⟨v, hv⟩ := Option.isSome_iff_exists.mp hthere
    rw [hoverlong] at hcounted
    refine .inl ⟨?_, ⟨v, ?_, ?_⟩, hcounted⟩
    · rw [hvisit, hsent, Intake.notices, hoverlong]
      rfl
    · rw [Step.after, lookup_visit_upload found, hv]
      rfl
    · rw [hpassed.next v hv, hoverlong]
      rfl
  | false =>
    rw [hoverlong] at hcounted
    refine .inr ⟨fun o ho => ?_, hcounted⟩
    obtain ⟨replies, hsent, -⟩ := hpassed.sent
    rw [hvisit, hsent, Intake.notices, hoverlong] at ho
    obtain ⟨text, -, rfl⟩ : ∃ text ∈ replies, Outgoing.reply text = o := by simpa [serving] using ho
    rfl

/-- A visit starts the closing and counts that, or does neither. -/
theorem rejects_or_keeps (numbered : r.Numbered) (h : Happening) :
    Step.Rejects id ⟨r, .visit id h⟩ ∨ Step.Keeps id ⟨r, .visit id h⟩ := by
  cases hupload : Step.upload? id ⟨r, .visit id h⟩ with
  | none =>
    have hstill : ∀ other, Step.upload? other ⟨r, .visit id h⟩ = none := by
      intro other
      by_cases hid : id = other
      · rwa [← hid]
      · simp only [Step.upload?, if_neg hid]
    refine .inr ⟨fun o ho => ?_, (metrics_of_still hstill).2⟩
    obtain ⟨response, rfl⟩ := (Reactor.passes numbered hupload).quiet.sent o ho
    rfl
  | some visited =>
    obtain ⟨u, h⟩ := visited
    obtain ⟨heq, found⟩ := visited_of_upload? hupload
    cases heq
    cases hclosing : u.closing with
    | false => exact tracked.rejects_or_keeps_open found hclosing
    | true =>
      obtain ⟨-, hmetrics, hvisit⟩ := act_visit_upload (h := h) found
      rw [(Upload.serve_of_closing hclosing h.arrived h.flush h.send h.timedOut r.serving).1]
        at hmetrics hvisit
      refine .inr ⟨?_, congrArg _ hmetrics⟩
      rw [hvisit]
      exact List.forall_mem_nil _

/-- A visit uses the engine for the messages that the session is given. -/
theorem submits (input : Input I) : Step.Submits id ⟨r, input⟩ := by
  intro u h hupload
  obtain ⟨heq, found⟩ := visited_of_upload? hupload
  cases heq
  obtain ⟨hengine, -⟩ := act_visit_upload (h := h) found
  rw [Step.after, hengine]
  cases hclosing : u.closing with
  | true =>
    rw [(Upload.serve_of_closing hclosing h.arrived h.flush h.send h.timedOut r.serving).1,
      Upload.uses, if_pos hclosing]
    rfl
  | false =>
    obtain ⟨-, hsteady, -⟩ := tracked.steady found hclosing
    rw [(Upload.passed hsteady h.arrived h.flush h.send h.timedOut r.serving).engine]
    dsimp only
    rw [(Upload.used hsteady r.serving h.arrived h.flush).given]
    rfl

/-- Everything is taken of what has arrived if no upload is lost. -/
theorem intakeOf_of_lossless (lossless : .lost ∉ Session.results (sessionOf config id steps).1) :
    intakeOf id steps = Incoming.intake config.maxUpload (arrivedOn id steps) := by
  have hresults : Session.results (sessionOf config id steps).1 =
      (intakeOf id steps).results config.maxUpload := tracked.used.results
  rw [hresults] at lossless
  exact tracked.cut.eq_of_lossless lossless

/-- The messages before the first one that is too long are taken, and that one starts the
closing. -/
theorem of_overlong (lossless : .lost ∉ Session.results (sessionOf config id steps).1)
    {before after : List Bytes} {long : Bytes}
    (delivered : Incoming.Delivered config.messageLimit (before ++ long :: after)
      (arrivedOn id steps))
    (fits : ∀ data ∈ before, data.size ≤ config.maxUpload)
    (overlong : config.maxUpload < long.size) :
    let shown := if long.size ≤ config.messageLimit then [long] else []
    Session.given (usesOf id steps) = before ++ shown ∧
      Session.results (sessionOf config id steps).1 =
        List.replicate before.length (.ok ()) ++
          shown.map (fun data => .error (.tooLarge config.maxUpload data.size)) ∧
      closesOn id steps = [.close Outgoing.sizeCode "Upload too large"] ∧
      ∀ u, r.connections.lookup id = some (.upload u) → u.closing = true := by
  intro shown
  have hresults : Session.results (sessionOf config id steps).1 =
      (intakeOf id steps).results config.maxUpload := tracked.used.results
  have hintake : intakeOf id steps = ⟨before, some (.overlong _)⟩ :=
    (tracked.intakeOf_of_lossless lossless).trans
      (delivered.intake_of_overlong (Nat.le_succ _) fits overlong)
  have hshown : (intakeOf id steps).shown = shown := by
    simp only [hintake, Intake.shown, Intake.shown?, shown]
    split <;> rfl
  have hlast : (intakeOf id steps).lastResult config.maxUpload =
      shown.map fun data => .error (.tooLarge config.maxUpload data.size) := by
    simp only [hintake, shown]
    by_cases hlimit : long.size ≤ config.messageLimit
    · rw [if_pos hlimit, if_pos hlimit]
      rfl
    · rw [if_neg hlimit, if_neg hlimit]
      rfl
  refine ⟨?_, ?_, ?_, fun u hu => ?_⟩
  · rw [tracked.used.given, Intake.handed, hshown, hintake]
  · rw [hresults, Intake.results, hlast, hintake]
  · rw [tracked.closes, hintake]
    rfl
  · rw [(tracked.live u hu).1, hintake]
    rfl

/-- All messages are taken if none is too long. -/
theorem of_fits (lossless : .lost ∉ Session.results (sessionOf config id steps).1)
    {messages : List Bytes}
    (delivered : Incoming.Delivered config.messageLimit messages (arrivedOn id steps))
    (fits : ∀ data ∈ messages, data.size ≤ config.maxUpload) :
    Session.given (usesOf id steps) = messages ∧
      Session.results (sessionOf config id steps).1 = List.replicate messages.length (.ok ()) ∧
      closesOn id steps = [] ∧
      ∀ u, r.connections.lookup id = some (.upload u) → u.closing = false := by
  have hresults : Session.results (sessionOf config id steps).1 =
      (intakeOf id steps).results config.maxUpload := tracked.used.results
  obtain ⟨hall, hnone⟩ : (intakeOf id steps).messages = messages ∧
      (intakeOf id steps).isOverlong = false := by
    rw [tracked.intakeOf_of_lossless lossless]
    exact delivered.intake_of_fits (Nat.le_succ _) fits
  rw [hresults] at lossless
  obtain ⟨hshown, hlast⟩ := Intake.silent_of_fits hnone lossless
  refine ⟨?_, ?_, ?_, fun u hu => ?_⟩
  · rw [tracked.used.given, Intake.handed, hshown, hall, List.append_nil]
  · rw [hresults, Intake.results, hlast, hall, List.append_nil]
  · rw [tracked.closes, Intake.notices, hnone]
    rfl
  · rw [(tracked.live u hu).1]
    exact hnone

/-- Where an upload is lost, there is no connection any more. -/
theorem gone_of_lost (lost : .lost ∈ Session.results (sessionOf config id steps).1) (u : Upload) :
    r.connections.lookup id ≠ some (.upload u) := by
  intro found
  obtain ⟨-, hgoes, -⟩ := tracked.live u found
  have hresults : Session.results (sessionOf config id steps).1 =
      (intakeOf id steps).results config.maxUpload := tracked.used.results
  rw [hresults] at lost
  obtain ⟨data, hstop⟩ := Intake.exists_of_lost lost
  rw [Intake.isOverlong, hstop] at hgoes
  cases hgoes rfl

end Tracked

/-! ### Runs -/

/-- Where one closing is started, one visit starts it, and all others start none. -/
theorem exists_rejects {close : Outgoing} (closes : closesOn id steps = [close])
    (visits : ∀ step ∈ steps, step.input.visits id = true → step.Rejects id ∨ step.Keeps id) :
    ∃ front step rest, steps = front ++ step :: rest ∧ step.Rejects id ∧
      ∀ other ∈ front ++ rest, other.input.visits id = true → other.Keeps id := by
  have hmem : close ∈ closesOn id steps := closes ▸ List.mem_singleton_self _
  obtain ⟨hsent, hclose⟩ := List.mem_filter.mp hmem
  obtain ⟨step, hstep, hsent⟩ := List.mem_flatMap.mp hsent
  have hrejects : step.Rejects id := by
    refine (visits step hstep (visits_of_mem_sent hsent)).resolve_right fun keeps => ?_
    rw [keeps.sent close hsent] at hclose
    cases hclose
  obtain ⟨front, rest, rfl⟩ := List.append_of_mem hstep
  refine ⟨front, step, rest, rfl, hrejects, fun other hother hvisits => ?_⟩
  have hall : other ∈ front ++ step :: rest := by
    simp only [List.mem_append, List.mem_cons] at hother ⊢
    exact hother.imp_right .inr
  refine (visits other hall hvisits).resolve_left fun again => ?_
  -- Two such visits start two closings.
  have hone : (closesOn id (front ++ rest)).length = 0 := by
    have hstart : [Outgoing.close Outgoing.sizeCode "Upload too large"].filter Outgoing.isClose =
        [Outgoing.close Outgoing.sizeCode "Upload too large"] := rfl
    have hlength := congrArg List.length closes
    simp only [closesOn, sentOn, List.flatMap_append, List.flatMap_cons, List.filter_append,
      List.length_append, hrejects.sent, hstart, List.length_singleton] at hlength ⊢
    omega
  have hagain : Outgoing.close Outgoing.sizeCode "Upload too large" ∈ closesOn id (front ++ rest) :=
    List.mem_filter.mpr ⟨List.mem_flatMap.mpr ⟨other, hother, by simp [again.sent]⟩, rfl⟩
  rw [List.length_eq_zero_iff.mp hone] at hagain
  cases hagain

theorem rejects_or_keeps_of_mem {engine : Engine I} {inputs : List (Input I)} {step : Step I}
    (mem : step ∈ (start config engine).trace inputs) (visits : step.input.visits id = true) :
    step.Rejects id ∨ step.Keeps id := by
  obtain ⟨numbered, front, tracked⟩ := exists_tracked mem
  obtain ⟨before, input⟩ := step
  cases input with
  | accept | share => cases visits
  | visit visited h =>
    obtain rfl : visited = id := eq_of_beq visits
    exact (tracked visited).rejects_or_keeps numbered h

/-- On a connection that takes messages up to one byte more than an upload may have, in any run of a
reactor, in whatever passes the messages of its client arrive, and if the upload of none of them is
lost: if some message is too long, and those before it are not, then the session is given exactly the
messages before it, and that one if it is too long by one byte only, which is refused. The closing is
started once, in one visit, with the code for this, and is counted once. Nothing is given to the
session after that, so it never says that it has ended. If no message is too long, all are taken and
no closing is started. With a message whose upload is lost the connection is gone. No part of a
message is left in the session between two visits. -/
theorem oversize_of_history (config : ServerConfig) (engine : Engine I) (inputs : List (Input I))
    (id : Nat) (messages : List Bytes)
    (delivered : Incoming.Delivered config.messageLimit messages
      (arrivedOn id ((start config engine).trace inputs))) :
    let r := (start config engine).run inputs
    let steps := (start config engine).trace inputs
    let given := Session.given (usesOf id steps)
    let results := Session.results (sessionOf config id steps).1
    (.lost ∉ results →
      (∀ before long after, messages = before ++ long :: after →
        (∀ data ∈ before, data.size ≤ config.maxUpload) → config.maxUpload < long.size →
          let shown := if long.size ≤ config.messageLimit then [long] else []
          given = before ++ shown ∧
          results = List.replicate before.length (.ok ()) ++
            shown.map (fun data => .error (.tooLarge config.maxUpload data.size)) ∧
          closesOn id steps = [.close Outgoing.sizeCode "Upload too large"] ∧
          (∃ front step rest, steps = front ++ step :: rest ∧ step.Rejects id ∧
            ∀ other ∈ front ++ rest, other.input.visits id = true → other.Keeps id) ∧
          ∀ u, r.connections.lookup id = some (.upload u) → u.closing = true) ∧
      ((∀ data ∈ messages, data.size ≤ config.maxUpload) →
        given = messages ∧ results = List.replicate messages.length (.ok ()) ∧
          closesOn id steps = [] ∧
          ∀ u, r.connections.lookup id = some (.upload u) → u.closing = false)) ∧
    (.lost ∈ results → ∀ u, r.connections.lookup id ≠ some (.upload u)) ∧
    (∀ step ∈ steps, step.Submits id ∧
      (step.input.visits id = true → step.Rejects id ∨ step.Keeps id)) ∧
    (∀ u, r.connections.lookup id = some (.upload u) →
      u.session = (sessionOf config id steps).2 ∧ u.session.buffer = .empty) := by
  intro r steps given results
  have htracked : Tracked config id steps r := tracked_run config engine inputs id
  have hvisits : ∀ step ∈ steps, step.input.visits id = true → step.Rejects id ∨ step.Keeps id :=
    fun _ mem visits => rejects_or_keeps_of_mem mem visits
  refine ⟨fun lossless => ⟨fun before long after hall fits overlong => ?_,
    fun fits => htracked.of_fits lossless delivered fits⟩, htracked.gone_of_lost,
    fun step mem => ⟨?_, hvisits step mem⟩, fun u hu => ?_⟩
  · subst hall
    obtain ⟨hgiven, hresults, hcloses, hclosing⟩ :=
      htracked.of_overlong lossless delivered fits overlong
    exact ⟨hgiven, hresults, hcloses, exists_rejects hcloses hvisits, hclosing⟩
  · obtain ⟨-, front, tracked⟩ := exists_tracked mem
    exact (tracked id).submits step.input
  · obtain ⟨rfl, -⟩ := htracked.live u hu
    exact ⟨rfl, htracked.used.fresh⟩

/-- Three messages arrive in one visit on a connection that takes uploads of one byte. The session
is shown the second one, and nothing of the third. -/
theorem oversize_of_three_messages :
    let config : ServerConfig := { maxUpload := 1 }
    let engine : Engine Sandbox.interpreter := { interpreter := ⟨.fresh 0, 900, 0, 0⟩ }
    let request := "GET / HTTP/1.1\r\nUpgrade: websocket\r\n\r\n".toUTF8
    let one : Bytes := ⟨#[0xff]⟩
    let two : Bytes := ⟨#[0xff, 0xff]⟩
    let three : Bytes := ⟨#[0xff, 0xff, 0xff]⟩
    let steps := (start config engine).trace [.accept true, .visit 1 { peek := .bytes request },
      .visit 1 { arrived := [.message one, .message two, .tooLong] }]
    Incoming.Delivered config.messageLimit [one, two, three] (arrivedOn 1 steps) ∧
      Session.given (usesOf 1 steps) = [one, two] ∧
      closesOn 1 steps = [.close Outgoing.sizeCode "Upload too large"] := by
  intro config engine request one two three steps
  have harrived : arrivedOn 1 steps = [.message one, .message two, .tooLong] := by decide +kernel
  have hdelivered :
      Incoming.Delivered config.messageLimit [one, two, three] (arrivedOn 1 steps) := by
    rw [harrived]
    exact .message (by decide) (.message (by decide) (.tooLong (by decide) .nothing))
  have hlossless : .lost ∉ Session.results (sessionOf config 1 steps).1 := by decide +kernel
  obtain ⟨hall, -⟩ := oversize_of_history config engine _ 1 [one, two, three] hdelivered
  obtain ⟨hgiven, -, hcloses, -⟩ := (hall hlossless).1 [one] two [three] rfl
    (List.forall_mem_singleton.mpr (by decide)) (by decide)
  exact ⟨hdelivered, hgiven, hcloses⟩

end Reactor

end PixelHost
