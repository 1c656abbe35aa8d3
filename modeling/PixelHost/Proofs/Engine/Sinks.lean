import PixelHost.Proofs.Engine.Blocks
import PixelHost.Proofs.Engine.Clients

/-!
# What a failing sink has influence on

A frame is sent and forgotten. Two hosts that differ in their sinks alone stay alike whatever
happens to them and whichever writes fail: every turn has the same output and asks the interpreter
the same, and the sinks are offered the same frames. Only the counters of taken and of lost frames
tell which sink it was, and their sum does not.

## Main definitions

* `Engine.AlikeButSink`, `Host.AlikeButSink` — the same up to the sink.
* `Turn.frames` — the frames that are offered in a turn.

## Main results

* `Engine.AlikeButSink.submit`, `Engine.AlikeButSink.cycle` — what an upload and a cycle keep.
* `Host.AlikeButSink.recorded` — what a turn keeps.
* `Host.alike_of_history` — two runs with different sinks.
-/

namespace PixelHost

variable {I : Interpreter}

/-! ### Counters -/

namespace Metrics

/-- The counters with other numbers of taken and of lost frames. -/
def withFrames (m : Metrics) (written lost : Nat) : Metrics :=
  { m with framesWritten := written, sinkErrors := lost }

/-- The counters are the same but for how many of the frames were taken. -/
structure AlikeButFrames (m m' : Metrics) : Prop where
  others : m' = m.withFrames m'.framesWritten m'.sinkErrors
  frames : m'.framesWritten + m'.sinkErrors = m.framesWritten + m.sinkErrors

variable {m m' : Metrics}

theorem AlikeButFrames.refl (m : Metrics) : AlikeButFrames m m := ⟨rfl, rfl⟩

/-- Another counter than those of the frames is changed. -/
theorem AlikeButFrames.count (h : AlikeButFrames m m') (f : Metrics → Metrics)
    (apart : ∀ m written lost, f (m.withFrames written lost) = (f m).withFrames written lost) :
    AlikeButFrames (f m) (f m') := by
  have hkept (m : Metrics) : f m = (f m).withFrames m.framesWritten m.sinkErrors :=
    apart m m.framesWritten m.sinkErrors
  have hwritten (m : Metrics) : (f m).framesWritten = m.framesWritten :=
    (congrArg framesWritten (hkept m)).trans rfl
  have hlost (m : Metrics) : (f m).sinkErrors = m.sinkErrors :=
    (congrArg sinkErrors (hkept m)).trans rfl
  constructor
  · rw [hwritten, hlost, ← apart, ← h.others]
  · rw [hwritten, hlost, hwritten, hlost, h.frames]

/-- A frame that was taken is counted in the place of one that was lost. -/
theorem AlikeButFrames.framesCounted (h : AlikeButFrames m m') (taken taken' : Bool) :
    AlikeButFrames (Player.framesCounted taken m) (Player.framesCounted taken' m') where
  others := by
    rw [h.others]
    cases taken <;> cases taken' <;> rfl
  frames := by
    rw [Player.framesCounted_sum, Player.framesCounted_sum, h.frames]

end Metrics

/-! ### Engines -/

/-- The engines are the same but for their sinks, and for how many of the frames were taken. -/
structure Engine.AlikeButSink (e e' : Engine I) : Prop where
  interpreter : e'.interpreter = e.interpreter
  program : e'.program = e.program
  reset : e'.reset = e.reset
  metrics : e.metrics.AlikeButFrames e'.metrics

namespace Engine.AlikeButSink

variable {e e' : Engine I}

/-- An upload has the same result whatever the sink does. -/
theorem submit (h : AlikeButSink e e') (source : String) :
    (e'.submit source).1 = (e.submit source).1 ∧
      AlikeButSink (e.submit source).2 (e'.submit source).2 := by
  have huse : e'.inUse = e.inUse := by rw [Engine.inUse, h.program, Engine.inUse]
  rcases hc : I.compile e.inUse source e.interpreter with ⟨compiled, state⟩
  have hc' : I.compile e'.inUse source e'.interpreter = (compiled, state) := by
    rw [huse, h.interpreter, hc]
  have hrejected := h.metrics.count (fun m => { m with
    compiles := m.compiles + 1
    uploadsRejected := m.uploadsRejected + 1 }) fun _ _ _ => rfl
  have hlost := h.metrics.count (fun m => { m with compiles := m.compiles + 1 }) fun _ _ _ => rfl
  cases compiled with
  | error error =>
    rw [submit_of_compile_error hc, submit_of_compile_error hc']
    exact ⟨rfl, rfl, h.program, h.reset, hrejected⟩
  | lost =>
    rw [submit_of_loses (.compiling hc), submit_of_loses (.compiling hc')]
    exact ⟨rfl, rfl, h.program, h.reset, hlost⟩
  | ok chunk =>
    rcases hr : I.execute e.inUse chunk 0 none state with ⟨result, state'⟩
    have hr' : I.execute e'.inUse chunk 0 none state = (result, state') := by rw [huse, hr]
    cases result with
    | error error =>
      rw [submit_of_execute_error hc hr, submit_of_execute_error hc' hr']
      exact ⟨rfl, rfl, h.program, h.reset, hrejected⟩
    | lost =>
      rw [submit_of_loses (.running hc hr), submit_of_loses (.running hc' hr')]
      exact ⟨rfl, rfl, h.program, h.reset, hlost⟩
    | ok outcome =>
      rw [submit_of_ok hc hr, submit_of_ok hc' hr', h.reset]
      have haccepted := h.metrics.count (fun m => { m with
        compiles := m.compiles + 1
        uploadsAccepted := m.uploadsAccepted + 1 }) fun _ _ _ => rfl
      exact ⟨rfl, rfl, rfl, rfl, haccepted.framesCounted _ _⟩

/-- A periodic invocation has the same result whatever the sink does. -/
theorem runPeriodic (h : AlikeButSink e e') (counter : UInt32) :
    (e'.runPeriodic counter).1 = (e.runPeriodic counter).1 ∧
      AlikeButSink (e.runPeriodic counter).2 (e'.runPeriodic counter).2 := by
  cases hprog : e.program with
  | none =>
    rw [runPeriodic_of_none hprog, runPeriodic_of_none (h.program.trans hprog)]
    exact ⟨rfl, h⟩
  | some program =>
    have hprog' := h.program.trans hprog
    rcases hr : I.execute program.inUse program.script.chunk counter program.memo e.interpreter with
      ⟨result, state⟩
    have hr' : I.execute program.inUse program.script.chunk counter program.memo e'.interpreter =
        (result, state) := by
      rw [h.interpreter, hr]
    have hran := h.metrics.count (fun m => { m with periodicRuns := m.periodicRuns + 1 })
      fun _ _ _ => rfl
    cases result with
    | error error =>
      rw [runPeriodic_of_error hprog hr, runPeriodic_of_error hprog' hr']
      have hfailed := h.metrics.count (fun m => { m with
        periodicRuns := m.periodicRuns + 1
        periodicFailures := m.periodicFailures + 1 }) fun _ _ _ => rfl
      exact ⟨rfl, rfl, rfl, h.reset, hfailed⟩
    | lost =>
      rw [runPeriodic_of_lost hprog hr, runPeriodic_of_lost hprog' hr']
      exact ⟨rfl, rfl, h.program, h.reset, hran⟩
    | ok outcome =>
      rw [runPeriodic_of_ok hprog hr, runPeriodic_of_ok hprog' hr']
      exact ⟨rfl, rfl, rfl, h.reset, hran.framesCounted _ _⟩

/-- A cycle does the same whatever the sink does. -/
theorem cycle (h : AlikeButSink e e') (s : Scheduler) :
    (s.cycle e').1 = (s.cycle e).1 ∧ (s.cycle e').2.1 = (s.cycle e).2.1 ∧
      AlikeButSink (s.cycle e).2.2 (s.cycle e').2.2 := by
  rcases ht : e.reset.take with ⟨request, reset⟩
  have ht' : e'.reset.take = (request, reset) := by rw [h.reset, ht]
  cases request with
  | some delay =>
    simp only [Scheduler.cycle, ht, ht']
    have hadopted := h.metrics.count (fun m => { m with resetsAdopted := m.resetsAdopted + 1 })
      fun _ _ _ => rfl
    exact ⟨trivial, trivial, h.interpreter, h.program, rfl, hadopted⟩
  | none =>
    have hreset : AlikeButSink { e with reset } { e' with reset } :=
      ⟨h.interpreter, h.program, rfl, h.metrics⟩
    obtain ⟨hrun, hafter⟩ := hreset.runPeriodic s.counter
    simp only [Scheduler.cycle, ht, ht']
    rcases hp : Engine.runPeriodic { e with reset } s.counter with ⟨run, after⟩
    rcases hp' : Engine.runPeriodic { e' with reset } s.counter with ⟨run', after'⟩
    rw [hp, hp'] at hrun hafter
    obtain rfl : run' = run := hrun
    cases run' <;> exact ⟨rfl, rfl, hafter⟩

theorem recording (h : AlikeButSink e e') : AlikeButSink e.recording e'.recording where
  interpreter := by rw [Engine.recording, h.interpreter, Engine.recording]
  program := by rw [Engine.recording, h.program, Engine.recording]
  reset := h.reset
  metrics := h.metrics

theorem plain {e e' : Engine I.recording} (h : AlikeButSink e e') :
    AlikeButSink e.plain e'.plain where
  interpreter := by rw [Engine.plain, h.interpreter, Engine.plain]
  program := by rw [Engine.plain, h.program, Engine.plain]
  reset := h.reset
  metrics := h.metrics

end Engine.AlikeButSink

/-! ### Hosts -/

namespace Host

/-- The hosts are the same but for their sinks, and for how many of the frames were taken. -/
structure AlikeButSink (h h' : Host I) : Prop where
  engine : h.player.engine.AlikeButSink h'.player.engine
  scheduler : h'.player.scheduler = h.player.scheduler
  sessions : h'.sessions = h.sessions

namespace AlikeButSink

variable {h h' : Host I}

/-- A message has the same reply whatever the sink does. -/
theorem reply {e e' : Engine I} (alike : e.AlikeButSink e') (message : Bytes) :
    (Session.reply message e').1 = (Session.reply message e).1 ∧
      (Session.reply message e).2.AlikeButSink (Session.reply message e').2 := by
  cases htext : Utf8.decode? message with
  | none =>
    rw [reply_of_unreadable htext, reply_of_unreadable htext]
    exact ⟨rfl, alike⟩
  | some source =>
    obtain ⟨hresult, hafter⟩ := alike.submit source
    rw [reply_of_text htext, reply_of_text htext, hresult]
    exact ⟨rfl, hafter⟩

/-- A session answers the same whatever the sink does. -/
theorem receive {e e' : Engine I} (alike : e.AlikeButSink e') (s : Session) (chunk : Bytes)
    (isLast : Bool) :
    (s.receive chunk isLast e').1 = (s.receive chunk isLast e).1 ∧
      (s.receive chunk isLast e').2.1 = (s.receive chunk isLast e).2.1 ∧
        (s.receive chunk isLast e).2.2.AlikeButSink (s.receive chunk isLast e').2.2 := by
  cases hclosed : s.closed with
  | true =>
    rw [Session.receive_of_closed hclosed, Session.receive_of_closed hclosed]
    exact ⟨rfl, rfl, alike⟩
  | false =>
    rcases Nat.lt_or_ge s.maxUpload (s.buffer.size + chunk.size) with long | fits
    · rw [Session.receive_of_overlong hclosed long, Session.receive_of_overlong hclosed long]
      exact ⟨rfl, rfl, alike⟩
    cases isLast with
    | false =>
      rw [Session.receive_of_more hclosed fits, Session.receive_of_more hclosed fits]
      exact ⟨rfl, rfl, alike⟩
    | true =>
      obtain ⟨htext, hafter⟩ := reply alike (s.buffer ++ chunk)
      rcases hr : Session.reply (s.buffer ++ chunk) e with ⟨text, after⟩
      rcases hr' : Session.reply (s.buffer ++ chunk) e' with ⟨text', after'⟩
      rw [hr, hr'] at htext hafter
      obtain rfl : text' = text := htext
      cases text' with
      | some text =>
        rw [Session.receive_of_reply hclosed fits hr, Session.receive_of_reply hclosed fits hr']
        exact ⟨rfl, rfl, hafter⟩
      | none =>
        rw [Session.receive_of_lost hclosed fits hr, Session.receive_of_lost hclosed fits hr']
        exact ⟨rfl, rfl, hafter⟩

/-- Whatever the sink does, the same comes of what happens. -/
theorem act (alike : AlikeButSink h h') (input : Input) :
    (h'.act input).1 = (h.act input).1 ∧ AlikeButSink (h.act input).2 (h'.act input).2 := by
  cases input with
  | play op =>
    cases op with
    | upload source =>
      obtain ⟨hresult, hafter⟩ := alike.engine.submit source
      simp only [Host.act, Player.act, hresult]
      exact ⟨trivial, hafter, alike.scheduler, alike.sessions⟩
    | cycle =>
      obtain ⟨hevent, hscheduler, hafter⟩ := alike.engine.cycle h.player.scheduler
      simp only [Host.act, Player.act, alike.scheduler, hevent]
      exact ⟨trivial, hafter, hscheduler, alike.sessions⟩
  | receive client chunk isLast =>
    obtain ⟨hresult, hsession, hafter⟩ := receive alike.engine (h.sessions client) chunk isLast
    simp only [Host.act, alike.sessions, hresult, hsession]
    refine ⟨trivial, hafter, alike.scheduler, ?_⟩
    simp only [withSession, withEngine, alike.sessions]
  | nextReply client =>
    simp only [Host.act, alike.sessions]
    refine ⟨trivial, alike.engine, alike.scheduler, ?_⟩
    simp only [withSession, alike.sessions]

/-- Whatever the sink does, the same happens in a turn, and the interpreter is asked the same. -/
theorem recorded (alike : AlikeButSink h h') (input : Input) :
    (h'.recorded input).1 = (h.recorded input).1 ∧
      AlikeButSink (h.recorded input).2 (h'.recorded input).2 := by
  have hrecording : AlikeButSink h.recording h'.recording :=
    ⟨alike.engine.recording, alike.scheduler, alike.sessions⟩
  obtain ⟨houtput, hafter⟩ := hrecording.act input
  simp only [Host.recorded, houtput, hafter.engine.interpreter]
  exact ⟨trivial, hafter.engine.plain, hafter.scheduler, hafter.sessions⟩

theorem history (alike : AlikeButSink h h') (inputs : List Input) :
    (h'.history inputs).1 = (h.history inputs).1 ∧
      AlikeButSink (h.history inputs).2 (h'.history inputs).2 := by
  induction inputs generalizing h h' with
  | nil => exact ⟨rfl, alike⟩
  | cons input rest ih =>
    obtain ⟨hturn, hafter⟩ := alike.recorded input
    obtain ⟨hturns, hlast⟩ := ih hafter
    simp only [Host.history, hturn, hturns]
    exact ⟨trivial, hlast⟩

end AlikeButSink

end Host

/-! ### What the sink is offered -/

/-- The frames that are offered to the sink in a turn. -/
def Turn.frames (turn : Turn I) : List Bytes := turn.record.filterMap Activity.frame?

/-- A step offers the frames of its successful invocations to the sink. -/
theorem Player.Taken.sink_eq {p q : Player I} {s : Step I} (taken : p.Taken s q) :
    q.engine.sink = p.engine.sink.offer (s.record.filterMap Activity.frame?) := by
  cases taken with
  | lostUpload loses => cases loses <;> rfl
  | _ => rfl

namespace Host

theorem Served.sink_eq {h k : Host I} {turn : Turn I} (served : h.Served turn k) :
    k.player.engine.sink = h.player.engine.sink.offer turn.frames := by
  cases served with
  | played taken | submitted _ _ _ taken | lost _ _ _ taken => exact taken.sink_eq
  | refused | overlong | buffered | unreadable | replied => rfl

/-- A run offers the frames of its turns to the sink, and nothing else. -/
theorem history_sink (h : Host I) (inputs : List Input) :
    (h.history inputs).2.player.engine.sink =
      h.player.engine.sink.offer ((h.history inputs).1.flatMap Turn.frames) := by
  induction inputs generalizing h with
  | nil => rfl
  | cons input rest ih =>
    simp only [history, List.flatMap_cons, Sink.offer_append, ih, (h.served input).sink_eq]

/-- The host with another sink. -/
def withSink (h : Host I) (sink : Sink) : Host I :=
  h.withEngine { h.player.engine with sink }

/-- Two runs of one host with different sinks go alike. Each turn has the same output and the same
record, both sinks are offered the same frames, and the hosts after the runs are the same but for
the sinks and for how many of the frames were taken. A part of a run is a run, so this is so after
every turn. -/
theorem alike_of_history (h : Host I) (sink sink' : Sink) (inputs : List Input) :
    let (turns, last) := (h.withSink sink).history inputs
    let (turns', last') := (h.withSink sink').history inputs
    (h.withSink sink).run inputs = (turns.map Turn.output, last) ∧
      (h.withSink sink').run inputs = (turns'.map Turn.output, last') ∧
      turns' = turns ∧ last.AlikeButSink last' ∧
      last.player.engine.sink = sink.offer (turns.flatMap Turn.frames) ∧
      last'.player.engine.sink = sink'.offer (turns.flatMap Turn.frames) := by
  have alike : AlikeButSink (h.withSink sink) (h.withSink sink') :=
    ⟨⟨rfl, rfl, rfl, .refl _⟩, rfl, rfl⟩
  obtain ⟨hturns, hlast⟩ := alike.history inputs
  refine ⟨run_eq_history _ inputs, run_eq_history _ inputs, hturns, hlast, history_sink _ inputs, ?_⟩
  rw [← hturns]
  exact history_sink _ inputs

end Host

end PixelHost
