import PixelHost.Proofs.Engine.Clients
import PixelHost.Proofs.Engine.Signal
import PixelHost.Proofs.Sandbox.Fates
import PixelHost.Proofs.Sandbox.Outcomes

/-!
# The reply to an upload

A session answers each complete message that is not lost with one reply, which says whether the
message was published. The reply to a message that was not published is the text of the error that was
met. It begins with the kind of the error, so no text that a script fails with can make it look like the
other one, and such a message leaves nothing behind but two counters.

## Main definitions

* `Engine.trial` — what comes of a message if it is compiled and invoked.
* `Published` — the message became the program of the engine.
* `Untouched` — nothing changed but the two counters.

## Main results

* `ScriptError.text_ne_accepted` — an error never reads as the reply to a published upload.
* `Session.receive_truthful` — the reply says what happened.
* `Session.receive_lost` — there is no reply to a message that is lost.
-/

namespace PixelHost

variable {I : Interpreter}

/-! ### Texts of errors -/

/-- What the text of an error begins with. -/
def ScriptError.prefixes : List String := ["Compile error: ", "Runtime error: ", "Resource exceeded: "]

theorem ScriptError.text_eq (error : ScriptError) :
    ∃ kind ∈ prefixes, error.text = kind ++ error.message := by
  cases error with
  | compile message => exact ⟨"Compile error: ", by simp [prefixes], rfl⟩
  | runtime message => exact ⟨"Runtime error: ", by simp [prefixes], rfl⟩
  | resourceExceeded message => exact ⟨"Resource exceeded: ", by simp [prefixes], rfl⟩

/-- No text that a script fails with reads as the reply to a published upload. -/
theorem ScriptError.text_ne_accepted (error : ScriptError) : error.text ≠ Session.accepted := by
  obtain ⟨kind, hkind, htext⟩ := error.text_eq
  have hfirst : ∀ kind ∈ prefixes, ∃ c rest, kind.toList = c :: rest ∧ c ≠ 'A' := by
    simp [prefixes]
  obtain ⟨c, rest, hkind, hc⟩ := hfirst kind hkind
  intro h
  have hchars := congrArg String.toList (htext.symm.trans h)
  rw [String.toList_append, hkind] at hchars
  exact hc (List.cons.inj hchars).1

/-! ### What becomes of a message -/

/-- What comes of a message if it is compiled and invoked on the interpreter as it is: the script with
its outcome, or an error. -/
def Engine.trial (e : Engine I) (message : Bytes) :
    Ending ScriptError (Script I × Outcome I.Memo) :=
  match Utf8.decode? message with
  | none => .error (Session.notText message)
  | some source =>
    match I.compile e.inUse source e.interpreter with
    | (.ok chunk, state) =>
      match (I.execute e.inUse chunk 0 none state).1 with
      | .ok outcome => .ok (⟨source, chunk⟩, outcome)
      | .error error => .error error
      | .lost => .lost
    | (.error error, _) => .error error
    | (.lost, _) => .lost

section

variable {e : Engine I} {message : Bytes} {source : String} {chunk : I.Chunk} {state : I.State}

theorem Engine.trial_of_ok {outcome : Outcome I.Memo} (htext : Utf8.decode? message = some source)
    (hc : I.compile e.inUse source e.interpreter = (.ok chunk, state))
    (hr : (I.execute e.inUse chunk 0 none state).1 = .ok outcome) :
    e.trial message = .ok (⟨source, chunk⟩, outcome) := by
  simp only [trial, htext, hc, hr]

theorem Engine.trial_of_lost (htext : Utf8.decode? message = some source)
    (hc : I.compile e.inUse source e.interpreter = (.ok chunk, state))
    (hr : (I.execute e.inUse chunk 0 none state).1 = .lost) : e.trial message = .lost := by
  simp only [trial, htext, hc, hr]

end

/-- A script took the place of the program of the engine: its frame was offered to the sink, the slot is
as its invocation left it, and its delay is requested. -/
structure Replaced (script : Script I) (outcome : Outcome I.Memo) (e e' : Engine I) : Prop where
  offered : e'.sink = (e.sink.write outcome.frame).2
  slot : e'.program = Player.kept script outcome
  reset : e'.reset = e.reset.raise outcome.delay

/-- Only the two counters of an upload that fails may have changed, and the interpreter. -/
structure Untouched (e e' : Engine I) : Prop where
  slot : e'.program = e.program
  reset : e'.reset = e.reset
  sink : e'.sink = e.sink
  counters : e'.metrics = { e.metrics with
    compiles := e'.metrics.compiles
    uploadsRejected := e'.metrics.uploadsRejected }

/-- What the reply to a message is, and what is left of the message, by what comes of it. -/
def Concluded (message : Bytes) (e e' : Engine I) (reply : Option String) : Prop :=
  match e.trial message with
  | .ok (script, outcome) => reply = some Session.accepted ∧ Replaced script outcome e e'
  | .error error => reply = some error.text ∧ Untouched e e'
  | .lost => reply = none ∧ Untouched e e'

/-- Every message is concluded by what comes of it on trial. -/
theorem Session.reply_concluded (message : Bytes) (e : Engine I) :
    Concluded message e (reply message e).2 (reply message e).1 := by
  rw [Concluded]
  cases htext : Utf8.decode? message with
  | none =>
    simp only [Engine.trial, reply, htext]
    exact ⟨trivial, rfl, rfl, rfl, rfl⟩
  | some source =>
    rcases hc : I.compile e.inUse source e.interpreter with ⟨compiled, state⟩
    cases compiled with
    | lost =>
      simp only [Engine.trial, reply, htext, hc, Engine.submit_of_loses (.compiling hc)]
      exact ⟨trivial, rfl, rfl, rfl, rfl⟩
    | error error =>
      simp only [Engine.trial, reply, htext, hc, Engine.submit_of_compile_error hc]
      exact ⟨trivial, rfl, rfl, rfl, rfl⟩
    | ok chunk =>
      rcases hr : I.execute e.inUse chunk 0 none state with ⟨result, state'⟩
      cases result with
      | lost =>
        simp only [Engine.trial, reply, htext, hc, hr, Engine.submit_of_loses (.running hc hr)]
        exact ⟨trivial, rfl, rfl, rfl, rfl⟩
      | error error =>
        simp only [Engine.trial, reply, htext, hc, hr, Engine.submit_of_execute_error hc hr]
        exact ⟨trivial, rfl, rfl, rfl, rfl⟩
      | ok outcome =>
        simp only [Engine.trial, reply, htext, hc, hr, Engine.submit_of_ok hc hr]
        exact ⟨trivial, rfl, rfl, rfl⟩

/-- A message that succeeds becomes the program of the engine. -/
theorem Session.receive_of_trial (s : Session) (chunk : Bytes) {e : Engine I} {script : Script I}
    {outcome : Outcome I.Memo} (opened : s.closed = false)
    (fits : s.buffer.size + chunk.size ≤ s.maxUpload)
    (ran : e.trial (s.buffer ++ chunk) = .ok (script, outcome)) :
    ∃ e', s.receive chunk true e =
        (.ok (), { s with buffer := .empty, outbox := (s.outbox.push accepted).2 }, e') ∧
      Replaced script outcome e e' := by
  have hconcluded := reply_concluded (s.buffer ++ chunk) e
  rcases hreply : reply (s.buffer ++ chunk) e with ⟨told, e'⟩
  rw [hreply, Concluded, ran] at hconcluded
  obtain ⟨rfl, hreplaced⟩ := hconcluded
  exact ⟨e', receive_of_reply opened fits hreply, hreplaced⟩

/-! ### On the sandbox -/

/-- The message became the program of the engine: it was compiled and invoked with success, one frame
of the right length was offered to the sink, the slot is as the invocation left it, and its delay is
requested. -/
structure Published (message : Bytes) (script : Script Sandbox.interpreter)
    (outcome : Outcome Lua.Value) (e e' : Engine Sandbox.interpreter) : Prop where
  ran : e.trial message = .ok (script, outcome)
  frame : outcome.frame.size = e.interpreter.frameLength
  offered : e'.sink = (e.sink.write outcome.frame).2
  slot : e'.program = Player.kept script outcome
  pending : e'.reset.isPending = true
  request : e'.reset.take.1 = some outcome.delay

section

variable {message : Bytes} {script : Script Sandbox.interpreter} {outcome : Outcome Lua.Value}
  {e e' : Engine Sandbox.interpreter}

/-- The frame of a message that succeeds has the right length, and its delay can be requested. -/
theorem Engine.trial_outcome (ran : e.trial message = .ok (script, outcome)) :
    outcome.frame.size = e.interpreter.frameLength ∧ outcome.delay.Fits := by
  unfold trial at ran
  split at ran
  · cases ran
  · next source htext =>
    have hlength : (Sandbox.interpreter.compile e.inUse source e.interpreter).2.frameLength =
        e.interpreter.frameLength := e.interpreter.compile_frameLength e.inUse source
    split at ran
    · next chunk state hc =>
      rw [hc] at hlength
      split at ran
      · next hr =>
        cases ran
        obtain ⟨hsize, hfits⟩ := Sandbox.invoke_outcome hr
        exact ⟨hsize.trans hlength, hfits⟩
      · cases ran
      · cases ran
    · cases ran
    · cases ran

theorem Replaced.published (h : Replaced script outcome e e')
    (ran : e.trial message = .ok (script, outcome)) : Published message script outcome e e' where
  ran := ran
  frame := (Engine.trial_outcome ran).1
  offered := h.offered
  slot := h.slot
  pending := h.reset ▸ e.reset.isPending_raise outcome.delay
  request := h.reset ▸ e.reset.take_raise (Engine.trial_outcome ran).2

end

/-- A reply is queued, or counted as dropped if there is no room. -/
theorem Outbox.push_counts (o : Outbox) (reply : String) :
    (o.push reply).2.queue.length + (o.push reply).2.dropped = o.queue.length + o.dropped + 1 := by
  rw [push]
  split
  · rfl
  · simp only [List.length_append, List.length_singleton]
    omega

namespace Session

/-- An open session answers a complete message that is not too long and that is not lost with one reply.
It is "Accepted" if and only if the message was published, and that is so whenever it is compiled and
invoked with success. Otherwise it is the text of the error that was met, which begins with its kind,
and nothing is left of the message but what was counted. -/
theorem receive_truthful (s : Session) (chunk : Bytes) (e : Engine Sandbox.interpreter)
    (opened : s.closed = false) (fits : s.buffer.size + chunk.size ≤ s.maxUpload)
    (ends : e.trial (s.buffer ++ chunk) ≠ .lost) :
    ∃ reply e', s.receive chunk true e =
        (.ok (), { s with buffer := .empty, outbox := (s.outbox.push reply).2 }, e') ∧
      (s.outbox.push reply).2.queue.length + (s.outbox.push reply).2.dropped =
        s.outbox.queue.length + s.outbox.dropped + 1 ∧
      (reply = "Accepted" ↔ ∃ script outcome, Published (s.buffer ++ chunk) script outcome e e') ∧
      (reply = "Accepted" ↔ ∃ published, e.trial (s.buffer ++ chunk) = .ok published) ∧
      (reply ≠ "Accepted" → ∃ error, e.trial (s.buffer ++ chunk) = .error error ∧
        reply = error.text ∧ (∃ kind ∈ ScriptError.prefixes, reply = kind ++ error.message) ∧
        Untouched e e') := by
  cases htrial : e.trial (s.buffer ++ chunk) with
  | lost => exact absurd htrial ends
  | ok published =>
    obtain ⟨script, outcome⟩ := published
    obtain ⟨e', hreceive, hreplaced⟩ := receive_of_trial s chunk opened fits htrial
    refine ⟨accepted, e', hreceive, s.outbox.push_counts _, ?_, ?_, ?_⟩
    · exact iff_of_true rfl ⟨script, outcome, hreplaced.published htrial⟩
    · exact iff_of_true rfl ⟨_, rfl⟩
    · exact fun h => absurd rfl h
  | error error =>
    have hconcluded := reply_concluded (s.buffer ++ chunk) e
    rcases hreply : reply (s.buffer ++ chunk) e with ⟨told, e'⟩
    rw [hreply, Concluded, htrial] at hconcluded
    obtain ⟨rfl, huntouched⟩ := hconcluded
    have hno : error.text ≠ "Accepted" := error.text_ne_accepted
    refine ⟨error.text, e', receive_of_reply opened fits hreply, s.outbox.push_counts _, ?_, ?_, ?_⟩
    · refine iff_of_false hno ?_
      rintro ⟨script, outcome, hpublished⟩
      exact nomatch htrial.symm.trans hpublished.ran
    · exact iff_of_false hno fun ⟨_, h⟩ => nomatch h
    · obtain ⟨kind, hkind, htext⟩ := error.text_eq
      exact fun _ => ⟨error, rfl, rfl, ⟨kind, hkind, htext⟩, huntouched⟩

/-- The first message to an engine is accepted: a steady light for a single pixel. -/
theorem receive_steady : ∃ state, (Sandbox.prepare { pixelCount := 1 }).1 = .ok state ∧
    let session := Session.start 64 4
    let e : Engine Sandbox.interpreter := { interpreter := state }
    let message := Sandbox.steadyText.toUTF8
    session.closed = false ∧ session.buffer.size + message.size ≤ session.maxUpload ∧
      e.trial (session.buffer ++ message) ≠ .lost ∧
      ∃ e' script outcome, session.receive message true e =
          (.ok (), { session with outbox := { session.outbox with queue := ["Accepted"] } }, e') ∧
        Published (session.buffer ++ message) script outcome e e' ∧ outcome.delay = .millis 10 := by
  obtain ⟨state, hprepare, hspacious, hlength, hfree, henough⟩ := Sandbox.exists_onePixel
  refine ⟨state, hprepare, ?_⟩
  intro session e message
  have htext : Utf8.decode? (session.buffer ++ message) = some Sandbox.steadyText := by
    decide +kernel
  obtain ⟨chunk, state', hcompile, hinvoke⟩ := Sandbox.upload_steady hspacious e.inUse (by decide)
    hlength hfree henough
  have htrial : e.trial (session.buffer ++ message) = _ := Engine.trial_of_ok htext hcompile hinvoke
  have hopened : session.closed = false := rfl
  have hfits : session.buffer.size + message.size ≤ session.maxUpload := by decide
  have hends : e.trial (session.buffer ++ message) ≠ .lost := fun h => by
    cases htrial.symm.trans h
  obtain ⟨reply, e', hreceive, -, hpublished, hsuccess, -⟩ :=
    receive_truthful session message e hopened hfits hends
  obtain rfl : reply = "Accepted" := hsuccess.mpr ⟨_, htrial⟩
  obtain ⟨script, outcome, published⟩ := hpublished.mp rfl
  obtain ⟨-, rfl⟩ := Prod.mk.inj (Ending.ok.inj (htrial.symm.trans published.ran))
  exact ⟨hopened, hfits, hends, e', script, _, hreceive, published, rfl⟩

/-- A message that is lost gets no reply, and nothing is left of it but what was counted. -/
theorem receive_lost (s : Session) (chunk : Bytes) (e : Engine Sandbox.interpreter)
    (opened : s.closed = false) (fits : s.buffer.size + chunk.size ≤ s.maxUpload)
    (lost : e.trial (s.buffer ++ chunk) = .lost) :
    ∃ e', s.receive chunk true e = (.lost, { s with buffer := .empty }, e') ∧ Untouched e e' := by
  have hconcluded := reply_concluded (s.buffer ++ chunk) e
  rcases hreply : reply (s.buffer ++ chunk) e with ⟨told, e'⟩
  rw [hreply, Concluded, lost] at hconcluded
  obtain ⟨rfl, huntouched⟩ := hconcluded
  exact ⟨e', receive_of_lost opened fits hreply, huntouched⟩

/-- Not every message is answered: a program may run forever, for instructions are not counted unless
the owner of the host wants it. Here it is an empty loop. -/
theorem receive_endless : ∃ state, (Sandbox.prepare { pixelCount := 1 }).1 = .ok state ∧
    let session := Session.start 64 4
    let e : Engine Sandbox.interpreter := { interpreter := state }
    let message := Sandbox.endlessText.toUTF8
    session.closed = false ∧ session.buffer.size + message.size ≤ session.maxUpload ∧
      ¬ ∃ reply, (session.receive message true e).2.1.outbox = (session.outbox.push reply).2 := by
  obtain ⟨state, hprepare, hspacious, -, hfree, -⟩ := Sandbox.exists_onePixel
  refine ⟨state, hprepare, ?_⟩
  intro session e message
  have htext : Utf8.decode? (session.buffer ++ message) = some Sandbox.endlessText := by
    decide +kernel
  obtain ⟨chunk, state', hcompile, hinvoke⟩ := Sandbox.upload_endless hspacious e.inUse (by decide)
    hfree
  have hlost : e.trial (session.buffer ++ message) = .lost :=
    Engine.trial_of_lost htext hcompile hinvoke
  have hopened : session.closed = false := rfl
  have hfits : session.buffer.size + message.size ≤ session.maxUpload := by decide
  obtain ⟨e', hreceive, -⟩ := receive_lost session message e hopened hfits hlost
  refine ⟨hopened, hfits, ?_⟩
  rintro ⟨reply, hreply⟩
  have hqueue : ([] : List String) = [reply] :=
    (congrArg (·.2.1.outbox.queue) hreceive).symm.trans (congrArg Outbox.queue hreply)
  cases hqueue

end Session

end PixelHost
