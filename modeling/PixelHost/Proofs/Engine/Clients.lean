import Mathlib.Logic.Function.Basic
import PixelHost.Engine.Session
import PixelHost.Proofs.Engine.Working

/-!
# Runs of an engine with its clients

Clients share one engine with a scheduler. Each client has a session of its own; the chunks of its
messages, the uploads of others and the cycles of the scheduler come in any order. What the
interpreter is asked in a turn is recorded as for runs without clients, and a turn in which the
engine is used at all is one of their steps. A message whose upload is lost gets no reply.

## Main definitions

* `Host` — an engine with its scheduler and with the sessions of its clients.
* `Turn`, `Host.history` — the turns of a run.
* `Host.Served` — what a turn can be.

## Main results

* `Host.served` — every turn is one of the listed ones.
* `Host.run_eq_history` — recording changes nothing of a run.
* `Host.history_induction` — induction over the turns of a run.
-/

namespace PixelHost

variable {I : Interpreter}

/-! ### What becomes of a chunk -/

namespace Session

variable {s : Session} {chunk : Bytes}

theorem receive_of_closed (closed : s.closed = true) (isLast : Bool) (e : Engine I) :
    s.receive chunk isLast e = (.error .closed, s, e) := by
  simp only [receive, closed, if_true]

theorem receive_of_overlong (opened : s.closed = false)
    (long : s.maxUpload < s.buffer.size + chunk.size) (isLast : Bool) (e : Engine I) :
    s.receive chunk isLast e =
      (.error (.tooLarge s.maxUpload (s.buffer.size + chunk.size)),
        { s with closed := true, buffer := .empty }, e) := by
  simp only [receive, opened, Bool.false_eq_true, if_false]
  exact if_pos long

variable (opened : s.closed = false) (fits : s.buffer.size + chunk.size ≤ s.maxUpload)

include opened fits

theorem receive_of_more (e : Engine I) :
    s.receive chunk false e = (.ok (), { s with buffer := s.buffer ++ chunk }, e) := by
  simp only [receive, opened, Bool.false_eq_true, if_false]
  exact if_neg (Nat.not_lt.mpr fits)

variable {e e' : Engine I}

theorem receive_of_reply {text : String} (replied : reply (s.buffer ++ chunk) e = (some text, e')) :
    s.receive chunk true e =
      (.ok (), { s with buffer := .empty, outbox := (s.outbox.push text).2 }, e') := by
  simp only [receive, opened, Bool.false_eq_true, if_false, if_true, replied]
  exact if_neg (Nat.not_lt.mpr fits)

theorem receive_of_lost (lost : reply (s.buffer ++ chunk) e = (none, e')) :
    s.receive chunk true e = (.lost, { s with buffer := .empty }, e') := by
  simp only [receive, opened, Bool.false_eq_true, if_false, if_true, lost]
  exact if_neg (Nat.not_lt.mpr fits)

end Session

/-! ### Hosts -/

/-- An engine with its scheduler and with a session for each client. -/
structure Host (I : Interpreter) where
  player : Player I
  sessions : Nat → Session

namespace Host

/-- What can happen to a host. -/
inductive Input where
  /-- An upload that comes through no session, or a cycle. -/
  | play (op : Op)
  /-- A chunk of a message of a client. -/
  | receive (client : Nat) (chunk : Bytes) (isLast : Bool)
  /-- A client can take a reply. -/
  | nextReply (client : Nat)

/-- What comes of it. -/
inductive Output where
  | played (answer : Answer)
  | received (result : Ending UploadError Unit)
  | replied (reply : Option String)

end Host

/-- A turn of a run: what happened, what came of it, and what the interpreter was asked. -/
structure Turn (I : Interpreter) where
  input : Host.Input
  output : Host.Output
  record : List (Activity I)

namespace Host

/-- The host with another session for a client. -/
def withSession (h : Host I) (client : Nat) (session : Session) : Host I :=
  { h with sessions := Function.update h.sessions client session }

/-- The host with another engine. -/
def withEngine (h : Host I) (engine : Engine I) : Host I :=
  { h with player := { h.player with engine } }

/-- What happens in a turn. -/
def act (h : Host I) : Input → Output × Host I
  | .play op =>
    let (answer, player) := h.player.act op
    (.played answer, { h with player })
  | .receive client chunk isLast =>
    let (result, session, engine) := (h.sessions client).receive chunk isLast h.player.engine
    (.received result, (h.withEngine engine).withSession client session)
  | .nextReply client =>
    let (reply, session) := (h.sessions client).nextReply
    (.replied reply, h.withSession client session)

/-- The host on a recording interpreter whose record is empty. -/
def recording (h : Host I) : Host I.recording :=
  ⟨⟨h.player.engine.recording, h.player.scheduler⟩, h.sessions⟩

/-- The host without the record. -/
def plain (h : Host I.recording) : Host I :=
  ⟨⟨h.player.engine.plain, h.player.scheduler⟩, h.sessions⟩

/-- A turn with the record of what the interpreter was asked in it. -/
def recorded (h : Host I) (input : Input) : Turn I × Host I :=
  let (output, after) := h.recording.act input
  (⟨input, output, after.player.engine.interpreter.2⟩, after.plain)

/-- The turns of a run and the host after it. -/
def history (h : Host I) : List Input → List (Turn I) × Host I
  | [] => ([], h)
  | input :: rest =>
    let (turn, h) := h.recorded input
    let (turns, h) := h.history rest
    (turn :: turns, h)

/-- What comes of a run, and the host after it. -/
def run (h : Host I) : List Input → List Output × Host I
  | [] => ([], h)
  | input :: rest =>
    let (output, h) := h.act input
    let (outputs, h) := h.run rest
    (output :: outputs, h)

/-! ### What a turn can be -/

/-- The reply to an upload, if there is one. -/
def replyTo : Ending ScriptError Delay → Option String
  | .ok _ => some Session.accepted
  | .error error => some error.text
  | .lost => none

/-- The turns that can happen, with the host after each. -/
inductive Served (h : Host I) : Turn I → Host I → Prop
  /-- An upload that comes through no session, or a cycle. -/
  | played {op answer record p} (taken : h.player.Taken ⟨op, answer, record⟩ p) :
      Served h ⟨.play op, .played answer, record⟩ { h with player := p }
  /-- A chunk for a session that has ended. -/
  | refused {client chunk isLast} (closed : (h.sessions client).closed = true) :
      Served h ⟨.receive client chunk isLast, .received (.error .closed), []⟩ h
  /-- A chunk that makes a message too long ends the session. -/
  | overlong {client chunk isLast} (opened : (h.sessions client).closed = false)
      (long : (h.sessions client).maxUpload < (h.sessions client).buffer.size + chunk.size) :
      Served h
        ⟨.receive client chunk isLast, .received (.error (.tooLarge (h.sessions client).maxUpload
          ((h.sessions client).buffer.size + chunk.size))), []⟩
        (h.withSession client { h.sessions client with closed := true, buffer := .empty })
  /-- A chunk that others follow is kept. -/
  | buffered {client chunk} (opened : (h.sessions client).closed = false)
      (fits : (h.sessions client).buffer.size + chunk.size ≤ (h.sessions client).maxUpload) :
      Served h ⟨.receive client chunk false, .received (.ok ()), []⟩
        (h.withSession client { h.sessions client with
          buffer := (h.sessions client).buffer ++ chunk })
  /-- A whole message that is no text. -/
  | unreadable {client chunk} (opened : (h.sessions client).closed = false)
      (fits : (h.sessions client).buffer.size + chunk.size ≤ (h.sessions client).maxUpload)
      (text : Utf8.decode? ((h.sessions client).buffer ++ chunk) = none) :
      Served h ⟨.receive client chunk true, .received (.ok ()), []⟩
        (h.withSession client { h.sessions client with
          buffer := .empty
          outbox := ((h.sessions client).outbox.push
            (Session.notText ((h.sessions client).buffer ++ chunk)).text).2 })
  /-- A whole message that is a text is uploaded. -/
  | submitted {client chunk source result reply record p}
      (opened : (h.sessions client).closed = false)
      (fits : (h.sessions client).buffer.size + chunk.size ≤ (h.sessions client).maxUpload)
      (text : Utf8.decode? ((h.sessions client).buffer ++ chunk) = some source)
      (taken : h.player.Taken ⟨.upload source, .uploaded result, record⟩ p)
      (replied : replyTo result = some reply) :
      Served h ⟨.receive client chunk true, .received (.ok ()), record⟩
        ((h.withEngine p.engine).withSession client { h.sessions client with
          buffer := .empty
          outbox := ((h.sessions client).outbox.push reply).2 })
  /-- A whole message that is a text is uploaded, and the upload is lost. -/
  | lost {client chunk source record p} (opened : (h.sessions client).closed = false)
      (fits : (h.sessions client).buffer.size + chunk.size ≤ (h.sessions client).maxUpload)
      (text : Utf8.decode? ((h.sessions client).buffer ++ chunk) = some source)
      (taken : h.player.Taken ⟨.upload source, .uploaded .lost, record⟩ p) :
      Served h ⟨.receive client chunk true, .received .lost, record⟩
        ((h.withEngine p.engine).withSession client { h.sessions client with buffer := .empty })
  /-- A client takes a reply. -/
  | replied {client} :
      Served h ⟨.nextReply client, .replied (h.sessions client).nextReply.1, []⟩
        (h.withSession client (h.sessions client).nextReply.2)

theorem plain_recording (h : Host I) : h.recording.plain = h := by
  rw [plain, recording, Engine.plain_recording]

theorem reply_of_unreadable {message : Bytes} (text : Utf8.decode? message = none) (e : Engine I) :
    Session.reply message e = (some (Session.notText message).text, e) := by
  simp only [Session.reply, text]

/-- The reply to a message that is a text, and the engine after it, come of its upload. -/
theorem reply_of_text {message : Bytes} {source : String} (text : Utf8.decode? message = some source)
    (e : Engine I) :
    Session.reply message e = (replyTo (e.submit source).1, (e.submit source).2) := by
  simp only [Session.reply, text]
  rcases e.submit source with ⟨_ | _ | _, _⟩ <;> rfl

section

variable {h : Host I} {client : Nat} {chunk : Bytes} {isLast : Bool}

/-- A chunk after which the engine is as before. -/
theorem recorded_of_silent {result : Ending UploadError Unit} {session : Session}
    (silent : (h.sessions client).receive chunk isLast h.player.engine.recording =
      (result, session, h.player.engine.recording)) :
    h.recorded (.receive client chunk isLast) =
      (⟨.receive client chunk isLast, .received result, []⟩, h.withSession client session) := by
  have hact : h.recording.act (.receive client chunk isLast) =
      (.received result, h.recording.withSession client session) := by
    have hsession : h.recording.sessions client = h.sessions client := rfl
    have hengine : h.recording.player.engine = h.player.engine.recording := rfl
    rw [act, hsession, hengine, silent]
    rfl
  rw [recorded, hact]
  exact congrArg (fun k => ((⟨_, _, []⟩ : Turn I), k.withSession client session)) h.plain_recording

private theorem served_last (opened : (h.sessions client).closed = false)
    (fits : (h.sessions client).buffer.size + chunk.size ≤ (h.sessions client).maxUpload) :
    Served h (h.recorded (.receive client chunk true)).1
      (h.recorded (.receive client chunk true)).2 := by
  let e := h.player.engine.recording
  cases htext : Utf8.decode? ((h.sessions client).buffer ++ chunk) with
  | none =>
    have hreceive := Session.receive_of_reply opened fits (reply_of_unreadable htext e)
    rw [recorded_of_silent hreceive]
    exact .unreadable opened fits htext
  | some source =>
    have hreply := reply_of_text htext e
    have htaken : h.player.Taken
        ⟨.upload source, .uploaded (e.submit source).1, (e.submit source).2.interpreter.2⟩ _ :=
      h.player.taken (.upload source)
    have hsession : h.recording.sessions client = h.sessions client := rfl
    have hengine : h.recording.player.engine = e := rfl
    cases hresult : replyTo (e.submit source).1 with
    | some text =>
      rw [hresult] at hreply
      rw [recorded, act, hsession, hengine, Session.receive_of_reply opened fits hreply]
      exact .submitted opened fits htext htaken hresult
    | none =>
      have hlost : (e.submit source).1 = .lost := by
        cases h : (e.submit source).1 with
        | lost => rfl
        | _ => rw [h] at hresult; cases hresult
      rw [hresult] at hreply
      rw [hlost] at htaken
      rw [recorded, act, hsession, hengine, Session.receive_of_lost opened fits hreply]
      exact .lost opened fits htext htaken

private theorem served_receive (h : Host I) (client : Nat) (chunk : Bytes) (isLast : Bool) :
    Served h (h.recorded (.receive client chunk isLast)).1
      (h.recorded (.receive client chunk isLast)).2 := by
  cases hclosed : (h.sessions client).closed with
  | true =>
    rw [recorded_of_silent (Session.receive_of_closed hclosed isLast _), withSession,
      Function.update_eq_self]
    exact .refused hclosed
  | false =>
    rcases Nat.lt_or_ge (h.sessions client).maxUpload
        ((h.sessions client).buffer.size + chunk.size) with long | fits
    · rw [recorded_of_silent (Session.receive_of_overlong hclosed long isLast _)]
      exact .overlong hclosed long
    · cases isLast with
      | true => exact served_last hclosed fits
      | false =>
        rw [recorded_of_silent (Session.receive_of_more hclosed fits _)]
        exact .buffered hclosed fits

end

/-- Every turn is one of the listed ones. -/
theorem served (h : Host I) (input : Input) :
    Served h (h.recorded input).1 (h.recorded input).2 := by
  cases input with
  | play op => exact .played (h.player.taken op)
  | receive client chunk isLast => exact served_receive h client chunk isLast
  | nextReply client =>
    have hplain : (h.recorded (.nextReply client)).2 =
        h.recording.plain.withSession client (h.sessions client).nextReply.2 := rfl
    rw [hplain, plain_recording]
    exact .replied

/-! ### The record changes nothing -/

theorem Served.act_eq {h k : Host I} {turn : Turn I} (served : h.Served turn k) :
    h.act turn.input = (turn.output, k) := by
  cases served with
  | played taken => simp only [act, taken.act_eq]
  | @refused client chunk isLast closed =>
    have hsame : h.withSession client (h.sessions client) = h := by
      rw [withSession, Function.update_eq_self]
    rw [act, Session.receive_of_closed closed]
    exact congrArg (Prod.mk _) hsame
  | overlong opened long =>
    rw [act, Session.receive_of_overlong opened long]
    rfl
  | buffered opened fits =>
    rw [act, Session.receive_of_more opened fits]
    rfl
  | unreadable opened fits text =>
    simp only [act, Session.receive_of_reply opened fits (reply_of_unreadable text _)]
    rfl
  | submitted opened fits text taken replied =>
    have hsubmit := taken.act_eq
    simp only [Player.act, Prod.mk.injEq, Answer.uploaded.injEq] at hsubmit
    obtain ⟨hresult, rfl⟩ := hsubmit
    have hreply := reply_of_text text h.player.engine
    rw [hresult, replied] at hreply
    simp only [act, Session.receive_of_reply opened fits hreply]
  | lost opened fits text taken =>
    have hsubmit := taken.act_eq
    simp only [Player.act, Prod.mk.injEq, Answer.uploaded.injEq] at hsubmit
    obtain ⟨hresult, rfl⟩ := hsubmit
    have hreply := reply_of_text text h.player.engine
    rw [hresult] at hreply
    simp only [act, Session.receive_of_lost opened fits hreply]
  | replied => rfl

/-- Recording changes nothing of a run. -/
theorem run_eq_history (h : Host I) (inputs : List Input) :
    h.run inputs = ((h.history inputs).1.map Turn.output, (h.history inputs).2) := by
  induction inputs generalizing h with
  | nil => rfl
  | cons input rest ih =>
    have hact : h.act input = _ := (h.served input).act_eq
    simp only [run, hact, ih, history, List.map_cons]

/-- A turn says what happened in it. -/
theorem history_inputs (h : Host I) (inputs : List Input) :
    (h.history inputs).1.map Turn.input = inputs := by
  induction inputs generalizing h with
  | nil => rfl
  | cons input rest ih => simp only [history, List.map_cons, ih, recorded]

theorem history_concat (h : Host I) (inputs : List Input) (input : Input) :
    h.history (inputs ++ [input]) =
      ((h.history inputs).1 ++ [((h.history inputs).2.recorded input).1],
        ((h.history inputs).2.recorded input).2) := by
  induction inputs generalizing h with
  | nil => rfl
  | cons first rest ih => simp only [List.cons_append, history, ih]

/-- What holds at the start and is kept by every turn holds after every run. The statement may speak
of the turns so far. -/
theorem history_induction {motive : List (Turn I) → Host I → Prop} (h : Host I)
    (start : motive [] h)
    (step : ∀ turns k turn k', motive turns k → Served k turn k' → motive (turns ++ [turn]) k')
    (inputs : List Input) : motive (h.history inputs).1 (h.history inputs).2 := by
  induction inputs using List.reverseRecOn with
  | nil => exact start
  | append_singleton inputs input ih =>
    rw [history_concat]
    exact step _ _ _ _ ih ((h.history inputs).2.served input)

end Host

end PixelHost
