import PixelHost.Proofs.Engine.Clients
import PixelHost.Proofs.Engine.Counters
import PixelHost.Proofs.Engine.Replies

/-!
# Every message is accounted for

A session takes a message to its end if no chunk makes it too long and the message is not lost. The
message is then answered with one reply. If it is a text it is uploaded, and counted once: as accepted if the reply says so, and as
rejected if the reply is an error. A message that is no text is answered by the session alone; it does
not come to the engine, and nothing is counted. So the uploads that were accepted or rejected are the
texts among the messages, whatever else happens in a run.

## Main definitions

* `Completion` — a message that was taken to its end, with the reply to it.
* `Completion.Booked` — how a message is counted.
* `Host.completions` — the messages that are taken to their ends in a run.

## Main results

* `Host.Served.booked` — how the message is counted that is completed in a turn.
* `Host.accounted_of_run` — the messages of a run and the counters after it.
-/

namespace PixelHost

variable {I : Interpreter}

/-! ### Messages and how they are counted -/

/-- A message that a session took to its end, with the reply to it. -/
structure Completion where
  message : Bytes
  reply : String

namespace Completion

/-- The message is a text. -/
def isText (c : Completion) : Bool := (Utf8.decode? c.message).isSome

/-- The reply says that the message was published. -/
def isAccepted (c : Completion) : Bool := c.reply == Session.accepted

/-- The message is a text, but the reply is an error. -/
def isRejected (c : Completion) : Bool := c.isText && !c.isAccepted

/-- How a message is counted. -/
inductive Booked (c : Completion) (before after : Metrics) : Prop
  | accepted (text : c.isText = true) (reply : c.reply = Session.accepted)
      (more : after.uploadsAccepted = before.uploadsAccepted + 1)
      (same : after.uploadsRejected = before.uploadsRejected)
  | rejected {error : ScriptError} (text : c.isText = true) (reply : c.reply = error.text)
      (same : after.uploadsAccepted = before.uploadsAccepted)
      (more : after.uploadsRejected = before.uploadsRejected + 1)
  | unreadable (other : c.isText = false) (reply : c.reply = (Session.notText c.message).text)
      (same : after = before)

end Completion

namespace Host

/-- An upload that comes through no session is accepted. -/
def Output.accepts : Output → Bool
  | .played (.uploaded (.ok _)) => true
  | _ => false

/-- An upload that comes through no session is rejected. -/
def Output.rejects : Output → Bool
  | .played (.uploaded (.error _)) => true
  | _ => false

/-- The message that is taken to its end when its last chunk is taken. -/
def completion? (h : Host I) (input : Input) : Option Completion :=
  match input, (h.act input).1 with
  | .receive client chunk true, .received (.ok ()) =>
    let message := (h.sessions client).buffer ++ chunk
    (Session.reply message h.player.engine).1.map fun reply => ⟨message, reply⟩
  | _, _ => none

/-- The messages that are taken to their ends in a run. -/
def completions (h : Host I) : List Input → List Completion
  | [] => []
  | input :: rest => (h.completion? input).toList ++ (h.act input).2.completions rest

/-- The counters of the engine. -/
def metrics (h : Host I) : Metrics := h.player.engine.metrics

/-! ### One turn -/

/-- A message is completed exactly if its last chunk is taken. -/
theorem completion?_eq_some_iff {h : Host I} {input : Input} {c : Completion} :
    h.completion? input = some c ↔ ∃ client chunk, input = .receive client chunk true ∧
      (h.act input).1 = .received (.ok ()) ∧ c.message = (h.sessions client).buffer ++ chunk ∧
      (Session.reply c.message h.player.engine).1 = some c.reply := by
  unfold completion?
  constructor
  · intro completed
    split at completed
    · next client chunk hok =>
      obtain ⟨reply, hreply, rfl⟩ := Option.map_eq_some_iff.mp completed
      exact ⟨client, chunk, rfl, hok, rfl, hreply⟩
    · cases completed
  · rintro ⟨client, chunk, rfl, hok, hmessage, hreply⟩
    rw [hok]
    exact Option.map_eq_some_iff.mpr ⟨c.reply, hmessage ▸ hreply, by rw [← hmessage]⟩

section

variable {h k : Host I} {turn : Turn I}

/-- A message that is completed in a turn is counted by its reply, which is queued if there is room. -/
theorem Served.booked {c : Completion} (served : h.Served turn k)
    (completed : h.completion? turn.input = some c) :
    c.Booked h.metrics k.metrics ∧ ∃ client chunk, turn.input = .receive client chunk true ∧
      c.message = (h.sessions client).buffer ++ chunk ∧
      (k.sessions client).outbox = ((h.sessions client).outbox.push c.reply).2 := by
  obtain ⟨client, chunk, hinput, hok, hmessage, hreply⟩ := completion?_eq_some_iff.mp completed
  rw [served.act_eq] at hok
  cases served with
  | unreadable opened fits text =>
    cases hinput
    rw [← hmessage] at text
    rw [reply_of_unreadable text] at hreply
    have htext := Option.some.inj hreply
    refine ⟨.unreadable ?_ htext.symm rfl, client, chunk, rfl, hmessage, ?_⟩
    · rw [Completion.isText, text, Option.isSome_none]
    · simp only [withSession, Function.update_self, ← hmessage, htext]
  | @submitted _ _ source result reply record p opened fits text taken replied =>
    cases hinput
    have hsubmit : (h.player.engine.submit source).1 = result := by
      have hact := congrArg Prod.fst taken.act_eq
      simpa only [Player.act, Answer.uploaded.injEq] using hact
    rw [← hmessage] at text
    rw [reply_of_text text, hsubmit] at hreply
    obtain rfl := Option.some.inj (replied.symm.trans hreply)
    have htext : c.isText = true := by rw [Completion.isText, text, Option.isSome_some]
    have hcounts := taken.counts
    refine ⟨?_, client, chunk, rfl, hmessage, by simp only [withSession, Function.update_self]⟩
    cases result with
    | ok delay =>
      exact .accepted htext (Option.some.inj hreply).symm hcounts.accepted hcounts.rejected
    | error error =>
      exact .rejected htext (Option.some.inj hreply).symm hcounts.accepted hcounts.rejected
    | lost => cases hreply
  | buffered | replied | played => cases hinput
  | refused | overlong | lost => cases hok

end

end Host

/-! ### Tallies -/

namespace Completion

variable {c : Completion} {before after : Metrics}

theorem isAccepted_of_error {error : ScriptError} (reply : c.reply = error.text) :
    c.isAccepted = false := by
  rw [isAccepted, reply]
  exact beq_false_of_ne error.text_ne_accepted

/-- A message is counted once if it is a text, and not at all otherwise. -/
theorem Booked.counts (booked : c.Booked before after) :
    after.uploadsAccepted = before.uploadsAccepted + c.isAccepted.toNat ∧
      after.uploadsRejected = before.uploadsRejected + c.isRejected.toNat ∧
      c.isText.toNat = c.isAccepted.toNat + c.isRejected.toNat := by
  cases booked with
  | accepted text reply more same =>
    have haccepted : c.isAccepted = true := by rw [isAccepted, reply, BEq.rfl]
    simp [isRejected, text, haccepted, more, same]
  | rejected text reply same more =>
    simp [isRejected, text, isAccepted_of_error reply, more, same]
  | unreadable other reply same =>
    simp [isRejected, other, isAccepted_of_error reply, same]

end Completion

/-- The messages that were completed and what came of a run tell what was counted in it. -/
structure Tallied (done : List Completion) (outputs : List Host.Output) (before after : Metrics) :
    Prop where
  accepted : after.uploadsAccepted =
    before.uploadsAccepted + done.countP (·.isAccepted) + outputs.countP (·.accepts)
  rejected : after.uploadsRejected =
    before.uploadsRejected + done.countP (·.isRejected) + outputs.countP (·.rejects)
  texts : done.countP (·.isText) = done.countP (·.isAccepted) + done.countP (·.isRejected)

theorem Tallied.trans {done done' : List Completion} {outputs outputs' : List Host.Output}
    {a b c : Metrics} (first : Tallied done outputs a b) (second : Tallied done' outputs' b c) :
    Tallied (done ++ done') (outputs ++ outputs') a c where
  accepted := by
    rw [second.accepted, first.accepted, List.countP_append, List.countP_append]
    omega
  rejected := by
    rw [second.rejected, first.rejected, List.countP_append, List.countP_append]
    omega
  texts := by
    rw [List.countP_append, List.countP_append, List.countP_append, first.texts, second.texts]
    omega

namespace Host

/-- What is counted in a turn. -/
theorem Served.tallied {h k : Host I} {turn : Turn I} (served : h.Served turn k) :
    Tallied (h.completion? turn.input).toList [turn.output] h.metrics k.metrics := by
  cases hc : h.completion? turn.input with
  | some c =>
    obtain ⟨haccepted, hrejected, htext⟩ := (served.booked hc).1.counts
    obtain ⟨-, -, -, hok, -⟩ := completion?_eq_some_iff.mp hc
    have houtput : turn.output = .received (.ok ()) :=
      (congrArg Prod.fst served.act_eq).symm.trans hok
    refine ⟨?_, ?_, ?_⟩
    · simpa [houtput, countP_cons_toNat, Output.accepts] using haccepted
    · simpa [houtput, countP_cons_toNat, Output.rejects] using hrejected
    · simpa [countP_cons_toNat] using htext
  | none =>
    -- A message with a reply is completed.
    have hopen {client chunk reply} (hinput : turn.input = .receive client chunk true)
        (hok : turn.output = .received (.ok ()))
        (hreply : (Session.reply ((h.sessions client).buffer ++ chunk) h.player.engine).1 =
          some reply) : False := by
      let c : Completion := ⟨(h.sessions client).buffer ++ chunk, reply⟩
      have hsome : h.completion? turn.input = some c := completion?_eq_some_iff.mpr
        ⟨client, chunk, hinput, (congrArg Prod.fst served.act_eq).trans hok, rfl, hreply⟩
      cases hc.symm.trans hsome
    cases served with
    | @played op answer record p taken =>
      have hcounts := taken.counts
      have haccepts : Output.accepts (.played answer) = (⟨op, answer, record⟩ : Step I).isAccepted := by
        rcases answer with (_ | _ | _) | _ <;> rfl
      have hrejects : Output.rejects (.played answer) = (⟨op, answer, record⟩ : Step I).isRejected := by
        rcases answer with (_ | _ | _) | _ <;> rfl
      refine ⟨?_, ?_, rfl⟩
      · simpa [countP_cons_toNat, haccepts, metrics] using hcounts.accepted
      · simpa [countP_cons_toNat, hrejects, metrics] using hcounts.rejected
    | refused | overlong | buffered | replied => exact ⟨rfl, rfl, rfl⟩
    | lost opened fits text taken =>
      have hcounts := taken.counts
      exact ⟨hcounts.accepted, hcounts.rejected, rfl⟩
    | unreadable opened fits text =>
      exact (hopen rfl rfl (congrArg Prod.fst (reply_of_unreadable text _))).elim
    | @submitted client chunk source result reply record p opened fits text taken replied =>
      have hsubmit : (h.player.engine.submit source).1 = result := by
        have hact := congrArg Prod.fst taken.act_eq
        simpa only [Player.act, Answer.uploaded.injEq] using hact
      have hreply : (Session.reply ((h.sessions client).buffer ++ chunk) h.player.engine).1 =
          some reply := by
        rw [reply_of_text text, hsubmit, replied]
      exact (hopen rfl rfl hreply).elim

/-- By induction on what happens. -/
theorem tallied_run (h : Host I) (inputs : List Input) :
    Tallied (h.completions inputs) (h.run inputs).1 h.metrics (h.run inputs).2.metrics := by
  induction inputs generalizing h with
  | nil => exact ⟨rfl, rfl, rfl⟩
  | cons input rest ih =>
    have hserved := h.served input
    have hact : h.act input = _ := hserved.act_eq
    have hturn := hserved.tallied
    have hrest := ih (h.act input).2
    rw [hact] at hrest
    simp only [completions, run, hact]
    exact hturn.trans hrest

/-- Only an upload that comes through no session is counted by its output. -/
theorem direct_of_counts {h : Host I} {input : Input}
    (counts : (h.act input).1.accepts = true ∨ (h.act input).1.rejects = true) :
    ∃ source, input = .play (.upload source) := by
  cases input with
  | play op =>
    cases op with
    | upload source => exact ⟨source, rfl⟩
    | cycle => rcases counts with hcount | hcount <;> cases hcount
  | receive client chunk isLast => rcases counts with hcount | hcount <;> cases hcount
  | nextReply client => rcases counts with hcount | hcount <;> cases hcount

theorem countP_of_sessions (h : Host I) {inputs : List Input}
    (sessions : ∀ source, .play (.upload source) ∉ inputs) :
    (h.run inputs).1.countP (·.accepts) = 0 ∧ (h.run inputs).1.countP (·.rejects) = 0 := by
  induction inputs generalizing h with
  | nil => exact ⟨rfl, rfl⟩
  | cons input rest ih =>
    obtain ⟨haccepts, hrejects⟩ :=
      ih (h.act input).2 fun source hsource => sessions source (List.mem_cons_of_mem input hsource)
    have hquiet : ¬ ((h.act input).1.accepts = true ∨ (h.act input).1.rejects = true) := by
      intro counts
      obtain ⟨source, rfl⟩ := direct_of_counts counts
      exact sessions source List.mem_cons_self
    rw [not_or, Bool.not_eq_true, Bool.not_eq_true] at hquiet
    simp only [run, countP_cons_toNat, hquiet, haccepts, hrejects]
    exact ⟨rfl, rfl⟩

/-! ### The messages of a run -/

/-- In every run from an engine without a program, with any sessions and any bytes as messages, each
message that is taken to its end has one reply, and is counted by it: a text is counted as accepted if
the reply says so, and as rejected if the reply is an error; any other message is answered with an
error and not counted. So the counters are the numbers of such messages, and of the uploads of these
kinds that came through no session. If all uploads come through sessions, then as many uploads were
accepted or rejected as texts were taken to their ends. -/
theorem accounted_of_run (state : I.State) (sink : Sink) (initialDelay : Delay)
    (quantum : Duration) (sessions : Nat → Session) (inputs : List Input) :
    let host : Host I := ⟨.start state sink initialDelay quantum, sessions⟩
    let (outputs, last) := host.run inputs
    let done := host.completions inputs
    let m := last.metrics
    (∀ (h : Host I) (input : Input) (c : Completion), h.completion? input = some c →
      c.Booked h.metrics (h.act input).2.metrics ∧
        ∃ client chunk, input = .receive client chunk true ∧
          c.message = (h.sessions client).buffer ++ chunk ∧
          ((h.act input).2.sessions client).outbox =
            ((h.sessions client).outbox.push c.reply).2) ∧
      m.uploadsAccepted = done.countP (·.isAccepted) + outputs.countP (·.accepts) ∧
      m.uploadsRejected = done.countP (·.isRejected) + outputs.countP (·.rejects) ∧
      ((∀ source, .play (.upload source) ∉ inputs) →
        done.countP (·.isText) = m.uploadsAccepted + m.uploadsRejected) := by
  intro host
  obtain ⟨haccepted, hrejected, htexts⟩ := host.tallied_run inputs
  have hzero : host.metrics = {} := rfl
  rw [hzero, Nat.zero_add] at haccepted hrejected
  refine ⟨fun h input c completed => ?_, haccepted, hrejected, fun through => ?_⟩
  · have hserved := h.served input
    have hact : h.act input = _ := hserved.act_eq
    rw [hact]
    exact hserved.booked completed
  · obtain ⟨haccepts, hrejects⟩ := host.countP_of_sessions through
    rw [haccepted, hrejected, haccepts, hrejects, htexts]
    omega

/-- A message that is no text is taken to its end, but it is counted neither as accepted nor as
rejected. -/
example :
    let host : Host Sandbox.interpreter :=
      ⟨.start ⟨.fresh 0, 900, 0, 0⟩ {} .forever ⟨0⟩, fun _ => .start 64 4⟩
    let inputs := [.receive 0 ⟨#[0xff]⟩ true]
    let m := (host.run inputs).2.metrics
    (host.completions inputs).length = 1 ∧ m.uploadsAccepted + m.uploadsRejected = 0 := by
  decide

end Host

end PixelHost
