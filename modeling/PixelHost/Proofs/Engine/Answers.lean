import PixelHost.Proofs.Engine.Clients

/-!
# The answers of a session

A session answers each complete message that it takes with one reply. The reply waits for the client
in a queue with a fixed number of places; it is dropped if all of them are in use, and only then. What
the client has taken, followed by what still waits, is what was kept, in the order of the messages. A
message whose upload is lost is never completed, and there is no answer to it.

The engine may be in any state whenever a chunk comes, for others use it too.

## Main definitions

* `Session.Input`, `Session.history` — the runs of one session.
* `Session.Acted` — what a step of a run can be.
* `Session.Accounts` — what was answered was taken, waits or was dropped.

## Main results

* `Session.Accounts.step` — what a step keeps.
* `Session.answers_of_history` — the answers of a run.
-/

namespace PixelHost

variable {I : Interpreter}

namespace Session

/-! ### Runs of a session -/

/-- What can happen to a session. -/
inductive Input (I : Interpreter) where
  /-- A chunk of a message comes while the engine is in some state. -/
  | receive (chunk : Bytes) (isLast : Bool) (engine : Engine I)
  /-- The client can take a reply. -/
  | nextReply

/-- The reply to a complete message, and whether there was room for it. -/
structure Answer where
  reply : String
  kept : Bool

/-- What comes of it. -/
inductive Output where
  | received (result : Ending UploadError Unit) (answer : Option Answer)
  | replied (reply : Option String)

/-- The answer to a chunk. A chunk has one if it completes a message that the session takes. -/
def answer? (s : Session) (chunk : Bytes) (isLast : Bool) (e : Engine I) : Option Answer :=
  match (s.receive chunk isLast e).1, isLast with
  | .ok (), true =>
    (reply (s.buffer ++ chunk) e).1.map fun reply => ⟨reply, (s.outbox.push reply).1⟩
  | _, _ => none

/-- What happens in a step. -/
def act (s : Session) : Input I → Output × Session
  | .receive chunk isLast e =>
    let (result, after, _) := s.receive chunk isLast e
    (.received result (s.answer? chunk isLast e), after)
  | .nextReply =>
    let (reply, after) := s.nextReply
    (.replied reply, after)

/-- What comes of a run, and the session after it. -/
def history (s : Session) : List (Input I) → List Output × Session
  | [] => ([], s)
  | input :: rest =>
    let (output, s) := s.act input
    let (outputs, s) := s.history rest
    (output :: outputs, s)

/-- The answers of a run. -/
def answers (outputs : List Output) : List Answer :=
  outputs.filterMap fun
    | .received _ answer => answer
    | .replied _ => none

/-- The replies that the client took in a run. -/
def taken (outputs : List Output) : List String :=
  outputs.filterMap fun
    | .received _ _ => none
    | .replied reply => reply

section

variable (outputs : List Output) (result : Ending UploadError Unit) (answer : Option Answer)
  (reply : Option String)

@[simp] theorem answers_received :
    answers (outputs ++ [.received result answer]) = answers outputs ++ answer.toList := by
  cases answer <;> simp [answers]

@[simp] theorem answers_replied : answers (outputs ++ [.replied reply]) = answers outputs := by
  simp [answers]

@[simp] theorem taken_received : taken (outputs ++ [.received result answer]) = taken outputs := by
  simp [taken]

@[simp] theorem taken_replied :
    taken (outputs ++ [.replied reply]) = taken outputs ++ reply.toList := by
  cases reply <;> simp [taken]

end

/-! ### What a step can be -/

/-- The steps that can happen, with the session after each. -/
inductive Acted (s : Session) : Output → Session → Prop
  /-- A chunk that completes no message, or that is refused or lost. -/
  | silent {result buffer closed} (small : s.buffer.size ≤ s.maxUpload → buffer.size ≤ s.maxUpload) :
      Acted s (.received result none) { s with buffer, closed }
  /-- There is room for the reply. -/
  | kept {result reply} (room : s.outbox.queue.length < s.outbox.capacity) :
      Acted s (.received result (some ⟨reply, true⟩))
        { s with buffer := .empty, outbox := { s.outbox with queue := s.outbox.queue ++ [reply] } }
  /-- There is no room for the reply. -/
  | dropped {result reply} (full : s.outbox.capacity ≤ s.outbox.queue.length) :
      Acted s (.received result (some ⟨reply, false⟩))
        { s with buffer := .empty, outbox := { s.outbox with dropped := s.outbox.dropped + 1 } }
  /-- The client takes the oldest reply. -/
  | replied {reply queue} (waiting : s.outbox.queue = reply :: queue) :
      Acted s (.replied (some reply)) { s with outbox := { s.outbox with queue } }
  /-- No reply waits. -/
  | idle (waiting : s.outbox.queue = []) : Acted s (.replied none) s

section

variable {s : Session} {chunk : Bytes} {e : Engine I}

/-- Chunks are taken by an open session only, and none that would make the message too long. -/
theorem fits_of_receive {isLast : Bool} (hok : (s.receive chunk isLast e).1 = .ok ()) :
    s.closed = false ∧ s.buffer.size + chunk.size ≤ s.maxUpload := by
  cases hclosed : s.closed with
  | true =>
    rw [receive_of_closed hclosed] at hok
    cases hok
  | false =>
    refine ⟨rfl, Nat.le_of_not_lt fun long => ?_⟩
    rw [receive_of_overlong hclosed long] at hok
    cases hok

section

variable (opened : s.closed = false) (fits : s.buffer.size + chunk.size ≤ s.maxUpload)

include opened fits

/-- A complete message that is taken has a reply. -/
theorem reply_of_receive (hok : (s.receive chunk true e).1 = .ok ()) :
    ∃ text e', reply (s.buffer ++ chunk) e = (some text, e') := by
  rcases hreply : reply (s.buffer ++ chunk) e with ⟨_ | text, e'⟩
  · rw [receive_of_lost opened fits hreply] at hok
    cases hok
  · exact ⟨text, e', rfl⟩

/-- The answer to a complete message. -/
theorem answer?_of_reply {text : String} {e' : Engine I}
    (replied : reply (s.buffer ++ chunk) e = (some text, e')) :
    s.answer? chunk true e = some ⟨text, (s.outbox.push text).1⟩ := by
  simp only [answer?, receive_of_reply opened fits replied, replied, Option.map_some]

/-- What becomes of a complete message depends on the room for its reply. -/
private theorem acted_last :
    s.Acted (s.act (.receive chunk true e)).1 (s.act (.receive chunk true e)).2 := by
  rcases hreply : reply (s.buffer ++ chunk) e with ⟨_ | text, e'⟩
  · simp only [act, answer?, receive_of_lost opened fits hreply]
    exact .silent fun _ => Nat.zero_le _
  · simp only [act, answer?_of_reply opened fits hreply, receive_of_reply opened fits hreply]
    by_cases hroom : s.outbox.capacity ≤ s.outbox.queue.length
    · simp only [Outbox.push, ge_iff_le, if_pos hroom]
      exact .dropped hroom
    · simp only [Outbox.push, ge_iff_le, if_neg hroom]
      exact .kept (Nat.lt_of_not_le hroom)

end

/-- Every step is one of the listed ones. -/
theorem acted (s : Session) (input : Input I) : s.Acted (s.act input).1 (s.act input).2 := by
  cases input with
  | receive chunk isLast e =>
    cases hclosed : s.closed with
    | true =>
      simp only [act, answer?, receive_of_closed hclosed]
      exact .silent id
    | false =>
      rcases Nat.lt_or_ge s.maxUpload (s.buffer.size + chunk.size) with long | fits
      · simp only [act, answer?, receive_of_overlong hclosed long]
        exact .silent fun _ => Nat.zero_le _
      · cases isLast with
        | true => exact acted_last hclosed fits
        | false =>
          simp only [act, answer?, receive_of_more hclosed fits]
          exact .silent fun _ => by rwa [ByteArray.size_append]
  | nextReply =>
    simp only [act, nextReply, Outbox.pop]
    split
    · next hqueue => exact .idle hqueue
    · next reply rest hqueue => exact .replied hqueue

end

/-! ### Accounts -/

/-- A client that never waited for more replies than there is room for. -/
def Patient (depth : Nat) (outputs : List Output) : Prop :=
  ∀ front, front <+: outputs → (answers front).length ≤ (taken front).length + depth

/-- What was answered was taken, waits or was dropped, after a run with some outputs. -/
structure Accounts (maxUpload depth : Nat) (outputs : List Output) (s : Session) : Prop where
  cap : s.maxUpload = maxUpload
  capacity : s.outbox.capacity = depth
  /-- No message grows beyond the limit. -/
  small : s.buffer.size ≤ maxUpload
  room : s.outbox.queue.length ≤ depth
  /-- What was kept was taken or waits. -/
  order : taken outputs ++ s.outbox.queue = ((answers outputs).filter Answer.kept).map Answer.reply
  dropped : (answers outputs).length =
    ((answers outputs).filter Answer.kept).length + s.outbox.dropped
  patient : Patient depth outputs → s.outbox.dropped = 0

namespace Accounts

variable {maxUpload depth : Nat} {outputs : List Output} {output : Output} {s s' : Session}

/-- Each answer was taken, waits or was dropped. -/
theorem conserved (accounts : Accounts maxUpload depth outputs s) :
    (answers outputs).length =
      (taken outputs).length + s.outbox.queue.length + s.outbox.dropped := by
  have horder := congrArg List.length accounts.order
  rw [List.length_append, List.length_map] at horder
  rw [accounts.dropped, horder]

theorem start (maxUpload depth : Nat) : Accounts maxUpload depth [] (start maxUpload depth) where
  cap := rfl
  capacity := rfl
  small := Nat.zero_le _
  room := Nat.zero_le _
  order := rfl
  dropped := rfl
  patient := fun _ => rfl

/-- A client that was patient in a run was so before its last step. -/
private theorem patient_before (patient : Patient depth (outputs ++ [output])) :
    Patient depth outputs :=
  fun front hfront => patient front (hfront.trans (List.prefix_append outputs [output]))

theorem step (accounts : Accounts maxUpload depth outputs s) (acted : s.Acted output s') :
    Accounts maxUpload depth (outputs ++ [output]) s' := by
  have hconserved := accounts.conserved
  have hcap := accounts.cap
  have hcapacity := accounts.capacity
  have hroom := accounts.room
  have horder := accounts.order
  have hdropped := accounts.dropped
  have hbefore := fun patient : Patient depth (outputs ++ [output]) =>
    accounts.patient (patient_before patient)
  cases acted with
  | silent small => exact {
      cap := hcap
      capacity := hcapacity
      small := hcap ▸ small (hcap ▸ accounts.small)
      room := hroom
      order := by simpa using horder
      dropped := by simpa using hdropped
      patient := hbefore }
  | kept room => exact {
      cap := hcap
      capacity := hcapacity
      small := Nat.zero_le _
      room := by simpa using hcapacity ▸ room
      order := by simpa [← List.append_assoc] using horder
      dropped := by
        simp [hdropped]
        omega
      patient := hbefore }
  | dropped full => exact {
      cap := hcap
      capacity := hcapacity
      small := Nat.zero_le _
      room := hroom
      order := by simpa using horder
      dropped := by
        simp [hdropped]
        omega
      -- All places are in use, so one more message waits for its answer than there are places.
      patient := fun patient => by
        have hnow := patient _ (List.prefix_refl _)
        have hnone := hbefore patient
        simp only [answers_received, taken_received, List.length_append, Option.toList_some,
          List.length_singleton] at hnow
        omega }
  | replied waiting => exact {
      cap := hcap
      capacity := hcapacity
      small := accounts.small
      room := by
        rw [waiting, List.length_cons] at hroom
        exact Nat.le_of_succ_le hroom
      order := by
        rw [waiting] at horder
        simpa using horder
      dropped := by simpa using hdropped
      patient := hbefore }
  | idle waiting => exact {
      cap := hcap
      capacity := hcapacity
      small := accounts.small
      room := hroom
      order := by simpa using horder
      dropped := by simpa using hdropped
      patient := hbefore }

/-- By induction on what happens. -/
theorem history (accounts : Accounts maxUpload depth outputs s) (inputs : List (Input I)) :
    Accounts maxUpload depth (outputs ++ (s.history inputs).1) (s.history inputs).2 := by
  induction inputs generalizing outputs s with
  | nil => simpa [Session.history] using accounts
  | cons input rest ih =>
    have hrest := ih (accounts.step (s.acted input))
    simpa [Session.history] using hrest

end Accounts

/-! ### The answers of a run -/

/-- Whatever happens to a session with some places in its queue: what the client has taken, followed
by what waits, are the replies that were not dropped, in the order of the messages. No more replies
wait than there are places, and each reply was taken, waits or was dropped. The reply to the next
complete message is dropped if and only if replies wait in all places. So a client that never waits
for more replies than there are places loses none. -/
theorem answers_of_history (maxUpload depth : Nat) (inputs : List (Input I)) :
    let (outputs, s) := (start maxUpload depth).history inputs
    let replies := (answers outputs).map Answer.reply
    (taken outputs ++ s.outbox.queue).Sublist replies ∧
      taken outputs ++ s.outbox.queue =
        ((answers outputs).filter Answer.kept).map Answer.reply ∧
      s.outbox.queue.length ≤ depth ∧
      replies.length = (taken outputs).length + s.outbox.queue.length + s.outbox.dropped ∧
      (∀ (chunk : Bytes) (e : Engine I), (s.receive chunk true e).1 = .ok () →
        ∃ text kept, (reply (s.buffer ++ chunk) e).1 = some text ∧
          s.answer? chunk true e = some ⟨text, kept⟩ ∧
          (kept = false ↔ s.outbox.queue.length = depth) ∧
          (s.receive chunk true e).2.1.outbox.dropped =
            s.outbox.dropped + (!kept).toNat) ∧
      (Patient depth outputs → s.outbox.dropped = 0) := by
  have haccounts := (Accounts.start maxUpload depth).history inputs
  rw [List.nil_append] at haccounts
  generalize (start maxUpload depth).history inputs = r at haccounts
  obtain ⟨outputs, s⟩ := r
  refine ⟨?_, haccounts.order, haccounts.room, ?_, fun chunk e hok => ?_, haccounts.patient⟩
  · rw [haccounts.order]
    exact List.filter_sublist.map _
  · rw [List.length_map]
    exact haccounts.conserved
  · have hroom := haccounts.room
    rw [← haccounts.capacity] at hroom ⊢
    obtain ⟨opened, fits⟩ := fits_of_receive hok
    obtain ⟨text, e', hreply⟩ := reply_of_receive opened fits hok
    refine ⟨text, _, congrArg Prod.fst hreply, answer?_of_reply opened fits hreply, ?_⟩
    rw [receive_of_reply opened fits hreply]
    simp only [Outbox.push, ge_iff_le]
    split
    · next hfull => exact ⟨iff_of_true rfl (Nat.le_antisymm hroom hfull), rfl⟩
    · next hfree => exact ⟨iff_of_false Bool.noConfusion (by omega), rfl⟩

end Session

end PixelHost
