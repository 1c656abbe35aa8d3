import PixelHost.Proofs.Engine.Answers
import PixelHost.Sandbox.Basic

/-!
# Messages in chunks

A client may cut a message into chunks as it likes, empty ones among them. If the messages are no
longer than the limit it makes no difference how they are cut. The first message that is longer ends
the session, at the chunk with which its length exceeds the limit. Nothing of that message or of a
later one gets to the engine. A message whose upload is lost is lost however it is cut.

## Main definitions

* `Message` — a message with the cuts in it.
* `Message.results` — the results for its chunks, by the result without the cuts.
* `Session.receiveAll` — takes some chunks.

## Main results

* `Session.receiveAll_messages` — messages within the limit.
* `Session.receiveAll_overlong` — a message that is too long.
* `Session.chunks_of_messages` — any messages with any cuts.
-/

namespace PixelHost

variable {I : Interpreter}

/-! ### Messages with cuts -/

/-- Chunks put together. -/
def joined : List Bytes → Bytes
  | [] => .empty
  | chunk :: rest => chunk ++ joined rest

/-- A message cut into chunks. -/
structure Message where
  front : List Bytes
  last : Bytes

namespace Message

/-- The message without the cuts. -/
def whole (m : Message) : Bytes := joined m.front ++ m.last

/-- The chunks as they are sent. The last one is marked. -/
def chunks (m : Message) : List (Bytes × Bool) := m.front.map (·, false) ++ [(m.last, true)]

/-- The message in one chunk. -/
def uncut (m : Message) : Bytes × Bool := (m.whole, true)

/-- The results for the chunks: each chunk but the last one is taken, and that one completes the
message. -/
def results (m : Message) (result : Ending UploadError Unit) : List (Ending UploadError Unit) :=
  List.replicate m.front.length (.ok ()) ++ [result]

/-- A message that is too long has a first chunk with which it is so. -/
theorem exists_crossing {m : Message} {limit : Nat} (long : limit < m.whole.size) :
    ∃ before crossing isLast after, m.chunks = before.map (·, false) ++ (crossing, isLast) :: after ∧
      (joined before).size ≤ limit ∧ limit < (joined before).size + crossing.size := by
  obtain ⟨front, last⟩ := m
  induction front generalizing limit with
  | nil =>
    rw [whole, joined, ByteArray.empty_append] at long
    exact ⟨[], last, true, [], rfl, Nat.zero_le _, by simpa [joined] using long⟩
  | cons chunk front ih =>
    rcases Nat.lt_or_ge limit chunk.size with hnow | hlater
    · exact ⟨[], chunk, false, _, rfl, Nat.zero_le _, by simpa [joined] using hnow⟩
    · have hrest : limit - chunk.size < (⟨front, last⟩ : Message).whole.size := by
        simp only [whole, joined, ByteArray.size_append] at long ⊢
        omega
      obtain ⟨before, crossing, isLast, after, hchunks, hfits, hlong⟩ := ih hrest
      refine ⟨chunk :: before, crossing, isLast, after, ?_, ?_, ?_⟩
      · exact congrArg (List.cons (chunk, false)) hchunks
      · rw [joined, ByteArray.size_append]
        omega
      · rw [joined, ByteArray.size_append]
        omega

end Message

namespace Session

/-- Takes some chunks. -/
def receiveAll (s : Session) (e : Engine I) :
    List (Bytes × Bool) → List (Ending UploadError Unit) × Session × Engine I
  | [] => ([], s, e)
  | (chunk, isLast) :: rest =>
    let (result, s, e) := s.receive chunk isLast e
    let (results, s, e) := s.receiveAll e rest
    (result :: results, s, e)

section

variable {s : Session} {e : Engine I}

theorem receiveAll_append (front rest : List (Bytes × Bool)) :
    s.receiveAll e (front ++ rest) =
      let (results, s, e) := s.receiveAll e front
      let (more, s, e) := s.receiveAll e rest
      (results ++ more, s, e) := by
  induction front generalizing s e with
  | nil => rfl
  | cons chunk front ih => simp only [List.cons_append, receiveAll, ih]

theorem receiveAll_of_closed (closed : s.closed = true) (chunks : List (Bytes × Bool)) :
    s.receiveAll e chunks = (List.replicate chunks.length (.error .closed), s, e) := by
  induction chunks with
  | nil => rfl
  | cons chunk rest ih =>
    simp only [receiveAll, receive_of_closed closed, ih, List.length_cons, List.replicate_succ]

/-! ### Messages within the limit -/

/-- Chunks that others follow are put together. -/
theorem receiveAll_of_more (opened : s.closed = false) (chunks : List Bytes)
    (fits : s.buffer.size + (joined chunks).size ≤ s.maxUpload) :
    s.receiveAll e (chunks.map (·, false)) =
      (List.replicate chunks.length (.ok ()), { s with buffer := s.buffer ++ joined chunks }, e) := by
  induction chunks generalizing s with
  | nil =>
    rw [joined, ByteArray.append_empty]
    rfl
  | cons chunk rest ih =>
    rw [joined, ByteArray.size_append] at fits
    have hchunk : s.buffer.size + chunk.size ≤ s.maxUpload := by omega
    have hrest : (s.buffer ++ chunk).size + (joined rest).size ≤ s.maxUpload := by
      rw [ByteArray.size_append]
      omega
    simp only [List.map_cons, receiveAll, receive_of_more opened hchunk]
    rw [ih (s := { s with buffer := s.buffer ++ chunk }) opened hrest]
    simp only [joined, ByteArray.append_assoc, List.length_cons, List.replicate_succ]

/-- A whole message within the limit is not refused, and the session is ready for the next one. -/
theorem receive_whole {whole : Bytes} (opened : s.closed = false)
    (fits : s.buffer.size + whole.size ≤ s.maxUpload) :
    ∃ result outbox e', s.receive whole true e = (result, { s with buffer := .empty, outbox }, e') ∧
      ∀ error, result ≠ .error error := by
  rcases hreply : reply (s.buffer ++ whole) e with ⟨_ | text, e'⟩
  · exact ⟨.lost, s.outbox, e', receive_of_lost opened fits hreply, nofun⟩
  · exact ⟨.ok (), _, e', receive_of_reply opened fits hreply, nofun⟩

/-- What becomes of the last chunk depends on the message that it completes. -/
theorem receive_completed {front last : Bytes} (opened : s.closed = false)
    (fits : s.buffer.size + (front ++ last).size ≤ s.maxUpload) :
    { s with buffer := s.buffer ++ front }.receive last true e =
      s.receive (front ++ last) true e := by
  have hlast : (s.buffer ++ front).size + last.size ≤ s.maxUpload := by
    rw [ByteArray.size_append] at fits ⊢
    omega
  have hcompleted : (s.buffer ++ front) ++ last = s.buffer ++ (front ++ last) :=
    ByteArray.append_assoc
  rcases hreply : reply (s.buffer ++ (front ++ last)) e with ⟨_ | text, e'⟩
  · rw [receive_of_lost opened fits hreply,
      receive_of_lost (s := { s with buffer := s.buffer ++ front }) opened hlast (hcompleted ▸ hreply)]
  · rw [receive_of_reply opened fits hreply,
      receive_of_reply (s := { s with buffer := s.buffer ++ front }) opened hlast
        (hcompleted ▸ hreply)]

/-- It makes no difference how a message within the limit is cut. -/
theorem receiveAll_message (opened : s.closed = false) (fresh : s.buffer = .empty) (m : Message)
    (fits : m.whole.size ≤ s.maxUpload) :
    s.receiveAll e m.chunks =
      (m.results (s.receive m.whole true e).1, (s.receive m.whole true e).2) := by
  have hsize : (joined m.front).size + m.last.size ≤ s.maxUpload := by
    rwa [Message.whole, ByteArray.size_append] at fits
  have hfront : s.buffer.size + (joined m.front).size ≤ s.maxUpload := by
    rw [fresh, ByteArray.size_empty]
    omega
  have hwhole : s.buffer.size + m.whole.size ≤ s.maxUpload := by
    rwa [fresh, ByteArray.size_empty, Nat.zero_add]
  rw [Message.chunks, receiveAll_append, receiveAll_of_more opened m.front hfront]
  simp only [receiveAll, receive_completed opened hwhole]
  rfl

/-- The results of some whole messages, and the session and the engine after them. No message is
refused, and the session is ready for the next one. -/
structure Ready (s : Session) (e : Engine I) (messages : List Message)
    (results : List (Ending UploadError Unit)) (s' : Session) (e' : Engine I) : Prop where
  uncut : s.receiveAll e (messages.map Message.uncut) = (results, s', e')
  taken : ∀ error, .error error ∉ results
  cap : s'.maxUpload = s.maxUpload
  opened : s'.closed = false
  fresh : s'.buffer = .empty

/-- It makes no difference how messages within the limit are cut. By induction on the messages. -/
theorem receiveAll_messages (opened : s.closed = false) (fresh : s.buffer = .empty)
    {messages : List Message} (fits : ∀ m ∈ messages, m.whole.size ≤ s.maxUpload) :
    ∃ results s' e', Ready s e messages results s' e' ∧
      s.receiveAll e (messages.flatMap Message.chunks) =
        ((List.zipWith Message.results messages results).flatten, s', e') := by
  induction messages generalizing s e with
  | nil => exact ⟨[], s, e, ⟨rfl, fun _ => List.not_mem_nil, rfl, opened, fresh⟩, rfl⟩
  | cons m rest ih =>
    have hm := fits m List.mem_cons_self
    have hmessage := receiveAll_message (e := e) opened fresh m hm
    have hwhole : s.buffer.size + m.whole.size ≤ s.maxUpload := by
      rwa [fresh, ByteArray.size_empty, Nat.zero_add]
    obtain ⟨result, outbox, e₁, hreceive, htaken⟩ := receive_whole (e := e) opened hwhole
    rw [hreceive] at hmessage
    obtain ⟨results, s', e', hready, hchunks⟩ := ih (s := { s with buffer := .empty, outbox })
      (e := e₁) opened rfl fun m hm => fits m (List.mem_cons_of_mem _ hm)
    refine ⟨result :: results, s', e', ⟨?_, fun error => ?_, hready.cap, hready.opened,
      hready.fresh⟩, ?_⟩
    · rw [List.map_cons, Message.uncut, receiveAll, hreceive]
      simp only [hready.uncut]
    · rw [List.mem_cons, not_or]
      exact ⟨(htaken error).symm, hready.taken error⟩
    · rw [List.flatMap_cons, receiveAll_append, hmessage]
      simp only [hchunks, List.zipWith_cons_cons, List.flatten_cons]

/-! ### A message that is too long -/

/-- The session after a message that is too long. -/
def ended (s : Session) : Session := { s with closed := true, buffer := .empty }

/-- What happens to the chunks of a message that is too long: those that fit are taken, the first with
which it is too long is refused for that, and the rest as the session has ended. -/
def Overlong (limit : Nat) (m : Message) (results : List (Ending UploadError Unit)) : Prop :=
  ∃ before crossing isLast after,
    m.chunks = before.map (·, false) ++ (crossing, isLast) :: after ∧
      (joined before).size ≤ limit ∧ limit < (joined before).size + crossing.size ∧
      results = List.replicate before.length (.ok ()) ++
        .error (.tooLarge limit ((joined before).size + crossing.size)) ::
          List.replicate after.length (.error .closed)

theorem receiveAll_overlong (opened : s.closed = false) (fresh : s.buffer = .empty) {m : Message}
    (long : s.maxUpload < m.whole.size) :
    ∃ results, Overlong s.maxUpload m results ∧ s.receiveAll e m.chunks = (results, s.ended, e) := by
  obtain ⟨before, crossing, isLast, after, hchunks, hfits, hlong⟩ := Message.exists_crossing long
  refine ⟨_, ⟨before, crossing, isLast, after, hchunks, hfits, hlong, rfl⟩, ?_⟩
  have hended := receiveAll_of_closed (s := s.ended) (e := e) rfl after
  have hbefore : s.buffer.size + (joined before).size ≤ s.maxUpload := by
    rwa [fresh, ByteArray.size_empty, Nat.zero_add]
  have hbuffer : s.buffer ++ joined before = joined before := by rw [fresh, ByteArray.empty_append]
  rw [hchunks, receiveAll_append, receiveAll_of_more opened before hbefore]
  simp only [receiveAll, hbuffer]
  rw [receive_of_overlong (s := { s with buffer := joined before }) opened hlong]
  rw [ended] at hended
  simp only [hended, ended]

/-- The replies that a client asks for in a run. -/
def asked (inputs : List (Input I)) : Nat :=
  inputs.countP fun
    | .nextReply => true
    | .receive .. => false

/-- A session that has ended takes nothing, and gives the replies that wait. By induction on what
happens. -/
theorem history_of_closed (closed : s.closed = true) (inputs : List (Input I)) :
    (∀ result answer, .received result answer ∈ (s.history inputs).1 →
        result = .error .closed ∧ answer = none) ∧
      taken (s.history inputs).1 = s.outbox.queue.take (asked inputs) ∧
      (s.history inputs).2.outbox.queue = s.outbox.queue.drop (asked inputs) := by
  induction inputs generalizing s with
  | nil => simp [history, taken, asked]
  | cons input rest ih =>
    cases input with
    | receive chunk isLast e =>
      obtain ⟨hrefused, htaken, hqueue⟩ := ih closed
      simp only [history, act, answer?, receive_of_closed closed]
      refine ⟨fun result answer hmem => ?_, htaken, hqueue⟩
      rcases List.mem_cons.mp hmem with heq | hmem
      · simp only [Output.received.injEq] at heq
        exact heq
      · exact hrefused result answer hmem
    | nextReply =>
      obtain ⟨hrefused, htaken, hqueue⟩ := ih (s := s.nextReply.2) closed
      simp only [history, act]
      refine ⟨fun result answer hmem => ?_, ?_, ?_⟩
      · exact hrefused result answer ((List.mem_cons.mp hmem).resolve_left Output.noConfusion)
      · cases hwaiting : s.outbox.queue <;>
          simp_all [taken, asked, nextReply, Outbox.pop]
      · cases hwaiting : s.outbox.queue <;>
          simp_all [asked, nextReply, Outbox.pop]

end

/-! ### Any messages -/

/-- Whatever the cuts in some messages are: if no message is longer than the limit, the session, with
its replies, and the engine, with its sink, are as after the same messages without cuts, none of which
is refused, and the buffer is empty after each message. If one is, the first of them ends the session with the first chunk
that exceeds the limit. The engine is then as after the messages before it, also one that records what
its interpreter is asked, and the session takes nothing more but gives the replies that wait. In any
case, the buffer of a session never exceeds the limit. -/
theorem chunks_of_messages (s : Session) (e : Engine I) (opened : s.closed = false)
    (fresh : s.buffer = .empty) :
    (∀ messages : List Message, (∀ m ∈ messages, m.whole.size ≤ s.maxUpload) →
      ∃ results s' e', Ready s e messages results s' e' ∧
        s.receiveAll e (messages.flatMap Message.chunks) =
          ((List.zipWith Message.results messages results).flatten, s', e')) ∧
    (∀ (before : List Message) (long : Message) (after : List Message),
      (∀ m ∈ before, m.whole.size ≤ s.maxUpload) → s.maxUpload < long.whole.size →
      ∃ taken refused s' e', Ready s e before taken s' e' ∧ Overlong s.maxUpload long refused ∧
        s.receiveAll e ((before ++ long :: after).flatMap Message.chunks) =
          ((List.zipWith Message.results before taken).flatten ++ refused ++
            List.replicate (after.flatMap Message.chunks).length (.error .closed), s'.ended, e') ∧
        (s.receiveAll e.recording ((before ++ long :: after).flatMap Message.chunks)).2.2 =
          (s.receiveAll e.recording (before.map Message.uncut)).2.2 ∧
        ∀ inputs : List (Input I),
          (∀ result answer, .received result answer ∈ (s'.ended.history inputs).1 →
            result = .error .closed ∧ answer = none) ∧
          Session.taken (s'.ended.history inputs).1 = s'.outbox.queue.take (asked inputs)) ∧
    ∀ (maxUpload depth : Nat) (inputs : List (Input I)),
      ((start maxUpload depth).history inputs).2.buffer.size ≤ maxUpload := by
  refine ⟨fun messages fits => receiveAll_messages opened fresh fits,
    fun before long after fits hlong => ?_, fun maxUpload depth inputs => ?_⟩
  · have hall : ∀ {J : Interpreter} (e : Engine J), ∃ taken refused s' e',
        Ready s e before taken s' e' ∧ Overlong s.maxUpload long refused ∧
        s.receiveAll e ((before ++ long :: after).flatMap Message.chunks) =
          ((List.zipWith Message.results before taken).flatten ++ refused ++
            List.replicate (after.flatMap Message.chunks).length (.error .closed), s'.ended, e') := by
      intro J e
      obtain ⟨taken, s', e', hready, hbefore⟩ := receiveAll_messages (e := e) opened fresh fits
      obtain ⟨refused, hrefused, hchunks⟩ :=
        receiveAll_overlong (e := e') hready.opened hready.fresh (hready.cap ▸ hlong)
      refine ⟨taken, refused, s', e', hready, hready.cap ▸ hrefused, ?_⟩
      rw [List.flatMap_append, List.flatMap_cons, receiveAll_append, hbefore]
      simp only [receiveAll_append, hchunks, receiveAll_of_closed (s := s'.ended) rfl,
        List.append_assoc]
    obtain ⟨taken, refused, s', e', hready, hrefused, hchunks⟩ := hall e
    obtain ⟨_, _, _, _, hrecorded, -, hrecording⟩ := hall e.recording
    refine ⟨taken, refused, s', e', hready, hrefused, hchunks, ?_, fun inputs => ?_⟩
    · rw [hrecording, hrecorded.uncut]
    · obtain ⟨hrefused, htaken, -⟩ := history_of_closed (s := s'.ended) rfl inputs
      exact ⟨hrefused, htaken⟩
  · exact ((Accounts.start maxUpload depth).history inputs).small

/-- A message of two bytes, cut in two, to a session that takes one byte. -/
theorem chunks_of_two_bytes :
    let s := start 1 4
    let e : Engine Sandbox.interpreter := { interpreter := ⟨.fresh 0, 900, 0, 0⟩ }
    let long : Message := ⟨[⟨#[0x20]⟩], ⟨#[0x20]⟩⟩
    s.closed = false ∧ s.buffer = .empty ∧ 1 < long.whole.size ∧
      ∃ taken refused s' e', Ready s e [] taken s' e' ∧ Overlong 1 long refused ∧
        s.receiveAll e long.chunks = (refused, s'.ended, e') := by
  intro s e long
  obtain ⟨-, hlong, -⟩ := chunks_of_messages s e rfl rfl
  obtain ⟨taken, refused, s', e', hready, hrefused, hchunks, -⟩ :=
    hlong [] long [] (List.forall_mem_nil _) (by decide)
  exact ⟨rfl, rfl, by decide, taken, refused, s', e', hready, hrefused, by simpa using hchunks⟩

end Session

end PixelHost
