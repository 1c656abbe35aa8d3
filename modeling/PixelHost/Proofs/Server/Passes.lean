import PixelHost.Proofs.Server.Intake

/-!
# Passes on upload connections

A pass on an open upload connection hands some messages to its session and takes at most one reply
from it. All that a pass does can be told from what is taken of what arrives: what becomes of the
connection, what is counted, and what is sent.

The uses of the session are kept, so that sessions can be compared with those that are used outside
of a server.

## Main definitions

* `Upload.Steady` — an open connection between two passes.
* `Upload.sessionAfter`, `Upload.servingAfter` — what reading leaves behind.
* `Upload.uses` — the uses of the session in a pass.
* `Upload.Passed` — what a pass does.

## Main results

* `Upload.read_eq` — reading hands over what is taken, and does nothing else.
* `Upload.uses_eq` — the session is given what is taken, each message once.
* `Upload.passed` — what a pass does, in terms of the uses of the session.
-/

namespace PixelHost

variable {I : Interpreter}

/-! ### Passes on an open connection -/

namespace Upload

/-- A connection all of whose dropped replies are counted. -/
def settled (session : Session) (closing : Bool) : Upload :=
  { session, dropsCounted := session.outbox.dropped, closing }

/-- An open connection between two passes. No part of a message waits in its session. -/
structure Steady (u : Upload) : Prop where
  opened : u.session.closed = false
  fresh : u.session.buffer = .empty
  settled : u = settled u.session false

/-- What is taken in a pass. -/
def intake (u : Upload) (e : Engine I) (arrived : List Incoming) : Intake :=
  u.session.intake e (Incoming.available arrived)

end Upload

namespace Intake

/-- Where reading stops, with the session that has taken the messages. -/
def reading (k : Intake) (session : Session) : Upload.Reading :=
  match k.stop with
  | none => .upToDate (.settled session false)
  | some (.overlong _) => .startedClosing (.settled session true)
  | some (.lost _) | some .ended => .gone

/-- The counters after a pass in which so many replies were dropped. -/
def counted (k : Intake) (drops : Nat) (m : ServerMetrics) : ServerMetrics :=
  { m with
    notificationsDropped := m.notificationsDropped + drops
    oversizeClosed := m.oversizeClosed + k.isOverlong.toNat }

/-- What the client is told when a message is too long. -/
def notices (k : Intake) : List Outgoing :=
  if k.isOverlong then [.close Outgoing.sizeCode "Upload too large"] else []

theorem notices_of_goes {k : Intake} (goes : k.stop = none) : k.notices = [] := by
  simp only [notices, isOverlong, goes, Bool.false_eq_true, if_false]

end Intake

namespace Upload

/-- The session when it has taken what is taken in a pass. -/
def sessionAfter (u : Upload) (k : Intake) (s : Serving I) : Session :=
  (u.session.takeAll k.handed s.engine).2.1

/-- What else has changed by then. -/
def servingAfter (u : Upload) (k : Intake) (s : Serving I) : Serving I where
  engine := (u.session.takeAll k.handed s.engine).2.2
  metrics := k.counted ((u.sessionAfter k s).outbox.dropped - u.session.outbox.dropped) s.metrics
  sent := s.sent ++ k.notices

variable {u : Upload} {s : Serving I} {data : Bytes}

/-- Where no message is taken and none is too long, nothing has changed. -/
theorem servingAfter_of_nothing {k : Intake} (nothing : k.handed = [])
    (fits : k.isOverlong = false) (u : Upload) (s : Serving I) : u.servingAfter k s = s := by
  have hsame : u.session.takeAll k.handed s.engine = ([], u.session, s.engine) := by
    rw [nothing]
    rfl
  simp [servingAfter, sessionAfter, hsame, Intake.counted, Intake.notices, fits]

/-- What is counted of a message and of all others is counted of all. -/
private theorem counted_cons (k : Intake) (data : Bytes) (m : ServerMetrics) {old new final : Nat}
    (first : old ≤ new) (others : new ≤ final) :
    k.counted (final - new) ((⟨[data], none⟩ : Intake).counted (new - old) m) =
      (⟨data :: k.messages, k.stop⟩ : Intake).counted (final - old) m := by
  have hsum : m.notificationsDropped + (new - old) + (final - new) =
      m.notificationsDropped + (final - old) := by omega
  simp only [Intake.counted, hsum]
  rfl

/-- What a message and all others change is what all change. -/
theorem servingAfter_cons (u : Upload) (data : Bytes) (k : Intake) (s : Serving I) :
    (settled (u.sessionAfter ⟨[data], none⟩ s) false).servingAfter k
        (u.servingAfter ⟨[data], none⟩ s) = u.servingAfter ⟨data :: k.messages, k.stop⟩ s := by
  have hmetrics := counted_cons k data s.metrics (u.session.dropped_le_takeAll [data] s.engine)
    ((u.sessionAfter ⟨[data], none⟩ s).dropped_le_takeAll k.handed
      (u.servingAfter ⟨[data], none⟩ s).engine)
  have hsent : (s.sent ++ (⟨[data], none⟩ : Intake).notices) ++ k.notices =
      s.sent ++ (⟨data :: k.messages, k.stop⟩ : Intake).notices :=
    congrArg (· ++ k.notices) (List.append_nil _)
  simp only [servingAfter, Serving.mk.injEq]
  exact ⟨rfl, hmetrics, hsent⟩

/-- A message that is refused before the session is shown it starts the closing. -/
theorem rejectOversize_of_steady (steady : u.Steady) (s : Serving I) :
    u.rejectOversize s =
      (settled u.session true, u.servingAfter ⟨[], some (.overlong none)⟩ s) := by
  have hcounted : u.dropsCounted = u.session.outbox.dropped := congrArg dropsCounted steady.settled
  have hsession : u.sessionAfter ⟨[], some (.overlong none)⟩ s = u.session := rfl
  simp only [rejectOversize, Serving.count, Serving.send, settled, hcounted, servingAfter, hsession,
    Nat.sub_self]
  rfl

/-- A message that is taken, with the replies that this drops counted. -/
theorem takeMessage_of_taken (steady : u.Steady) {session : Session} {engine : Engine I}
    (taken : u.session.receive data true s.engine = (.ok (), session, engine)) :
    u.takeMessage data s =
      (some (settled (u.sessionAfter ⟨[data], none⟩ s) false),
        u.servingAfter ⟨[data], none⟩ s) := by
  have hdrops := u.session.dropped_le_receive data true s.engine
  have hcounted : u.dropsCounted = u.session.outbox.dropped := congrArg dropsCounted steady.settled
  have hclosing : u.closing = false := congrArg closing steady.settled
  have hafter : (u.session.takeAll [data] s.engine).2 = (u.session.receive data true s.engine).2 :=
    rfl
  have hsent : s.sent ++ (⟨[data], none⟩ : Intake).notices = s.sent := List.append_nil _
  have hhanded : (⟨[data], none⟩ : Intake).handed = [data] := rfl
  rw [taken] at hdrops hafter
  simp only [takeMessage, taken, countDrops, Serving.count, settled, hclosing, hcounted,
    Nat.max_eq_left hdrops, servingAfter, sessionAfter, hhanded, hafter, hsent]
  rfl

/-- A message that is too long ends the session and starts the closing. -/
theorem takeMessage_of_overlong (steady : u.Steady) {limit attempted : Nat} {engine : Engine I}
    (refused : u.session.receive data true s.engine =
      (.error (.tooLarge limit attempted), u.session.ended, engine)) :
    u.takeMessage data s =
      (some (settled (u.sessionAfter ⟨[], some (.overlong (some data))⟩ s) true),
        u.servingAfter ⟨[], some (.overlong (some data))⟩ s) := by
  have hcounted : u.dropsCounted = u.session.outbox.dropped := congrArg dropsCounted steady.settled
  have hafter : (u.session.takeAll [data] s.engine).2 = (u.session.receive data true s.engine).2 :=
    rfl
  have hhanded : (⟨[], some (.overlong (some data))⟩ : Intake).handed = [data] := rfl
  have hdropped : u.session.ended.outbox.dropped = u.session.outbox.dropped := rfl
  rw [refused] at hafter
  simp only [takeMessage, refused, rejectOversize, Serving.count, Serving.send, settled, hcounted,
    servingAfter, sessionAfter, hhanded, hafter, hdropped, Nat.sub_self]
  rfl

/-- With a message whose upload is lost the connection is gone. -/
theorem takeMessage_of_lost {engine : Engine I}
    (lost : u.session.receive data true s.engine =
      (.lost, { u.session with buffer := .empty }, engine)) :
    u.takeMessage data s = (none, u.servingAfter ⟨[], some (.lost data)⟩ s) := by
  have hafter : (u.session.takeAll [data] s.engine).2 = (u.session.receive data true s.engine).2 :=
    rfl
  have hhanded : (⟨[], some (.lost data)⟩ : Intake).handed = [data] := rfl
  have hsent : s.sent ++ (⟨[], some (.lost data)⟩ : Intake).notices = s.sent := List.append_nil _
  rw [lost] at hafter
  simp only [takeMessage, lost, servingAfter, sessionAfter, hhanded, hafter, hsent, Nat.sub_self]
  rfl

/-- A connection is steady when its session has taken a message. -/
theorem steady_of_taken (steady : u.Steady) {session : Session} {engine : Engine I}
    (taken : u.session.receive data true s.engine = (.ok (), session, engine)) :
    (settled (u.sessionAfter ⟨[data], none⟩ s) false).Steady := by
  have hafter : u.sessionAfter ⟨[data], none⟩ s = (u.session.receive data true s.engine).2.1 := rfl
  have hreceived := Session.received steady.opened steady.fresh data s.engine
  rw [taken] at hafter hreceived
  cases hreceived
  exact ⟨hafter ▸ steady.opened, hafter ▸ rfl, rfl⟩

theorem intake_message (u : Upload) (e : Engine I) (data : Bytes) (rest : List Incoming) :
    u.intake e (.message data :: rest) =
      u.session.intake e (.message data :: Incoming.available rest) := by
  rw [intake, Incoming.available]
  exact Incoming.noConfusion

/-- What is taken after a message is taken by the connection that has taken it. -/
theorem intake_of_taken {session : Session} {engine : Engine I}
    (taken : u.session.receive data true s.engine = (.ok (), session, engine))
    (rest : List Incoming) :
    let next := settled (u.sessionAfter ⟨[data], none⟩ s) false
    let later := next.intake (u.servingAfter ⟨[data], none⟩ s).engine rest
    u.intake s.engine (.message data :: rest) = ⟨data :: later.messages, later.stop⟩ := by
  have hafter : (u.session.takeAll [data] s.engine).2 = (u.session.receive data true s.engine).2 :=
    rfl
  rw [taken] at hafter
  rw [intake_message, Session.intake_of_taken taken]
  simp only [servingAfter, sessionAfter, Intake.handed, Intake.shown, Intake.shown?,
    Option.toList_none, List.append_nil, hafter]
  rfl

/-- A pass hands the messages that are taken to the session, in their order, and does nothing else
to the engine. The replies that are dropped meanwhile are counted, and so is a message that is too
long, which starts the closing. By induction on what arrives. -/
theorem read_eq (steady : u.Steady) (s : Serving I) (arrived : List Incoming) :
    let k := u.intake s.engine arrived
    u.read s arrived = (k.reading (u.sessionAfter k s), u.servingAfter k s) := by
  induction arrived generalizing u s with
  | nil =>
    have hk : u.intake s.engine [] = ⟨[], none⟩ := rfl
    simp only [hk, servingAfter_of_nothing (k := ⟨[], none⟩) rfl rfl]
    exact congrArg (Reading.upToDate · , s) steady.settled
  | cons first rest ih =>
    cases first with
    | nothing =>
      have hk : u.intake s.engine (.nothing :: rest) = ⟨[], none⟩ := rfl
      simp only [hk, servingAfter_of_nothing (k := ⟨[], none⟩) rfl rfl]
      exact congrArg (Reading.upToDate · , s) steady.settled
    | ended =>
      have hk : u.intake s.engine (.ended :: rest) = ⟨[], some .ended⟩ := rfl
      simp only [hk, servingAfter_of_nothing (k := ⟨[], some .ended⟩) rfl rfl]
      rfl
    | failed =>
      have hk : u.intake s.engine (.failed :: rest) = ⟨[], some .ended⟩ := rfl
      simp only [hk, servingAfter_of_nothing (k := ⟨[], some .ended⟩) rfl rfl]
      rfl
    | tooLong =>
      have hk : u.intake s.engine (.tooLong :: rest) = ⟨[], some (.overlong none)⟩ := rfl
      rw [read, rejectOversize_of_steady steady, hk]
      rfl
    | control => exact ih steady s
    | message data =>
      have hreceived := Session.received steady.opened steady.fresh data s.engine
      rw [read]
      generalize houtcome : u.session.receive data true s.engine = outcome at hreceived
      cases hreceived with
      | overlong long =>
        rw [takeMessage_of_overlong steady houtcome, intake_message,
          Session.intake_of_refused houtcome]
        rfl
      | lost fits hlost =>
        rw [takeMessage_of_lost houtcome, intake_message, Session.intake_of_lost houtcome]
        rfl
      | taken fits hreply =>
        have hrest := ih (steady_of_taken steady houtcome) (u.servingAfter ⟨[data], none⟩ s)
        rw [takeMessage_of_taken steady houtcome, intake_of_taken houtcome]
        simp only [servingAfter_cons] at hrest
        exact hrest

/-! ### The uses of the session -/

/-- The uses of the session while what has arrived is read. -/
def readUses (u : Upload) (s : Serving I) : List Incoming → List (Session.Input I)
  | [] | .nothing :: _ | .ended :: _ | .failed :: _ | .tooLong :: _ => []
  | .control :: rest => u.readUses s rest
  | .message data :: rest =>
    .receive data true s.engine ::
      match u.takeMessage data s with
      | (none, _) => []
      | (some u, s) => if u.closing then [] else u.readUses s rest

/-- The uses of the session while a reply is sent. What was sent before must have left. -/
def writeUses : Departure → List (Session.Input I)
  | .done => [.nextReply]
  | .blocked | .failed => []

/-- The uses of the session in a pass. -/
def uses (u : Upload) (arrived : List Incoming) (flush : Departure) (s : Serving I) :
    List (Session.Input I) :=
  if u.closing then []
  else u.readUses s arrived ++
    match (u.read s arrived).1 with
    | .upToDate _ => writeUses flush
    | .startedClosing _ | .gone => []

theorem readUses_eq (steady : u.Steady) (s : Serving I) (arrived : List Incoming) :
    u.readUses s arrived = u.session.receives s.engine (u.intake s.engine arrived).handed := by
  induction arrived generalizing u s with
  | nil => rfl
  | cons first rest ih =>
    cases first with
    | nothing | ended | failed | tooLong => rfl
    | control => exact ih steady s
    | message data =>
      have hreceived := Session.received steady.opened steady.fresh data s.engine
      rw [readUses]
      generalize houtcome : u.session.receive data true s.engine = outcome at hreceived
      cases hreceived with
      | overlong long =>
        rw [takeMessage_of_overlong steady houtcome, intake_message,
          Session.intake_of_refused houtcome]
        rfl
      | lost fits hlost =>
        rw [takeMessage_of_lost houtcome, intake_message, Session.intake_of_lost houtcome]
        rfl
      | taken fits hreply =>
        have hrest := ih (steady_of_taken steady houtcome) (u.servingAfter ⟨[data], none⟩ s)
        rw [takeMessage_of_taken steady houtcome, intake_of_taken houtcome]
        exact congrArg (Session.Input.receive data true s.engine :: ·) hrest

/-- The session is given what is taken, each message once and in order, and is asked for a reply if
everything that has arrived could be read. -/
theorem uses_eq (steady : u.Steady) (s : Serving I) (arrived : List Incoming) (flush : Departure) :
    u.uses arrived flush s = u.session.receives s.engine (u.intake s.engine arrived).handed ++
      match (u.intake s.engine arrived).stop with
      | none => writeUses flush
      | some _ => [] := by
  have hopen : ¬ u.closing = true := by
    rw [steady.settled]
    exact Bool.noConfusion
  rw [uses, if_neg hopen, readUses_eq steady, read_eq steady]
  rcases hstop : (u.intake s.engine arrived).stop with _ | _ | _ | _ <;>
    simp only [Intake.reading, hstop]

/-- A reply that is taken changes only which replies wait. -/
theorem history_writeUses (session : Session) (flush : Departure) :
    let after := session.history (writeUses (I := I) flush)
    after.2 = { session with outbox := { session.outbox with queue := after.2.outbox.queue } } ∧
      Session.given (writeUses (I := I) flush) = [] ∧ Session.results after.1 = [] ∧
      Session.answers after.1 = [] ∧ Session.replies (writeUses (I := I) flush) = [] ∧
      (Session.taken after.1).length ≤ 1 := by
  cases flush with
  | blocked | failed => exact ⟨rfl, rfl, rfl, rfl, rfl, Nat.zero_le _⟩
  | done =>
    simp only [writeUses, Session.history, Session.act, Session.nextReply, Outbox.pop]
    split
    · exact ⟨rfl, rfl, rfl, rfl, rfl, Nat.zero_le _⟩
    · exact ⟨rfl, rfl, rfl, rfl, rfl, Nat.le_refl _⟩

theorem used (steady : u.Steady) (s : Serving I) (arrived : List Incoming) (flush : Departure) :
    Session.Used u.session (u.intake s.engine arrived) (u.uses arrived flush s) := by
  have hused := Session.used_intake steady.opened steady.fresh s.engine
    (Incoming.available arrived)
  rw [← intake] at hused
  -- Where no reply is asked for, it is as if what was sent before had not left.
  obtain ⟨left, hleft⟩ : ∃ left, (match (u.intake s.engine arrived).stop with
      | none => writeUses (I := I) flush
      | some _ => []) = writeUses left := by
    cases (u.intake s.engine arrived).stop with
    | none => exact ⟨flush, rfl⟩
    | some stop => exact ⟨.blocked, rfl⟩
  obtain ⟨hwrite, hgiven, hnone, hsilent, hunsaid, -⟩ := history_writeUses (I := I)
    (u.session.history (u.session.receives s.engine (u.intake s.engine arrived).handed)).2 left
  rw [uses_eq steady, hleft]
  constructor
  · rw [Session.given_append, Session.given_receives, hgiven, List.append_nil]
  · rw [Session.history_append, Session.results_append, hnone, List.append_nil]
    exact hused.results
  · rw [Session.history_append, Session.answers_append, hsilent, List.append_nil,
      Session.replies_append, hunsaid, List.append_nil]
    exact hused.answers
  · rw [Session.replies_append, hunsaid, List.append_nil]
    exact hused.replied
  · rw [Session.history_append, hwrite]
    exact hused.cap
  · rw [Session.history_append, hwrite]
    exact hused.fresh
  · rw [Session.history_append, hwrite]
    exact hused.opened

/-! ### What a pass does -/

/-- What a pass on an open connection does that uses the session like this. -/
structure Passed (u : Upload) (k : Intake) (inputs : List (Session.Input I)) (s : Serving I)
    (outcome : Option Upload × Serving I) : Prop where
  /-- The engine is used by the session only. -/
  engine : outcome.2.engine = (u.session.takeAll k.handed s.engine).2.2
  /-- Each reply that the session drops is counted once. -/
  drops : outcome.2.metrics.notificationsDropped + u.session.outbox.dropped =
    s.metrics.notificationsDropped + (u.session.history inputs).2.outbox.dropped
  oversize : outcome.2.metrics.oversizeClosed = s.metrics.oversizeClosed + k.isOverlong.toNat
  /-- The client is told of a message that is too long, and gets the reply that was taken unless it
  cannot be sent. -/
  sent : ∃ replies, outcome.2.sent = s.sent ++ k.notices ++ replies.map Outgoing.reply ∧
    replies.length ≤ 1 ∧ replies <+: Session.taken (u.session.history inputs).1 ∧
    (outcome.1.isSome → replies = Session.taken (u.session.history inputs).1)
  /-- What is left is the session, and the closing if it was started. -/
  next : ∀ v, outcome.1 = some v → v = settled (u.session.history inputs).2 k.isOverlong
  /-- When the closing is started, the connection is still there, and no reply is sent. -/
  closes : k.isOverlong = true → outcome.1.isSome ∧ outcome.2.sent = s.sent ++ k.notices
  goes : outcome.1.isSome → k.isOverlong = false → k.stop = none

/-- What sending a reply does. -/
theorem write_settled (session : Session) (flush send : Departure) (s : Serving I) :
    let after := session.history (writeUses (I := I) flush)
    let outcome := (settled session false).write flush send s
    outcome.2.engine = s.engine ∧ outcome.2.metrics = s.metrics ∧
      (∃ replies, outcome.2.sent = s.sent ++ replies.map Outgoing.reply ∧
        replies <+: Session.taken after.1 ∧
        (outcome.1.isSome → replies = Session.taken after.1)) ∧
      ∀ v, outcome.1 = some v → v = settled after.2 false := by
  cases flush with
  | blocked => exact ⟨rfl, rfl, ⟨[], by simp [write], List.nil_prefix, fun _ => rfl⟩,
      fun v hv => (Option.some.inj hv).symm⟩
  | failed =>
    refine ⟨rfl, rfl, ⟨[], by simp [write], List.nil_prefix, fun hv => ?_⟩, fun v hv => ?_⟩ <;>
      cases hv
  | done =>
    simp only [write, writeUses, Session.history, Session.act, Session.nextReply, Outbox.pop,
      settled]
    cases session.outbox.queue with
    | nil => exact ⟨rfl, rfl, ⟨[], by simp, List.nil_prefix, fun _ => rfl⟩,
        fun v hv => (Option.some.inj hv).symm⟩
    | cons reply rest =>
      by_cases hsend : send = .failed
      · simp only [if_pos hsend]
        refine ⟨trivial, trivial, ⟨[], by simp, List.nil_prefix, fun hv => ?_⟩, fun v hv => ?_⟩ <;>
          cases hv
      · simp only [if_neg hsend]
        exact ⟨rfl, rfl, ⟨[reply], rfl, List.prefix_rfl, fun _ => rfl⟩,
          fun v hv => (Option.some.inj hv).symm⟩

/-- The replies that were dropped while messages were taken have been counted. -/
theorem drops_servingAfter (u : Upload) (k : Intake) (s : Serving I) :
    (u.servingAfter k s).metrics.notificationsDropped + u.session.outbox.dropped =
      s.metrics.notificationsDropped + (u.sessionAfter k s).outbox.dropped := by
  have hless : u.session.outbox.dropped ≤ (u.sessionAfter k s).outbox.dropped :=
    u.session.dropped_le_takeAll k.handed s.engine
  simp only [servingAfter, Intake.counted]
  omega

theorem passed (steady : u.Steady) (arrived : List Incoming) (flush send : Departure)
    (timedOut : Bool) (s : Serving I) :
    u.Passed (u.intake s.engine arrived) (u.uses arrived flush s) s
      (u.serve arrived flush send timedOut s) := by
  have hopen : ¬ u.closing = true := by
    rw [steady.settled]
    exact Bool.noConfusion
  obtain ⟨hsession, htaken⟩ :=
    Session.history_receives u.session s.engine (u.intake s.engine arrived).handed
  have hdrops := u.drops_servingAfter (u.intake s.engine arrived) s
  rw [uses_eq steady, serve, if_neg hopen, read_eq steady]
  generalize u.intake s.engine arrived = k at *
  rw [← sessionAfter] at hsession
  obtain ⟨messages, _ | shown | _ | _⟩ := k
  · simp only [Intake.reading]
    generalize hserving : u.servingAfter ⟨messages, none⟩ s = serving at *
    obtain ⟨hengine, hmetrics, ⟨replies, hreplies, hpart, hall⟩, hnext⟩ :=
      write_settled (u.sessionAfter ⟨messages, none⟩ s) flush send serving
    obtain ⟨hwrite, -, -, -, -, hone⟩ :=
      history_writeUses (I := I) (u.sessionAfter ⟨messages, none⟩ s) flush
    have happend := Session.history_append u.session
      (u.session.receives s.engine (Intake.handed ⟨messages, none⟩)) (writeUses flush)
    rw [hsession] at happend
    exact {
      engine := by rw [hengine, ← hserving]; rfl
      drops := by
        rw [hmetrics, happend, hwrite]
        exact hdrops
      oversize := by rw [hmetrics, ← hserving]; rfl
      sent := ⟨replies, by rw [hreplies, ← hserving]; rfl, Nat.le_trans hpart.length_le hone, by
        rw [happend, Session.taken_append, htaken, List.nil_append]
        exact ⟨hpart, hall⟩⟩
      next := fun v hv => by
        rw [happend]
        exact hnext v hv
      closes := fun h => nomatch h
      goes := fun _ _ => rfl }
  · simp only [Intake.reading, List.append_nil]
    exact {
      engine := rfl
      drops := hsession ▸ hdrops
      oversize := rfl
      sent := ⟨[], by simp [servingAfter], Nat.zero_le _, List.nil_prefix, fun _ => htaken.symm⟩
      next := fun v hv => by
        rw [hsession]
        exact (Option.some.inj hv).symm
      closes := fun _ => ⟨rfl, rfl⟩
      goes := fun _ h => nomatch h }
  all_goals
    simp only [Intake.reading, List.append_nil]
    exact {
      engine := rfl
      drops := hsession ▸ hdrops
      oversize := rfl
      sent := ⟨[], by simp [servingAfter], Nat.zero_le _, List.nil_prefix, fun hv => nomatch hv⟩
      next := fun v hv => nomatch hv
      closes := fun h => nomatch h
      goes := fun hv => nomatch hv }

/-! ### Passes on connections that close -/

/-- A connection that closes stays as it is, as long as it is there. -/
theorem serve_of_closing {u : Upload} (closing : u.closing = true) (arrived : List Incoming)
    (flush send : Departure) (timedOut : Bool) (s : Serving I) :
    (u.serve arrived flush send timedOut s).2 = s ∧
      ∀ v, (u.serve arrived flush send timedOut s).1 = some v → v = u := by
  rw [serve, if_pos closing]
  refine ⟨rfl, fun v hv => ?_⟩
  simp only [serveClosing] at hv
  split at hv
  · exact (Option.some.inj hv).symm
  · cases hv

end Upload

end PixelHost
