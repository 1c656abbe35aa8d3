import PixelHost.Proofs.Server.Runs

/-!
# Visits to connections that are not open yet

A visit to a pending connection looks for the head of its request, and the head decides what becomes
of it. Only two of the outcomes lead to an upload connection or tell that there are too many of
them.

## Main definitions

* `Happening.head?`, `Happening.AsksForUpload` — the request that a visit finds.
* `Reactor.Greeted` — what a visit can come to while a handshake goes on.
* `Reactor.Waited` — what a visit to a pending connection can come to.
* `Reactor.Unopened` — what all such visits leave alone.

## Main results

* `Reactor.greeted`, `Reactor.waited` — every visit is one of the listed ones.
* `Reactor.servePending_of_head` — a complete head is classified.
* `Reactor.servePending_of_crowded` — a client that is one too many is told so.
-/

namespace PixelHost

variable {I : Interpreter}

/-! ### The request that is found -/

namespace Happening

/-- The head at the front of a pending connection, if it is complete. -/
def head? (h : Happening) : Option Bytes :=
  match h.peek with
  | .bytes front => (Http.headLength? front).map (front.extract 0)
  | .nothing | .ended | .failed => none

/-- The request that is found, if it is well formed. -/
def request? (h : Happening) : Option Http.Request := h.head?.bind Http.Request.parse?

/-- A request for a WebSocket is found. -/
def AsksForUpload (h : Happening) : Prop :=
  ∃ request, h.request? = some request ∧ request.upgrade = true

end Happening

namespace Reactor

variable {r : Reactor I} {h : Happening} {s : Serving I}

/-! ### Handshakes -/

/-- What a visit can come to while a handshake goes on. -/
inductive Greeted (r : Reactor I) (s : Serving I) : Option Connection × Serving I → Prop
  /-- The connection is open. -/
  | opened : Greeted r s (some (.upload (.start r.config.maxUpload r.config.outboxDepth)),
      s.count fun m => { m with connectionsAccepted := m.connectionsAccepted + 1 })
  /-- The handshake goes on later. -/
  | goesOn : Greeted r s (some .handshaking, s)
  /-- The connection ends. -/
  | dropped : Greeted r s (none, s)

theorem greeted (r : Reactor I) (h : Happening) (s : Serving I) :
    r.Greeted s (r.serveHandshake h s) := by
  rw [serveHandshake]
  cases h.handshake with
  | done => exact .opened
  | failed => exact .dropped
  | interrupted =>
    cases h.timedOut with
    | true => exact .dropped
    | false => exact .goesOn

/-! ### Pending connections -/

/-- What a visit to a pending connection can come to. -/
inductive Waited (r : Reactor I) (h : Happening) (s : Serving I) :
    Option Connection × Serving I → Prop
  /-- The head is not complete. -/
  | waits (incomplete : h.head? = none) : Waited r h s (some .pending, s)
  /-- The connection ends without an answer. -/
  | dropped : Waited r h s (none, s)
  /-- There is no request that can be read. -/
  | rejected {response} : Waited r h s (none, s.send (.response response))
  /-- A plain request is answered. -/
  | answered {response} : Waited r h s (none,
      (s.count fun m => { m with httpRequests := m.httpRequests + 1 }).send (.response response))
  /-- A client is one too many. -/
  | crowded (asks : h.AsksForUpload) (full : r.config.maxClients ≤ r.connectionCount) :
      Waited r h s (none, (s.count refuse).send (.response (.text 503 "Too many connections")))
  /-- The handshake begins. -/
  | admitted {outcome} (asks : h.AsksForUpload) (room : r.connectionCount < r.config.maxClients)
      (greeted : r.Greeted s outcome) : Waited r h s outcome

/-- A complete head is classified. -/
theorem servePending_of_head {head : Bytes} (found : h.head? = some head) :
    r.servePending h s = r.classify head h s := by
  cases hpeek : h.peek with
  | bytes front =>
    simp only [Happening.head?, hpeek, Option.map_eq_some_iff] at found
    obtain ⟨length, hlength, rfl⟩ := found
    simp only [servePending, hpeek, hlength]
  | nothing | ended | failed => simp [Happening.head?, hpeek] at found

/-- Without a complete head, a connection waits for the rest unless its time is up. A head that
takes all the room there is for one will never be complete. -/
theorem servePending_of_bytes {front : Bytes} (peek : h.peek = .bytes front)
    (incomplete : h.head? = none) :
    r.servePending h s =
      if Http.maxHeadLength ≤ front.size then respond (.text 431 "Request head too large") s
      else (if h.timedOut then none else some .pending, s) := by
  simp only [Happening.head?, peek, Option.map_eq_none_iff] at incomplete
  simp only [servePending, peek, incomplete]

theorem servePending_of_nothing (peek : h.peek = .nothing) :
    r.servePending h s = (if h.timedOut then none else some .pending, s) := by
  simp only [servePending, peek]

private theorem waited_head {head : Bytes} (found : h.head? = some head) :
    r.Waited h s (r.classify head h s) := by
  rw [classify]
  cases hparse : Http.Request.parse? head with
  | none => exact .rejected
  | some request =>
    have hrequest : h.request? = some request := by
      rw [Happening.request?, found, Option.bind_some, hparse]
    cases hupgrade : request.upgrade with
    | true =>
      simp only [if_true, hupgrade]
      split
      · next full => exact .crowded ⟨request, hrequest, hupgrade⟩ full
      · next room =>
        exact .admitted ⟨request, hrequest, hupgrade⟩ (Nat.lt_of_not_le room) (r.greeted h s)
    | false =>
      simp only [hupgrade, Bool.false_eq_true, if_false]
      cases h.headTaken with
      | true => exact .answered
      | false => exact .dropped

/-- Every visit is one of the listed ones. -/
theorem waited (r : Reactor I) (h : Happening) (s : Serving I) :
    r.Waited h s (r.servePending h s) := by
  cases hhead : h.head? with
  | some head =>
    rw [servePending_of_head hhead]
    exact waited_head hhead
  | none =>
    have hwaits : r.Waited h s (if h.timedOut then none else some .pending, s) := by
      cases h.timedOut with
      | true => exact .dropped
      | false => exact .waits hhead
    cases hpeek : h.peek with
    | ended | failed =>
      simp only [servePending, hpeek]
      exact .dropped
    | nothing =>
      rw [servePending_of_nothing hpeek]
      exact hwaits
    | bytes front =>
      rw [servePending_of_bytes hpeek hhead]
      split
      · exact .rejected
      · exact hwaits

/-- A client that is one too many is told so. -/
theorem servePending_of_crowded (asks : h.AsksForUpload)
    (full : r.config.maxClients ≤ r.connectionCount) :
    r.servePending h s =
      (none, (s.count refuse).send (.response (.text 503 "Too many connections"))) := by
  obtain ⟨request, hrequest, hupgrade⟩ := asks
  rw [Happening.request?, Option.bind_eq_some_iff] at hrequest
  obtain ⟨head, hhead, hparse⟩ := hrequest
  rw [servePending_of_head hhead, classify, hparse]
  simp only [hupgrade, if_true, if_pos full]
  rfl

/-! ### What such visits leave alone -/

/-- A visit to a connection that is not open yet sends responses only, counts nothing about messages
and replies, and may open the connection. -/
structure Unopened (r : Reactor I) (s : Serving I) (outcome : Option Connection × Serving I) :
    Prop where
  drops : outcome.2.metrics.notificationsDropped = s.metrics.notificationsDropped
  oversize : outcome.2.metrics.oversizeClosed = s.metrics.oversizeClosed
  sent : ∀ o ∈ outcome.2.sent, o ∈ s.sent ∨ ∃ response, o = .response response
  opens : ∀ u, outcome.1 = some (.upload u) →
    u = .start r.config.maxUpload r.config.outboxDepth

namespace Unopened

variable {outcome : Option Connection × Serving I}

theorem of_greeted (greeted : r.Greeted s outcome) : r.Unopened s outcome := by
  cases greeted with
  | opened => exact ⟨rfl, rfl, fun _ ho => .inl ho, fun u hu => by cases hu; rfl⟩
  | goesOn | dropped => exact ⟨rfl, rfl, fun _ ho => .inl ho, fun u hu => nomatch hu⟩

theorem of_waited (waited : r.Waited h s outcome) : r.Unopened s outcome := by
  have hsent (s' : Serving I) (same : s'.sent = s.sent) (response : Http.Response) :
      ∀ o ∈ (s'.send (.response response)).sent,
        o ∈ s.sent ∨ ∃ response, o = .response response := by
    intro o ho
    rw [← same]
    exact (List.mem_append.mp ho).imp_right fun h => ⟨response, List.mem_singleton.mp h⟩
  cases waited with
  | waits | dropped => exact ⟨rfl, rfl, fun _ ho => .inl ho, fun u hu => nomatch hu⟩
  | rejected | answered | crowded => exact ⟨rfl, rfl, hsent _ rfl _, fun u hu => nomatch hu⟩
  | admitted asks room greeted => exact of_greeted greeted

end Unopened

theorem unopened {c : Connection} (closed : ∀ u, c ≠ .upload u) (r : Reactor I) (h : Happening)
    (s : Serving I) : r.Unopened s (r.serveConnection c h s) := by
  cases c with
  | pending => exact .of_waited (r.waited h s)
  | handshaking => exact .of_greeted (r.greeted h s)
  | upload u => exact absurd rfl (closed u)

end Reactor

end PixelHost
