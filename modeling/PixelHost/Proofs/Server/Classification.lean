import PixelHost.Proofs.Http.Head
import PixelHost.Proofs.Server.Visits
import PixelHost.Sandbox.Basic
import PixelHost.Server.Wire

/-!
# Packets and the classification of a connection

The bytes that a client sends arrive in packets, and every visit to a pending connection sees what
has arrived so far, though no more of it than a head may have. How the bytes are cut into packets,
and between which of them the visits come, has no influence on what becomes of the connection: it
waits until its head is complete, or until it is clear that the head is too long.

## Main definitions

* `Happening.Shows` — what a visit sees of the bytes that a client sends.

## Main results

* `Happening.Shows.head?_eq_some`, `Happening.Shows.head?_eq_none` — when a visit finds the head.
* `Reactor.waits_through` — a connection that has no reason to stop waiting.
* `Reactor.classification_of_stream` — what becomes of a connection.
-/

namespace PixelHost

variable {I : Interpreter}

/-! ### What a visit sees -/

namespace Happening

/-- So many bytes of a stream have arrived at a visit that is not too late, and no end. -/
structure Shows (stream : Bytes) (arrived : Nat) (h : Happening) : Prop where
  sent : arrived ≤ stream.size
  peek : h.peek = ({ arrived := stream.extract 0 arrived } : Wire).peek
  inTime : h.timedOut = false

/-- The bytes of a stream that a visit sees when so many have arrived. -/
def seen (stream : Bytes) (arrived : Nat) : Bytes :=
  (stream.extract 0 arrived).extract 0 Http.maxHeadLength

theorem data_extract (bytes : Bytes) (n : Nat) :
    (bytes.extract 0 n).data.toList = bytes.data.toList.take n := by
  simp

theorem seen_front (stream : Bytes) (arrived : Nat) :
    (seen stream arrived).data.toList <+: stream.data.toList := by
  rw [seen, data_extract, data_extract, List.take_take]
  exact List.take_prefix _ _

variable {stream head : Bytes} {arrived : Nat} {h : Happening}

theorem size_seen (sent : arrived ≤ stream.size) :
    (seen stream arrived).size = min arrived Http.maxHeadLength := by
  simp only [seen, ByteArray.size_extract]
  omega

namespace Shows

theorem peek_eq (shows : Shows stream arrived h) :
    h.peek = if 0 < arrived then .bytes (seen stream arrived) else .nothing := by
  have hsize : (stream.extract 0 arrived).size = arrived := by
    have := shows.sent
    simp only [ByteArray.size_extract]
    omega
  rw [shows.peek, Wire.peek]
  simp only [hsize, Bool.false_eq_true, if_false]
  rfl

/-- A visit finds the head if it has arrived and is not too long, whatever follows it. -/
theorem head?_eq_some (shows : Shows stream arrived h) (ishead : Http.IsHead stream head)
    (short : head.size ≤ Http.maxHeadLength) (complete : head.size ≤ arrived) :
    h.head? = some head := by
  have hpositive : 0 < arrived := by
    have hblank := ishead.complete.length_le
    rw [Http.length_data] at hblank
    exact Nat.lt_of_lt_of_le (Nat.lt_of_lt_of_le (by decide) hblank) complete
  have hsize : head.size ≤ (seen stream arrived).size := by
    rw [size_seen shows.sent]
    exact Nat.le_min.mpr ⟨complete, short⟩
  have hfront := seen_front stream arrived
  have hseen := ((Http.isHead_part_iff hfront).mpr ⟨ishead, hsize⟩).front
  simp only [Happening.head?, shows.peek_eq, if_pos hpositive,
    Http.headLength?_of_part hfront ishead hsize, Option.map_some, Option.some.injEq]
  apply Http.eq_of_data
  rw [data_extract, ← Http.length_data]
  exact (List.prefix_iff_eq_take.mp hseen).symm

/-- A visit finds no head as long as none has arrived, or none fits. -/
theorem head?_eq_none (shows : Shows stream arrived h)
    (incomplete : ∀ head, Http.IsHead stream head →
      arrived < head.size ∨ Http.maxHeadLength < head.size) : h.head? = none := by
  have hnone : Http.headLength? (seen stream arrived) = none := by
    refine Http.headLength?_of_short_part (seen_front stream arrived) fun head ishead => ?_
    rw [size_seen shows.sent]
    have := incomplete head ishead
    omega
  by_cases hpositive : 0 < arrived
  · simp only [Happening.head?, shows.peek_eq, if_pos hpositive, hnone, Option.map_none]
  · simp only [Happening.head?, shows.peek_eq, if_neg hpositive]

end Shows

end Happening

/-! ### Waiting for the head -/

namespace Reactor

open Happening

variable {r : Reactor I} {stream head : Bytes} {arrived id : Nat} {h : Happening} {s : Serving I}

/-- A visit that finds no head leaves the connection pending if there is room for more. -/
theorem servePending_of_short (shows : Shows stream arrived h) (incomplete : h.head? = none)
    (room : arrived < Http.maxHeadLength) : r.servePending h s = (some .pending, s) := by
  have hpeek := shows.peek_eq
  by_cases hpositive : 0 < arrived
  · rw [if_pos hpositive] at hpeek
    have hsize : ¬ Http.maxHeadLength ≤ (seen stream arrived).size := by
      rw [size_seen shows.sent]
      omega
    rw [servePending_of_bytes hpeek incomplete, if_neg hsize, shows.inTime]
    rfl
  · rw [if_neg hpositive] at hpeek
    rw [servePending_of_nothing hpeek, shows.inTime]
    rfl

/-- A visit that finds no head is the last one if there is no room for more. -/
theorem servePending_of_full (shows : Shows stream arrived h) (incomplete : h.head? = none)
    (full : Http.maxHeadLength ≤ arrived) :
    r.servePending h s = respond (.text 431 "Request head too large") s := by
  have hpeek := shows.peek_eq
  rw [if_pos (Nat.lt_of_lt_of_le (by decide) full)] at hpeek
  have hsize : Http.maxHeadLength ≤ (seen stream arrived).size := by
    rw [size_seen shows.sent]
    exact Nat.le_min.mpr ⟨full, Nat.le_refl _⟩
  rw [servePending_of_bytes hpeek incomplete, if_pos hsize]

/-- A connection stays pending, and nothing is sent on it, as long as each visit to it finds no head
and room for more. By induction on the run. -/
theorem waits_through (stream : Bytes) (pending : r.connections.lookup id = some .pending)
    (inputs : List (Input I))
    (undecided : ∀ h, .visit id h ∈ inputs →
      ∃ arrived < Http.maxHeadLength, Shows stream arrived h ∧ h.head? = none) :
    (r.run inputs).connections.lookup id = some .pending ∧ sentOn id (r.trace inputs) = [] := by
  induction inputs generalizing r with
  | nil => exact ⟨pending, rfl⟩
  | cons input rest ih =>
    have hstep : (r.act input).connections.lookup id = some .pending ∧
        Step.sent id ⟨r, input⟩ = [] := by
      cases input with
      | accept usable =>
        refine ⟨?_, rfl⟩
        rcases r.accept_cases usable with ⟨-, h⟩ | ⟨-, -, h⟩ | ⟨-, -, h⟩ <;> rw [act, h]
        · exact pending
        · exact pending
        · by_cases hid : id = r.nextId
          · rw [hid, List.lookup_cons_self]
          · exact (lookup_cons_of_ne hid).trans pending
      | share engine => exact ⟨pending, rfl⟩
      | visit visited h =>
        by_cases hid : id = visited
        · subst hid
          obtain ⟨arrived, room, shows, incomplete⟩ := undecided h List.mem_cons_self
          have hserve := servePending_of_short (r := r.without id) (s := r.serving) shows
            incomplete room
          refine ⟨?_, ?_⟩
          · rw [lookup_visit_self pending, serveConnection, hserve]
          · simp only [Step.sent, if_true, serve_of_found pending, serveConnection, hserve]
            rfl
        · refine ⟨(lookup_visit_of_ne hid h).trans pending, ?_⟩
          simp only [Step.sent, if_neg (Ne.symm hid)]
    obtain ⟨hpending, hsent⟩ := ih hstep.1 fun h hmem => undecided h (List.mem_cons_of_mem _ hmem)
    refine ⟨hpending, ?_⟩
    rw [trace, sentOn, List.flatMap_cons, hstep.2]
    exact hsent

/-- A connection whose first visit that sees the whole head comes after some others, on a reactor to
which anything else happens meanwhile: if the head is not too long, the connection is pending until
that visit, nothing is sent on it, and the visit classifies exactly the head, so the request is that
of the head or is refused as none. If there is no head, or one that is too long, the connection is
pending until as much has arrived as a head may have, and is told so then. What follows the head,
and the parts that the other visits see, have no influence. -/
theorem classification_of_stream (r : Reactor I) (id : Nat) (stream : Bytes)
    (pending : r.connections.lookup id = some .pending) :
    (∀ head, Http.IsHead stream head → head.size ≤ Http.maxHeadLength →
      ∀ inputs, (∀ h, .visit id h ∈ inputs → ∃ arrived < head.size, Shows stream arrived h) →
        let r' := r.run inputs
        r'.connections.lookup id = some .pending ∧ sentOn id (r.trace inputs) = [] ∧
        ∀ h arrived, head.size ≤ arrived → Shows stream arrived h →
          h.request? = Http.Request.parse? head ∧
          r'.serve id h = (((r'.without id).classify head h r'.serving).2.sent,
            (r'.without id).settle id ((r'.without id).classify head h r'.serving)) ∧
          (Http.Request.parse? head = none →
            r'.serve id h = ([.response (.text 400 "Bad Request")], r'.without id))) ∧
    ((∀ head, Http.IsHead stream head → Http.maxHeadLength < head.size) →
      ∀ inputs, (∀ h, .visit id h ∈ inputs →
          ∃ arrived < Http.maxHeadLength, Shows stream arrived h) →
        let r' := r.run inputs
        r'.connections.lookup id = some .pending ∧ sentOn id (r.trace inputs) = [] ∧
        ∀ h arrived, Http.maxHeadLength ≤ arrived → Shows stream arrived h →
          r'.serve id h =
            ([.response (.text 431 "Request head too large")], r'.without id)) := by
  constructor
  · intro head ishead short inputs parts r'
    have hwaits := waits_through stream pending inputs fun h hmem => by
      obtain ⟨arrived, hless, shows⟩ := parts h hmem
      refine ⟨arrived, Nat.lt_of_lt_of_le hless short, shows, shows.head?_eq_none ?_⟩
      intro head' ishead'
      rw [ishead.unique ishead']
      exact .inl hless
    refine ⟨hwaits.1, hwaits.2, fun h arrived complete shows => ?_⟩
    have hhead := shows.head?_eq_some ishead short complete
    have hserve := serve_of_found hwaits.1 h
    rw [serveConnection, servePending_of_head hhead] at hserve
    refine ⟨?_, hserve, fun hnone => ?_⟩
    · rw [request?, hhead, Option.bind_some]
    · rw [hserve, classify, hnone]
      rfl
  · intro long inputs parts r'
    have hwaits := waits_through stream pending inputs fun h hmem => by
      obtain ⟨arrived, hless, shows⟩ := parts h hmem
      exact ⟨arrived, hless, shows, shows.head?_eq_none fun head ishead => .inr (long head ishead)⟩
    refine ⟨hwaits.1, hwaits.2, fun h arrived full shows => ?_⟩
    have hnone := shows.head?_eq_none fun head ishead => .inr (long head ishead)
    rw [serve_of_found hwaits.1, serveConnection, servePending_of_full shows hnone full]
    rfl

/-- A request that arrives in two packets, the first of which ends within the blank line. Some bytes
of what follows come with the second one. -/
theorem classification_of_two_packets :
    let engine : Engine Sandbox.interpreter := { interpreter := ⟨.fresh 0, 900, 0, 0⟩ }
    let r : Reactor Sandbox.interpreter :=
      { config := {}, engine, connections := [(1, .pending)], nextId := 2 }
    let stream := "GET / HTTP/1.1\r\n\r\nGET".toUTF8
    let shown (arrived : Nat) : Happening :=
      { peek := ({ arrived := stream.extract 0 arrived } : Wire).peek }
    r.connections.lookup 1 = some .pending ∧
      ∃ head, Http.IsHead stream head ∧ head.size = 18 ∧
        (r.run [.visit 1 (shown 16)]).connections.lookup 1 = some .pending ∧
        (shown 20).request? = Http.Request.parse? head := by
  intro engine r stream shown
  have hpending : r.connections.lookup 1 = some .pending := rfl
  obtain ⟨head, ishead, hsize⟩ : ∃ head, Http.IsHead stream head ∧ head.size = 18 :=
    Http.headLength?_eq_some_iff.mp (by decide +kernel)
  have hshown (arrived : Nat) (sent : arrived ≤ 21) : Shows stream arrived (shown arrived) :=
    ⟨Nat.le_trans sent (by decide +kernel), rfl, rfl⟩
  obtain ⟨hhead, -⟩ := classification_of_stream r 1 stream hpending
  obtain ⟨hwaits, -, hrequest⟩ := hhead head ishead (by rw [hsize]; decide) [.visit 1 (shown 16)]
    fun h hmem => by
      simp only [List.mem_singleton, Input.visit.injEq, true_and] at hmem
      exact ⟨16, by rw [hsize]; decide, hmem ▸ hshown 16 (by decide)⟩
  exact ⟨hpending, head, ishead, hsize, hwaits,
    (hrequest (shown 20) 20 (by rw [hsize]; decide) (hshown 20 (by decide))).1⟩

end Reactor

end PixelHost
