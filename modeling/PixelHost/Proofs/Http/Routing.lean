import Mathlib.Data.List.DropRight
import PixelHost.Http.Route
import PixelHost.Proofs.Server.Visits

/-!
# Where a request leads

A request leads to an endpoint if its path, up to a query or a fragment, is the mount path, a slash and
the name of the endpoint. Slashes at the end of the mount path do not count. Every other path leads
nowhere, be it ever so similar. An endpoint can only be read, and no request changes the engine.

## Main definitions

* `Http.Endpoint.name` — the name of an endpoint.
* `Http.Endpoint.LiesAt` — a path leads to an endpoint.
* `Http.StatusContext.Unlisted` — the examples cannot be listed.

## Main results

* `Http.Endpoint.ofPath?_eq_some_iff` — the endpoint that is found is the one the path leads to.
* `Http.route_of_liesAt`, `Http.route_of_nowhere` — the answer to a request.
* `Reactor.serve_of_plain` — a visit that finds a request for an endpoint.
* `Http.routing_exact` — what a request leads to, and that it changes nothing.
-/

namespace PixelHost

open Http

variable {I : Interpreter}

namespace Http

/-! ### Paths and endpoints -/

namespace Endpoint

/-- The name of an endpoint. -/
def name : Endpoint → String
  | code => "code"
  | examples => "examples"
  | status => "status"

/-- The path leads to an endpoint: what comes before its query or fragment is the mount path without
the slashes at its end, a slash, and the name of the endpoint. -/
def LiesAt (mount path : String) (e : Endpoint) : Prop :=
  path.toList.takeWhile (fun c => c != '?' && c != '#') =
    mount.toList.rdropWhile (· == '/') ++ '/' :: e.name.toList

instance (mount path : String) (e : Endpoint) : Decidable (e.LiesAt mount path) :=
  inferInstanceAs (Decidable (_ = _))

variable {mount path : String} {e e' : Endpoint}

theorem name_injective : Function.Injective name := by
  intro e e' h
  cases e <;> cases e' <;> first | rfl | exact absurd h (by decide)

/-- A path leads to one endpoint at most. -/
theorem LiesAt.unique (leads : e.LiesAt mount path) (leads' : e'.LiesAt mount path) : e = e' := by
  have htail := List.append_cancel_left (leads.symm.trans leads')
  exact name_injective (String.toList_inj.mp (List.cons.inj htail).2)

theorem ofName?_eq_some_iff {name : List Char} : ofName? name = some e ↔ name = e.name.toList := by
  constructor
  · intro h
    rw [ofName?] at h
    split at h
    · next hname => cases h; exact hname
    · split at h
      · next hname => cases h; exact hname
      · split at h
        · next hname => cases h; exact hname
        · cases h
  · rintro rfl
    cases e <;> decide

theorem after?_eq_some_iff {start s rest : List Char} :
    after? start s = some rest ↔ s = start ++ rest := by
  rw [after?]
  constructor
  · intro h
    split at h
    · next hstart =>
      obtain ⟨tail, rfl⟩ := List.isPrefixOf_iff_prefix.mp hstart
      rw [List.drop_left] at h
      rw [Option.some.inj h]
    · cases h
  · rintro rfl
    rw [if_pos (List.isPrefixOf_iff_prefix.mpr (List.prefix_append _ _)), List.drop_left]

/-- The endpoint that is found is the one the path leads to. -/
theorem ofPath?_eq_some_iff : ofPath? mount path = some e ↔ e.LiesAt mount path := by
  have hbase : mountBase mount.toList = mount.toList.rdropWhile (· == '/') := rfl
  simp only [ofPath?, bind, Option.bind_eq_some_iff, after?_eq_some_iff, ofName?_eq_some_iff, hbase]
  constructor
  · rintro ⟨rest, hpath, name, rfl, rfl⟩
    exact hpath
  · intro h
    exact ⟨_, h, _, rfl, rfl⟩

theorem ofPath?_eq_none_iff : ofPath? mount path = none ↔ ∀ e : Endpoint, ¬ e.LiesAt mount path := by
  rw [Option.eq_none_iff_forall_ne_some]
  simp only [ne_eq, ofPath?_eq_some_iff]

/-! ### What does not count -/

/-- Slashes at the end of the mount path do not count. -/
theorem liesAt_slashes {slashes : String} (only : ∀ c ∈ slashes.toList, c = '/') :
    e.LiesAt (mount ++ slashes) path ↔ e.LiesAt mount path := by
  have hslashes : ∀ c ∈ slashes.toList.reverse, (c == '/') = true := fun c hc =>
    beq_iff_eq.mpr (only c (List.mem_reverse.mp hc))
  rw [LiesAt, LiesAt, String.toList_append, List.rdropWhile, List.rdropWhile, List.reverse_append,
    List.dropWhile_append_of_pos hslashes]

/-- A query or a fragment does not count. -/
theorem liesAt_query {query : String}
    (mark : query.toList.head? = some '?' ∨ query.toList.head? = some '#') :
    e.LiesAt mount (path ++ query) ↔ e.LiesAt mount path := by
  have hquery : query.toList.takeWhile (fun c => c != '?' && c != '#') = [] := by
    rcases mark with h | h <;> obtain ⟨rest, hrest⟩ := List.head?_eq_some_iff.mp h <;>
      rw [hrest] <;> rfl
  rw [LiesAt, LiesAt, String.toList_append, List.takeWhile_append, hquery, List.append_nil]
  split
  · next hall => rw [(List.takeWhile_prefix _).eq_of_length hall]
  · exact Iff.rfl

/-- An endpoint lies below the mount path. -/
theorem LiesAt.below (leads : e.LiesAt mount path) :
    mount.toList.rdropWhile (· == '/') ++ ['/'] <+: path.toList := by
  have hfront := List.takeWhile_prefix (l := path.toList) (fun c => c != '?' && c != '#')
  rw [LiesAt] at leads
  rw [leads, List.append_cons] at hfront
  exact (List.prefix_append _ _).trans hfront

end Endpoint

/-! ### Answers -/

section

variable {mount path : String} {e : Endpoint} (method : String) (ctx : StatusContext I)

/-- The directory of the examples cannot be listed. -/
def StatusContext.Unlisted (ctx : StatusContext I) : Prop := ∃ error, ctx.examples = .error error

theorem route_of_liesAt (leads : e.LiesAt mount path) :
    route method path mount ctx =
      if method = "GET" then serve ctx e else .text 405 "Method Not Allowed" := by
  rw [route, Endpoint.ofPath?_eq_some_iff.mpr leads]

theorem route_of_nowhere (nowhere : ∀ e : Endpoint, ¬ e.LiesAt mount path) :
    route method path mount ctx = .text 404 "Not Found" := by
  rw [route, Endpoint.ofPath?_eq_none_iff.mpr nowhere]

/-- The answer depends on nothing but the endpoint that the path leads to. -/
theorem route_congr {mount' path' : String}
    (same : ∀ e : Endpoint, e.LiesAt mount' path' ↔ e.LiesAt mount path) :
    route method path' mount' ctx = route method path mount ctx := by
  have hendpoint : Endpoint.ofPath? mount' path' = Endpoint.ofPath? mount path :=
    Option.ext fun e => by
      rw [Endpoint.ofPath?_eq_some_iff, Endpoint.ofPath?_eq_some_iff, same e]
  rw [route, route, hendpoint]

/-- What an endpoint shows is there, unless the examples cannot be listed. -/
theorem status_serve (e : Endpoint) :
    (serve ctx e).status = 404 ∧ e = .examples ∧ ctx.Unlisted ∨
      (serve ctx e).status = 200 ∧ ¬ (e = .examples ∧ ctx.Unlisted) := by
  cases e with
  | code => exact .inr ⟨rfl, fun missing => nomatch missing.1⟩
  | status => exact .inr ⟨rfl, fun missing => nomatch missing.1⟩
  | examples =>
    cases hlisted : ctx.examples with
    | error error =>
      refine .inl ⟨?_, rfl, error, hlisted⟩
      rw [serve, hlisted]
      rfl
    | ok names =>
      refine .inr ⟨?_, fun ⟨_, error, herror⟩ => nomatch hlisted.symm.trans herror⟩
      rw [serve, hlisted]
      rfl

end

end Http

/-! ### Requests on a connection -/

namespace Reactor

variable {r : Reactor I} {id : Nat} {h : Happening} {s : Serving I}

/-- What the endpoints tell about in a visit. -/
def context (r : Reactor I) (id : Nat) (h : Happening) : StatusContext I where
  engine := r.engine
  examples := h.examples
  connections := (r.without id).connectionCount
  metrics := { r.metrics with httpRequests := r.metrics.httpRequests + 1 }

theorem Greeted.engine {outcome : Option Connection × Serving I} (greeted : r.Greeted s outcome) :
    outcome.2.engine = s.engine := by
  cases greeted <;> rfl

theorem Waited.engine {outcome : Option Connection × Serving I} (waited : r.Waited h s outcome) :
    outcome.2.engine = s.engine := by
  cases waited with
  | admitted asks room greeted => exact greeted.engine
  | _ => rfl

/-- A visit to a pending connection leaves the engine alone, whatever request it finds. -/
theorem serve_engine (pending : r.connections.lookup id = some .pending) (h : Happening) :
    (r.serve id h).2.engine = r.engine := by
  rw [serve_of_found pending]
  exact ((r.without id).waited h r.serving).engine

/-- A visit that finds a request for something else than a WebSocket answers it. -/
theorem serve_of_plain {request : Request} (pending : r.connections.lookup id = some .pending)
    (found : h.request? = some request) (plain : request.upgrade = false)
    (taken : h.headTaken = true) :
    (r.serve id h).1 =
      [.response (route request.method request.path r.config.mount (r.context id h))] := by
  obtain ⟨head, hhead, hparse⟩ := Option.bind_eq_some_iff.mp found
  rw [serve_of_found pending, serveConnection, servePending_of_head hhead, classify, hparse]
  simp only [plain, taken, Bool.false_eq_true, if_false, Bool.not_true]
  rfl

end Reactor

namespace Http

/-- A request is answered by an endpoint exactly if its path, up to a query or a fragment, is the mount
path without the slashes at its end, a slash and the name of the endpoint: a method other than `GET` is
refused then, and what is read is there, unless the examples cannot be listed. Every other path is not
found, whatever the method. So neither slashes at the end of the mount path nor a query or a fragment
have an influence, and no path outside the mount leads to an endpoint. On a connection a request is
answered in this way, and no visit to a connection with a request changes anything of the engine. -/
theorem routing_exact (method path mount : String) (ctx : StatusContext I) :
    let answer := route method path mount ctx
    (∀ e : Endpoint, e.LiesAt mount path →
      (∀ other : Endpoint, other.LiesAt mount path → other = e) ∧
      (method ≠ "GET" → answer = .text 405 "Method Not Allowed") ∧
      (method = "GET" → answer = serve ctx e ∧
        (answer.status = 404 ∧ e = .examples ∧ ctx.Unlisted ∨
          answer.status = 200 ∧ ¬ (e = .examples ∧ ctx.Unlisted)))) ∧
    ((∀ e : Endpoint, ¬ e.LiesAt mount path) → answer = .text 404 "Not Found") ∧
    (∀ slashes : String, (∀ c ∈ slashes.toList, c = '/') →
      route method path (mount ++ slashes) ctx = answer) ∧
    (∀ query : String, query.toList.head? = some '?' ∨ query.toList.head? = some '#' →
      route method (path ++ query) mount ctx = answer) ∧
    (¬ mount.toList.rdropWhile (· == '/') ++ ['/'] <+: path.toList →
      answer = .text 404 "Not Found") ∧
    ∀ (r : Reactor I) (id : Nat) (h : Happening), r.connections.lookup id = some .pending →
      (r.serve id h).2.engine = r.engine ∧
      ∀ request, h.request? = some request → request.upgrade = false → h.headTaken = true →
        (r.serve id h).1 =
          [.response (route request.method request.path r.config.mount (r.context id h))] := by
  intro answer
  refine ⟨fun e leads => ⟨fun other leads' => leads'.unique leads, fun hmethod => ?_,
    fun hmethod => ?_⟩, route_of_nowhere method ctx, fun slashes only => ?_, fun query mark => ?_,
    fun outside => ?_, fun r id h pending => ⟨Reactor.serve_engine pending h,
      fun request found plain taken => Reactor.serve_of_plain pending found plain taken⟩⟩
  · exact (route_of_liesAt method ctx leads).trans (if_neg hmethod)
  · have hanswer : answer = serve ctx e := (route_of_liesAt method ctx leads).trans (if_pos hmethod)
    refine ⟨hanswer, ?_⟩
    rw [hanswer]
    exact status_serve ctx e
  · exact route_congr method ctx fun e => Endpoint.liesAt_slashes only
  · exact route_congr method ctx fun e => Endpoint.liesAt_query mark
  · exact route_of_nowhere method ctx fun e leads => outside leads.below

end Http

end PixelHost
