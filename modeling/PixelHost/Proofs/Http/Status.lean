import PixelHost.Http.Route
import PixelHost.Proofs.Engine.Installed
import PixelHost.Proofs.Engine.Replies

/-!
# What the status endpoints show

The endpoint for the source text shows the installed program and nothing else, and the one for the
status says whether there is one and how long its text is. No accepted program is empty, so an empty
text means that there is none.

## Main results

* `Host.status_of_history` — the endpoints after a run of an engine with its clients.
-/

namespace PixelHost

open Http

variable {I : Interpreter}

/-- The source text is the one of the script in the slot. -/
theorem Engine.source?_eq (e : Engine I) :
    e.source? = (e.program.map (·.script)).map (·.source) := by
  rw [Option.map_map]
  rfl

namespace Http

variable {mount path : String} (ctx : StatusContext I)

/-- The answer to a request that reads an endpoint. -/
theorem route_get {endpoint : Endpoint} (leads : Endpoint.ofPath? mount path = some endpoint) :
    route "GET" path mount ctx = serve ctx endpoint := by
  rw [route, leads]
  exact if_pos rfl

/-- The body of the endpoint for the source text. -/
theorem code_body (code : Endpoint.ofPath? mount path = some .code) :
    (route "GET" path mount ctx).body = (ctx.engine.source?.getD "").toUTF8 := by
  rw [route_get ctx code]
  rfl

/-- The status tells whether a program is installed, and the length of what is shown of it. -/
theorem statusValue_eq : statusValue ctx = .object [
    ("running", .bool ctx.engine.isRunning),
    ("source_len", .int (ctx.engine.source?.getD "").toUTF8.size),
    ("connections", .int ctx.connections),
    ("engine", counters ctx.engine.metrics.fields),
    ("server", counters ctx.metrics.fields)] := by
  cases h : ctx.engine.program <;> simp [statusValue, Engine.source?, Engine.isRunning, h]

end Http

namespace Host

/-- What the endpoints show after uploads, chunks of messages and cycles in any order. The one for
the source text shows the text of the installed script, and nothing if none is installed. It shows
nothing exactly if the slot is empty, for no accepted script is empty. The status says that a program
runs exactly if a script is installed, and how long the text is that is shown. -/
theorem status_of_history (state : Sandbox) (sink : Sink) (initialDelay : Delay)
    (quantum : Duration) (sessions : Nat → Session) (inputs : List Input)
    (examples : Except FileError (List String)) (connections : Nat) (metrics : ServerMetrics)
    {mount codePath statusPath : String}
    (code : Endpoint.ofPath? mount codePath = some .code)
    (status : Endpoint.ofPath? mount statusPath = some .status) :
    let host : Host Sandbox.interpreter := ⟨.start state sink initialDelay quantum, sessions⟩
    let (turns, last) := host.history inputs
    let ctx : StatusContext Sandbox.interpreter :=
      ⟨last.player.engine, examples, connections, metrics⟩
    let body := (route "GET" codePath mount ctx).body
    turns.map Turn.input = inputs ∧ host.run inputs = (turns.map Turn.output, last) ∧
      (∀ script, Installed turns script → body = script.source.toUTF8) ∧
      ((∀ script, ¬ Installed turns script) → body = .empty) ∧
      (body = .empty ↔ last.player.engine.program = none) ∧
      (∀ turn ∈ turns, ∀ script delay, turn.published? = some (script, delay) →
        script.source ≠ "") ∧
      ∃ running, (running = true ↔ ∃ script, Installed turns script) ∧
        route "GET" statusPath mount ctx = .json (.object [
          ("running", .bool running),
          ("source_len", .int body.size),
          ("connections", .int connections),
          ("engine", counters last.player.engine.metrics.fields),
          ("server", counters metrics.fields)]) := by
  intro host
  let e := (host.history inputs).2.player.engine
  let ctx : StatusContext Sandbox.interpreter := ⟨e, examples, connections, metrics⟩
  have hslot (script) : Installed (host.history inputs).1 script ↔
      e.program.map (·.script) = some script := host.installed_of_history rfl inputs script
  have hbody : (route "GET" codePath mount ctx).body = (e.source?.getD "").toUTF8 :=
    code_body ctx code
  have hpublished : ∀ turn ∈ (host.history inputs).1, ∀ script delay,
      turn.published? = some (script, delay) → script.source ≠ "" := fun turn met script delay =>
    host.published_ne_empty Sandbox.interpreter_refusesEmpty inputs met
  -- an installed script was published in one of the turns
  have hsource (script) (h : Installed (host.history inputs).1 script) : script.source ≠ "" := by
    obtain ⟨before, turn, after, delay, heq, hturn, -⟩ := h
    exact hpublished turn (by simp [heq]) script delay hturn
  have hnone : (∀ script, ¬ Installed (host.history inputs).1 script) ↔ e.program = none := by
    simp only [hslot]
    cases e.program <;> simp
  have hempty (h : e.program = none) : (route "GET" codePath mount ctx).body = .empty := by
    rw [hbody, Engine.source?, h]
    rfl
  refine ⟨host.history_inputs inputs, host.run_eq_history inputs, ?installed, ?idle, ?empty,
    hpublished, e.isRunning, ?running, ?status⟩
  case installed =>
    intro script h
    rw [hbody, e.source?_eq, (hslot script).mp h]
    rfl
  case idle => exact fun h => hempty (hnone.mp h)
  case empty =>
    refine ⟨fun h => hnone.mp fun script hscript => hsource script hscript ?_, hempty⟩
    rw [hbody, e.source?_eq, (hslot script).mp hscript] at h
    simpa using h
  case running =>
    simp only [hslot, Engine.isRunning]
    cases e.program <;> simp
  case status =>
    rw [route_get _ status, hbody]
    exact congrArg Response.json (statusValue_eq _)

/-- After a steady light was uploaded by a client, its text is shown. -/
theorem status_of_upload : ∃ state, (Sandbox.prepare { pixelCount := 1 }).1 = .ok state ∧
    let host : Host Sandbox.interpreter :=
      ⟨.start state {} .forever ⟨0⟩, fun _ => .start 64 4⟩
    let (turns, last) := host.history [.receive 0 Sandbox.steadyText.toUTF8 true]
    let ctx : StatusContext Sandbox.interpreter := ⟨last.player.engine, .ok [], 0, {}⟩
    Endpoint.ofPath? "/leds" "/leds/code?x=1" = some .code ∧
      Endpoint.ofPath? "/leds" "/leds/status" = some .status ∧
      (∃ script, Installed turns script) ∧
      (route "GET" "/leds/code?x=1" "/leds" ctx).body = Sandbox.steadyText.toUTF8 := by
  obtain ⟨state, hprepare, hspacious, hlength, hfree, henough⟩ := Sandbox.exists_onePixel
  let session := Session.start 64 4
  let host : Host Sandbox.interpreter := ⟨.start state {} .forever ⟨0⟩, fun _ => session⟩
  let e := host.player.engine
  let message := Sandbox.steadyText.toUTF8
  let inputs : List Input := [.receive 0 message true]
  have hcode : Endpoint.ofPath? "/leds" "/leds/code?x=1" = some .code := by decide
  have hstatus : Endpoint.ofPath? "/leds" "/leds/status" = some .status := by decide
  -- the program after the only turn
  have htext : Utf8.decode? (session.buffer ++ message) = some Sandbox.steadyText := by
    decide +kernel
  obtain ⟨chunk, state', hcompile, hinvoke⟩ := Sandbox.upload_steady hspacious e.inUse (by decide)
    hlength hfree henough
  have htrial : e.trial (session.buffer ++ message) = _ := Engine.trial_of_ok htext hcompile hinvoke
  obtain ⟨e', hreceive, hreplaced⟩ :=
    Session.receive_of_trial session message rfl (by decide) htrial
  have hlast : (host.history inputs).2.player.engine = e' := by
    have hrun := congrArg (·.2.player.engine) (host.run_eq_history inputs)
    have hact : (host.run inputs).2.player.engine = (session.receive message true e).2.2 := rfl
    rw [← hrun, hact, hreceive]
  have hinstalled : Installed (host.history inputs).1 ⟨Sandbox.steadyText, chunk⟩ := by
    rw [host.installed_of_history rfl inputs, hlast, hreplaced.slot]
    rfl
  obtain ⟨-, -, hshown, -⟩ := status_of_history state {} .forever ⟨0⟩ (fun _ => session) inputs
    (.ok []) 0 {} hcode hstatus
  exact ⟨state, hprepare, hcode, hstatus, ⟨_, hinstalled⟩, hshown _ hinstalled⟩

end Host

end PixelHost
