import PixelHost.Proofs.Engine.Clients
import PixelHost.Proofs.Engine.HandOver
import PixelHost.Proofs.Sandbox.Blank

/-!
# The installed program

What the slot of an engine holds can be read off the turns of a run: the script of the most recently
accepted upload, as long as it goes on. It goes on if the upload asked for a finite delay, and until
one of its periodic runs fails or asks for no further one. A run that is lost does neither, and the
script stays where it is. An accepted script is never empty, for an interpreter that refuses the empty
one.

## Main definitions

* `Turn.published?`, `Turn.Ends` — the script that a turn publishes, and the one that it ends.
* `Installed` — the script of the most recently accepted upload goes on.
* `Interpreter.RefusesEmpty` — the empty script never succeeds.

## Main results

* `Host.installed_of_history` — the slot holds the installed script.
* `Host.published_ne_empty` — no accepted script is empty.
-/

namespace PixelHost

variable {I : Interpreter}

/-! ### Scripts that begin and end -/

/-- The script of an upload that is compiled and succeeds, with the delay that it asks for. -/
def Turn.published? (turn : Turn I) : Option (Script I × Delay) :=
  match turn.record with
  | [.compile source (.ok chunk), .invoke ⟨_, _, _, .ok outcome⟩] =>
    some (⟨source, chunk⟩, outcome.delay)
  | _ => none

/-- A periodic run of a chunk fails, or it asks for no further one. -/
def Turn.Ends (turn : Turn I) (chunk : I.Chunk) : Prop :=
  ∃ call, turn.record = [.invoke call] ∧ call.chunk = chunk ∧
    ((∃ error, call.result = .error error) ∨
      ∃ outcome, call.result = .ok outcome ∧ outcome.delay = .forever)

theorem Turn.not_ends {turn : Turn I} (other : ∀ call, turn.record ≠ [.invoke call])
    (chunk : I.Chunk) : ¬ turn.Ends chunk := fun ⟨call, h, _⟩ => other call h

/-- The script is the one of the most recently accepted upload and goes on: the upload asked for a
finite delay, and no periodic run since has ended it. -/
def Installed (turns : List (Turn I)) (script : Script I) : Prop :=
  ∃ before turn after delay, turns = before ++ turn :: after ∧
    turn.published? = some (script, delay) ∧ delay ≠ .forever ∧
    ∀ later ∈ after, later.published? = none ∧ ¬ later.Ends script.chunk

theorem not_installed_nil (script : Script I) : ¬ Installed [] script := by
  rintro ⟨before, turn, after, delay, heq, -⟩
  exact List.append_ne_nil_of_right_ne_nil before (List.cons_ne_nil turn after) heq.symm

/-- A script that is installed was published just now, or it was installed before and goes on. -/
theorem installed_concat {turns : List (Turn I)} {turn : Turn I} {script : Script I} :
    Installed (turns ++ [turn]) script ↔
      (∃ delay, turn.published? = some (script, delay) ∧ delay ≠ .forever) ∨
        turn.published? = none ∧ ¬ turn.Ends script.chunk ∧ Installed turns script := by
  constructor
  · rintro ⟨before, first, after, delay, heq, hpublished, hfinite, hafter⟩
    -- the last turn is the one that published the script, or it follows that one
    rcases List.eq_nil_or_concat after with rfl | ⟨front, last, rfl⟩
    · obtain ⟨-, hlast⟩ := List.append_inj' heq rfl
      cases hlast
      exact .inl ⟨delay, hpublished, hfinite⟩
    · rw [List.concat_eq_append, ← List.cons_append, ← List.append_assoc] at heq
      obtain ⟨rfl, hlast⟩ := List.append_inj' heq rfl
      cases hlast
      simp only [List.concat_eq_append, List.forall_mem_append, List.forall_mem_singleton] at hafter
      exact .inr ⟨hafter.2.1, hafter.2.2, before, first, front, delay, rfl, hpublished, hfinite,
        hafter.1⟩
  · rintro (⟨delay, hpublished, hfinite⟩ |
      ⟨hsilent, hgoes, before, first, after, delay, rfl, hpublished, hfinite, hafter⟩)
    · exact ⟨turns, turn, [], delay, rfl, hpublished, hfinite, nofun⟩
    · refine ⟨before, first, after ++ [turn], delay, by simp, hpublished, hfinite, ?_⟩
      rw [List.forall_mem_append, List.forall_mem_singleton]
      exact ⟨hafter, hsilent, hgoes⟩

/-! ### What the slot holds -/

/-- The slot holds the installed script, or nothing if none is installed. -/
def Slotted (turns : List (Turn I)) (e : Engine I) : Prop :=
  ∀ script, Installed turns script ↔ e.program.map (·.script) = some script

/-- What a successful run leaves in the slot is its script, unless it asks for no further run. -/
theorem Player.kept_script {script script' : Script I} {outcome : Outcome I.Memo} :
    (Player.kept script outcome).map (·.script) = some script' ↔
      script = script' ∧ outcome.delay ≠ .forever := by
  cases hdelay : outcome.delay with
  | forever => simp [Player.kept, hdelay, Delay.isForever]
  | millis ms => simp [Player.kept, hdelay, Delay.isForever]

namespace Slotted

variable {turns : List (Turn I)} {turn : Turn I} {e e' : Engine I}

/-- A turn that publishes nothing and ends nothing leaves the slot as it is. -/
theorem quiet (slotted : Slotted turns e) (silent : turn.published? = none)
    (goes : ∀ script, e'.program.map (·.script) = some script → ¬ turn.Ends script.chunk)
    (same : e'.program.map (·.script) = e.program.map (·.script)) :
    Slotted (turns ++ [turn]) e' := by
  intro script
  rw [installed_concat, silent, slotted script, ← same]
  constructor
  · rintro (⟨_, h, -⟩ | ⟨-, -, h⟩)
    · cases h
    · exact h
  · exact fun h => .inr ⟨rfl, goes script h, h⟩

/-- A turn that ends the script in the slot removes it. -/
theorem ended {program : Program I} (slotted : Slotted turns e) (silent : turn.published? = none)
    (found : e.program = some program) (ends : turn.Ends program.script.chunk)
    (removed : e'.program = none) : Slotted (turns ++ [turn]) e' := by
  intro script
  rw [installed_concat, silent, slotted script, found, removed]
  constructor
  · rintro (⟨_, h, -⟩ | ⟨-, hgoes, h⟩)
    · cases h
    · cases h
      exact absurd ends hgoes
  · nofun

/-- What a periodic run leaves in the slot is still installed. -/
theorem executed {p : Player I} {program : Program I} {outcome : Outcome I.Memo}
    (slotted : Slotted turns p.engine) (found : p.engine.program = some program)
    (record : turn.record = [.invoke ⟨program.script.chunk, p.scheduler.counter, program.memo,
      .ok outcome⟩])
    (left : e'.program = Player.kept program.script outcome) : Slotted (turns ++ [turn]) e' := by
  have silent : turn.published? = none := by rw [Turn.published?, record]
  by_cases hdelay : outcome.delay = .forever
  · refine slotted.ended silent found ⟨_, record, rfl, .inr ⟨outcome, rfl, hdelay⟩⟩ ?_
    rw [left, Player.kept, hdelay]
    rfl
  · -- the memo in the slot is another one, but the script is the same
    have hkept : (Player.kept program.script outcome).map (·.script) = some program.script :=
      Player.kept_script.mpr ⟨rfl, hdelay⟩
    refine slotted.quiet silent ?_ (by rw [left, hkept, found, Option.map_some])
    rintro script - ⟨call, hcall, -, hends⟩
    rw [record] at hcall
    cases hcall
    rcases hends with ⟨_, ⟨⟩⟩ | ⟨_, ⟨⟩, hforever⟩
    exact hdelay hforever

/-- An accepted upload takes the place of what was installed. -/
theorem accepted {script : Script I} {outcome : Outcome I.Memo}
    (published : turn.published? = some (script, outcome.delay))
    (left : e'.program = Player.kept script outcome) : Slotted (turns ++ [turn]) e' := by
  intro script'
  rw [installed_concat, published, left, Player.kept_script]
  constructor
  · rintro (⟨_, ⟨⟩, hfinite⟩ | ⟨h, -⟩)
    · exact ⟨rfl, hfinite⟩
    · cases h
  · rintro ⟨rfl, hfinite⟩
    exact .inl ⟨_, rfl, hfinite⟩

/-- An upload or a cycle keeps the slot in step with the turns. -/
theorem taken {p q : Player I} {s : Step I} (slotted : Slotted turns p.engine) (turn : Turn I)
    (taken : p.Taken s q) (record : turn.record = s.record) :
    Slotted (turns ++ [turn]) q.engine := by
  cases taken with
  | unfit | rejected | adopted | idle =>
    refine slotted.quiet (by rw [Turn.published?, record]) (fun script _ => ?_) rfl
    exact Turn.not_ends (by rw [record]; nofun) script.chunk
  | accepted compiled ran => exact accepted (by rw [Turn.published?, record]) rfl
  | lostUpload loses =>
    cases loses <;>
    · refine slotted.quiet (by rw [Turn.published?, record]) (fun script _ => ?_) rfl
      exact Turn.not_ends (by rw [record]; nofun) script.chunk
  | executed quiet found ran => exact slotted.executed found record rfl
  | failed quiet found ran =>
    have hends : turn.Ends _ := ⟨_, record, rfl, .inl ⟨_, rfl⟩⟩
    exact slotted.ended (by rw [Turn.published?, record]) found hends rfl
  | lostRun quiet found ran =>
    refine slotted.quiet (by rw [Turn.published?, record]) ?_ rfl
    rintro script - ⟨call, hcall, -, hends⟩
    rw [record] at hcall
    cases hcall
    rcases hends with ⟨_, ⟨⟩⟩ | ⟨_, ⟨⟩, -⟩

end Slotted

namespace Host

/-- A turn keeps the slot in step with the turns. -/
theorem Served.slotted {h k : Host I} {turns : List (Turn I)} {turn : Turn I}
    (served : h.Served turn k) (slotted : Slotted turns h.player.engine) :
    Slotted (turns ++ [turn]) k.player.engine := by
  cases served with
  | played taken | submitted _ _ _ taken | lost _ _ _ taken =>
    exact (slotted.taken ⟨_, _, _⟩ taken rfl :)
  | refused | overlong | buffered | unreadable | replied =>
    exact slotted.quiet rfl (fun script _ => Turn.not_ends (by nofun) script.chunk) rfl

/-- The slot holds the script that is installed after a run. -/
theorem installed_of_history (h : Host I) (empty : h.player.engine.program = none)
    (inputs : List Input) (script : Script I) :
    Installed (h.history inputs).1 script ↔
      (h.history inputs).2.player.engine.program.map (·.script) = some script := by
  refine h.history_induction (motive := fun turns k => Slotted turns k.player.engine) ?_
    (fun _ _ _ _ slotted served => served.slotted slotted) inputs script
  intro script
  rw [empty]
  exact iff_of_false (not_installed_nil script) nofun

end Host

/-! ### The empty script -/

/-- What the empty source text is compiled to never succeeds. -/
def Interpreter.RefusesEmpty (I : Interpreter) : Prop :=
  ∀ inUse state chunk, (I.compile inUse "" state).1 = .ok chunk →
    ∀ inUse counter memo state outcome, (I.execute inUse chunk counter memo state).1 ≠ .ok outcome

theorem Sandbox.interpreter_refusesEmpty : Sandbox.interpreter.RefusesEmpty := by
  intro inUse s chunk compiled inUse' counter memo s'
  obtain ⟨id, upvalues, rfl⟩ := compile_blank compiled
  exact s'.invoke_blank inUse' id upvalues counter memo

namespace Host

theorem Served.published_ne_empty {h k : Host I} {turn : Turn I} {script : Script I}
    {delay : Delay} (refuses : I.RefusesEmpty) (served : h.Served turn k)
    (published : turn.published? = some (script, delay)) : script.source ≠ "" := by
  have htaken {p q : Player I} {s : Step I} (taken : p.Taken s q)
      (record : turn.record = s.record) : script.source ≠ "" := by
    rw [Turn.published?, record] at published
    cases taken with
    | unfit | rejected | adopted | idle | executed | failed | lostRun => cases published
    | lostUpload loses => cases loses <;> cases published
    | accepted compiled ran =>
      cases published
      rintro ⟨⟩
      exact absurd (congrArg Prod.fst ran) (refuses _ _ _ (congrArg Prod.fst compiled) _ _ _ _ _)
  cases served with
  | played taken | submitted _ _ _ taken | lost _ _ _ taken => exact htaken taken rfl
  | refused | overlong | buffered | unreadable | replied => cases published

/-- No accepted script is empty. -/
theorem published_ne_empty (refuses : I.RefusesEmpty) (h : Host I) (inputs : List Input)
    {turn : Turn I} (met : turn ∈ (h.history inputs).1) {script : Script I} {delay : Delay}
    (published : turn.published? = some (script, delay)) : script.source ≠ "" := by
  refine h.history_induction (motive := fun turns _ => ∀ turn ∈ turns, ∀ script delay,
    turn.published? = some (script, delay) → script.source ≠ "") nofun ?_ inputs turn met _ _
    published
  intro turns k turn k' hturns served
  rw [List.forall_mem_append, List.forall_mem_singleton]
  exact ⟨hturns, fun _ _ => served.published_ne_empty refuses⟩

end Host

end PixelHost
