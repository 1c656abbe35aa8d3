import Mathlib
import PixelHost.Proofs.Lua.Ends
import PixelHost.Proofs.Sandbox.Programs

/-!
# What a client is told of a failure

The layers that a failure gets on its way change neither the text that a client is told nor whether it
is told that there is not enough memory. Whatever goes wrong when a source text is loaded, it is the
text that is at fault or the memory. It is never told as a failure of a run.

## Main definitions

* `Failure.Layer`, `Failure.under`, `Failure.IsRoot` — a failure as a cause and layers around it.
* `Lua.Run.LacksOnlyMemory` — a computation that may stop for lack of memory, but not otherwise.
* `Sandbox.loading` — what comes of loading a source text.

## Main results

* `Failure.afterChunkName_append`, `Failure.afterChunkName_of_not_infix` — the name of a chunk.
* `Sandbox.loading_cases` — why a source text is not loaded.
* `Sandbox.compile_ne_lost` — a source text is loaded or it is not, in any case.
* `Sandbox.told_by_root` — what a client is told of a failure.
-/

namespace PixelHost

namespace Failure

/-! ### Causes and layers -/

/-- What a failure may pass through. -/
inductive Layer where
  | callback | context
  deriving DecidableEq, Repr

/-- The failure with a layer around it. -/
def Layer.wrap : Layer → Failure → Failure
  | .callback => inCallback
  | .context => inContext

/-- The failure with layers around it, the outermost one first. -/
def under (root : Failure) (layers : List Layer) : Failure := layers.foldr Layer.wrap root

/-- The failure has no layers. -/
inductive IsRoot : Failure → Prop
  | syntaxError (message : String) : IsRoot (.syntaxError message)
  | runtime (message : String) : IsRoot (.runtime message)
  | memory (message : String) : IsRoot (.memory message)
  | other (text : String) : IsRoot (.other text)

/-- The cause is what is left without the layers. -/
theorem IsRoot.root_under {root : Failure} (h : root.IsRoot) (layers : List Layer) :
    (root.under layers).root = root := by
  induction layers with
  | nil => cases h <;> rfl
  | cons layer layers ih => cases layer <;> exact ih

section

variable {failure : Failure}

theorem isMemory_iff : failure.isMemory = true ↔ ∃ text, failure.root = .memory text := by
  induction failure with
  | inCallback cause ih => exact ih
  | inContext cause ih => exact ih
  | _ => simp [isMemory, root]

theorem message_root : failure.root.message = failure.message := by
  induction failure with
  | inCallback cause ih => exact ih
  | inContext cause ih => exact ih
  | _ => rfl

theorem not_isMemory (h : ∀ text, failure.root ≠ .memory text) : ¬ failure.isMemory = true := by
  rw [isMemory_iff]
  exact not_exists.mpr h

end

/-! ### The name of a chunk -/

/-- What ends the name of a chunk. -/
def chunkNameEnd : List Char := [']', ':']

theorem afterChunkName_cons {c : Char} {text : List Char} (h : ¬ chunkNameEnd <+: c :: text) :
    afterChunkName (c :: text) = afterChunkName text := by
  rw [afterChunkName]
  rintro rest hc rfl
  exact h ⟨rest, by rw [hc]; rfl⟩

/-- The name ends where its end stands for the first time. -/
theorem afterChunkName_append {name : List Char} (h : ¬ chunkNameEnd <:+: name)
    (rest : List Char) : afterChunkName (name ++ chunkNameEnd ++ rest) = some rest := by
  induction name with
  | nil => rfl
  | cons c name ih =>
    rw [List.infix_cons_iff, not_or] at h
    refine (afterChunkName_cons fun hprefix => ?_).trans (ih h.2)
    -- an end that is not within the name would start with its last character and then `]`
    obtain ⟨hc, hrest⟩ := List.cons_prefix_cons.mp hprefix
    cases name with
    | nil => cases (List.cons_prefix_cons.mp hrest).1
    | cons d name =>
      obtain ⟨hd, -⟩ := List.cons_prefix_cons.mp hrest
      exact h.1 ⟨name, by rw [← hc, ← hd]; rfl⟩

theorem afterChunkName_of_not_infix {text : List Char} (h : ¬ chunkNameEnd <:+: text) :
    afterChunkName text = none := by
  induction text with
  | nil => rfl
  | cons c text ih =>
    rw [List.infix_cons_iff, not_or] at h
    rw [afterChunkName_cons h.1, ih h.2]

end Failure

/-! ### The kind of an error -/

namespace ScriptError

variable {failure : Failure}

theorem ofFailure_memory {text : String} (h : failure.root = .memory text) :
    ofFailure failure = .resourceExceeded ("memory limit exceeded: " ++ text) := by
  have hmessage : failure.message = text := by rw [← Failure.message_root, h, Failure.message]
  rw [← hmessage]
  exact if_pos (Failure.isMemory_iff.mpr ⟨text, h⟩)

theorem ofFailure_other (h : ∀ text, failure.root ≠ .memory text) :
    ofFailure failure = .compile failure.root.message ∨
      ofFailure failure = .runtime failure.root.message := by
  unfold ofFailure
  rw [if_neg (Failure.not_isMemory h), Failure.message_root]
  split
  · exact .inl rfl
  · exact .inr rfl

/-- Only the lack of memory is told as such. -/
theorem ofFailure_eq_resourceExceeded_iff :
    (∃ text, ofFailure failure = .resourceExceeded text) ↔ ∃ text, failure.root = .memory text := by
  constructor
  · rintro ⟨text, hexceeded⟩
    by_contra hnot
    rcases ofFailure_other (not_exists.mp hnot) with hother | hother <;>
      cases hother.symm.trans hexceeded
  · rintro ⟨text, h⟩
    exact ⟨_, ofFailure_memory h⟩

theorem message_ofFailure (h : ∀ text, failure.root ≠ .memory text) :
    (ofFailure failure).message = failure.root.message := by
  rcases ofFailure_other h with hother | hother <;> rw [hother, message]

/-- A syntax error without layers is told as one. -/
theorem ofFailure_syntaxError (text : String) :
    ofFailure (.syntaxError text) = .compile (Failure.syntaxError text).message :=
  rfl

theorem ofLoading_memory {text : String} (h : failure.root = .memory text) :
    ofLoading failure = .resourceExceeded ("memory limit exceeded: " ++ text) := by
  unfold ofLoading
  rw [ofFailure_memory h]

theorem ofLoading_other (h : ∀ text, failure.root ≠ .memory text) :
    ofLoading failure = .compile failure.root.message := by
  unfold ofLoading
  rcases ofFailure_other h with hother | hother <;> rw [hother]

/-- A failure to load is not told as one of a run. -/
theorem ofLoading_ne_runtime (text : String) : ofLoading failure ≠ .runtime text := by
  by_cases h : ∃ text, failure.root = .memory text
  · obtain ⟨_, h⟩ := h
    rw [ofLoading_memory h]
    exact nofun
  · rw [ofLoading_other (not_exists.mp h)]
    exact nofun

end ScriptError

/-! ### Computations that stop for lack of memory only -/

namespace Lua.Run

/-- The computation stops for lack of memory, if it stops. -/
def LacksOnlyMemory {α : Type} (x : Run α) : Prop :=
  ∀ m, Ends (fun _ _ => True) (fun fault _ => fault = .memory) x m

namespace LacksOnlyMemory

variable {α β : Type} {x : Run α} {f : α → Run β}

theorem pure (a : α) : LacksOnlyMemory (Pure.pure a) := fun _ => trivial

theorem get : LacksOnlyMemory (MonadState.get : Run Machine) := fun _ => trivial

theorem modify (f : Machine → Machine) : LacksOnlyMemory (modify f) := fun _ => trivial

theorem memory : LacksOnlyMemory (throw Fault.memory : Run α) := fun _ => rfl

theorem bind (hx : LacksOnlyMemory x) (hf : ∀ a, LacksOnlyMemory (f a)) :
    LacksOnlyMemory (x >>= f) := fun m => (hx m).bind fun a m' _ => hf a m'

theorem forIn (xs : List α) (b : β) {f : α → β → Run (ForInStep β)}
    (hf : ∀ a b, LacksOnlyMemory (f a b)) : LacksOnlyMemory (ForIn.forIn xs b f) := by
  induction xs generalizing b with
  | nil => exact pure b
  | cons a xs ih =>
    rw [List.forIn_cons]
    refine (hf a b).bind fun step => ?_
    cases step with
    | done b => exact pure b
    | yield b => exact ih b

end LacksOnlyMemory

open LacksOnlyMemory

theorem charge_lacks (n : Nat) : LacksOnlyMemory (charge n) := .modify _

theorem newTable_lacks (t : Table) : LacksOnlyMemory (newTable t) :=
  .bind (charge_lacks _) fun _ => .bind .get fun _ => .bind (.modify _) fun _ => .pure _

theorem modifyTable_lacks (r : TableRef) (f : Table → Table) :
    LacksOnlyMemory (modifyTable r f) := by
  refine .bind .get fun _ => .bind (.modify _) fun _ => .bind .get fun _ => ?_
  dsimp only
  split
  · exact charge_lacks _
  · exact .pure _

theorem loadChunk_lacks (p : Prototype) (environment : Value) :
    LacksOnlyMemory (loadChunk p environment) := by
  refine .bind (charge_lacks _) fun _ => .bind ?_ fun cell => .bind ?_ fun id => .pure _
  · exact .bind (charge_lacks _) fun _ => .bind .get fun _ => .bind (.modify _) fun _ => .pure _
  · exact .bind .get fun _ => .bind (.modify _) fun _ => .pure _

theorem checkMemory_lacks : LacksOnlyMemory checkMemory := by
  refine .bind .get fun m => ?_
  split
  · refine .bind (.modify _) fun _ => .bind .get fun m => ?_
    split
    · exact .memory
    · exact .pure _
  · exact .pure _

end Lua.Run

/-! ### Loading -/

namespace Sandbox

open Lua Lua.Run

theorem copyTable_lacks (r : TableRef) : LacksOnlyMemory (copyTable r) := by
  refine .bind (newTable_lacks _) fun copy => .bind .get fun _ => .bind ?_ fun _ => .pure _
  exact .forIn _ _ fun _ _ => .bind (modifyTable_lacks _ _) fun _ => .pure _

theorem newEnvironment_lacks : LacksOnlyMemory newEnvironment := by
  refine .bind .get fun m => .bind (newTable_lacks _) fun env =>
    .bind (modifyTable_lacks _ _) fun _ => .bind ?_ fun _ =>
    .bind (newTable_lacks _) fun metatable => .bind (modifyTable_lacks _ _) fun _ =>
    .bind (modifyTable_lacks _ _) fun _ => .bind (modifyTable_lacks _ _) fun _ => .pure _
  refine .forIn _ _ fun name _ => .bind .get fun m => ?_
  split
  · exact .bind (copyTable_lacks _) fun copy => .bind (modifyTable_lacks _ _) fun _ => .pure _
  · exact .pure _

/-- A source text is loaded if it is a program, unless there is not enough memory. -/
theorem load_ends (inUse : InUse Value Value) (source : String) (m : Machine) :
    Ends
      (fun loaded _ => match Chunk.compile source.toUTF8 "upload".toUTF8 with
        | .error e => loaded = .error (loadFailure e)
        | .ok _ => ∃ f, loaded = .ok f)
      (fun fault _ => fault = .memory) (load inUse source) m := by
  rw [Ends, load_eq, ← Ends]
  refine .bind (newEnvironment_lacks _) fun env m _ => ?_
  cases Chunk.compile source.toUTF8 "upload".toUTF8 with
  | error e => exact rfl
  | ok p =>
    refine .bind (loadChunk_lacks p _ _) fun f m _ =>
      .bind (LacksOnlyMemory.modify _ _) fun _ m _ => .bind (checkMemory_lacks _) fun _ m _ => ?_
    exact ⟨f, rfl⟩

/-- What comes of loading a source text: a program or a failure. -/
def loading (s : Sandbox) (inUse : InUse Value Value) (source : String) : Ending Failure Value :=
  match (s.runOn (load inUse source)).1 with
  | .ok loaded => .ofExcept loaded
  | .error failure => .error failure
  | .lost => .lost

section

variable (s : Sandbox) (inUse : InUse Value Value) (source : String)

theorem compile_fst : (s.compile inUse source).1 = match s.loading inUse source with
    | .ok f => .ok f
    | .error failure => .error (ScriptError.ofLoading failure)
    | .lost => .lost := by
  unfold compile loading
  obtain ⟨loaded, _⟩ := s.runOn (load inUse source)
  rcases loaded with (_ | _) | _ | _ <;> rfl

/-- Loading fails for lack of memory, or because the source text is no program. -/
theorem loading_cases :
    s.loading inUse source = .error (.memory "not enough memory") ∨
      (∃ e, Chunk.compile source.toUTF8 "upload".toUTF8 = .error e ∧
        s.loading inUse source = .error (loadFailure e)) ∨
      ∃ p f, Chunk.compile source.toUTF8 "upload".toUTF8 = .ok p ∧
        s.loading inUse source = .ok f := by
  have hload := load_ends inUse source s.machine
  unfold loading runOn
  unfold Ends at hload
  cases hrun : load inUse source s.machine with
  | ok loaded m =>
    rw [hrun] at hload
    dsimp only at hload ⊢
    split at hload
    · next e he => exact .inr (.inl ⟨e, he, congrArg Ending.ofExcept hload⟩)
    · next p hp =>
      obtain ⟨f, hf⟩ := hload
      exact .inr (.inr ⟨p, f, hp, congrArg Ending.ofExcept hf⟩)
  | error fault m =>
    rw [hrun] at hload
    obtain rfl : fault = .memory := hload
    exact .inl rfl

/-- Loading a source text always comes to an end. -/
theorem compile_ne_lost : (s.compile inUse source).1 ≠ .lost := by
  rw [compile_fst]
  rcases s.loading_cases inUse source with h | ⟨e, -, h⟩ | ⟨p, f, -, h⟩ <;>
    rw [h] <;> exact nofun

end

/-- What a client is told of a failure depends on its cause: the lack of memory is told as such, and
the text is that of the cause, whatever the layers are. A syntax error without layers is told
without the name of its chunk, if it has one. A source text that is not loaded is told to be no
program, or that there is not enough memory. -/
theorem told_by_root :
    (∀ (root : Failure) (layers : List Failure.Layer), root.IsRoot →
      let told := ScriptError.ofFailure (root.under layers)
      ((∃ text, told = .resourceExceeded text) ↔ ∃ text, root = .memory text) ∧
        (∀ text, root = .memory text →
          told = .resourceExceeded ("memory limit exceeded: " ++ text)) ∧
        ((∀ text, root ≠ .memory text) → told.message = root.message)) ∧
    (∀ name rest : List Char, ¬ Failure.chunkNameEnd <:+: name →
      ScriptError.ofFailure (.syntaxError (String.ofList (name ++ Failure.chunkNameEnd ++ rest))) =
        .compile (String.ofList rest)) ∧
    (∀ message : String, ¬ Failure.chunkNameEnd <:+: message.toList →
      ScriptError.ofFailure (.syntaxError message) = .compile message) ∧
    ∀ (s : Sandbox) (inUse : InUse Value Value) (source : String),
      (∀ e, Chunk.compile source.toUTF8 "upload".toUTF8 = .error e →
        ∃ failure, s.loading inUse source = .error failure) ∧
      (∀ f, s.loading inUse source = .ok f → (s.compile inUse source).1 = .ok f) ∧
      (∀ failure, s.loading inUse source = .error failure →
        (∀ text, failure.root = .memory text →
          (s.compile inUse source).1 =
            .error (.resourceExceeded ("memory limit exceeded: " ++ text))) ∧
        ((∀ text, failure.root ≠ .memory text) →
          (s.compile inUse source).1 = .error (.compile failure.root.message))) ∧
      ∀ text, (s.compile inUse source).1 ≠ .error (.runtime text) := by
  refine ⟨fun root layers hroot => ?_, fun name rest hname => ?_, fun message hmessage => ?_,
    fun s inUse source => ⟨fun e hnone => ?_, fun f hloads => ?_,
      fun failure hfails => ⟨fun text hmemory => ?_, fun hother => ?_⟩, fun text => ?_⟩⟩
  · have hunder := hroot.root_under layers
    refine ⟨?_, fun text hmemory => ?_, fun hother => ?_⟩
    · rw [ScriptError.ofFailure_eq_resourceExceeded_iff, hunder]
    · exact ScriptError.ofFailure_memory (hunder.trans hmemory)
    · rw [ScriptError.message_ofFailure (hunder.symm ▸ hother), hunder]
  · rw [ScriptError.ofFailure_syntaxError, Failure.message, String.toList_ofList,
      Failure.afterChunkName_append hname]
  · rw [ScriptError.ofFailure_syntaxError, Failure.message,
      Failure.afterChunkName_of_not_infix hmessage]
  · rcases s.loading_cases inUse source with hmemory | ⟨e', -, hfails⟩ | ⟨p, f, hp, -⟩
    · exact ⟨_, hmemory⟩
    · exact ⟨_, hfails⟩
    · cases hnone.symm.trans hp
  · rw [compile_fst, hloads]
  · rw [compile_fst, hfails]
    exact congrArg Ending.error (ScriptError.ofLoading_memory hmemory)
  · rw [compile_fst, hfails]
    exact congrArg Ending.error (ScriptError.ofLoading_other hother)
  · rw [compile_fst]
    cases s.loading inUse source with
    | ok f => exact nofun
    | error failure => exact fun h => ScriptError.ofLoading_ne_runtime text (Ending.error.inj h)
    | lost => exact nofun

end Sandbox

end PixelHost
