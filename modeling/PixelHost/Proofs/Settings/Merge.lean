import Mathlib
import PixelHost.Settings.Load

/-!
# The settings that are in force

Three layers give settings: the command line, a file and the built-in ones. The layers are merged
field by field. What is in force is the merge of all three, if it meets the conditions. The merge of
the two lower layers must meet them as well, so a file with a bad value for a field is refused even
if the command line gives that field another value.

## Main definitions

* `Settings.Supplies` — the values that a file gives.
* `Settings.Merged` — the merge of the layers, field by field.

## Main results

* `Settings.merged_override` — values put in one after the other are merged.
* `Settings.resolve_merged` — what is in force.
-/

namespace PixelHost

/-! ### Fields -/

/-- The fields of settings. -/
inductive Field where
  | pixelCount
  | memoryBudget
  | maxUpload
  | quantumMs
  | initialDelayMs
  | outboxDepth
  | maxClients
  | baud
  | examplesDir
  | bootstrap
  | instructionLimit
  deriving DecidableEq

/-- The field that a setting is for. -/
def Setting.field : Setting → Field
  | .pixelCount _ => .pixelCount
  | .memoryBudget _ => .memoryBudget
  | .maxUpload _ => .maxUpload
  | .quantumMs _ => .quantumMs
  | .initialDelayMs _ => .initialDelayMs
  | .outboxDepth _ => .outboxDepth
  | .maxClients _ => .maxClients
  | .baud _ => .baud
  | .examplesDir _ => .examplesDir
  | .bootstrap _ => .bootstrap
  | .instructionLimit _ => .instructionLimit

/-- The setting that a command line gives for a field. -/
def Overrides.at? (o : Overrides) : Field → Option Setting
  | .bootstrap => o.bootstrap.map .bootstrap
  | .maxClients => o.maxClients.map .maxClients
  | .examplesDir => o.examplesDir.map .examplesDir
  | .memoryBudget => o.memoryBudget.map .memoryBudget
  | _ => none

namespace Settings

/-- The setting of a field. Only the file that is run first can be missing. -/
def at? (s : Settings) : Field → Option Setting
  | .pixelCount => some (.pixelCount s.pixelCount)
  | .memoryBudget => some (.memoryBudget s.memoryBudget)
  | .maxUpload => some (.maxUpload s.maxUpload)
  | .quantumMs => some (.quantumMs s.quantumMs)
  | .initialDelayMs => some (.initialDelayMs s.initialDelayMs)
  | .outboxDepth => some (.outboxDepth s.outboxDepth)
  | .maxClients => some (.maxClients s.maxClients)
  | .baud => some (.baud s.baud)
  | .examplesDir => some (.examplesDir s.examplesDir)
  | .bootstrap => s.bootstrap.map .bootstrap
  | .instructionLimit => some (.instructionLimit s.instructionLimit)

/-- The setting for a field among some values. -/
def find? (values : List Setting) (f : Field) : Option Setting :=
  values.find? fun x => x.field = f

/-- The merge of what a command line gives, of some values and of the built-in settings. -/
def Merged (o : Overrides) (values : List Setting) (s : Settings) : Prop :=
  ∀ f, s.at? f = ((o.at? f).or (find? values f)).or (({} : Settings).at? f)

/-- The values that a file gives, the one that is named or the one at the usual place. No file gives
none. -/
inductive Supplies (files : FileTree) : Option String → Option String → List Setting → Prop
  | named {path usual text entries values} (read : files.readText path = .ok text)
      (parsed : Toml.parse? text = some entries) (typed : readEntries entries = .ok values) :
      Supplies files (some path) usual values
  | usual {path text entries values} (present : (files.resolve path).isOk = true)
      (read : files.readText path = .ok text) (parsed : Toml.parse? text = some entries)
      (typed : readEntries entries = .ok values) : Supplies files none (some path) values
  | missing {path} (absent : (files.resolve path).isOk = false) : Supplies files none (some path) []
  | nowhere : Supplies files none none []

/-- Two lists of values that have the same settings for all fields but one. -/
def AgreeBut (f : Field) (values values' : List Setting) : Prop :=
  ∀ x, x.field ≠ f → (x ∈ values ↔ x ∈ values')

/-- The values give no budget that is too small. -/
def Roomy (values : List Setting) : Prop := ∀ n, .memoryBudget n ∈ values → minMemoryBudget ≤ n

/-! ### Field by field -/

theorem ext_at {s t : Settings} (same : ∀ f, s.at? f = t.at? f) : s = t := by
  have hbootstrap : s.bootstrap = t.bootstrap := by
    have h := same .bootstrap
    simp only [at?] at h
    exact Option.map_injective (fun _ _ => Setting.bootstrap.inj) h
  have h₁ := same .pixelCount
  have h₂ := same .memoryBudget
  have h₃ := same .maxUpload
  have h₄ := same .quantumMs
  have h₅ := same .initialDelayMs
  have h₆ := same .outboxDepth
  have h₇ := same .maxClients
  have h₈ := same .baud
  have h₉ := same .examplesDir
  have h₁₀ := same .instructionLimit
  simp only [at?, Option.some.injEq, Setting.pixelCount.injEq, Setting.memoryBudget.injEq,
    Setting.maxUpload.injEq, Setting.quantumMs.injEq, Setting.initialDelayMs.injEq,
    Setting.outboxDepth.injEq, Setting.maxClients.injEq, Setting.baud.injEq,
    Setting.examplesDir.injEq, Setting.instructionLimit.injEq] at h₁ h₂ h₃ h₄ h₅ h₆ h₇ h₈ h₉ h₁₀
  obtain ⟨⟩ := s
  obtain ⟨⟩ := t
  simp_all only

/-- There is only one merge. -/
theorem Merged.unique {o : Overrides} {values : List Setting} {s t : Settings}
    (hs : Merged o values s) (ht : Merged o values t) : s = t :=
  ext_at fun f => (hs f).trans (ht f).symm

/-- A setting replaces the one of its field and leaves the others alone. -/
theorem at?_set (s : Settings) (x : Setting) (f : Field) :
    (s.set x).at? f = if x.field = f then some x else s.at? f := by
  cases x <;> cases f <;> rfl

/-- By induction on the values. There is only one for each field, so it makes no difference that the
last one would prevail. -/
theorem at?_foldl_set {values : List Setting} (distinct : (values.map Setting.field).Nodup)
    (s : Settings) (f : Field) : (values.foldl set s).at? f = (find? values f).or (s.at? f) := by
  induction values generalizing s with
  | nil => rfl
  | cons x rest ih =>
    rw [List.map_cons, List.nodup_cons] at distinct
    rw [List.foldl_cons, ih distinct.2, at?_set, find?, find?, List.find?_cons]
    by_cases hfield : x.field = f
    · have hrest : rest.find? (fun x => x.field = f) = none :=
        List.find?_eq_none.mpr fun y hy hyf =>
          distinct.1 (hfield ▸ of_decide_eq_true hyf ▸ List.mem_map_of_mem hy)
      simp only [hrest, hfield, if_true, decide_true, Option.none_or, Option.some_or]
    · simp only [hfield, if_false, decide_false]

theorem find?_overrides (o : Overrides) (f : Field) : find? o.values f = o.at? f := by
  obtain ⟨bootstrap, maxClients, examplesDir, memoryBudget⟩ := o
  cases bootstrap <;> cases maxClients <;> cases examplesDir <;> cases memoryBudget <;>
    cases f <;> rfl

theorem nodup_overrides (o : Overrides) : (o.values.map Setting.field).Nodup := by
  obtain ⟨bootstrap, maxClients, examplesDir, memoryBudget⟩ := o
  cases bootstrap <;> cases maxClients <;> cases examplesDir <;> cases memoryBudget <;>
    simp [Overrides.values, Setting.field]

theorem field_of_find? {values : List Setting} {x : Setting} {f : Field}
    (found : find? values f = some x) : x.field = f := by
  rw [find?] at found
  simpa using List.find?_some found

section

variable {values : List Setting} (distinct : (values.map Setting.field).Nodup)

include distinct

/-- The values of a file in the built-in settings, and those of a command line in these. -/
theorem merged_override (o : Overrides) : Merged o values ((ofList values).override o) := by
  intro f
  rw [override, at?_foldl_set (nodup_overrides o), find?_overrides, ofList, at?_foldl_set distinct,
    Option.or_assoc]

theorem merged_ofList : Merged {} values (ofList values) := merged_override distinct {}

/-- The setting for a field is the one in the list that is for it. -/
theorem find?_eq_some_iff {x : Setting} {f : Field} :
    find? values f = some x ↔ x ∈ values ∧ x.field = f := by
  constructor
  · intro h
    exact ⟨List.mem_of_find?_eq_some h, field_of_find? h⟩
  · rintro ⟨hx, hf⟩
    cases hfind : find? values f with
    | none => exact absurd (decide_eq_true hf) (List.find?_eq_none.mp hfind x hx)
    | some y =>
      have hy : y.field = f := field_of_find? hfind
      have hsame : y = x :=
        List.inj_on_of_nodup_map distinct (List.mem_of_find?_eq_some hfind) hx (hy.trans hf.symm)
      rw [hsame]

theorem find?_of_agreeBut {values' : List Setting} {f g : Field}
    (distinct' : (values'.map Setting.field).Nodup) (agree : AgreeBut f values values')
    (other : g ≠ f) : find? values g = find? values' g := by
  refine Option.ext fun x => ?_
  rw [find?_eq_some_iff distinct, find?_eq_some_iff distinct']
  exact and_congr_left fun hfield => agree x (hfield ▸ other)

end

/-! ### Conditions -/

theorem validated_eq_ok_iff {s t : Settings} :
    s.validated = .ok t ↔ s = t ∧ s.violation? = none := by
  rw [validated]
  cases s.violation? <;> simp

/-- A field whose value is not looked at can have any. -/
theorem violation?_set_of_override {o : Overrides} {x : Setting} {f : Field} (given : o.at? f = some x)
    (spare : f ≠ .memoryBudget) (s : Settings) : (s.set x).violation? = s.violation? := by
  cases f <;> simp only [Overrides.at?, Option.map_eq_some_iff, reduceCtorEq] at given spare
  all_goals first
    | exact absurd rfl spare
    | obtain ⟨a, -, rfl⟩ := given
      rfl

/-- Budgets that are large enough are all alike. -/
theorem violation?_set_memoryBudget {s : Settings} {n : Nat} (old : minMemoryBudget ≤ s.memoryBudget)
    (new : minMemoryBudget ≤ n) : (s.set (.memoryBudget n)).violation? = s.violation? := by
  simp only [violation?, set, Nat.not_lt.mpr old, Nat.not_lt.mpr new, if_false]

theorem minMemoryBudget_le_of_roomy {values : List Setting} (roomy : Roomy values)
    (distinct : (values.map Setting.field).Nodup) :
    minMemoryBudget ≤ (ofList values).memoryBudget := by
  have hat := merged_ofList distinct .memoryBudget
  cases hfind : find? values .memoryBudget with
  | none =>
    simp only [hfind, Overrides.at?, Option.map_none, Option.none_or, at?, Option.some.injEq,
      Setting.memoryBudget.injEq] at hat
    rw [hat]
    decide
  | some x =>
    simp only [hfind, Overrides.at?, Option.map_none, Option.none_or, Option.some_or, at?,
      Option.some.injEq] at hat
    exact roomy _ (hat ▸ ((find?_eq_some_iff distinct).mp hfind).1)

section

variable {files files' : FileTree} {named usual named' usual' : Option String}
  {values values' : List Setting} {o : Overrides}

/-! ### What is in force -/

theorem Supplies.loadAny_eq (supplies : Supplies files named usual values) :
    loadAny files named usual = .ok (ofList values) := by
  have hfrom {path text entries values} (read : files.readText path = .ok text)
      (parsed : Toml.parse? text = some entries) (typed : readEntries entries = .ok values) :
      loadFrom files path = .ok (ofList values) := by
    simp only [loadFrom, read, ofText, parsed, typed]
    rfl
  cases supplies with
  | named read parsed typed => exact hfrom read parsed typed
  | usual present read parsed typed =>
    rw [loadAny, present, if_pos rfl]
    exact hfrom read parsed typed
  | missing absent =>
    rw [loadAny, absent]
    rfl
  | nowhere => rfl

theorem Supplies.resolve_eq (supplies : Supplies files named usual values) (o : Overrides) :
    resolve files named usual o =
      (ofList values).validated.bind fun s => (s.override o).validated := by
  rw [resolve, load, supplies.loadAny_eq]
  rfl

/-- Values that differ only in a field that the command line gives make no difference. -/
private theorem resolve_of_agreeBut (supplies : Supplies files named usual values)
    (supplies' : Supplies files' named' usual' values')
    (distinct : (values.map Setting.field).Nodup) (distinct' : (values'.map Setting.field).Nodup)
    {f : Field} {x : Setting} (given : o.at? f = some x) (agree : AgreeBut f values values')
    (roomy : f = .memoryBudget → Roomy values ∧ Roomy values') :
    resolve files named usual o = resolve files' named' usual' o := by
  have hmerge : (ofList values).override o = (ofList values').override o := by
    refine ext_at fun g => ?_
    rw [merged_override distinct, merged_override distinct']
    by_cases hg : g = f
    · simp only [hg, given, Option.some_or]
    · rw [find?_of_agreeBut distinct distinct' agree hg]
  have hset {y : Setting} (hy : y.field = f) : (ofList values).set y = (ofList values').set y := by
    refine ext_at fun g => ?_
    rw [at?_set, at?_set]
    by_cases hg : g = f
    · rw [if_pos (hy.trans hg.symm), if_pos (hy.trans hg.symm)]
    · rw [merged_ofList distinct, merged_ofList distinct',
        find?_of_agreeBut distinct distinct' agree hg]
  have hverdict : (ofList values).violation? = (ofList values').violation? := by
    by_cases hf : f = .memoryBudget
    · obtain ⟨hroomy, hroomy'⟩ := roomy hf
      rw [← violation?_set_memoryBudget (minMemoryBudget_le_of_roomy hroomy distinct)
          (Nat.le_refl minMemoryBudget),
        ← violation?_set_memoryBudget (minMemoryBudget_le_of_roomy hroomy' distinct')
          (Nat.le_refl minMemoryBudget), hset (y := .memoryBudget minMemoryBudget) hf.symm]
    · have hx : x.field = f := by
        rw [← find?_overrides] at given
        exact field_of_find? given
      rw [← violation?_set_of_override given hf (ofList values),
        ← violation?_set_of_override given hf (ofList values'), hset hx]
  rw [supplies.resolve_eq, supplies'.resolve_eq, validated, validated, hverdict]
  cases (ofList values').violation? with
  | some violation => rfl
  | none => exact congrArg validated hmerge

/-- Whatever values a file gives, in any order and one for a field, and whatever a command line gives:
settings are in force if and only if they are the merge of the command line, the file and the built-in
ones and meet the conditions, and so does the merge of the file and the built-in ones. Each of the two
merges exists and is the only one. Two files that differ only in a field that the command line gives
lead to the same result, unless it is the budget and one of them has it too small. -/
theorem resolve_merged (supplies : Supplies files named usual values)
    (distinct : (values.map Setting.field).Nodup) (o : Overrides) :
    (∃! s, Merged o values s) ∧
    (∀ s, resolve files named usual o = .ok s ↔ Merged o values s ∧ s.violation? = none ∧
      ∃ t, Merged {} values t ∧ t.violation? = none) ∧
    ∀ files' named' usual' values' f, Supplies files' named' usual' values' →
      (values'.map Setting.field).Nodup → (o.at? f).isSome → AgreeBut f values values' →
      (f = .memoryBudget → Roomy values ∧ Roomy values') →
      resolve files named usual o = resolve files' named' usual' o := by
  have hfile := merged_ofList distinct
  have hall := merged_override distinct o
  refine ⟨⟨_, hall, fun s hs => hs.unique hall⟩, fun s => ?_, ?_⟩
  · rw [supplies.resolve_eq]
    constructor
    · intro h
      cases hvalid : (ofList values).violation? with
      | some violation =>
        rw [validated, hvalid] at h
        cases h
      | none =>
        rw [validated_eq_ok_iff.mpr ⟨rfl, hvalid⟩] at h
        obtain ⟨rfl, hs⟩ := validated_eq_ok_iff.mp h
        exact ⟨hall, hs, _, hfile, hvalid⟩
    · rintro ⟨hmerged, hs, t, ht, hvalid⟩
      rw [ht.unique hfile] at hvalid
      rw [hmerged.unique hall] at hs ⊢
      rw [validated_eq_ok_iff.mpr ⟨rfl, hvalid⟩]
      exact validated_eq_ok_iff.mpr ⟨rfl, hs⟩
  · intro files' named' usual' values' f supplies' distinct' given agree roomy
    obtain ⟨x, hx⟩ := Option.isSome_iff_exists.mp given
    exact resolve_of_agreeBut supplies supplies' distinct distinct' hx agree roomy

end

/-! ### A budget that is too small -/

/-- The bytes of `memory_budget = 10` and the end of the line. -/
def smallBudgetText : Bytes := ⟨#[
    0x6d, 0x65, 0x6d, 0x6f, 0x72, 0x79, 0x5f, 0x62, 0x75, 0x64, 0x67, 0x65, 0x74, 0x20,
    0x3d, 0x20, 0x31, 0x30, 0x0a]⟩

/-- A file that gives a budget of ten bytes. -/
def smallBudgetFile : FileTree := { nodes := [(["c"], .file smallBudgetText)] }

/-- A name leads to the file of a directory with one file. -/
private theorem resolve_single (bytes : Bytes) :
    ({ nodes := [(["c"], .file bytes)] } : FileTree).resolve "c" = .ok (["c"], .file bytes) := by
  have hrelative : "c".startsWith "/" = false := by decide +kernel
  have hnonempty : "c".isEmpty = false := by decide
  have hnames : FileTree.names "c" = ["c"] := by
    rw [FileTree.names, String.splitOn, String.splitOnAux, String.splitOnAux]
    decide +kernel
  rw [FileTree.resolve, hrelative, hnames, hnonempty]
  rfl

theorem supplies_smallBudgetFile :
    Supplies smallBudgetFile (some "c") none [.memoryBudget 10] := by
  have hread : smallBudgetFile.readText "c" = .ok "memory_budget = 10\n" := by
    rw [FileTree.readText, FileTree.read, smallBudgetFile, resolve_single]
    decide +kernel
  have hparsed : Toml.parse? "memory_budget = 10\n" =
      some [(⟨"memory_budget", ⟨0, 13⟩⟩, .scalar (.integer 10) ⟨16, 18⟩)] := by cbv
  exact .named hread hparsed (by cbv)

/-- The merge meets the conditions, and yet it is not in force, for the file by itself does not. -/
theorem valid_merge_refused :
    let o : Overrides := { memoryBudget := some 131072 }
    let s : Settings := { memoryBudget := 131072 }
    Supplies smallBudgetFile (some "c") none [.memoryBudget 10] ∧
      Merged o [.memoryBudget 10] s ∧ s.violation? = none ∧
      resolve smallBudgetFile (some "c") none o = .error (.invalid (.smallBudget 10)) := by
  refine ⟨supplies_smallBudgetFile, fun f => ?_, by decide, ?_⟩
  · cases f <;> rfl
  · rw [supplies_smallBudgetFile.resolve_eq]
    rfl

/-! ### Several values -/

/-- The bytes of `max_clients = 3`, `pixel_count = 8` and `examples_dir = "a"`, each on a line. -/
def severalText : Bytes := ⟨#[
    0x6d, 0x61, 0x78, 0x5f, 0x63, 0x6c, 0x69, 0x65, 0x6e, 0x74, 0x73, 0x20, 0x3d, 0x20,
    0x33, 0x0a, 0x70, 0x69, 0x78, 0x65, 0x6c, 0x5f, 0x63, 0x6f, 0x75, 0x6e, 0x74, 0x20,
    0x3d, 0x20, 0x38, 0x0a, 0x65, 0x78, 0x61, 0x6d, 0x70, 0x6c, 0x65, 0x73, 0x5f, 0x64,
    0x69, 0x72, 0x20, 0x3d, 0x20, 0x22, 0x61, 0x22, 0x0a]⟩

/-- A file that gives three values. -/
def severalFile : FileTree := { nodes := [(["c"], .file severalText)] }

theorem supplies_severalFile : Supplies severalFile (some "c") none
    [.maxClients 3, .pixelCount 8, .examplesDir "a"] := by
  have hread : severalFile.readText "c" =
      .ok "max_clients = 3\npixel_count = 8\nexamples_dir = \"a\"\n" := by
    rw [FileTree.readText, FileTree.read, severalFile, resolve_single]
    decide +kernel
  have hparsed : Toml.parse? "max_clients = 3\npixel_count = 8\nexamples_dir = \"a\"\n" =
      some [(⟨"max_clients", ⟨0, 11⟩⟩, .scalar (.integer 3) ⟨14, 15⟩),
        (⟨"pixel_count", ⟨16, 27⟩⟩, .scalar (.integer 8) ⟨30, 31⟩),
        (⟨"examples_dir", ⟨32, 44⟩⟩, .scalar (.string "a") ⟨47, 50⟩)] := by cbv
  exact .named hread hparsed (by cbv)

/-- A command line gives a value that the file gives too, and another one. -/
theorem resolve_severalFile :
    let o : Overrides := { maxClients := some 5, memoryBudget := some 131072 }
    resolve severalFile (some "c") none o = .ok
      { pixelCount := 8, maxClients := 5, examplesDir := "a", memoryBudget := 131072 } := by
  intro o
  let values : List Setting := [.maxClients 3, .pixelCount 8, .examplesDir "a"]
  have hdistinct : (values.map Setting.field).Nodup := by decide
  obtain ⟨-, hresolve, -⟩ := resolve_merged supplies_severalFile hdistinct o
  refine (hresolve _).mpr ⟨fun f => ?_, by decide, _, merged_ofList hdistinct, by decide⟩
  cases f <;> rfl

end Settings

end PixelHost
