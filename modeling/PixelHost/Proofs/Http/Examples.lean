import Mathlib.Data.String.Basic
import PixelHost.Proofs.Http.Lines
import PixelHost.Proofs.Http.Routing
import PixelHost.Proofs.Text.ByteOrder
import PixelHost.Sandbox.Basic

/-!
# The list of examples can be read back

The names of the scripts in a directory are sent as the lines of a body. A reader that cuts the body
at its line feeds gets the names back, each one once and in the order of their bytes, if no name has a
line feed in it. A file system allows such names, and one of them is read back as several. In
which order the directory is read makes no difference in any case.

## Main definitions

* `FileTree.Entry.IsScript` — an entry of a directory is a script.
* `FileTree.Directory` — what a directory holds.
* `Http.Response.listed` — the lines of a body.
* `Http.Response.Tells` — the lines of an answer are the names of the scripts in a directory.

## Main results

* `Http.exampleNames_sorted`, `Http.exampleNames_perm` — the names are in order, and this is the same
  one for every order of the directory.
* `Http.tells_iff` — which directories can be read back from the list of their scripts.
* `Http.lineFeed_misread` — a name that is read back as two.
* `Http.examples_told` — the answer to a request for the list.
-/

namespace PixelHost

variable {I : Interpreter}

/-! ### Directories -/

namespace FileTree

/-- The entry is a script: a regular file whose name is a text that ends in `.lua`. -/
def Entry.IsScript (e : Entry) : Prop :=
  e.isFile = true ∧ ∃ name : String, e.name = name.toUTF8 ∧ ".lua".toList <:+ name.toList

/-- What a directory holds, in the order in which it is read. No two entries have the same name. -/
structure Directory where
  entries : List Entry
  distinct : (entries.map Entry.name).Nodup

end FileTree

namespace Http

open FileTree

/-! ### Names of scripts -/

theorem decode?_eq_some_iff {bytes : Bytes} {s : String} :
    Utf8.decode? bytes = some s ↔ bytes = s.toUTF8 := by
  constructor
  · intro h
    rw [Utf8.decode?, String.fromUTF8?] at h
    split at h
    · cases h
      rfl
    · cases h
  · rintro rfl
    exact decode?_toUTF8 s

theorem toUTF8_injective : Function.Injective String.toUTF8 := by
  intro s t h
  rw [String.toUTF8_eq_toByteArray, String.toUTF8_eq_toByteArray] at h
  exact String.toByteArray_inj.mp h

theorem endsWith_iff {s ending : String} : s.endsWith ending = true ↔ ending.toList <:+ s.toList := by
  rw [← String.endsWith_toSlice, String.Slice.endsWith_string_iff, String.copy_toSlice]

/-- The name that is listed for an entry. -/
theorem exampleName?_eq_some_iff {e : Entry} {name : String} :
    exampleName? e = some name ↔ e.IsScript ∧ e.name = name.toUTF8 := by
  rw [exampleName?]
  constructor
  · intro h
    split at h
    · next hfile =>
      split at h
      · next text hdecode =>
        split at h
        · next hends =>
          cases h
          have hname : e.name = name.toUTF8 := decode?_eq_some_iff.mp hdecode
          exact ⟨⟨hfile, name, hname, endsWith_iff.mp hends⟩, hname⟩
        · cases h
      · cases h
    · cases h
  · rintro ⟨⟨hfile, text, htext, hends⟩, hname⟩
    obtain rfl : text = name := toUTF8_injective (htext.symm.trans hname)
    rw [if_pos hfile, decode?_eq_some_iff.mpr hname]
    exact if_pos (endsWith_iff.mpr hends)

section

variable {entries order : List Entry} {name : String}

theorem mem_exampleNames_iff :
    name ∈ exampleNames entries ↔ ∃ e ∈ entries, e.IsScript ∧ e.name = name.toUTF8 := by
  simp only [exampleNames, List.mem_mergeSort, List.mem_filterMap, exampleName?_eq_some_iff]

theorem ne_nil_of_mem_exampleNames (h : name ∈ exampleNames entries) : name.toList ≠ [] := by
  obtain ⟨e, -, ⟨-, text, htext, hends⟩, hname⟩ := mem_exampleNames_iff.mp h
  obtain rfl : text = name := toUTF8_injective (htext.symm.trans hname)
  intro hnil
  rw [hnil] at hends
  exact absurd (List.suffix_nil.mp hends) (by decide)

theorem exampleNames_le (entries : List Entry) : (exampleNames entries).Pairwise (· ≤ ·) := by
  have htrans (a b c : String) (hab : decide (a ≤ b) = true) (hbc : decide (b ≤ c) = true) :
      decide (a ≤ c) = true := by
    rw [decide_eq_true_iff] at hab hbc ⊢
    exact hab.trans hbc
  have htotal (a b : String) : (decide (a ≤ b) || decide (b ≤ a)) = true := by
    rw [Bool.or_eq_true, decide_eq_true_iff, decide_eq_true_iff]
    exact le_total a b
  exact (List.pairwise_mergeSort htrans htotal _).imp fun h => of_decide_eq_true h

/-- The order in which a directory is read makes no difference. -/
theorem exampleNames_perm (h : order.Perm entries) : exampleNames order = exampleNames entries := by
  have hnames : (exampleNames order).Perm (exampleNames entries) :=
    (List.mergeSort_perm _ _).trans ((h.filterMap exampleName?).trans (List.mergeSort_perm _ _).symm)
  exact hnames.eq_of_pairwise (fun a b _ _ => le_antisymm) (exampleNames_le order)
    (exampleNames_le entries)

end

/-- The names of the scripts in a directory are in order, and each one is there once. -/
theorem exampleNames_sorted (d : Directory) : (exampleNames d.entries).Pairwise (· < ·) := by
  have hentries : d.entries.Pairwise fun e e' => e.name ≠ e'.name := List.pairwise_map.mp d.distinct
  have hnames : (d.entries.filterMap exampleName?).Nodup := by
    rw [List.Nodup, List.pairwise_filterMap]
    refine hentries.imp fun hne name hname name' hname' hsame => hne ?_
    rw [(exampleName?_eq_some_iff.mp hname).2, (exampleName?_eq_some_iff.mp hname').2, hsame]
  have hnodup : (exampleNames d.entries).Nodup := (List.mergeSort_perm _ _).nodup_iff.mpr hnames
  exact (exampleNames_le d.entries).imp₂ (fun a b hle hne => lt_of_le_of_ne hle hne) hnodup

/-! ### Lines of a body -/

/-- The lines of a body, which end with line feeds but for the last one. An empty body has none. -/
def Response.listed (r : Response) : List (List UInt8) :=
  if r.body.data.toList = [] then [] else r.body.data.toList.splitOn 10

theorem not_mem_of_mem_splitOn {α : Type} [BEq α] [LawfulBEq α] {a : α} {l part : List α}
    (h : part ∈ l.splitOn a) : a ∉ part := by
  induction l generalizing part with
  | nil =>
    rw [List.splitOn_nil] at h
    rw [List.mem_singleton.mp h]
    exact List.not_mem_nil
  | cons b l ih =>
    rw [List.splitOn_cons_eq_if_modifyHead] at h
    split at h
    · rcases List.mem_cons.mp h with rfl | hrest
      · exact List.not_mem_nil
      · exact ih hrest
    · next hne =>
      obtain ⟨first, rest, hsplit⟩ := List.exists_cons_of_ne_nil (List.splitOn_ne_nil a l)
      rw [hsplit, List.modifyHead_cons] at h
      rcases List.mem_cons.mp h with rfl | hrest
      · have hfirst : a ∉ first := ih (by rw [hsplit]; exact List.mem_cons_self)
        exact List.not_mem_cons_of_ne_of_not_mem (by rintro rfl; simp at hne) hfirst
      · exact ih (by rw [hsplit]; exact List.mem_cons_of_mem _ hrest)

/-- No line has a line feed in it. -/
theorem not_mem_of_mem_listed {r : Response} {line : List UInt8} (h : line ∈ r.listed) : 10 ∉ line := by
  rw [Response.listed] at h
  split at h
  · exact absurd h List.not_mem_nil
  · exact not_mem_of_mem_splitOn h

theorem bytesOf_intercalate (names : List String) :
    bytesOf ("\n".intercalate names) = [10].intercalate (names.map bytesOf) := by
  rw [bytesOf, String.toList_intercalate]
  induction names with
  | nil => rfl
  | cons name rest ih =>
    cases rest with
    | nil => simp only [List.map_cons, List.map_nil, List.intercalate_singleton, bytesOf]
    | cons next rest =>
      simp only [List.map_cons, List.intercalate_cons_cons, List.flatMap_append] at ih ⊢
      rw [ih]
      rfl

/-- Names that are neither empty nor have line feeds in them are the lines of the body that is made of
them. -/
theorem listed_text (status : UInt16) {names : List String}
    (plain : ∀ name ∈ names, name.toList ≠ [] ∧ 10 ∉ bytesOf name) :
    (Response.text status ("\n".intercalate names)).listed = names.map bytesOf := by
  rw [Response.listed, Response.text, data_toUTF8, bytesOf_intercalate]
  cases names with
  | nil => rfl
  | cons name rest =>
    have hbytes : ∀ line ∈ (name :: rest).map bytesOf, (10 : UInt8) ∉ line := by
      rintro _ hmem
      obtain ⟨other, hother, rfl⟩ := List.mem_map.mp hmem
      exact (plain other hother).2
    have hne : (name :: rest).map bytesOf ≠ [] := List.cons_ne_nil _ _
    have hcut := List.splitOn_intercalate 10 hbytes hne
    -- the body is not empty, for it would be cut into one empty name
    rw [if_neg, hcut]
    intro hnil
    rw [hnil, List.splitOn_nil] at hcut
    have hfirst : bytesOf name = [] := (List.cons.inj hcut).1.symm
    exact bytesOf_ne_nil (plain name List.mem_cons_self).1 hfirst

/-! ### Directories that can be read back -/

/-- The lines of an answer are the names of the scripts in a directory, in the order of their bytes and
each one once. -/
structure Response.Tells (r : Response) (d : Directory) : Prop where
  sorted : r.listed.Pairwise (· < ·)
  names (name : Bytes) :
    name.data.toList ∈ r.listed ↔ ∃ e ∈ d.entries, e.IsScript ∧ e.name = name

/-- The list of scripts can be read back exactly if no name has a line feed in it. -/
theorem tells_iff (status : UInt16) (d : Directory) :
    (Response.text status ("\n".intercalate (exampleNames d.entries))).Tells d ↔
      ∀ e ∈ d.entries, e.IsScript → 10 ∉ e.name.data.toList := by
  constructor
  · intro told e he hscript
    exact not_mem_of_mem_listed ((told.names e.name).mpr ⟨e, he, hscript, rfl⟩)
  · intro plain
    have hnames : ∀ name ∈ exampleNames d.entries, name.toList ≠ [] ∧ 10 ∉ bytesOf name := by
      intro name hname
      refine ⟨ne_nil_of_mem_exampleNames hname, ?_⟩
      obtain ⟨e, he, hscript, hbytes⟩ := mem_exampleNames_iff.mp hname
      rw [← data_toUTF8, ← hbytes]
      exact plain e he hscript
    have hlines := listed_text status hnames
    refine ⟨?_, fun name => ?_⟩
    · rw [hlines, List.pairwise_map]
      exact (exampleNames_sorted d).imp fun h => Utf8.flatMap_encode_lt (String.lt_iff_toList_lt.mp h)
    · rw [hlines, List.mem_map]
      constructor
      · rintro ⟨text, htext, hbytes⟩
        obtain ⟨e, he, hscript, hname⟩ := mem_exampleNames_iff.mp htext
        refine ⟨e, he, hscript, hname.trans (eq_of_data ?_)⟩
        rw [data_toUTF8, hbytes]
      · rintro ⟨e, he, hscript, rfl⟩
        obtain ⟨text, htext, -⟩ := hscript.2
        refine ⟨text, mem_exampleNames_iff.mpr ⟨e, he, hscript, htext⟩, ?_⟩
        rw [htext, data_toUTF8]

section

variable {mount path : String}

theorem route_examples (leads : Endpoint.examples.LiesAt mount path) (ctx : StatusContext I)
    (entries : List Entry) :
    route "GET" path mount { ctx with examples := .ok (exampleNames entries) } =
      .text 200 ("\n".intercalate (exampleNames entries)) := by
  rw [route_of_liesAt _ _ leads]
  exact if_pos rfl

/-- A name with a line feed in it is read back as two names. -/
theorem lineFeed_misread :
    let d : Directory := ⟨[⟨"a\nb.lua".toUTF8, .file .empty⟩], List.nodup_singleton _⟩
    let ctx : StatusContext Sandbox.interpreter :=
      ⟨{ interpreter := ⟨.fresh 0, 900, 0, 0⟩ }, .ok (exampleNames d.entries), 0, {}⟩
    let answer := route "GET" "/examples" "/" ctx
    answer.listed = [bytesOf "a", bytesOf "b.lua"] ∧ ¬ answer.Tells d := by
  intro d ctx answer
  have hanswer : answer = .text 200 ("\n".intercalate (exampleNames d.entries)) :=
    route_examples (by decide) ctx d.entries
  have hscript : Entry.IsScript ⟨"a\nb.lua".toUTF8, .file .empty⟩ :=
    ⟨rfl, "a\nb.lua", rfl, by decide⟩
  have hname : exampleName? ⟨"a\nb.lua".toUTF8, .file .empty⟩ = some "a\nb.lua" :=
    exampleName?_eq_some_iff.mpr ⟨hscript, rfl⟩
  have hnames : exampleNames d.entries = ["a\nb.lua"] := by
    rw [exampleNames, List.filterMap_cons_some hname, List.filterMap_nil, List.mergeSort_singleton]
  rw [hanswer]
  refine ⟨?_, fun told => ?_⟩
  · rw [hnames]
    decide
  · exact (tells_iff 200 d).mp told _ List.mem_cons_self hscript (by decide)

/-- The answer to a request for the list of scripts. A reader of its lines gets the names of the
regular files that are texts and end in `.lua`, in the order of their bytes and each one once, exactly
if no such name has a line feed in it. The order in which the directory is read makes no difference. -/
theorem examples_told (leads : Endpoint.examples.LiesAt mount path) (d : Directory)
    (ctx : StatusContext I) :
    let answer (entries : List Entry) :=
      route "GET" path mount { ctx with examples := .ok (exampleNames entries) }
    (answer d.entries).status = 200 ∧
      ((answer d.entries).Tells d ↔ ∀ e ∈ d.entries, e.IsScript → 10 ∉ e.name.data.toList) ∧
      ∀ order, order.Perm d.entries → answer order = answer d.entries := by
  intro answer
  have hanswer (entries : List Entry) :
      answer entries = .text 200 ("\n".intercalate (exampleNames entries)) :=
    route_examples leads ctx entries
  refine ⟨?_, ?_, fun order hperm => ?_⟩
  · rw [hanswer]
    rfl
  · rw [hanswer]
    exact tells_iff 200 d
  · rw [hanswer, hanswer, exampleNames_perm hperm]

end

/-- A directory with scripts, a directory that is named as a script, and a name that is no text. -/
theorem examples_told_of_five :
    let d : Directory :=
      ⟨[⟨"rainbow.lua".toUTF8, .file .empty⟩, ⟨"README.md".toUTF8, .file .empty⟩,
        ⟨"nested.lua".toUTF8, .directory⟩, ⟨"a_first.lua".toUTF8, .file .empty⟩,
        ⟨⟨#[0xff]⟩, .file .empty⟩], by decide⟩
    let ctx : StatusContext Sandbox.interpreter :=
      ⟨{ interpreter := ⟨.fresh 0, 900, 0, 0⟩ }, .ok [], 0, {}⟩
    let answer (entries : List Entry) :=
      route "GET" "/leds/examples?x=1" "/leds/" { ctx with examples := .ok (exampleNames entries) }
    Endpoint.examples.LiesAt "/leds/" "/leds/examples?x=1" ∧ (answer d.entries).Tells d ∧
      answer d.entries.reverse = answer d.entries := by
  intro d ctx answer
  have leads : Endpoint.examples.LiesAt "/leds/" "/leds/examples?x=1" := by decide
  obtain ⟨-, htold, horder⟩ := examples_told leads d ctx
  have hplain : ∀ e ∈ d.entries, 10 ∉ e.name.data.toList := by decide
  exact ⟨leads, htold.mpr fun e he _ => hplain e he, horder _ (List.reverse_perm _)⟩

end Http

end PixelHost
