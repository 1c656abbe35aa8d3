import PixelHost.Proofs.Http.Lines

/-!
# Request heads as they are written

A head is written as a line with method, path and version, a line for each header, and a blank line.
What is read off its bytes is the method, the path, and whether one of the headers asks for a
WebSocket. Neither what follows the head nor anything else in it has an influence.

## Main definitions

* `Http.RequestHead` — what a head is written from.
* `Http.RequestHead.text`, `Http.RequestHead.bytes` — the head that is written.
* `Http.ReadsAs` — a text is a word, up to white space around it and to case.

## Main results

* `Http.asksForUpgrade_line` — when a header asks for a WebSocket.
* `Http.RequestHead.read_back` — what is read off a head that was written.
-/

namespace PixelHost

namespace Http

/-! ### What a head is written from -/

/-- The parts of a head. -/
structure RequestHead where
  method : String
  path : String
  version : String
  headers : List Header
  method_ne : method ≠ ""
  method_solid : Blank.Solid method.toList
  path_ne : path ≠ ""
  path_solid : Blank.Solid path.toList
  version_oneLine : OneLine version
  version_known : "HTTP/".toList <+: version.toList

instance : Inhabited RequestHead where
  default := {
    method := "GET", path := "/", version := "HTTP/1.1", headers := []
    method_ne := by decide
    method_solid := by decide
    path_ne := by decide
    path_solid := by decide
    version_oneLine := by decide
    version_known := by decide }

namespace RequestHead

variable (r : RequestHead)

/-- The first line. -/
def firstLine : String := r.method ++ " " ++ r.path ++ " " ++ r.version

/-- The head as it is written. -/
def text : String :=
  r.firstLine ++ "\r\n" ++ String.join (r.headers.map fun h => h.line ++ "\r\n") ++ "\r\n"

/-- The bytes of the head. -/
def bytes : Bytes := r.text.toUTF8

end RequestHead

/-- The text is a word in small letters, up to white space around it and to the case of letters. -/
def ReadsAs (s word : String) : Prop :=
  ∃ before core after, s.toList = before ++ core ++ after ∧
    (∀ c ∈ before, Blank.isBlank c = true) ∧ (∀ c ∈ after, Blank.isBlank c = true) ∧
    core.map Char.toLower = word.toList

/-! ### Headers -/

/-- A text reads as a word if the word is left of it when case and white space around it are
dropped. -/
theorem lowercase_trim_eq_iff {s word : String} (nonempty : word.toList ≠ [])
    (solid : Blank.Solid word.toList) :
    lowercase (Blank.trim s.toList) = word.toList ↔ ReadsAs s word := by
  constructor
  · intro heq
    obtain ⟨before, after, hs, hbefore, hafter⟩ := Blank.exists_trim s.toList
    exact ⟨before, _, after, hs, hbefore, hafter, heq⟩
  · rintro ⟨before, core, after, hs, hbefore, hafter, hcore⟩
    have hsolid : Blank.Solid core := fun c hc => by
      rw [← Blank.isBlank_toLower]
      exact solid _ (hcore ▸ List.mem_map_of_mem hc)
    have hcore_ne : core ≠ [] := fun hnil => nonempty (by rw [← hcore, hnil]; rfl)
    rw [hs, Blank.trim_word hbefore hafter hcore_ne hsolid]
    exact hcore

/-- The line of a header asks for a WebSocket if its name and its value do. -/
theorem asksForUpgrade_line (h : Header) :
    asksForUpgrade h.line.toList = true ↔
      ReadsAs h.name "upgrade" ∧ ReadsAs h.value "websocket" := by
  rw [asksForUpgrade, h.splitHeader?_line]
  simp only [Bool.and_eq_true, beq_iff_eq]
  rw [Blank.trim_cons_blank (by decide), lowercase_trim_eq_iff (by decide) (by decide),
    lowercase_trim_eq_iff (by decide) (by decide)]

/-! ### Reading a head -/

namespace RequestHead

variable (r : RequestHead)

/-- The lines of the head, apart from the blank one. -/
def written : List String := r.firstLine :: r.headers.map Header.line

theorem text_eq : r.text = headOf r.written := by
  rw [text, headOf, written, List.map_cons, String.join_cons, List.map_map]
  rfl

/-- No line of the head is empty, or ends before it is over. -/
theorem written_plain {line : String} (hline : line ∈ r.written) : PlainLine line := by
  have hspace : OneLine " " := by decide
  rcases List.mem_cons.mp hline with rfl | hheader
  · refine ⟨by simp [firstLine], ?_⟩
    exact (((oneLine_of_solid r.method_solid).append hspace).append
      (oneLine_of_solid r.path_solid)).append hspace |>.append r.version_oneLine
  · obtain ⟨h, -, rfl⟩ := List.mem_map.mp hheader
    exact h.plain

/-- The head ends where it was written to end. -/
theorem headLength?_bytes (body : Bytes) : headLength? (r.bytes ++ body) = some r.bytes.size := by
  rw [bytes, text_eq]
  exact headLength?_headOf (List.cons_ne_nil _ _) (fun _ => r.written_plain) body

/-- The first line begins with the method and the path, and its third word with the protocol. -/
theorem words_firstLine :
    ∃ more others, Blank.words r.firstLine.toList =
      r.method.toList :: r.path.toList :: ("HTTP/".toList ++ more) :: others := by
  obtain ⟨tail, htail⟩ := r.version_known
  obtain ⟨more, others, hmore⟩ := Blank.exists_words (by decide) (w := "HTTP/".toList)
    (by decide) tail
  refine ⟨more, others, ?_⟩
  have hline : r.firstLine.toList =
      r.method.toList ++ ' ' :: (r.path.toList ++ ' ' :: r.version.toList) := by
    simp [firstLine]
  rw [hline, Blank.words_spaced (by simpa using r.method_ne) r.method_solid,
    Blank.words_spaced (by simpa using r.path_ne) r.path_solid, ← htail, hmore]

/-- What is read off the head. -/
theorem parse?_bytes :
    Request.parse? r.bytes =
      some ⟨r.method, r.path, (r.headers.map fun h => h.line.toList).any asksForUpgrade⟩ := by
  have hlines : lines r.text.toList =
      r.firstLine.toList :: ((r.headers.map fun h => h.line.toList) ++ [[], []]) := by
    rw [text_eq, lines_headOf fun _ => r.written_plain, written, List.map_cons, List.map_map]
    rfl
  obtain ⟨more, others, hwords⟩ := r.words_firstLine
  have hknown : "HTTP/".toList.isPrefixOf ("HTTP/".toList ++ more) = true :=
    List.isPrefixOf_iff_prefix.mpr (List.prefix_append _ _)
  rw [Request.parse?, bytes, decode?_toUTF8, Option.bind_some, Request.ofText?, hlines]
  simp only [hwords, hknown, if_true, String.ofList_toList, List.any_append]
  rw [show [[], []].any asksForUpgrade = false from by decide, Bool.or_false]

/-- A head is read back as it was written, whatever follows it: it ends where it was written to end,
its method and its path are those it was written with, and it asks for a WebSocket if one of its
headers does. -/
theorem read_back (body : Bytes) :
    headLength? (r.bytes ++ body) = some r.bytes.size ∧
      ∃ upgrade, Request.parse? ((r.bytes ++ body).extract 0 r.bytes.size) =
          some ⟨r.method, r.path, upgrade⟩ ∧
        (upgrade = true ↔
          ∃ h ∈ r.headers, ReadsAs h.name "upgrade" ∧ ReadsAs h.value "websocket") := by
  refine ⟨r.headLength?_bytes body, (r.headers.map fun h => h.line.toList).any asksForUpgrade,
    ?_, ?_⟩
  · rw [ByteArray.extract_append_eq_left rfl]
    exact r.parse?_bytes
  · simp only [List.any_eq_true, List.mem_map, exists_exists_and_eq_and, asksForUpgrade_line]

end RequestHead

end Http

end PixelHost