import PixelHost.Http.Response
import PixelHost.Proofs.Http.Lines

/-!
# Responses tell where they end

A response is written with a head that is made of lines, and one of them gives the length of the body.
A client that reads the head knows where the body begins and how many bytes it has, so it finds the
end of the response even if something follows. Nothing in a body can be taken for a part of the head,
and different responses are never written alike.

## Main definitions

* `Http.decimal?`, `Http.headerValues`, `Http.statusOf?` — what is read off a head.
* `Http.Received` — a response as it is read.
* `Http.Received.read?` — reads a response from the front of a stream.

## Main results

* `Http.headerValues_lines` — the values of the headers that are written.
* `Http.Response.read?_bytes` — a response is read as it was written, and what follows it is left.
* `Http.Response.self_delimiting` — what the bytes of a response tell.
-/

namespace PixelHost.Http

/-! ### Reading a response -/

/-- The number that some decimal digits spell. -/
def decimal? (digits : List Char) : Option Nat :=
  if digits ≠ [] ∧ digits.all Char.isDigit then some (Nat.ofDigitChars 10 digits 0) else none

/-- The lines of a head. -/
def headLines? (head : Bytes) : Option (List (List Char)) :=
  (Utf8.decode? head).map fun text => lines text.toList

/-- The status in the first line of a response. -/
def statusOf? (first : List Char) : Option Nat := (Blank.words first)[1]?.bind decimal?

/-- The value in a line, if it is a header with this name. Case does not count in the name. -/
def headerValue? (name : String) (line : List Char) : Option (List Char) :=
  match splitHeader? line with
  | some (written, value) =>
    if lowercase (Blank.trim written) = name.toList then some (Blank.trim value) else none
  | none => none

/-- The values of all headers with a name. -/
def headerValues (name : String) (lines : List (List Char)) : List (List Char) :=
  lines.filterMap (headerValue? name)

/-- A response as it is read. -/
structure Received where
  status : Nat
  contentType : String
  body : Bytes

/-- Reads a response from the front of a stream. Gives what follows it, too. The kind of content and
the length must be given once. -/
def Received.read? (stream : Bytes) : Option (Received × Bytes) := do
  let start ← headLength? stream
  match ← headLines? (stream.extract 0 start) with
  | first :: fields =>
    let status ← statusOf? first
    match headerValues "content-type" fields, headerValues "content-length" fields with
    | [contentType], [digits] =>
      let stop := start + (← decimal? digits)
      if stop ≤ stream.size then
        some (⟨status, .ofList contentType, stream.extract start stop⟩,
          stream.extract stop stream.size)
      else none
    | _, _ => none
  | [] => none

/-! ### Decimal numbers -/

theorem decimal?_toDigits (n : Nat) : decimal? (Nat.toDigits 10 n) = some n := by
  have hdigits : (Nat.toDigits 10 n).all Char.isDigit = true :=
    List.all_eq_true.mpr fun c hc => Nat.isDigit_of_mem_toDigits (by decide) (by decide) hc
  rw [decimal?, if_pos ⟨Nat.toDigits_ne_nil, hdigits⟩, Nat.ofDigitChars_ten_toDigits]

/-- No digit is white space. -/
theorem solid_toDigits (n : Nat) : Blank.Solid (Nat.toDigits 10 n) := by
  intro c hc
  have hdigit := Nat.isDigit_of_mem_toDigits (by decide) (by decide) hc
  simp only [Char.isDigit, Bool.and_eq_true, decide_eq_true_eq] at hdigit
  have hlow : 48 ≤ c.toNat := hdigit.1
  have hhigh : c.toNat ≤ 57 := hdigit.2
  simp [Blank.isBlank, Blank.ranges]
  omega

/-! ### Headers -/

/-- The header has this name. Case does not count. -/
def Header.IsNamed (wanted : String) (h : Header) : Prop :=
  lowercase (Blank.trim h.name.toList) = wanted.toList

instance (wanted : String) (h : Header) : Decidable (h.IsNamed wanted) :=
  inferInstanceAs (Decidable (_ = _))

/-- The values that are read are those of the headers that were written with this name. -/
theorem headerValues_lines (wanted : String) (headers : List Header) :
    headerValues wanted (headers.map fun h => h.line.toList) =
      (headers.filter (·.IsNamed wanted)).map fun h => Blank.trim h.value.toList := by
  induction headers with
  | nil => rfl
  | cons h rest ih =>
    have hvalue : headerValue? wanted h.line.toList =
        if h.IsNamed wanted then some (Blank.trim h.value.toList) else none := by
      simp only [headerValue?, h.splitHeader?_line, Blank.trim_cons_blank (c := ' ') rfl]
      rfl
    rw [headerValues] at ih
    rw [headerValues, List.map_cons, List.filterMap_cons, hvalue, ih]
    by_cases hnamed : h.IsNamed wanted <;> simp [hnamed]

namespace Response

variable (r : Response)

/-! ### The lines of a response -/

/-- The first line. -/
def statusLine : String := "HTTP/1.1 " ++ Nat.repr r.status.toNat ++ " " ++ r.reason

theorem oneLine_reason : OneLine r.reason := by
  rw [reason, reasonOf]
  split <;> decide

theorem oneLine_name (contentType : ContentType) : OneLine contentType.name := by
  cases contentType <;> decide

theorem oneLine_repr (n : Nat) : OneLine (Nat.repr n) :=
  oneLine_of_solid (by rw [Nat.toList_repr]; exact solid_toDigits n)

/-- The headers. -/
def headers : List Header := [
  ⟨"Content-Type", r.contentType.name, by decide, oneLine_name _, by decide⟩,
  ⟨"Content-Length", Nat.repr r.body.size, by decide, oneLine_repr _, by decide⟩,
  ⟨"Connection", "close", by decide, by decide, by decide⟩]

/-- The lines of the head, apart from the blank one. -/
def written : List String := r.statusLine :: r.headers.map Header.line

theorem head_eq : r.head = headOf r.written := by
  apply String.toList_inj.mp
  simp [head, headOf, written, headers, Header.line, statusLine, String.join, toString]

/-- No line of the head is empty, or ends before it is over. -/
theorem written_plain {line : String} (hline : line ∈ r.written) : PlainLine line := by
  rcases List.mem_cons.mp hline with rfl | hheader
  · have hfirst : OneLine "HTTP/1.1 " := by decide
    have hspace : OneLine " " := by decide
    exact ⟨by simp [statusLine],
      ((hfirst.append (oneLine_repr _)).append hspace).append r.oneLine_reason⟩
  · obtain ⟨h, -, rfl⟩ := List.mem_map.mp hheader
    exact h.plain

/-- The head ends where the body begins. -/
theorem headLength?_bytes (more : Bytes) :
    headLength? (r.bytes ++ more) = some r.head.toUTF8.size := by
  rw [bytes, ByteArray.append_assoc, head_eq]
  exact headLength?_headOf (List.cons_ne_nil _ _) (fun _ => r.written_plain) _

/-! ### What the head says -/

/-- The lines after the first one. -/
def fields : List (List Char) := (r.headers.map fun h => h.line.toList) ++ [[], []]

theorem headLines?_head : headLines? r.head.toUTF8 = some (r.statusLine.toList :: r.fields) := by
  rw [headLines?, decode?_toUTF8, Option.map_some, head_eq, lines_headOf fun _ => r.written_plain]
  rfl

theorem statusOf?_statusLine : statusOf? r.statusLine.toList = some r.status.toNat := by
  have hline : r.statusLine.toList =
      "HTTP/1.1".toList ++ ' ' :: (Nat.toDigits 10 r.status.toNat ++ ' ' :: r.reason.toList) := by
    simp [statusLine]
  rw [statusOf?, hline, Blank.words_spaced (by decide) (by decide),
    Blank.words_spaced Nat.toDigits_ne_nil (solid_toDigits _)]
  exact decimal?_toDigits _

/-- The empty lines at the end of a head are no headers. -/
theorem headerValues_fields (wanted : String) : headerValues wanted r.fields =
    (r.headers.filter (·.IsNamed wanted)).map fun h => Blank.trim h.value.toList := by
  rw [fields, headerValues, List.filterMap_append]
  exact (List.append_nil _).trans (headerValues_lines wanted r.headers)

theorem contentTypes_fields : headerValues "content-type" r.fields = [r.contentType.name.toList] := by
  have htrim : Blank.trim r.contentType.name.toList = r.contentType.name.toList := by
    cases r.contentType <;> decide
  rw [headerValues_fields, ← htrim]
  simp +decide [headers, Header.IsNamed]

theorem contentLengths_fields :
    headerValues "content-length" r.fields = [Nat.toDigits 10 r.body.size] := by
  have htrim : Blank.trim (Nat.repr r.body.size).toList = Nat.toDigits 10 r.body.size := by
    rw [Nat.toList_repr]
    have hword := Blank.trim_word (List.forall_mem_nil _) (List.forall_mem_nil _)
      Nat.toDigits_ne_nil (solid_toDigits r.body.size)
    rwa [List.nil_append, List.append_nil] at hword
  rw [headerValues_fields, ← htrim]
  simp +decide [headers, Header.IsNamed]

/-! ### What the bytes say -/

/-- The body is what follows the head, as far as its length goes. -/
theorem extract_body (more : Bytes) :
    (r.bytes ++ more).extract r.head.toUTF8.size r.bytes.size = r.body := by
  calc (r.bytes ++ more).extract r.head.toUTF8.size r.bytes.size
      = (r.head.toUTF8 ++ (r.body ++ more)).extract (r.head.toUTF8.size + 0)
          (r.head.toUTF8.size + r.body.size) := by
        rw [bytes, ByteArray.append_assoc, ByteArray.size_append, Nat.add_zero]
    _ = (r.body ++ more).extract 0 r.body.size := ByteArray.extract_append_size_add
    _ = r.body := ByteArray.extract_append_eq_left rfl

/-- A response is read as it was written, and what follows it is left. -/
theorem read?_bytes (more : Bytes) :
    Received.read? (r.bytes ++ more) =
      some (⟨r.status.toNat, r.contentType.name, r.body⟩, more) := by
  have hhead : (r.bytes ++ more).extract 0 r.head.toUTF8.size = r.head.toUTF8 := by
    rw [bytes, ByteArray.append_assoc, ByteArray.extract_append_eq_left rfl]
  have hstop : r.head.toUTF8.size + r.body.size = r.bytes.size := ByteArray.size_append.symm
  have hmore : (r.bytes ++ more).extract r.bytes.size (r.bytes ++ more).size = more :=
    ByteArray.extract_append_eq_right rfl ByteArray.size_append
  have hfits : r.bytes.size ≤ (r.bytes ++ more).size := by
    rw [ByteArray.size_append]
    exact Nat.le_add_right _ _
  simp only [Received.read?, r.headLength?_bytes, hhead, r.headLines?_head, r.statusOf?_statusLine,
    r.contentTypes_fields, r.contentLengths_fields, decimal?_toDigits, bind, Option.bind_some,
    hstop, if_pos hfits, r.extract_body, hmore, String.ofList_toList]

theorem name_injective : Function.Injective ContentType.name := by
  rintro (_ | _) (_ | _) h
  · rfl
  · exact absurd h (by decide)
  · exact absurd h (by decide)
  · rfl

/-- Different responses are written differently. -/
theorem bytes_injective : Function.Injective bytes := by
  intro r other heq
  have hread := r.read?_bytes .empty
  rw [heq, other.read?_bytes] at hread
  simp only [Option.some.injEq, Prod.mk.injEq, Received.mk.injEq, and_true] at hread
  obtain ⟨hstatus, hname, hbody⟩ := hread
  obtain ⟨status, contentType, body⟩ := r
  obtain ⟨status', contentType', body'⟩ := other
  rw [Response.mk.injEq]
  exact ⟨(UInt16.toNat_inj.mp hstatus).symm, (name_injective hname).symm, hbody.symm⟩

/-- The bytes of a response tell where they end. The head ends where the body begins, whatever is in
the body; the status, the kind of content and the length are read off it, and there is one header that
gives the length, in bytes. What follows the head is the body, and a text that was made the body, as a
plain or a JSON text, is decoded from it. So a response is read as it was written, even if something
follows it, and different responses are never written alike. -/
theorem self_delimiting (r : Response) :
    ∃ start length first fields,
      headLength? r.bytes = some start ∧ start + length = r.bytes.size ∧
      r.bytes.extract start r.bytes.size = r.body ∧
      headLines? (r.bytes.extract 0 start) = some (first :: fields) ∧
      statusOf? first = some r.status.toNat ∧
      headerValues "content-type" fields = [r.contentType.name.toList] ∧
      (headerValues "content-length" fields).map decimal? = [some length] ∧
      (∀ text : String, r.body = text.toUTF8 → length = text.utf8ByteSize ∧
        Utf8.decode? (r.bytes.extract start r.bytes.size) = some text) ∧
      (∀ more, Received.read? (r.bytes ++ more) =
        some (⟨r.status.toNat, r.contentType.name, r.body⟩, more)) ∧
      ∀ other : Response, other.bytes = r.bytes → other = r := by
  have hempty : r.bytes ++ ByteArray.empty = r.bytes := ByteArray.append_empty
  have hbody := r.extract_body .empty
  have hlength := r.headLength?_bytes .empty
  rw [hempty] at hbody hlength
  refine ⟨r.head.toUTF8.size, r.body.size, r.statusLine.toList, r.fields, hlength,
    ByteArray.size_append.symm, hbody, ?_, r.statusOf?_statusLine, r.contentTypes_fields, ?_, ?_,
    r.read?_bytes, fun other heq => bytes_injective heq⟩
  · rw [bytes, ByteArray.extract_append_eq_left rfl]
    exact r.headLines?_head
  · rw [r.contentLengths_fields, List.map_singleton, decimal?_toDigits]
  · intro text htext
    rw [hbody, htext, decode?_toUTF8]
    exact ⟨rfl, rfl⟩

end Response

end PixelHost.Http
