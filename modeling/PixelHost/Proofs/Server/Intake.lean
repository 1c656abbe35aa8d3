import PixelHost.Proofs.Engine.Chunks
import PixelHost.Server.Upload

/-!
# What is taken of what arrives on an upload connection

Messages are handed to the session of a connection in the order in which they arrive, up to the
first one that is too long. That one may be refused before the session sees it, or by the session.
Nothing after it is taken. It is the same with a message whose upload is lost: it is the last one
that is taken, wherever it stands.

## Main definitions

* `Incoming.available` — what can be read in a pass.
* `Intake`, `Incoming.intake` — the messages that are taken if no upload is lost, and what stops it.
* `Session.intake`, `Intake.Cut` — what a session takes, which may be less.
* `Incoming.Delivered` — what a client has sent, and what arrives of it.
* `Session.receives` — the uses of a session that take some messages.
* `Session.Used` — what the uses of a session come to.

## Main results

* `Incoming.intake_append` — what is taken in passes is what is taken at once.
* `Incoming.Delivered.intake_of_fits`, `Incoming.Delivered.intake_of_overlong` — what is taken of
  the messages of a client.
* `Session.intake_cut` — a session takes what there is to take, unless an upload is lost.
* `Session.used_intake` — what the session says to the messages that it is handed.
-/

namespace PixelHost

variable {I : Interpreter}

/-! ### What is taken -/

/-- Why no more messages are taken from a connection. -/
inductive Stop where
  /-- A message was too long. The session was shown it, or it was refused before. -/
  | overlong (shown : Option Bytes)
  /-- The upload of a message was lost. -/
  | lost (data : Bytes)
  /-- The connection was closed, or it cannot be read. -/
  | ended

/-- What is taken from a connection. -/
structure Intake where
  messages : List Bytes
  stop : Option Stop

namespace Intake

/-- The message with which it stops, if the session is shown one. -/
def shown? (k : Intake) : Option Bytes :=
  match k.stop with
  | some (.overlong shown) => shown
  | some (.lost data) => some data
  | some .ended | none => none

/-- The message with which it stops, if the session is shown one, and nothing otherwise. -/
def shown (k : Intake) : List Bytes := k.shown?.toList

/-- The messages that are handed to the session. -/
def handed (k : Intake) : List Bytes := k.messages ++ k.shown

/-- What a session says to the message with which it stops. -/
def lastResult (limit : Nat) (k : Intake) : List (Ending UploadError Unit) :=
  match k.stop with
  | some (.overlong (some data)) => [.error (.tooLarge limit data.size)]
  | some (.lost _) => [.lost]
  | some (.overlong none) | some .ended | none => []

/-- What a session says to the messages that it is handed. -/
def results (limit : Nat) (k : Intake) : List (Ending UploadError Unit) :=
  List.replicate k.messages.length (.ok ()) ++ k.lastResult limit

/-- A message was too long. -/
def isOverlong (k : Intake) : Bool :=
  match k.stop with
  | some (.overlong _) => true
  | some (.lost _) | some .ended | none => false

/-- What is taken after something else was taken. -/
def andThen (k l : Intake) : Intake :=
  match k.stop with
  | some _ => k
  | none => ⟨k.messages ++ l.messages, l.stop⟩

theorem andThen_of_stop {k : Intake} {stop : Stop} (stopped : k.stop = some stop) (l : Intake) :
    k.andThen l = k := by
  simp only [andThen, stopped]

theorem andThen_of_goes {k : Intake} (goes : k.stop = none) (l : Intake) :
    k.andThen l = ⟨k.messages ++ l.messages, l.stop⟩ := by
  simp only [andThen, goes]

theorem shown_of_goes {k : Intake} (goes : k.stop = none) : k.shown = [] := by
  simp only [shown, shown?, goes, Option.toList_none]

theorem lastResult_of_goes {k : Intake} (goes : k.stop = none) (limit : Nat) :
    k.lastResult limit = [] := by
  simp only [lastResult, goes]

theorem isOverlong_andThen {k : Intake} (goes : k.stop = none) (l : Intake) :
    (k.andThen l).isOverlong = l.isOverlong := by
  rw [andThen_of_goes goes]
  rfl

theorem exists_of_isOverlong {k : Intake} (overlong : k.isOverlong = true) :
    ∃ shown, k.stop = some (.overlong shown) := by
  obtain ⟨messages, _ | _ | _ | _⟩ := k
  · cases overlong
  · exact ⟨_, rfl⟩
  · cases overlong
  · cases overlong

/-- Where no message was too long and no upload was lost, nothing was said but that messages are
taken. -/
theorem silent_of_fits {k : Intake} {limit : Nat} (fits : k.isOverlong = false)
    (lossless : .lost ∉ k.results limit) : k.shown = [] ∧ k.lastResult limit = [] := by
  obtain ⟨messages, _ | _ | _ | _⟩ := k
  · exact ⟨rfl, rfl⟩
  · cases fits
  · exact absurd (List.mem_append_right _ (List.mem_singleton_self _)) lossless
  · exact ⟨rfl, rfl⟩

theorem exists_of_lost {k : Intake} {limit : Nat} (lost : .lost ∈ k.results limit) :
    ∃ data, k.stop = some (.lost data) := by
  have hlast : .lost ∈ k.lastResult limit := by
    refine (List.mem_append.mp lost).resolve_left fun taken => ?_
    cases List.eq_of_mem_replicate taken
  obtain ⟨messages, _ | (_ | data) | data | _⟩ := k
  · cases hlast
  · cases hlast
  · cases List.mem_singleton.mp hlast
  · exact ⟨data, rfl⟩
  · cases hlast

/-- What is taken of what could be, as an upload may be lost. -/
inductive Cut (k : Intake) : Intake → Prop
  | whole : Cut k k
  | lost (front data rest stop) (all : k = ⟨front ++ data :: rest, stop⟩) :
      Cut k ⟨front, some (.lost data)⟩

namespace Cut

variable {k k' l l' : Intake}

/-- Everything is taken if no upload is lost. -/
theorem eq_of_lossless {limit : Nat} (cut : Cut k k') (lossless : .lost ∉ k'.results limit) :
    k' = k := by
  cases cut with
  | whole => rfl
  | lost => exact absurd (List.mem_append_right _ (List.mem_singleton_self _)) lossless

theorem handed_prefix (cut : Cut k k') : k'.handed <+: k.handed := by
  cases cut with
  | whole => exact List.prefix_rfl
  | lost front data rest stop all =>
    subst all
    refine ⟨rest ++ (⟨front ++ data :: rest, stop⟩ : Intake).shown, ?_⟩
    simp [handed, shown, shown?]

theorem andThen (cut : Cut k k') (next : Cut l l') : Cut (k.andThen l) (k'.andThen l') := by
  cases cut with
  | lost front data rest stop all =>
    subst all
    rw [andThen_of_stop (k := ⟨front, some (.lost data)⟩) rfl]
    cases stop with
    | some stop => exact .lost _ _ _ _ rfl
    | none =>
      exact .lost front data (rest ++ l.messages) l.stop
        (by simp only [Intake.andThen, List.append_assoc, List.cons_append])
  | whole =>
    cases next with
    | whole => exact .whole
    | lost front data rest stop all =>
      subst all
      cases hstop : k.stop with
      | some _ =>
        rw [andThen_of_stop hstop, andThen_of_stop hstop]
        exact .whole
      | none =>
        rw [andThen_of_goes hstop, andThen_of_goes hstop]
        exact .lost (k.messages ++ front) data rest stop (by rw [List.append_assoc])

end Cut

end Intake

namespace Incoming

/-- What can be read in a pass. -/
def available : List Incoming → List Incoming
  | [] | .nothing :: _ => []
  | first :: rest => first :: available rest

/-- What is taken of what arrives, if messages may be so long. -/
def intake (limit : Nat) : List Incoming → Intake
  | [] => ⟨[], none⟩
  | .message data :: rest =>
    if limit < data.size then ⟨[], some (.overlong (some data))⟩
    else ⟨data :: (intake limit rest).messages, (intake limit rest).stop⟩
  | .tooLong :: _ => ⟨[], some (.overlong none)⟩
  | .ended :: _ | .failed :: _ => ⟨[], some .ended⟩
  | .control :: rest | .nothing :: rest => intake limit rest

variable {limit : Nat} {arrived : List Incoming}

/-- It makes no difference in which passes messages arrive. -/
theorem intake_append (limit : Nat) (front rest : List Incoming) :
    intake limit (front ++ rest) = (intake limit front).andThen (intake limit rest) := by
  induction front with
  | nil => rfl
  | cons first front ih =>
    cases first with
    | message data =>
      rw [List.cons_append, intake, intake]
      split
      · rfl
      · rw [ih]
        cases hstop : (intake limit front).stop <;> simp [Intake.andThen, hstop]
    | control | nothing => exact ih
    | tooLong | ended | failed => rfl

/-- A message that arrives. -/
def message? : Incoming → Option Bytes
  | message data => some data
  | control | nothing | tooLong | ended | failed => none

/-- Messages are handed over in the order in which they arrive, and none is left out. -/
theorem intake_handed (limit : Nat) (arrived : List Incoming) :
    (intake limit arrived).handed <+: arrived.filterMap message? := by
  fun_induction intake limit arrived with
  | case1 => exact List.nil_prefix
  | case2 data rest long => exact ⟨rest.filterMap message?, rfl⟩
  | case3 data rest fits ih => exact List.cons_prefix_cons.mpr ⟨rfl, ih⟩
  | case4 | case5 | case6 => exact List.nil_prefix
  | case7 rest ih | case8 rest ih => exact ih

/-! ### What a client has sent -/

/-- What arrives of the messages of a client on a connection that takes messages up to a limit. A
message that is longer is told to be too long. Between the messages there may be what carries none,
and in the end the connection may be closed or fail. -/
inductive Delivered (limit : Nat) : List Bytes → List Incoming → Prop
  | nothing : Delivered limit [] []
  | ended {rest : List Incoming} : Delivered limit [] (.ended :: rest)
  | failed {rest : List Incoming} : Delivered limit [] (.failed :: rest)
  | control {messages arrived} (rest : Delivered limit messages arrived) :
      Delivered limit messages (.control :: arrived)
  | message {data messages arrived} (fits : data.size ≤ limit)
      (rest : Delivered limit messages arrived) :
      Delivered limit (data :: messages) (.message data :: arrived)
  | tooLong {data messages arrived} (long : limit < data.size)
      (rest : Delivered limit messages arrived) :
      Delivered limit (data :: messages) (.tooLong :: arrived)

namespace Delivered

variable {messages before after : List Bytes} {long : Bytes} {longest : Nat}

/-- All messages are taken if none is too long. -/
theorem intake_of_fits (delivered : Delivered longest messages arrived) (room : limit ≤ longest)
    (fits : ∀ data ∈ messages, data.size ≤ limit) :
    (intake limit arrived).messages = messages ∧ (intake limit arrived).isOverlong = false := by
  induction delivered with
  | nothing | ended | failed => exact ⟨rfl, rfl⟩
  | control rest ih => exact ih fits
  | @message data messages arrived _ rest ih =>
    obtain ⟨hmessages, hgoes⟩ := ih fun d hd => fits d (List.mem_cons_of_mem _ hd)
    have hdata : ¬ limit < data.size := Nat.not_lt.mpr (fits data List.mem_cons_self)
    rw [intake, if_neg hdata]
    exact ⟨congrArg (data :: ·) hmessages, hgoes⟩
  | tooLong long =>
    exact absurd (Nat.le_trans (fits _ List.mem_cons_self) room) (Nat.not_le.mpr long)

/-- The messages before the first one that is too long are taken. The session is shown that one
unless it is too long for the connection as well. -/
theorem intake_of_overlong (delivered : Delivered longest (before ++ long :: after) arrived)
    (room : limit ≤ longest) (fits : ∀ data ∈ before, data.size ≤ limit)
    (overlong : limit < long.size) :
    intake limit arrived =
      ⟨before, some (.overlong (if long.size ≤ longest then some long else none))⟩ := by
  generalize hall : before ++ long :: after = messages at delivered
  induction delivered generalizing before with
  | nothing | ended | failed => simp at hall
  | control rest ih => exact ih fits hall
  | @message data messages arrived hdata rest ih =>
    cases before with
    | nil =>
      obtain ⟨rfl, rfl⟩ := List.cons.inj hall
      rw [intake, if_pos overlong, if_pos hdata]
    | cons first before =>
      obtain ⟨rfl, hrest⟩ := List.cons.inj hall
      have hfirst : ¬ limit < first.size := Nat.not_lt.mpr (fits first List.mem_cons_self)
      rw [intake, if_neg hfirst, ih (fun d hd => fits d (List.mem_cons_of_mem _ hd)) hrest]
  | @tooLong data messages arrived hdata rest ih =>
    cases before with
    | nil =>
      obtain ⟨rfl, rfl⟩ := List.cons.inj hall
      rw [intake, if_neg (Nat.not_le.mpr hdata)]
    | cons first before =>
      obtain ⟨rfl, -⟩ := List.cons.inj hall
      exact absurd (Nat.le_trans (fits _ List.mem_cons_self) room) (Nat.not_le.mpr hdata)

end Delivered

end Incoming

/-! ### Sessions that are handed whole messages -/

namespace Session

variable {s : Session} {e : Engine I} {data : Bytes}

/-- What a session takes of what arrives. -/
def intake (s : Session) (e : Engine I) : List Incoming → Intake
  | [] => ⟨[], none⟩
  | .message data :: rest =>
    match s.receive data true e with
    | (.ok (), s, e) => ⟨data :: (s.intake e rest).messages, (s.intake e rest).stop⟩
    | (.error _, _) => ⟨[], some (.overlong (some data))⟩
    | (.lost, _) => ⟨[], some (.lost data)⟩
  | .tooLong :: _ => ⟨[], some (.overlong none)⟩
  | .ended :: _ | .failed :: _ => ⟨[], some .ended⟩
  | .control :: rest | .nothing :: rest => s.intake e rest

section

variable {s' : Session} {e' : Engine I}

theorem intake_of_taken (taken : s.receive data true e = (.ok (), s', e')) (rest : List Incoming) :
    s.intake e (.message data :: rest) = (⟨[data], none⟩ : Intake).andThen (s'.intake e' rest) := by
  simp only [intake, taken]
  rfl

theorem intake_of_refused {error : UploadError}
    (refused : s.receive data true e = (.error error, s', e')) (rest : List Incoming) :
    s.intake e (.message data :: rest) = ⟨[], some (.overlong (some data))⟩ := by
  simp only [intake, refused]

theorem intake_of_lost (lost : s.receive data true e = (.lost, s', e')) (rest : List Incoming) :
    s.intake e (.message data :: rest) = ⟨[], some (.lost data)⟩ := by
  simp only [intake, lost]

end

/-- What becomes of a whole message. -/
inductive Received (s : Session) (e : Engine I) (data : Bytes) :
    Ending UploadError Unit × Session × Engine I → Prop
  | taken {text e'} (fits : data.size ≤ s.maxUpload) (replied : reply data e = (some text, e')) :
      Received s e data
        (.ok (), { s with buffer := .empty, outbox := (s.outbox.push text).2 }, e')
  | lost {e'} (fits : data.size ≤ s.maxUpload) (lost : reply data e = (none, e')) :
      Received s e data (.lost, { s with buffer := .empty }, e')
  | overlong (long : s.maxUpload < data.size) :
      Received s e data (.error (.tooLarge s.maxUpload data.size), s.ended, e)

theorem received (opened : s.closed = false) (fresh : s.buffer = .empty) (data : Bytes)
    (e : Engine I) : Received s e data (s.receive data true e) := by
  have hsize : s.buffer.size + data.size = data.size := by
    rw [fresh, ByteArray.size_empty, Nat.zero_add]
  have hwhole : s.buffer ++ data = data := by rw [fresh, ByteArray.empty_append]
  rcases Nat.lt_or_ge s.maxUpload data.size with long | fits
  · rw [receive_of_overlong opened (by rwa [hsize]), hsize]
    exact .overlong long
  · rcases hreply : reply data e with ⟨_ | text, e'⟩
    · rw [receive_of_lost opened (by rwa [hsize]) (by rwa [hwhole])]
      exact .lost fits hreply
    · rw [receive_of_reply opened (by rwa [hsize]) (by rwa [hwhole])]
      exact .taken fits hreply

/-- A session takes what there is to take, unless an upload is lost. By induction on what
arrives. -/
theorem intake_cut (opened : s.closed = false) (fresh : s.buffer = .empty) (e : Engine I)
    (arrived : List Incoming) :
    (Incoming.intake s.maxUpload arrived).Cut (s.intake e arrived) := by
  induction arrived generalizing s e with
  | nil => exact .whole
  | cons first rest ih =>
    cases first with
    | control | nothing => exact ih opened fresh e
    | tooLong | ended | failed => exact .whole
    | message data =>
      have hreceived := received opened fresh data e
      rw [Incoming.intake]
      generalize houtcome : s.receive data true e = outcome at hreceived
      cases hreceived with
      | overlong long =>
        rw [if_pos long, intake_of_refused houtcome]
        exact .whole
      | lost fits hlost =>
        rw [if_neg (Nat.not_lt.mpr fits), intake_of_lost houtcome]
        exact .lost [] data _ _ rfl
      | @taken text e' fits hreply =>
        rw [if_neg (Nat.not_lt.mpr fits), intake_of_taken houtcome]
        exact .andThen (k := ⟨[data], none⟩) .whole
          (ih (s := { s with buffer := .empty, outbox := (s.outbox.push text).2 }) opened rfl e')

/-- Takes some whole messages. -/
def takeAll (s : Session) (messages : List Bytes) (e : Engine I) :
    List (Ending UploadError Unit) × Session × Engine I :=
  s.receiveAll e (messages.map (·, true))

/-- A session never forgets that it has dropped a reply. -/
theorem dropped_le_receive (s : Session) (data : Bytes) (isLast : Bool) (e : Engine I) :
    s.outbox.dropped ≤ (s.receive data isLast e).2.1.outbox.dropped := by
  simp only [receive]
  split
  · exact Nat.le_refl _
  · split
    · exact Nat.le_refl _
    · split
      · split
        · simp only [Outbox.push]
          split
          · exact Nat.le_succ _
          · exact Nat.le_refl _
        · exact Nat.le_refl _
      · exact Nat.le_refl _

theorem dropped_le_takeAll (s : Session) (messages : List Bytes) (e : Engine I) :
    s.outbox.dropped ≤ (s.takeAll messages e).2.1.outbox.dropped := by
  induction messages generalizing s e with
  | nil => exact Nat.le_refl _
  | cons data rest ih => exact Nat.le_trans (s.dropped_le_receive data true e) (ih _ _)

/-! ### The uses of a session -/

/-- The chunks that a session is given in some uses. -/
def given (inputs : List (Input I)) : List Bytes :=
  inputs.filterMap fun
    | .receive chunk _ _ => some chunk
    | .nextReply => none

/-- What becomes of the chunks. -/
def results (outputs : List Output) : List (Ending UploadError Unit) :=
  outputs.filterMap fun
    | .received result _ => some result
    | .replied _ => none

/-- The replies to the messages that a session is given whole. -/
def replies (inputs : List (Input I)) : List String :=
  inputs.filterMap fun
    | .receive message _ e => (reply message e).1
    | .nextReply => none

theorem given_append (front rest : List (Input I)) :
    given (front ++ rest) = given front ++ given rest := List.filterMap_append

theorem results_append (front rest : List Output) :
    results (front ++ rest) = results front ++ results rest := List.filterMap_append

theorem taken_append (front rest : List Output) :
    taken (front ++ rest) = taken front ++ taken rest := List.filterMap_append

theorem answers_append (front rest : List Output) :
    answers (front ++ rest) = answers front ++ answers rest := List.filterMap_append

theorem replies_append (front rest : List (Input I)) :
    replies (front ++ rest) = replies front ++ replies rest := List.filterMap_append

theorem history_append (s : Session) (front rest : List (Input I)) :
    s.history (front ++ rest) =
      ((s.history front).1 ++ ((s.history front).2.history rest).1,
        ((s.history front).2.history rest).2) := by
  induction front generalizing s with
  | nil => rfl
  | cons input front ih => simp only [List.cons_append, history, ih]

/-- The uses that take some whole messages one after the other. -/
def receives (s : Session) (e : Engine I) : List Bytes → List (Input I)
  | [] => []
  | data :: rest =>
    .receive data true e :: (s.receive data true e).2.1.receives (s.receive data true e).2.2 rest

@[simp] theorem given_receives (s : Session) (e : Engine I) (messages : List Bytes) :
    given (s.receives e messages) = messages := by
  induction messages generalizing s e with
  | nil => rfl
  | cons data rest ih => exact congrArg (data :: ·) (ih _ _)

/-- The uses have the session in the end that has taken the messages. No reply leaves. -/
theorem history_receives (s : Session) (e : Engine I) (messages : List Bytes) :
    (s.history (s.receives e messages)).2 = (s.takeAll messages e).2.1 ∧
      taken (s.history (s.receives e messages)).1 = [] := by
  induction messages generalizing s e with
  | nil => exact ⟨rfl, rfl⟩
  | cons data rest ih => exact ih (s.receive data true e).2.1 (s.receive data true e).2.2

/-- What the uses of a session come to that is given what is taken of what arrives. All messages
that are taken have the replies to them, and so the one with which it stops may have none. -/
structure Used (s : Session) (k : Intake) (inputs : List (Input I)) : Prop where
  given : given inputs = k.handed
  results : results (s.history inputs).1 = k.results s.maxUpload
  answers : (answers (s.history inputs).1).map Answer.reply =
    (replies inputs).take k.messages.length
  replied : k.stop = none → (replies inputs).length = k.messages.length
  cap : (s.history inputs).2.maxUpload = s.maxUpload
  fresh : (s.history inputs).2.buffer = .empty
  opened : k.stop = none → (s.history inputs).2.closed = false

namespace Used

variable {k l : Intake} {inputs more : List (Input I)}

/-- Nothing is taken, and nothing has to be said about what stops it. -/
theorem nothing (opened : s.closed = false) (fresh : s.buffer = .empty) {stop : Option Stop}
    (silent : (⟨[], stop⟩ : Intake).shown = [])
    (unsaid : (⟨[], stop⟩ : Intake).lastResult s.maxUpload = []) :
    Used s ⟨[], stop⟩ ([] : List (Input I)) where
  given := silent.symm
  results := unsaid.symm
  answers := rfl
  replied := fun _ => rfl
  cap := rfl
  fresh := fresh
  opened := fun _ => opened

/-- As long as nothing stops it, a session may be given more. -/
theorem append (used : Used s k inputs) (goes : k.stop = none)
    (next : Used (s.history inputs).2 l more) : Used s (k.andThen l) (inputs ++ more) := by
  have hshown := Intake.shown_of_goes goes
  have hlast := Intake.lastResult_of_goes goes s.maxUpload
  have hreplied := used.replied goes
  rw [Intake.andThen_of_goes goes]
  constructor
  · rw [given_append, used.given, next.given, Intake.handed, hshown, List.append_nil]
    exact (List.append_assoc _ _ _).symm
  · rw [history_append, results_append, used.results, next.results, used.cap, Intake.results,
      Intake.results, Intake.results, hlast, List.append_nil, ← List.append_assoc,
      List.replicate_append_replicate, List.length_append]
    rfl
  · rw [history_append, answers_append, List.map_append, used.answers, next.answers,
      replies_append, List.length_append, ← hreplied, List.take_length,
      List.take_length_add_append]
  · intro hgoes
    rw [replies_append, List.length_append, List.length_append, hreplied, next.replied hgoes]
  · rw [history_append]
    exact next.cap.trans used.cap
  · rw [history_append]
    exact next.fresh
  · rw [history_append]
    exact next.opened

end Used

/-- What the use comes to that gives a session a whole message. -/
theorem used_receive (opened : s.closed = false) (fresh : s.buffer = .empty) (data : Bytes)
    (e : Engine I) : Used s (s.intake e [.message data]) [.receive data true e] := by
  have hreceived := received opened fresh data e
  have hbuffer : s.buffer ++ data = data := by rw [fresh, ByteArray.empty_append]
  have hhistory : s.history [.receive data true e] =
      ([.received (s.receive data true e).1 (s.answer? data true e)],
        (s.receive data true e).2.1) := rfl
  have hreplies : replies [.receive data true e] = (reply data e).1.toList := by
    simp only [replies, List.filterMap_cons, List.filterMap_nil]
    cases (reply data e).1 <;> rfl
  generalize houtcome : s.receive data true e = outcome at hreceived hhistory
  cases hreceived with
  | overlong long =>
    have hanswer : s.answer? data true e = none := by simp only [answer?, houtcome]
    rw [hanswer] at hhistory
    rw [intake_of_refused houtcome]
    exact ⟨rfl, by rw [hhistory]; rfl, by rw [hhistory]; rfl, (absurd · (Option.some_ne_none _)),
      by rw [hhistory]; rfl, by rw [hhistory]; rfl, (absurd · (Option.some_ne_none _))⟩
  | lost fits hlost =>
    have hanswer : s.answer? data true e = none := by simp only [answer?, houtcome]
    rw [hanswer] at hhistory
    rw [intake_of_lost houtcome]
    exact ⟨rfl, by rw [hhistory]; rfl, by rw [hhistory]; rfl, (absurd · (Option.some_ne_none _)),
      by rw [hhistory], by rw [hhistory], (absurd · (Option.some_ne_none _))⟩
  | @taken text e' fits hreply =>
    have hanswer : s.answer? data true e = some ⟨text, (s.outbox.push text).1⟩ := by
      simp only [answer?, houtcome, hbuffer, hreply, Option.map_some]
    rw [hanswer] at hhistory
    rw [hreply] at hreplies
    rw [intake_of_taken houtcome]
    exact ⟨rfl, by rw [hhistory]; rfl, by rw [hhistory, hreplies]; rfl,
      fun _ => by rw [hreplies]; rfl, by rw [hhistory], by rw [hhistory],
      fun _ => by rw [hhistory]; exact opened⟩

/-- What a session takes of what arrives it is given, each message once and in order, and it replies
to all of them but the one with which it stops. By induction on what arrives. -/
theorem used_intake (opened : s.closed = false) (fresh : s.buffer = .empty) (e : Engine I)
    (arrived : List Incoming) :
    Used s (s.intake e arrived) (s.receives e (s.intake e arrived).handed) := by
  induction arrived generalizing s e with
  | nil => exact .nothing opened fresh rfl rfl
  | cons first rest ih =>
    cases first with
    | control | nothing => exact ih opened fresh e
    | tooLong | ended | failed => exact .nothing opened fresh rfl rfl
    | message data =>
      have hused := used_receive opened fresh data e
      have hreceived := received opened fresh data e
      have hmore (rest : List Bytes) : s.receives e (data :: rest) =
          [.receive data true e] ++
            (s.receive data true e).2.1.receives (s.receive data true e).2.2 rest := rfl
      have hafter : (s.history [.receive data true e]).2 = (s.receive data true e).2.1 := rfl
      generalize houtcome : s.receive data true e = outcome at hreceived hmore hafter
      cases hreceived with
      | overlong long =>
        rw [intake_of_refused houtcome] at hused ⊢
        exact hused
      | lost fits hlost =>
        rw [intake_of_lost houtcome] at hused ⊢
        exact hused
      | @taken text e' fits hreply =>
        have hrest := ih (s := (s.history [.receive data true e]).2) (by rw [hafter]; exact opened)
          (by rw [hafter]) e'
        rw [intake_of_taken houtcome] at hused ⊢
        have happend := hused.append rfl hrest
        rw [hafter, ← hmore] at happend
        exact happend

end Session

end PixelHost
