import PixelHost.Lua.Library.Strings
import PixelHost.Proofs.Lua.Library.Arguments

/-!
# The string library in a realm

The functions of `string` work on strings. A replacement may be a table or a function, and an
iteration over matches keeps its state at a place of the heap.

## Main results

* `Lua.Library.Packing.pack_stays`, `Lua.Library.Packing.unpack_stays` — packed values.
* `Lua.Library.Format.run_stays` — formatting.
* `Lua.Library.Strings.run_stays` — the functions of `string`.
-/

namespace PixelHost.Lua.Library

open Run

variable {ρ : Realm} {α : Type} {c : Caller} {args : Args}

/-! ### Packed values -/

namespace Packing

theorem takeIntSize_stays (absent : Nat) (format : List UInt8) :
    Stays ρ Plain (takeIntSize absent format) := by
  unfold takeIntSize
  cases takeNumber none format
  exact .whenThen (fail_stays _) (.plain _)

theorem takeOption_stays (layout : Layout) (opt : UInt8) (rest : List UInt8) :
    Stays ρ Plain (takeOption layout opt rest) := by
  unfold takeOption
  extract_lets plain
  split
  all_goals first
    | exact .plain _
    | exact (takeIntSize_stays _ _).bind fun _ _ => .plain _
    | exact raiseAtCaller_stays _
    | skip
  -- What is left is the option whose size must be given.
  split
  · exact .plain _
  · exact fail_stays _

theorem takeItem_stays (layout : Layout) (total : Nat) (opt : UInt8) (rest : List UInt8) :
    Stays ρ Plain (takeItem layout total opt rest) := by
  refine (takeOption_stays _ _ _).bind fun option _ => ?_
  split
  next kind size layout rest =>
  extract_lets aligned
  have haligned (p : Nat × List UInt8) : Stays ρ Plain (aligned p) :=
    .ite (fun _ => .plain _) fun _ => .whenThen (badArgument_stays _ _) (.plain _)
  refine .ite (fun _ => ?_) fun _ => (Stays.plain _).bind fun _ _ => haligned _
  split
  · exact (badArgument_stays _ _).stops
  · refine (takeOption_stays _ _ _).bind fun next _ => ?_
    exact .whenThen (badArgument_stays _ _) ((Stays.plain _).bind fun _ _ => haligned _)

variable (h : ρ.values args)

include h

theorem packFrom_stays (layout : Layout) (n : Nat) (acc : Bytes) (next : Nat)
    (format : List UInt8) : Stays ρ Plain (packFrom args layout n acc next format) := by
  induction n generalizing layout acc next format with
  | zero =>
    cases format with
    | nil => exact .plain _
    | cons opt rest => exact .plain _
  | succ n ih =>
    cases format with
    | nil => exact .plain _
    | cons opt rest =>
      refine (takeItem_stays _ _ _ _).bind fun item _ => ?_
      extract_lets acc size little put
      have hput (bytes : List UInt8) : Stays ρ Plain (put bytes) := ih _ _ _ _
      split
      · exact (Args.integer_stays h _).bind fun i _ => .whenThen (Args.require_stays _ _ _) (hput _)
      · exact (Args.integer_stays h _).bind fun i _ => .whenThen (Args.require_stays _ _ _) (hput _)
      · exact (Args.number_stays h _).bind fun x _ => hput _
      · exact (Args.number_stays h _).bind fun x _ => hput _
      · exact (Args.string_stays h _).bind fun _ _ => (Args.require_stays _ _ _).andThen (hput _)
      · exact (Args.string_stays h _).bind fun _ _ => (Args.require_stays _ _ _).andThen (hput _)
      · exact (Args.string_stays h _).bind fun _ _ => (Args.require_stays _ _ _).andThen (hput _)
      · exact ih _ _ _ _
      · exact ih _ _ _ _
      · exact ih _ _ _ _

theorem pack_stays : Stays ρ ρ.values (pack args) :=
  (Args.string_stays h 1).bind fun _ _ => (packFrom_stays h _ _ _ _ _).bind fun _ _ =>
    (newString_stays _).bind fun _ hs => .pure (.one hs)

omit h in
theorem sizeFrom_stays (layout : Layout) (n total : Nat) (format : List UInt8) :
    Stays ρ Plain (sizeFrom layout n total format) := by
  induction n generalizing layout total format with
  | zero =>
    cases format with
    | nil => exact .plain _
    | cons opt rest => exact .plain _
  | succ n ih =>
    cases format with
    | nil => exact .plain _
    | cons opt rest =>
      exact (takeItem_stays _ _ _ _).bind fun item _ => (Args.require_stays _ _ _).andThen <|
        (Args.require_stays _ _ _).andThen (ih _ _ _)

theorem size_stays : Stays ρ ρ.values (size args) :=
  (Args.string_stays h 1).bind fun _ _ => (sizeFrom_stays _ _ _ _).bind fun _ _ =>
    .pure (.one (Realm.value_int _))

omit h in
theorem readInteger_stays (bytes : List UInt8) (little signed : Bool) :
    Stays ρ Plain (readInteger bytes little signed) := by
  refine .ite (fun _ => .ite (fun _ => .plain _) fun _ => .plain _) fun _ =>
    .ite (fun _ => .plain _) fun _ => fail_stays _

omit h in
theorem unpackFrom_stays (data : Bytes) (layout : Layout) (n : Nat) {acc : Array Value}
    (hacc : ρ.values acc) (pos : Nat) (format : List UInt8) :
    Stays ρ ρ.values (unpackFrom data layout n acc pos format) := by
  induction n generalizing layout acc pos format with
  | zero =>
    cases format with
    | nil => exact .pure (hacc.push (Realm.value_int _))
    | cons opt rest => exact .pure hacc
  | succ n ih =>
    cases format with
    | nil => exact .pure (hacc.push (Realm.value_int _))
    | cons opt rest =>
      refine (takeItem_stays _ _ _ _).bind fun item _ => (Args.require_stays _ _ _).andThen ?_
      extract_lets pos size little bytes give
      have hgive {v : Value} (hv : ρ.value v) (pos : Nat) : Stays ρ ρ.values (give v pos) :=
        ih _ (hacc.push hv) _ _
      split
      · exact (readInteger_stays _ _ _).bind fun _ _ => hgive (Realm.value_int _) _
      · exact (readInteger_stays _ _ _).bind fun _ _ => hgive (Realm.value_int _) _
      · exact hgive (Realm.value_num _) _
      · exact hgive (Realm.value_num _) _
      · exact hgive (Realm.value_str _) _
      · exact (readInteger_stays _ _ _).bind fun _ _ => (Args.require_stays _ _ _).andThen
          (hgive (Realm.value_str _) _)
      · split
        · exact hgive (Realm.value_str _) _
        · exact badArgument_stays _ _
      · exact ih _ hacc _ _
      · exact ih _ hacc _ _
      · exact ih _ hacc _ _

theorem unpack_stays : Stays ρ ρ.values (unpack args) :=
  (Args.string_stays h 1).bind fun _ _ => (Args.string_stays h 2).bind fun _ _ =>
    (Args.integerOr_stays h 3 _).bind fun _ _ => (Args.require_stays _ _ _).andThen
    (unpackFrom_stays _ _ _ .empty _ _)

end Packing

/-! ### Formatting -/

namespace Format

theorem parse_stays (s : Spec) (flags : List Char) (withPrecision : Bool) :
    Stays ρ Plain (parse s flags withPrecision) := by
  unfold parse
  split
  · exact .plain _
  · exact fail_stays _

theorem literal_stays (v : Value) (position : Nat) : Stays ρ Plain (literal v position) := by
  unfold literal
  split
  · exact .plain _
  · exact .ite (fun _ => .plain _) fun _ => .plain _
  · exact .ite (fun _ => .plain _) fun _ => .ite (fun _ => .plain _) fun _ => .plain _
  · exact .plain _
  · exact .plain _
  · exact badArgument_stays _ _

variable (hc : ρ.caller c) (h : ρ.values args)

include hc h

theorem convert_stays (s : Spec) (position : Nat) : Stays ρ Plain (convert c s args position) := by
  have hinteger (f : Int64 → NumberFormat → Bytes) (flags : List Char) : Stays ρ Plain (do
      let n ← args.integer position
      return f n (← parse s flags true)) :=
    (Args.integer_stays h _).bind fun _ _ => (parse_stays _ _ _).bind fun _ _ => .plain _
  unfold convert
  extract_lets float
  have hfloat (kind : FloatNotation) (upper : Bool) : Stays ρ Plain (float kind upper) :=
    (Args.number_stays h _).bind fun _ _ => (parse_stays _ _ _).bind fun _ _ => .plain _
  split
  all_goals first
    | exact hfloat _ _
    | exact hinteger _ _
    | skip
  · exact (parse_stays _ _ _).bind fun _ _ => (Args.integer_stays h _).bind fun _ _ => .plain _
  · exact (parse_stays _ _ _).bind fun _ _ => (Args.number_stays h _).bind fun _ _ => .plain _
  · exact (parse_stays _ _ _).bind fun _ _ => (Args.number_stays h _).bind fun _ _ => .plain _
  · exact (parse_stays _ _ _).bind fun _ _ => .plain _
  · exact .unlessThen (fail_stays _) (literal_stays _ _)
  · exact (Caller.textOf_stays hc (Args.value_val h _)).bind fun _ _ =>
      .ite (fun _ => .plain _) fun _ => (Args.require_stays _ _ _).andThen <|
        (parse_stays _ _ _).bind fun _ _ => .ite (fun _ => .plain _) fun _ => .plain _
  · exact fail_stays _

theorem formatFrom_stays (n : Nat) (acc : Bytes) (next : Nat) (format : List UInt8) :
    Stays ρ Plain (formatFrom c args n acc next format) := by
  induction n generalizing acc next format with
  | zero =>
    unfold formatFrom
    split <;> exact .plain _
  | succ n ih =>
    unfold formatFrom
    split
    · exact .plain _
    · exact ih _ _ _
    · refine .whenThen (badArgument_stays _ _) <| .whenThen (fail_stays _) ?_
      dsimp only
      split
      · exact fail_stays _
      · exact (convert_stays hc h _ _).bind fun _ _ => ih _ _ _
    · exact ih _ _ _

theorem run_stays : Stays ρ ρ.values (run c args) :=
  (Args.string_stays h 1).bind fun _ _ => (formatFrom_stays hc h _ _ _ _).bind fun _ _ =>
    (demand_stays _).andThen <| (newString_stays _).bind fun _ hs => .pure (.one hs)

end Format

/-! ### Strings -/

namespace Strings

theorem checked_stays (result : Except Pattern.Fault α) : Stays ρ Plain (checked result) := by
  unfold checked
  split
  · exact .plain _
  · exact fail_stays _

theorem partValue_stays (part : Pattern.Part) : Stays ρ ρ.value (partValue part) := by
  cases part with
  | text s => exact newString_stays s
  | position n => exact .pure (Realm.value_int _)

theorem captureValues_stays (s : Bytes) (first last : Nat) (captures : Array Pattern.Capture) :
    Stays ρ ρ.values (captureValues s first last captures) := by
  refine (checked_stays _).bind fun parts _ => (Stays.mapM parts fun _ _ =>
    partValue_stays _).bind fun vs hvs => .pure fun v hv => ?_
  exact hvs v (List.mem_toArray.mp hv)

/-- A number of places of text. -/
theorem values_map {β : Type} (xs : Array β) (f : β → Value) (hf : ∀ b, ρ.value (f b)) :
    ρ.values (xs.map f) := by
  intro v hv
  obtain ⟨b, -, rfl⟩ := Array.mem_map.mp hv
  exact hf b

variable (h : ρ.values args)

include h

theorem byte_stays : Stays ρ ρ.values (byte args) :=
  (Args.string_stays h 1).bind fun _ _ => (Args.integerOr_stays h 2 _).bind fun _ _ =>
    (Args.integerOr_stays h 3 _).bind fun _ _ => .pure (values_map _ _ fun _ => Realm.value_int _)

theorem char_stays : Stays ρ ρ.values (char args) :=
  (Stays.mapM (R := Plain) _ fun _ _ => (Args.integer_stays h _).bind fun _ _ =>
    (Args.require_stays _ _ _).andThen (.plain _)).bind fun _ _ =>
      (newString_stays _).bind fun _ hs => .pure (.one hs)

theorem rep_stays : Stays ρ ρ.values (rep args) :=
  (Args.string_stays h 1).bind fun _ _ => (Args.integer_stays h 2).bind fun _ _ =>
    (Args.stringOr_stays h 3 _).bind fun _ _ => .ite (fun _ => .pure (.one (Realm.value_str _)))
      fun _ => .whenThen (fail_stays _) <| (demand_stays _).andThen <|
        (newString_stays _).bind fun _ hs => .pure (.one hs)

theorem sub_stays : Stays ρ ρ.values (sub args) :=
  (Args.string_stays h 1).bind fun _ _ => (Args.integer_stays h 2).bind fun _ _ =>
    (Args.integerOr_stays h 3 _).bind fun _ _ =>
      .ite (fun _ => (newString_stays _).bind fun _ hs => .pure (.one hs))
        fun _ => .pure (.one (Realm.value_str _))

theorem search_stays (places : Bool) : Stays ρ ρ.values (search args places) := by
  refine (Args.string_stays h 1).bind fun s _ => (Args.string_stays h 2).bind fun p _ =>
    (Args.integerOr_stays h 3 _).bind fun _ _ => .ite (fun _ => .pure (.one Realm.value_nil))
      fun _ => .ite (fun _ => ?_) fun _ => (checked_stays _).bind fun found _ => ?_
  · split
    · exact .pure (.two (Realm.value_int _) (Realm.value_int _))
    · exact .pure (.one Realm.value_nil)
  · split
    · exact .pure (.one Realm.value_nil)
    · refine .ite (fun _ => ?_) fun _ => captureValues_stays _ _ _ _
      have hplaces {vs : Array Value} (hvs : ρ.values vs) (i j : Nat) :
          ρ.values (#[.ofNat i, .ofNat j] ++ vs) :=
        .append (.two (Realm.value_int _) (Realm.value_int _)) hvs
      exact .ite (fun _ => (Stays.pure .empty).bind fun _ hvs => .pure (hplaces hvs _ _))
        fun _ => (captureValues_stays _ _ _ _).bind fun _ hvs => .pure (hplaces hvs _ _)

theorem gmatch_stays : Stays ρ ρ.values (gmatch args) := by
  refine (Args.string_stays h 1).bind fun s _ => (Args.string_stays h 2).bind fun p _ =>
    (Args.integerOr_stays h 3 _).bind fun start _ => (charge_stays _).andThen fun m heap agree => ?_
  let state : MatchState := ⟨s, p, if startPosition start s.size - 1 > s.size then s.size + 1
    else startPosition start s.size - 1, none⟩
  change ρ.Same _ _
    (.ok (#[.native (.matchStep m.iterations.size)] : Array Value)
      { m with iterations := m.iterations.push state })
    (.ok (#[.native (.matchStep heap.iterations.size)] : Array Value)
      { m.withHeap heap with iterations := heap.iterations.push state })
  rw [agree.iterations.size]
  exact .ok (h := { heap with iterations := heap.iterations.push state })
    (.one (agree.iterations.fresh _ (Nat.le_refl _)))
    { agree with
      iterations := agree.iterations.push trivial
      core := agree.core.of_eq rfl rfl rfl rfl rfl rfl rfl rfl rfl
      same := fun e => by rw [agree.same e]; rfl } id

omit h in
theorem matchFrom_stays {i : Nat} (hi : ρ.iteration i) (state : MatchState) :
    Stays ρ ρ.values (matchFrom i state) := by
  refine (checked_stays _).bind fun found _ => ?_
  split
  · exact .pure .empty
  · refine .andThen (P := Plain) (.change (fun _ => rfl) fun m h agree =>
      ⟨{ h with iterations := h.iterations.setIfInBounds i _ }, rfl, ?_⟩)
      (captureValues_stays _ _ _ _)
    exact { agree with
      iterations := agree.iterations.set hi trivial
      core := agree.core.of_eq rfl rfl rfl rfl rfl rfl rfl rfl rfl
      same := fun e => by rw [agree.same e]; rfl }

omit h in
theorem matchStep_stays {i : Nat} (hi : ρ.iteration i) : Stays ρ ρ.values (matchStep i) := by
  intro m heap agree
  change ρ.Same _ _ (matchFrom i (m.iterations.getD i default) m)
    (matchFrom i (heap.iterations.getD i default) (m.withHeap heap))
  rw [agree.iterations.same i hi]
  exact matchFrom_stays hi _ m heap agree

omit h in
theorem replacementText_stays (v : Value) : Stays ρ Plain (replacementText v) := by
  refine .ite (fun _ => .plain _) fun _ => ?_
  split
  · exact .plain _
  · exact fail_stays _

variable (hc : ρ.caller c)

include hc

omit h in
theorem replacementFor_stays (s : Bytes) (first last : Nat) (captures : Array Pattern.Capture)
    {replacement : Value} (hreplacement : ρ.value replacement) :
    Stays ρ Plain (replacementFor c s first last captures replacement) := by
  unfold replacementFor
  extract_lets replaced
  have hreplaced (v : Value) : Stays ρ Plain (replaced v) := by
    simp only [replaced]
    split
    · exact replacementText_stays v
    · exact replacementText_stays v
    · exact replacementText_stays v
    · exact (checked_stays _).bind fun _ _ => .plain _
  split
  · exact (captureValues_stays _ _ _ _).bind fun _ hvs =>
      (Caller.callOne_stays hc hreplacement hvs).bind fun _ _ => hreplaced _
  · exact (captureValues_stays _ _ _ _).bind fun _ hvs =>
      (Caller.callOne_stays hc hreplacement hvs).bind fun _ _ => hreplaced _
  · exact (checked_stays _).bind fun _ _ => (partValue_stays _).bind fun _ hkey =>
      (Caller.element_stays hc hreplacement hkey).bind fun _ _ => hreplaced _
  · exact (Stays.plain _).bind fun _ _ => hreplaced _

omit h in
theorem replaceFrom_stays (s p : Bytes) {replacement : Value} (hreplacement : ρ.value replacement)
    (limit : Int64) (start : Nat) (anchored : Bool) (n : Nat) (r : Replacing) :
    Stays ρ Plain (replaceFrom c s p replacement limit start anchored n r) := by
  induction n generalizing r with
  | zero => exact .plain _
  | succ n ih =>
    refine .ite (fun _ => .plain _) fun _ => (checked_stays _).bind fun found _ => ?_
    extract_lets accepted
    generalize accepted = accepted
    split
    · exact (replacementFor_stays hc _ _ _ _ hreplacement).bind fun _ _ =>
        (demand_stays _).andThen <| .ite (fun _ => .plain _) fun _ => ih _
    · exact .ite (fun _ => .ite (fun _ => .plain _) fun _ => ih _) fun _ => .plain _

theorem gsub_stays : Stays ρ ρ.values (gsub c args) := by
  have hv := Args.value_val h 3
  refine (Args.string_stays h 1).bind fun s _ => (Args.string_stays h 2).bind fun p _ =>
    (Args.integerOr_stays h 4 _).bind fun limit _ => ?_
  extract_lets anchored start replaced
  have hreplaced : Stays ρ ρ.values (replaced ()) :=
    (replaceFrom_stays hc _ _ hv _ _ _ _ _).bind fun r _ =>
      .ite (fun _ => (newString_stays _).bind fun _ hs => .pure (.two hs (Realm.value_int _)))
        fun _ => .pure (.two (Realm.value_str _) (Realm.value_int _))
  split
  all_goals first
    | exact hreplaced
    | exact (badType_stays h _ _).stops

omit hc in
theorem mapBytes_stays (f : UInt8 → UInt8) : Stays ρ ρ.values (mapBytes args f) :=
  (Args.string_stays h 1).bind fun _ _ => (newString_stays _).bind fun _ hs => .pure (.one hs)

theorem run_stays (f : StringFn) : Stays ρ ρ.values (run c f args) := by
  cases f with
  | byte => exact byte_stays h
  | char => exact char_stays h
  | dump =>
    refine (Args.function_stays h 1).bind fun f _ => ?_
    split
    · exact (newString_stays _).bind fun _ hs => .pure (.one hs)
    · exact fail_stays _
  | find => exact search_stays h true
  | format => exact Format.run_stays hc h
  | gmatch => exact gmatch_stays h
  | gsub => exact gsub_stays h hc
  | len => exact (Args.string_stays h 1).bind fun _ _ => .pure (.one (Realm.value_int _))
  | lower => exact mapBytes_stays h _
  | «match» => exact search_stays h false
  | pack => exact Packing.pack_stays h
  | packsize => exact Packing.size_stays h
  | rep => exact rep_stays h
  | reverse =>
    exact (Args.string_stays h 1).bind fun _ _ => (newString_stays _).bind fun _ hs =>
      .pure (.one hs)
  | sub => exact sub_stays h
  | unpack => exact Packing.unpack_stays h
  | upper => exact mapBytes_stays h _

theorem arith_stays (f : StringArith) : Stays ρ ρ.values (arith c f args) := by
  have hx := Args.value_val h 1
  have hy := Args.value_val h 2
  unfold arith
  extract_lets x y resolved isString called
  have hresolved {outcome : Outcome} (h : ρ.outcome outcome) :
      Stays ρ ρ.values (resolved outcome) :=
    (Caller.resolve_stays hc h).bind fun _ hv => .pure (.one hv)
  have hcalled {h : Value} (hh : ρ.value h) : Stays ρ ρ.values (called h) :=
    .ite (fun _ => fail_stays _) fun _ => (Caller.callOne_stays hc hh (.two hx hy)).bind
      fun _ hv => .pure (.one hv)
  split
  · split
    · exact (arithmetic_stays _ (Realm.value_ofNumeral _) (Realm.value_ofNumeral _) _ _).bind
        fun _ h => hresolved h
    · exact (unary_stays _ (Realm.value_ofNumeral _) _).bind fun _ h => hresolved h
  · exact .ite (fun _ => (Stays.pure Realm.value_nil).bind fun _ hh => hcalled hh)
      fun _ => (metamethod_stays hy _).bind fun _ hh => hcalled hh

end Strings

end PixelHost.Lua.Library
