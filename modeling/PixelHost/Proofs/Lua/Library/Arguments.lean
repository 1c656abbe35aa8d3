import PixelHost.Lua.Library.Argument
import PixelHost.Proofs.Lua.Operations

/-!
# Arguments of library functions in a realm

Reading an argument stays in a realm that the arguments lie in, also if the argument is not as it
must be.

## Main results

* `Lua.Args.integer_stays`, `Lua.Args.number_stays`, `Lua.Args.string_stays`,
  `Lua.Args.table_stays` — an argument of a kind.
-/

namespace PixelHost.Lua.Args

variable {ρ : Realm} {α : Type} {Q : α → Prop} {args : Args} (h : ρ.values args)

include h

theorem value_val (n : Nat) : ρ.value (args.val n) := h.getD _

theorem any_stays (n : Nat) : Stays ρ ρ.value (args.any n) :=
  .ite (fun _ => Run.badArgument_stays _ _) fun _ => .pure (value_val h n)

theorem noInteger_stays (n : Nat) : Stays ρ Q (args.noInteger n : Run α) :=
  .ite (fun _ => Run.badArgument_stays _ _) fun _ => Run.badType_stays h _ _

theorem integer_stays (n : Nat) : Stays ρ Plain (args.integer n) := by
  unfold integer
  split
  · exact .plain _
  · split
    · exact .plain _
    · exact noInteger_stays h n

theorem integerOr_stays (n : Nat) (absent : Int64) : Stays ρ Plain (args.integerOr n absent) :=
  .ite (fun _ => .plain _) fun _ => integer_stays h n

theorem numeral_stays (n : Nat) : Stays ρ Plain (args.numeral n) := by
  unfold numeral
  split
  · exact .plain _
  · exact Run.badType_stays h _ _

theorem number_stays (n : Nat) : Stays ρ Plain (args.number n) :=
  (numeral_stays h n).bind fun _ _ => .plain _

theorem numberOr_stays (n : Nat) (absent : Float) : Stays ρ Plain (args.numberOr n absent) :=
  .ite (fun _ => .plain _) fun _ => number_stays h n

theorem string_stays (n : Nat) : Stays ρ Plain (args.string n) := by
  unfold string
  split
  · exact .plain _
  · exact Run.badType_stays h _ _

theorem stringOr_stays (n : Nat) (absent : Bytes) : Stays ρ Plain (args.stringOr n absent) :=
  .ite (fun _ => .plain _) fun _ => string_stays h n

theorem table_stays (n : Nat) : Stays ρ ρ.table (args.table n) := by
  have hv := value_val h n
  unfold table
  generalize args.val n = v at hv
  split
  · exact .pure hv
  · exact Run.badType_stays h _ _

theorem function_stays (n : Nat) : Stays ρ ρ.value (args.function n) :=
  .ite (fun _ => .pure (value_val h n)) fun _ => Run.badType_stays h _ _

omit h

theorem require_stays (n : Nat) (condition : Bool) (message : String) :
    Stays ρ Plain (require n condition message) :=
  .ite (fun _ => .plain _) fun _ => Run.badArgument_stays _ _

end PixelHost.Lua.Args
