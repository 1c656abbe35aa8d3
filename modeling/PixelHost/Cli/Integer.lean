/-!
# Integers on a command line

An integer is written in decimal digits, with a sign in front of them or none. It is read from the
left, so of two faults the one further left is reported.

## Main definitions

* `Cli.IntegerFault` — why a text is no integer.
* `Cli.readInteger` — reads an integer of a range.
-/

namespace PixelHost.Cli

/-- Why a text is no integer. -/
inductive IntegerFault where
  | empty
  | strangeCharacter
  | tooLarge
  | tooSmall
  deriving DecidableEq, Repr, Inhabited

/-- The text of a fault. -/
def IntegerFault.text : IntegerFault → String
  | empty => "cannot parse integer from empty string"
  | strangeCharacter => "invalid digit found in string"
  | tooLarge => "number too large to fit in target type"
  | tooSmall => "number too small to fit in target type"

/-- The number that decimal digits stand for, if it does not exceed a bound on the way. -/
def readDigits (bound : Nat) (beyond : IntegerFault) (n : Nat) :
    List Char → Except IntegerFault Nat
  | [] => .ok n
  | c :: rest =>
    if !c.isDigit then .error .strangeCharacter
    else
      let n := n * 10 + (c.toNat - '0'.toNat)
      if n > bound then .error beyond else readDigits bound beyond n rest

/-- Reads an integer of a range. A minus sign is taken only if the range has negative numbers. -/
def readInteger (least : Int) (greatest : Nat) (text : String) : Except IntegerFault Int :=
  let positive (digits : List Char) : Except IntegerFault Int :=
    if digits.isEmpty then .error .strangeCharacter
    else (Int.ofNat ·) <$> readDigits greatest .tooLarge 0 digits
  match text.toList with
  | [] => .error .empty
  | '+' :: digits => positive digits
  | '-' :: digits =>
    if least < 0 && !digits.isEmpty then
      (fun n => -Int.ofNat n) <$> readDigits least.natAbs .tooSmall 0 digits
    else .error .strangeCharacter
  | digits => positive digits

end PixelHost.Cli
