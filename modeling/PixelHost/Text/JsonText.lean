import PixelHost.Text.ShortestDecimal

/-!
# JSON texts

Values and their compact text. The names of an object are written in the order of their bytes.

## Main definitions

* `JsonValue` — the values.
* `JsonValue.text` — the text of a value.
-/

namespace PixelHost

/-- A value. -/
inductive JsonValue where
  | null
  | bool (b : Bool)
  | int (n : Int)
  | double (x : Float)
  | string (s : String)
  | array (items : List JsonValue)
  | object (fields : List (String × JsonValue))
  deriving Inhabited

namespace JsonValue

/-- A hexadecimal digit. -/
def hexDigit (n : Nat) : Char := Nat.digitChar n

/-- The text of a character within a string. -/
def escape (c : Char) : String :=
  match c with
  | '"' => "\\\""
  | '\\' => "\\\\"
  | '\n' => "\\n"
  | '\r' => "\\r"
  | '\t' => "\\t"
  | '\x08' => "\\b"
  | '\x0c' => "\\f"
  | c =>
    if c.toNat < 32 then
      "\\u00" ++ String.ofList [hexDigit (c.toNat / 16), hexDigit (c.toNat % 16)]
    else String.singleton c

/-- The text of a string. -/
def quoted (s : String) : String := "\"" ++ s.foldl (fun t c => t ++ escape c) "" ++ "\""

/-- The fields of an object in the order of their names. -/
def sorted {α : Type} (fields : List (String × α)) : List (String × α) :=
  fields.mergeSort fun a b => a.1 ≤ b.1

/-- Parts with commas in between. -/
def joined (parts : List String) : String := ",".intercalate parts

mutual

/-- The text of a value. -/
def text : JsonValue → String
  | null => "null"
  | bool b => if b then "true" else "false"
  | int n => toString n
  | double x => ShortestDecimal.text x
  | string s => quoted s
  | array items => "[" ++ joined (itemTexts items) ++ "]"
  | object fields =>
    let texts := sorted (fieldTexts fields)
    "\x7b" ++ joined (texts.map fun (name, value) => quoted name ++ ":" ++ value) ++ "\x7d"

/-- The texts of the items of an array. -/
def itemTexts : List JsonValue → List String
  | [] => []
  | v :: rest => text v :: itemTexts rest

/-- The names of the fields of an object with the texts of their values. -/
def fieldTexts : List (String × JsonValue) → List (String × String)
  | [] => []
  | (name, v) :: rest => (name, text v) :: fieldTexts rest

end

end JsonValue

end PixelHost
