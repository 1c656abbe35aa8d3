import PixelHost.Bytes

/-!
# Base64

Three bytes are written as four characters of an alphabet of 64. A last group that is shorter is
filled up with equals signs.

## Main definitions

* `Base64.encode` — the text for some bytes.
-/

namespace PixelHost.Base64

/-- The alphabet. -/
def alphabet : Array Char :=
  "ABCDEFGHIJKLMNOPQRSTUVWXYZabcdefghijklmnopqrstuvwxyz0123456789+/".toList.toArray

/-- The character for six bits. -/
def digit (n : Nat) : Char := alphabet.getD (n % 64) 'A'

/-- The characters for bytes. -/
def encodeList : List UInt8 → List Char
  | a :: b :: c :: rest =>
    let n := (a.toNat * 256 + b.toNat) * 256 + c.toNat
    digit (n / 262144) :: digit (n / 4096) :: digit (n / 64) :: digit n :: encodeList rest
  | [a, b] =>
    let n := (a.toNat * 256 + b.toNat) * 256
    [digit (n / 262144), digit (n / 4096), digit (n / 64), '=']
  | [a] =>
    let n := a.toNat * 65536
    [digit (n / 262144), digit (n / 4096), '=', '=']
  | [] => []

/-- The text for some bytes. -/
def encode (bytes : Bytes) : String := String.ofList (encodeList bytes.data.toList)

end PixelHost.Base64
