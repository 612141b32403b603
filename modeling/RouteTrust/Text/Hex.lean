import RouteTrust.Text.CharLiteral
import RouteTrust.Text.Utf8

namespace RouteTrust.Text

/-- Why a text is not hexadecimal. -/
inductive HexError
  | oddLength
  | badDigit (byte : UInt8) (position : Nat)
  deriving DecidableEq, Repr

def HexError.message : HexError → String
  | .oddLength => "Odd number of digits"
  | .badDigit byte position =>
    "Invalid character " ++ charLiteral (Char.ofNat byte.toNat) ++ " at position " ++ toString position

/-- The two lower case digits of a byte, high digit first. -/
def hexPair (byte : UInt8) : List Char :=
  [Nat.digitChar (byte.toNat / 16), Nat.digitChar (byte.toNat % 16)]

/-- The hexadecimal digits of bytes. -/
def hexDigits (bytes : List UInt8) : List Char := bytes.flatMap hexPair

def hex (bytes : List UInt8) : String := String.ofList (hexDigits bytes)

/-- The value of one hexadecimal digit, given as an ASCII byte. -/
def hexDigitValue? (byte : UInt8) : Option UInt8 :=
  if 0x30 ≤ byte ∧ byte ≤ 0x39 then some (byte - 0x30)
  else if 0x61 ≤ byte ∧ byte ≤ 0x66 then some (byte - 0x61 + 10)
  else if 0x41 ≤ byte ∧ byte ≤ 0x46 then some (byte - 0x41 + 10)
  else none

/-- Reads the digits of one byte after another; `position` is that of the first digit. -/
def hexPairs : Nat → List UInt8 → Except HexError (List UInt8)
  | position, high :: low :: rest =>
    match hexDigitValue? high, hexDigitValue? low with
    | some h, some l => (hexPairs (position + 2) rest).map fun bytes => (h * 16 + l) :: bytes
    | none, _ => .error (.badDigit high position)
    | some _, none => .error (.badDigit low (position + 1))
  | _, _ => .ok []

/-- Reads hexadecimal text, given as its UTF-8 bytes. An odd length is refused
    before any digit is looked at. -/
def unhexBytes (text : List UInt8) : Except HexError (List UInt8) :=
  if text.length % 2 = 1 then .error .oddLength else hexPairs 0 text

def unhex (text : String) : Except HexError (List UInt8) := unhexBytes (utf8 text)

end RouteTrust.Text
