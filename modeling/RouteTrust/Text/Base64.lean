/-!
Base64 text with padding. Three bytes make four symbols; one or two bytes left
over are padded to a full group. Reading wants every group full, the unused bits
of the last symbol zero, and padding only at the end of the last group.
-/
namespace RouteTrust.Text

/-- Why bytes are not base64 text. -/
inductive Base64Error
  | badSymbol (byte : UInt8) (offset : Nat)
  | badLength (length : Nat)
  | badPadding
  | badLastSymbol (byte : UInt8) (offset : Nat)
  deriving DecidableEq, Repr

def Base64Error.message : Base64Error → String
  | .badSymbol byte offset => s!"Invalid symbol {byte}, offset {offset}."
  | .badLength length => s!"Invalid input length: {length}"
  | .badPadding => "Invalid padding"
  | .badLastSymbol byte offset => s!"Invalid last symbol {byte}, offset {offset}."

namespace Base64

/-- The equals sign that fills the last group. -/
def pad : UInt8 := 0x3d

/-- The symbol of six bits: capitals, small letters, digits, plus and slash. -/
def symbol (value : Nat) : UInt8 :=
  if value < 26 then UInt8.ofNat (0x41 + value)
  else if value < 52 then UInt8.ofNat (0x61 + (value - 26))
  else if value < 62 then UInt8.ofNat (0x30 + (value - 52))
  else if value = 62 then 0x2b
  else 0x2f

/-- The six bits that a symbol stands for. -/
def value? (byte : UInt8) : Option Nat :=
  let code := byte.toNat
  if 0x41 ≤ code ∧ code ≤ 0x5a then some (code - 0x41)
  else if 0x61 ≤ code ∧ code ≤ 0x7a then some (code - 0x61 + 26)
  else if 0x30 ≤ code ∧ code ≤ 0x39 then some (code - 0x30 + 52)
  else if code = 0x2b then some 62
  else if code = 0x2f then some 63
  else none

def encode : List UInt8 → List UInt8
  | [] => []
  | [a] => [symbol (a.toNat / 4), symbol (a.toNat % 4 * 16), pad, pad]
  | [a, b] =>
    [symbol (a.toNat / 4), symbol (a.toNat % 4 * 16 + b.toNat / 16), symbol (b.toNat % 16 * 4), pad]
  | a :: b :: c :: rest =>
    symbol (a.toNat / 4) :: symbol (a.toNat % 4 * 16 + b.toNat / 16) ::
      symbol (b.toNat % 16 * 4 + c.toNat / 64) :: symbol (c.toNat % 64) :: encode rest

/-- The values of symbols, the first of which stands at an offset. -/
def values : Nat → List UInt8 → Except Base64Error (List Nat)
  | _, [] => .ok []
  | offset, byte :: rest =>
    match value? byte with
    | none => .error (.badSymbol byte offset)
    | some value => (values (offset + 1) rest).map (value :: ·)

/-- The bytes of two, three or four values; unused low bits are dropped. -/
def bytesOf : List Nat → List UInt8
  | [a, b] => [UInt8.ofNat (a * 4 + b / 16)]
  | [a, b, c] => [UInt8.ofNat (a * 4 + b / 16), UInt8.ofNat (b % 16 * 16 + c / 4)]
  | [a, b, c, d] =>
    [UInt8.ofNat (a * 4 + b / 16), UInt8.ofNat (b % 16 * 16 + c / 4), UInt8.ofNat (c % 4 * 64 + d)]
  | _ => []

/-- The bits of the last value that belong to no byte. -/
def unusedBits : List Nat → Nat
  | [_, b] => b % 16
  | [_, _, c] => c % 4
  | _ => 0

/-- Reads the last group, of at most four bytes. -/
def decodeLast (offset : Nat) (group : List UInt8) : Except Base64Error (List UInt8) := do
  let symbols := group.takeWhile (· ≠ pad)
  let padding := group.dropWhile (· ≠ pad)
  let stop := offset + symbols.length
  let found ← values offset symbols
  if !padding.isEmpty && (symbols.length < 2 || padding.any (· ≠ pad)) then throw (.badSymbol pad stop)
  if !group.isEmpty && symbols.length < 2 then throw (.badLength stop)
  if group.length % 4 ≠ 0 then throw .badPadding
  if unusedBits found ≠ 0 then throw (.badLastSymbol (symbols.getLastD 0) (stop - 1))
  return bytesOf found

/-- Reads groups from an offset on; a group that bytes follow has no padding. -/
def decodeFrom (offset : Nat) : List UInt8 → Except Base64Error (List UInt8)
  | a :: b :: c :: d :: e :: rest => do
    let found ← values offset [a, b, c, d]
    let others ← decodeFrom (offset + 4) (e :: rest)
    return bytesOf found ++ others
  | group => decodeLast offset group

/-- A single byte after full groups that is neither a symbol nor padding. -/
def strayLast? (text : List UInt8) : Option UInt8 :=
  match text.getLast? with
  | some last => if text.length % 4 = 1 ∧ last ≠ pad ∧ (value? last).isNone then some last else none
  | none => none

/-- Reads base64 text. A stray last byte is reported before all else. -/
def decode (text : List UInt8) : Except Base64Error (List UInt8) :=
  match strayLast? text with
  | some last => .error (.badSymbol last (text.length - 1))
  | none => decodeFrom 0 text

/-- The ASCII blanks that may stand anywhere in a text file: tab, line feed, form
    feed, carriage return and space. -/
def isLayout (byte : UInt8) : Bool :=
  byte == 0x09 || byte == 0x0a || byte == 0x0c || byte == 0x0d || byte == 0x20

/-- Reads base64 text with blanks anywhere in it. -/
def decodeLoose (text : List UInt8) : Except Base64Error (List UInt8) :=
  decode (text.filter fun byte => !isLayout byte)

theorem value?_symbol {value : Nat} (small : value < 64) : value? (symbol value) = some value := by
  have all : ∀ v : Fin 64, value? (symbol v.val) = some v.val := by decide
  exact all ⟨value, small⟩

theorem symbol_ne_pad (value : Nat) (small : value < 64) : symbol value ≠ pad := by
  have all : ∀ v : Fin 64, symbol v.val ≠ pad := by decide
  exact all ⟨value, small⟩

end Base64
end RouteTrust.Text
