namespace RouteTrust.Crypto

/-- The number whose base-256 digits are the bytes, least significant first. -/
def littleEndian (bytes : List UInt8) : Nat :=
  bytes.foldr (fun byte number => byte.toNat + 256 * number) 0

/-- The number whose base-256 digits are the bytes, most significant first. -/
def bigEndian (bytes : List UInt8) : Nat :=
  bytes.foldl (fun number byte => 256 * number + byte.toNat) 0

/-- The lowest base-256 digits of a number, least significant first. -/
def toLittleEndian : Nat → Nat → List UInt8
  | 0, _ => []
  | width + 1, number => UInt8.ofNat (number % 256) :: toLittleEndian width (number / 256)

/-- The lowest base-256 digits of a number, most significant first. -/
def toBigEndian (width number : Nat) : List UInt8 := (toLittleEndian width number).reverse

/-- A message cut into blocks of one size, the last of which may be shorter.
    There is always a last block, and it is empty only for an empty message. -/
def blocks (size : Nat) (message : List UInt8) : List (List UInt8) :=
  if size = 0 ∨ message.length ≤ size then [message]
  else message.take size :: blocks size (message.drop size)
termination_by message.length
decreasing_by simp only [List.length_drop]; omega

@[simp] theorem length_toLittleEndian (width number : Nat) : (toLittleEndian width number).length = width := by
  induction width generalizing number with
  | zero => rfl
  | succ width ih => simp [toLittleEndian, ih]

end RouteTrust.Crypto
