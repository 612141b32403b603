import RouteTrust.Crypto.Bytes
import RouteTrust.Octets

/-!
The twisted Edwards curve -x² + y² = 1 + d·x²·y² over the integers modulo
2^255 - 19, with its addition, its scalar multiples and the compressed form of
its points.
-/
namespace RouteTrust.Crypto.Edwards

/-- The prime 2^255 - 19, written as a successor: residues modulo it have a zero and a one. -/
abbrev fieldPrime : Nat := 0x7fffffffffffffffffffffffffffffffffffffffffffffffffffffffffffffec + 1

/-- A residue modulo the field prime. -/
abbrev Residue := Fin fieldPrime

def residue (number : Nat) : Residue := Fin.ofNat fieldPrime number

/-- The bits of a number below 2^width, most significant first. -/
def bitsOf (width number : Nat) : List Bool :=
  (List.range width).reverse.map number.testBit

/-- A power by squaring and multiplying, for exponents below 2^255. -/
def power (base : Residue) (exponent : Nat) : Residue :=
  (bitsOf 255 exponent).foldl (fun acc bit => if bit then acc * acc * base else acc * acc) 1

/-- The inverse of a residue other than zero, by the little theorem of Fermat. -/
def inverse (value : Residue) : Residue := power value (fieldPrime - 2)

/-- The curve constant d = -121665 / 121666. -/
def curveConstant : Residue :=
  residue 37095705934669439343138083508754565189542113879843219016388785533085940283555

/-- Twice the curve constant, for the sum of points. -/
def twiceCurveConstant : Residue := curveConstant + curveConstant

/-- A square root of -1. -/
def rootOfMinusOne : Residue :=
  residue 19681161376707505956807079304988542015446066515923890162744021073123829784752

/-- The order of the base point. -/
def groupOrder : Nat := 7237005577332262213973186563042994240857116359379907606001950938285454250989

/-- The weight of the highest bit of 32 bytes. -/
def topBit : Nat := 1 <<< 255

/-- A point in extended coordinates: x/z and y/z on the curve, and x·y = z·t. -/
structure Point where
  x : Residue
  y : Residue
  z : Residue
  t : Residue

namespace Point

/-- The point (0, 1). -/
def neutral : Point := ⟨0, 1, 1, 0⟩

/-- The point with the given affine coordinates. -/
def ofAffine (x y : Residue) : Point := ⟨x, y, 1, x * y⟩

/-- The base point of signatures. -/
def base : Point :=
  ofAffine (residue 15112221349535400772501151409588531511454012693041857206046113283949847762202)
    (residue 46316835694926478169428394003475163141307993866256225615783033603165251855960)

/-- The sum of two points; the formula holds for all pairs, also for equal ones. -/
def add (p q : Point) : Point :=
  let a := (p.y - p.x) * (q.y - q.x)
  let b := (p.y + p.x) * (q.y + q.x)
  let c := twiceCurveConstant * p.t * q.t
  let d := (p.z + p.z) * q.z
  let e := b - a
  let f := d - c
  let g := d + c
  let h := b + a
  ⟨e * f, g * h, f * g, e * h⟩

instance : Add Point := ⟨add⟩

def negate (p : Point) : Point := ⟨0 - p.x, p.y, p.z, 0 - p.t⟩

instance : Neg Point := ⟨negate⟩

/-- The sum of a point with itself, by the shorter formula for this case. -/
def double (p : Point) : Point :=
  let a := p.x * p.x
  let b := p.y * p.y
  let c := p.z * p.z
  let e := (p.x + p.y) * (p.x + p.y) - a - b
  let g := b - a
  let f := g - c - c
  let h := 0 - a - b
  ⟨e * f, g * h, f * g, e * h⟩

/-- A point, its double, the double of that, and so on. -/
def doublings : Nat → Point → List Point
  | 0, _ => []
  | count + 1, p => p :: doublings count p.double

/-- The sum of the points whose place is that of a set bit of the scalar. -/
def select (scalar : Nat) (points : List Point) : Point :=
  points.zipIdx.foldl (fun sum (p, place) => if scalar.testBit place then sum + p else sum) neutral

/-- A multiple of a point, for scalars below 2^256. -/
def multiple (scalar : Nat) (p : Point) : Point := select scalar (doublings 256 p)

/-- The doublings of the base point, which all multiples of it share. -/
def baseDoublings : List Point := doublings 256 base

/-- A multiple of the base point, for scalars below 2^256. -/
def baseMultiple (scalar : Nat) : Point := select scalar baseDoublings

/-- The same point as the neutral one. -/
def isNeutral (p : Point) : Bool := p.x == 0 && p.y == p.z

/-- The order of the point divides eight. -/
def isSmallOrder (p : Point) : Bool := p.double.double.double.isNeutral

/-- The compressed form: y in 255 bits, then the lowest bit of x. -/
def compress (p : Point) : Octets 32 :=
  let scale := inverse p.z
  let x := p.x * scale
  let y := p.y * scale
  ⟨toLittleEndian 32 (y.val + topBit * (x.val % 2)), length_toLittleEndian _ _⟩

end Point

/-- A square root of u / v, if there is one. Where v is zero only u = 0 has one, and it is zero. -/
def rootOfRatio? (u v : Residue) : Option Residue :=
  let v3 := v * v * v
  let candidate := u * v3 * power (u * v3 * v3 * v) ((fieldPrime - 5) / 8)
  let check := v * candidate * candidate
  if check = u then some candidate
  else if check = 0 - u then some (candidate * rootOfMinusOne)
  else none

/-- The point of a compressed form. The y coordinate is taken modulo the prime, and
    where x is zero its bit is not looked at. -/
def decompress? (octets : Octets 32) : Option Point :=
  let number := littleEndian octets.bytes
  let y := residue (number % topBit)
  let odd := number / topBit
  (rootOfRatio? (y * y - 1) (curveConstant * y * y + 1)).map fun x =>
    Point.ofAffine (if x.val % 2 = odd then x else 0 - x) y

end RouteTrust.Crypto.Edwards
