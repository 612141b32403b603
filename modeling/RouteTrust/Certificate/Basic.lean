import RouteTrust.Clock
import RouteTrust.Name.Basic
import RouteTrust.Octets

/-!
Identity certificates: a name of the form `<identity>/KEY/<key id>` bound to a
public key for a span of time. The signer field is the key locator: the name of
the signing certificate, or that name with one more component.
-/
namespace RouteTrust

/-- The component that separates an identity from the id of its key. -/
def keyMarker : String := "KEY"

/-- A name bound to a public key. -/
structure Certificate where
  name : Name
  signer : Name
  publicKey : PublicKey
  validity : Window
  signature : Signature
  deriving DecidableEq

namespace Certificate

def isValidAt (certificate : Certificate) (time : Time) : Bool := certificate.validity.contains time

/-- The identity that the certificate speaks for: the components before the first
    `KEY`, or the whole name without one. -/
def identity (certificate : Certificate) : Name :=
  match certificate.name.indexOf? keyMarker with
  | some index => certificate.name.take index
  | none => certificate.name

end Certificate
end RouteTrust
