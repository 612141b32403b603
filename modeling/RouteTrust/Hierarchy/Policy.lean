import RouteTrust.Hierarchy.Naming
import RouteTrust.Name.Uri

/-!
Who may sign what. A signer must stand above its subject, roots excepted, and
both must belong together: to the root prefix, to one root, to one site or to one
router, as the subject's role asks.
-/
namespace RouteTrust

/-- Why a certificate is refused before its signature is looked at. -/
inductive Violation
  | signerBelowSubject (subject signer : Role)
  | sameRole (role : Role)
  | outOfScope (subject : Name) (role : Role)
  deriving DecidableEq

def Violation.message : Violation → String
  | .signerBelowSubject subject signer =>
    signer.label ++ " key cannot sign a " ++ subject.label ++ " certificate"
  | .sameRole role => role.label ++ " key cannot sign a certificate of its own role"
  | .outOfScope subject role =>
    role.label ++ " certificate " ++ subject.uri ++ " is outside the signer's scope"

namespace Naming

def sameSite (naming : Naming) (subject signer : Name) : Bool :=
  (naming.siteOf? subject).isSome && naming.siteOf? subject == naming.siteOf? signer

def sameRouter (naming : Naming) (subject signer : Name) : Bool :=
  (naming.routerOf? subject).isSome && naming.routerOf? subject == naming.routerOf? signer

/-- The subject belongs where its signer may sign. -/
def inScope (naming : Naming) (subject signer : Name) : Bool :=
  match naming.roleOf subject with
  | .root => naming.rootOf subject == naming.rootPrefix
  | .site => naming.rootOf subject == naming.rootOf signer
  | .operator => naming.sameSite subject signer
  | .router => naming.sameSite subject signer
  | .process => naming.sameRouter subject signer

/-- Checks that a key of the signer's name may sign a certificate of the subject's
    name. -/
def checkSigner (naming : Naming) (subject signer : Name) : Except Violation Unit :=
  let subjectRole := naming.roleOf subject
  let signerRole := naming.roleOf signer
  if signerRole.isBelow subjectRole then .error (.signerBelowSubject subjectRole signerRole)
  else if signerRole = subjectRole ∧ subjectRole ≠ .root then .error (.sameRole subjectRole)
  else if naming.inScope subject signer then .ok ()
  else .error (.outOfScope subject subjectRole)

end Naming
end RouteTrust
