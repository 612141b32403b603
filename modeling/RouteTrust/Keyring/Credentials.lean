import RouteTrust.Crypto.Scheme
import RouteTrust.Storage.CertificateFile

namespace RouteTrust

/-- The certificates that a router trusts from the start. -/
structure Credentials where
  root : Certificate
  site : Certificate
  operator : Certificate
  router : Certificate
  deriving DecidableEq

def rootFile : String := "root.cert"

def siteFile : String := "site.cert"

def operatorFile : String := "operator.cert"

def routerFile : String := "router.cert"

/-- Why a router cannot establish its trust. -/
inductive BootstrapError
  | badCertificate (path : Path) (reason : CertificateError)
  | keyMismatch (certificate : Name)
  deriving DecidableEq

def BootstrapError.message : BootstrapError → String
  | .badCertificate path reason => "failed to load " ++ path.text ++ ": " ++ reason.message
  | .keyMismatch certificate => "router key does not match certificate " ++ certificate.uri

namespace Credentials

/-- Reads one certificate of a directory. -/
def loadOne (disk : Disk) (directory : Path) (file : String) : Except BootstrapError Certificate :=
  match Certificate.load disk (directory.join file) .base64 with
  | .ok certificate => .ok certificate
  | .error reason => .error (.badCertificate (directory.join file) reason)

/-- Reads the certificates of a directory, that of the root first and that of the router last. -/
def load (disk : Disk) (directory : Path) : Except BootstrapError Credentials := do
  let root ← loadOne disk directory rootFile
  let site ← loadOne disk directory siteFile
  let operator ← loadOne disk directory operatorFile
  let router ← loadOne disk directory routerFile
  return ⟨root, site, operator, router⟩

end Credentials
end RouteTrust
