import RouteTrust.Certificate.Codec
import RouteTrust.Storage.Disk

namespace RouteTrust.Certificate

def load (disk : Disk) (path : Path) (encoding : CertificateEncoding) :
    Except CertificateError Certificate :=
  match disk.read? path with
  | some contents => encoding.read contents
  | none => .error .unreadable

/-- Writes a certificate file. The disk is that after the writing or after its failure. -/
def save (c : Certificate) (disk : Disk) (path : Path) (encoding : CertificateEncoding) :
    Except CertificateError Unit × Disk :=
  (disk.save path (encoding.write c)).orError .unreadable

end RouteTrust.Certificate
