import RouteTrust.Crypto.Scheme
import RouteTrust.Hierarchy.Naming

namespace RouteTrust

/-- The name parts of a router. -/
structure Owner where
  network : Name
  rootPrefix : Name
  site : Name
  router : Name
  deriving DecidableEq

namespace Owner

def naming (owner : Owner) : Naming := ⟨owner.rootPrefix, owner.network⟩

/-- The identity of the router's key: root prefix, site, router marker, router. -/
def routerIdentity (owner : Owner) : Name :=
  (owner.rootPrefix ++ owner.site).push routerMarker ++ owner.router

/-- The identity of the routing process on the router. -/
def processIdentity (owner : Owner) : Name := owner.routerIdentity.push processMarker

/-- The name that the router advertises under: network, site, router. -/
def routerName (owner : Owner) : Name := owner.network ++ owner.site ++ owner.router

/-- The name of the certificate of a process key. -/
def processCertificate (owner : Owner) (key : PublicKey) : Name :=
  (owner.processIdentity.push keyMarker).push (PublicKey.keyId key)

end Owner
end RouteTrust
