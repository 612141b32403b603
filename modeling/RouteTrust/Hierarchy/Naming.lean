import RouteTrust.Hierarchy.Markers
import RouteTrust.Hierarchy.Role

namespace RouteTrust

/-- The prefixes that names are read against. -/
structure Naming where
  rootPrefix : Name
  network : Name
  deriving DecidableEq

namespace Naming

/-- The components after the router name in an advertisement: kind, sequence number
    and segment. -/
def lsaSuffixLength : Nat := 3

/-- The role of a name. A name whose first `KEY` directly follows the root prefix is
    the root's; otherwise the operator marker decides, then the process and the
    router marker, and all other names count as a site's. -/
def roleOf (naming : Naming) (name : Name) : Role :=
  let m := name.markers
  if m.key.any fun key => name.take key = naming.rootPrefix then .root
  else if m.operator.isSome then .operator
  else if m.router.isSome then if m.process.isSome then .process else .router
  else .site

/-- As many components as the root prefix has. -/
def rootOf (naming : Naming) (name : Name) : Name := name.take naming.rootPrefix.length

/-- The network prefix with the components between the root prefix and the router
    marker, or without one the operator marker, or without one the first `KEY`. -/
def siteOf? (naming : Naming) (name : Name) : Option Name :=
  let m := name.markers
  (m.router.or (m.operator.or m.key)).map fun stop =>
    naming.network ++ name.slice naming.rootPrefix.length stop

/-- The router of a certificate name: the network prefix, the site, and the
    components between the router marker and `stop`. -/
def routerUpTo (naming : Naming) (name : Name) (router stop : Nat) : Name :=
  naming.network ++ name.slice naming.rootPrefix.length router ++ name.slice (router + 1) stop

/-- The router of an advertisement name: all before the info marker, or else the
    components between the LSA marker and the suffix. -/
def advertiserOf? (name : Name) : Option Name :=
  let m := name.markers
  match m.info with
  | some info => some (name.slice 0 info)
  | none => m.lsa.map fun lsa => name.slice (lsa + 1) (name.length - lsaSuffixLength)

/-- The router that a name belongs to. A name with the router and the process marker
    is read as that of a process; one with the router marker and none of process,
    info and LSA as that of a router key; any other as that of an advertisement. -/
def routerOf? (naming : Naming) (name : Name) : Option Name :=
  let m := name.markers
  match m.router, m.process with
  | some router, some process => some (naming.routerUpTo name router process)
  | some router, none =>
    if m.info.isNone && m.lsa.isNone then m.key.map fun key => naming.routerUpTo name router key
    else advertiserOf? name
  | none, _ => advertiserOf? name

end Naming
end RouteTrust
