import RouteTrust.Certificate.Basic

/-!
Marker components. A certificate name has one of the shapes

    <root>/KEY/<id>                                root
    <root>/<site>/KEY/<id>                         site
    <root>/<site>/O.Start/<operator>/KEY/<id>      operator
    <root>/<site>/R.Start/<router>/KEY/<id>        router
    <root>/<site>/R.Start/<router>/nlsr/KEY/<id>   process

and names of advertisements hold `info` or `LSA` instead. All that is read off a
name depends on where each marker first occurs in it.
-/
namespace RouteTrust

/-- The component before an operator's name. -/
def operatorMarker : String := "O.Start"

/-- The component before a router's name. -/
def routerMarker : String := "R.Start"

/-- The component after the name of a router whose routing process is meant. -/
def processMarker : String := "nlsr"

/-- The component after the name of a router that tells about itself. -/
def infoMarker : String := "info"

/-- The component before the name of a router that advertises links. -/
def lsaMarker : String := "LSA"

/-- The components that no name part may use for anything else. -/
def reservedMarkers : List String :=
  [keyMarker, operatorMarker, routerMarker, processMarker, infoMarker, lsaMarker]

/-- Where each marker first occurs in a name. -/
structure Markers where
  key : Option Nat
  operator : Option Nat
  router : Option Nat
  process : Option Nat
  info : Option Nat
  lsa : Option Nat
  deriving DecidableEq, Repr

def Name.markers (name : Name) : Markers where
  key := name.indexOf? keyMarker
  operator := name.indexOf? operatorMarker
  router := name.indexOf? routerMarker
  process := name.indexOf? processMarker
  info := name.indexOf? infoMarker
  lsa := name.indexOf? lsaMarker

end RouteTrust
