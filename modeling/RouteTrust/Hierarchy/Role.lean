namespace RouteTrust

/-- What a key stands for. -/
inductive Role
  | root
  | site
  | operator
  | router
  | process
  deriving DecidableEq, Repr

namespace Role

/-- The distance from the top of the hierarchy. -/
def rank : Role → Nat
  | .root => 0
  | .site => 1
  | .operator => 2
  | .router => 3
  | .process => 4

/-- The name of a role in messages. -/
def label : Role → String
  | .root => "root"
  | .site => "site"
  | .operator => "operator"
  | .router => "router"
  | .process => "process"

/-- The first role is less trusted than the second. -/
def isBelow (role other : Role) : Bool := other.rank < role.rank

end Role
end RouteTrust
