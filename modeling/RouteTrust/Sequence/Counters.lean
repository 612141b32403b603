import RouteTrust.Clock
import RouteTrust.Text.Decimal

/-!
The sequence numbers of a router's advertisements: one counter of twenty bits
for each kind, packed into one number with the name counter in the lowest bits,
then the coordinate counter, then the adjacency counter. Counters stay at the
largest value instead of running over into their neighbour.
-/
namespace RouteTrust

/-- The kinds of advertisements. -/
inductive LsaKind
  | name
  | coordinate
  | adjacency
  deriving DecidableEq, Repr

/-- The component of a kind in names. -/
def LsaKind.label : LsaKind → String
  | .name => "name"
  | .coordinate => "coordinate"
  | .adjacency => "adjacency"

/-- A counter for each kind. -/
structure Counters where
  name : UInt64
  coordinate : UInt64
  adjacency : UInt64
  deriving DecidableEq, Repr

namespace Counters

/-- The number of values of a counter: that of twenty bits. -/
def radix : UInt64 := 1048576

/-- The largest value of a counter. -/
def limit : UInt64 := radix - 1

/-- What a counter gains by a restart. -/
def restartStep : UInt64 := 10

def zero : Counters := ⟨0, 0, 0⟩

/-- The counter of a kind. -/
def get (counters : Counters) : LsaKind → UInt64
  | .name => counters.name
  | .coordinate => counters.coordinate
  | .adjacency => counters.adjacency

/-- The counters with another value for one kind. -/
def set (counters : Counters) (kind : LsaKind) (value : UInt64) : Counters :=
  match kind with
  | .name => { counters with name := value }
  | .coordinate => { counters with coordinate := value }
  | .adjacency => { counters with adjacency := value }

/-- A value with a step added, but never more than the limit. -/
def raise (value step : UInt64) : UInt64 :=
  let next := addCapped value step
  if limit < next then limit else next

/-- Sets one counter, to the limit if the value is larger. -/
def assign (counters : Counters) (kind : LsaKind) (value : UInt64) : Counters :=
  counters.set kind (raise value 0)

/-- Raises one counter by one. -/
def increment (counters : Counters) (kind : LsaKind) : Counters :=
  counters.set kind (raise (counters.get kind) 1)

/-- The counters after a restart. -/
def afterRestart (counters : Counters) : Counters :=
  ⟨raise counters.name restartStep, raise counters.coordinate restartStep,
   raise counters.adjacency restartStep⟩

/-- The number that packs the counters; of each only the lowest twenty bits count. -/
def combined (counters : Counters) : UInt64 :=
  counters.name % radix + counters.coordinate % radix * radix +
    counters.adjacency % radix * (radix * radix)

/-- The counters that a number packs; the bits above the three are not looked at. -/
def split (number : UInt64) : Counters :=
  ⟨number % radix, number / radix % radix, number / (radix * radix) % radix⟩

def text (counters : Counters) : String :=
  "name=" ++ toString counters.name ++ " coordinate=" ++ toString counters.coordinate ++
    " adjacency=" ++ toString counters.adjacency ++ " combined=" ++ toString counters.combined

@[simp] theorem get_set_self (counters : Counters) (kind : LsaKind) (value : UInt64) :
    (counters.set kind value).get kind = value := by
  cases kind <;> rfl

theorem get_set_of_ne {kind other : LsaKind} (different : other ≠ kind) (counters : Counters)
    (value : UInt64) : (counters.set kind value).get other = counters.get other := by
  cases kind <;> cases other <;> first | rfl | exact absurd rfl different

theorem raise_le_limit (value step : UInt64) : raise value step ≤ limit := by
  unfold raise
  simp only
  split
  · exact UInt64.le_refl _
  · rename_i small; exact UInt64.not_lt.1 small

end Counters
end RouteTrust
