import RouteTrust.Store.Cascade

/-!
The operations that change a store: inserting a certificate, setting its trust
by hand, and removing it. Each gives its answer, the next store and the names
that became verified, in the order of their announcement.
-/
namespace RouteTrust

/-- What an operation on a store answers and leaves behind. -/
structure Update where
  answer : Bool
  store : Store
  announced : List Name
  deriving DecidableEq

namespace Store

/-- The update of a store in which the certificate of one name has just become verified. -/
def spread (check : SignatureCheck) (store : Store) (name : Name) : Update :=
  let (last, announced) := store.cascade check [name]
  ⟨true, last, announced⟩

/-- A stored certificate under an overlapping name is at least as fresh. -/
def holdsFresher (store : Store) (name : Name) (seq : UInt64) : Bool :=
  store.records.any fun record => record.name.overlaps name && seq ≤ record.seq

/-- The store with a certificate in place of all under overlapping names. -/
def replace (store : Store) (certificate : Certificate) (seq : UInt64) : Store :=
  let others := store.records.filter fun record => !record.name.overlaps certificate.name
  { store with records := others ++ [⟨certificate, seq, false⟩] }

/-- Inserts a certificate unless one that overlaps is at least as fresh. A trusted
    one counts as verified; any other is tried at once. -/
def insert (check : SignatureCheck) (store : Store) (certificate : Certificate) (seq : UInt64)
    (trusted : Bool) : Update :=
  if store.holdsFresher certificate.name seq then ⟨false, store, []⟩
  else
    let next := store.replace certificate seq
    if trusted then (next.markVerified certificate.name).spread check certificate.name
    else
      match next.attempt check certificate.name with
      | (.verified, last) => last.spread check certificate.name
      | (_, last) => ⟨true, last, []⟩

/-- Sets the trust of the certificate that a lookup finds. Trust is never taken
    back, and giving it spreads it. The answer is whether one was found. -/
def setVerified (check : SignatureCheck) (store : Store) (lookup : Name) (verified : Bool) : Update :=
  match store.find? lookup with
  | none => ⟨false, store, []⟩
  | some record =>
    if verified && !record.verified then (store.markVerified record.name).spread check record.name
    else ⟨true, store, []⟩

/-- Removes the certificate that a lookup finds. What waits goes on waiting. The
    answer is whether one was found. -/
def remove (store : Store) (lookup : Name) : Update :=
  match store.find? lookup with
  | none => ⟨false, store, []⟩
  | some _ =>
    ⟨true, { store with records := store.records.eraseP fun record => lookup.resolvesTo record.name }, []⟩

end Store
end RouteTrust
