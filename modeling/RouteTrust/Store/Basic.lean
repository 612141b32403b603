import RouteTrust.Certificate.Issue
import RouteTrust.WaitingList

/-!
The certificate store: records in the order of their insertion, and the waiting
list of those that wait for their signers. Lookups are tolerant: they find the
first record that their name resolves to.
-/
namespace RouteTrust

/-- A stored certificate with its freshness number and its trust. -/
structure Record where
  certificate : Certificate
  seq : UInt64
  verified : Bool
  deriving DecidableEq

namespace Record

def name (record : Record) : Name := record.certificate.name

/-- The key locator of the certificate. -/
def signer (record : Record) : Name := record.certificate.signer

/-- The line of a record in the text of a store. -/
def text (record : Record) : String :=
  "  " ++ record.name.uri ++ " seq=" ++ toString record.seq ++ " verified=" ++
    toString record.verified ++ " signer=" ++ record.signer.uri ++ "\n"

end Record

/-- Known certificates and those that wait for a signer. -/
structure Store where
  records : List Record
  waiting : WaitingList
  deriving DecidableEq

namespace Store

def empty : Store := ⟨[], .empty⟩

instance : Inhabited Store := ⟨empty⟩

/-- The first record that a lookup resolves to. -/
def find? (store : Store) (lookup : Name) : Option Record :=
  store.records.find? fun record => lookup.resolvesTo record.name

/-- The place of the first record that a lookup resolves to. -/
def position? (store : Store) (lookup : Name) : Option Nat :=
  store.records.findIdx? fun record => lookup.resolvesTo record.name

/-- The record in the place that a lookup resolves to is the one that it finds. -/
theorem getElem?_position? (store : Store) (lookup : Name) :
    (store.position? lookup).bind (store.records[·]?) = store.find? lookup := by
  unfold position? find?
  induction store.records with
  | nil => rfl
  | cons head rest ih =>
    rw [List.findIdx?_cons, List.find?_cons]
    by_cases resolves : lookup.resolvesTo head.name = true
    · simp [resolves]
    · rw [Bool.eq_false_iff.2 resolves, ← ih]
      cases found : rest.findIdx? fun record => lookup.resolvesTo record.name with
      | none => simp
      | some place => simp

/-- The certificate that a lookup finds. -/
def certificate? (store : Store) (lookup : Name) : Option Certificate :=
  (store.find? lookup).map (·.certificate)

/-- The certificate that a lookup finds, if it has the given freshness number. -/
def certificateAt? (store : Store) (lookup : Name) (seq : UInt64) : Option Certificate :=
  ((store.find? lookup).filter (·.seq == seq)).map (·.certificate)

/-- The freshness number of the certificate that a lookup finds. -/
def seq? (store : Store) (lookup : Name) : Option UInt64 := (store.find? lookup).map (·.seq)

/-- The lookup finds nothing, or a certificate with a smaller number. -/
def isNewer (store : Store) (lookup : Name) (seq : UInt64) : Bool :=
  match store.find? lookup with
  | some record => record.seq < seq
  | none => true

/-- The lookup finds a verified certificate. -/
def isVerified (store : Store) (lookup : Name) : Bool :=
  match store.find? lookup with
  | some record => record.verified
  | none => false

def length (store : Store) : Nat := store.records.length

def isEmpty (store : Store) : Bool := store.records.isEmpty

/-- The number of records that are not verified. -/
def unverifiedCount (store : Store) : Nat := store.records.countP (!·.verified)

/-- A line with the count of records, their lines, then the waiting list. -/
def text (store : Store) : String :=
  s!"Certificate store ({store.length} records)\n" ++ String.join (store.records.map Record.text) ++
    store.waiting.text

end Store
end RouteTrust
