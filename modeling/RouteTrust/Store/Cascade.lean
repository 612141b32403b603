import RouteTrust.Store.Basic

/-!
How trust spreads. A stored certificate is verified against its signer if that
one is stored and verified; otherwise it waits. Each newly verified name is
announced and then wakes the certificates that wait for it, through a queue of
names. Every name that joins the queue pays for one record that was not verified
before, so the queue runs dry (`unverifiedCount_attemptAll`).
-/
namespace RouteTrust

/-- What came of an attempt to verify a stored certificate. -/
inductive Attempt
  /-- It was not verified and is now. -/
  | verified
  /-- It was verified before. -/
  | alreadyVerified
  /-- Its signer is unknown or not verified, so it waits. -/
  | deferred
  /-- Its signer did not sign it, or it is not valid now. -/
  | failed
  /-- No such certificate is stored. -/
  | missing
  deriving DecidableEq, Repr

namespace Store

/-- Marks the first record that a lookup resolves to. -/
def markFirst (lookup : Name) : List Record → List Record
  | [] => []
  | record :: rest =>
    if lookup.resolvesTo record.name then { record with verified := true } :: rest
    else record :: markFirst lookup rest

/-- Marks the certificate that a lookup finds as verified. -/
def markVerified (store : Store) (lookup : Name) : Store :=
  { store with records := markFirst lookup store.records }

/-- Makes a record wait for its signer. -/
def defer (store : Store) (record : Record) : Store :=
  { store with waiting := store.waiting.add record.signer record.name }

/-- The key of the verified certificate that a signer name finds. -/
def trustedKey? (store : Store) (signer : Name) : Option PublicKey :=
  match store.find? signer with
  | some record => if record.verified then some record.certificate.publicKey else none
  | none => none

/-- Tries to verify the certificate that a lookup finds. -/
def attempt (check : SignatureCheck) (store : Store) (lookup : Name) : Attempt × Store :=
  match store.find? lookup with
  | none => (.missing, store)
  | some record =>
    if record.verified then (.alreadyVerified, store)
    else
      match store.trustedKey? record.signer with
      | none => (.deferred, store.defer record)
      | some key =>
        if check record.certificate key then (.verified, store.markVerified lookup) else (.failed, store)

/-- Tries names in order; gives those that became verified. -/
def attemptAll (check : SignatureCheck) (store : Store) : List Name → Store × List Name
  | [] => (store, [])
  | waitee :: rest =>
    match store.attempt check waitee with
    | (.verified, next) =>
      let (last, others) := attemptAll check next rest
      (last, waitee :: others)
    | (_, next) => attemptAll check next rest

/-- Tries all that wait for a signer, then forgets the signer's entry. -/
def wake (check : SignatureCheck) (store : Store) (signer : Name) : Store × List Name :=
  let (next, verified) := store.attemptAll check (store.waiting.waiteesOf signer)
  ({ next with waiting := next.waiting.remove signer }, verified)

/-- Wakes the waitees of signers in order. -/
def wakeAll (check : SignatureCheck) (store : Store) : List Name → Store × List Name
  | [] => (store, [])
  | signer :: rest =>
    let (next, verified) := store.wake check signer
    let (last, others) := wakeAll check next rest
    (last, verified ++ others)

/-- The signers in the waiting list that resolve to a name. -/
def signersOf (store : Store) (name : Name) : List Name :=
  store.waiting.signers.filter (·.resolvesTo name)

private theorem countP_markFirst {records : List Record} {lookup : Name} {record : Record}
    (found : records.find? (fun r => lookup.resolvesTo r.name) = some record)
    (unverified : record.verified = false) :
    (markFirst lookup records).countP (!·.verified) + 1 = records.countP (!·.verified) := by
  induction records with
  | nil => cases found
  | cons head rest ih =>
    rw [List.find?_cons] at found
    cases resolves : lookup.resolvesTo head.name with
    | true =>
      rw [resolves] at found
      cases found
      simp [markFirst, resolves, unverified]
    | false =>
      rw [resolves] at found
      have := ih found
      simp only [markFirst, resolves, List.countP_cons]
      simp only [Bool.false_eq_true, if_false, List.countP_cons]
      omega

/-- An attempt that verifies a record takes it from the unverified ones, and no
    other attempt changes their number. -/
theorem unverifiedCount_attempt (check : SignatureCheck) (store : Store) (lookup : Name) :
    (store.attempt check lookup).2.unverifiedCount +
      (if (store.attempt check lookup).1 = .verified then 1 else 0) = store.unverifiedCount := by
  unfold attempt
  split
  · simp
  · rename_i record found
    split
    · simp
    · rename_i unverified
      split
      · simp [defer, unverifiedCount]
      · split
        · simpa [markVerified, unverifiedCount] using
            countP_markFirst found (by simpa using unverified)
        · simp

/-- Each name that became verified stands for one record that was not verified before. -/
theorem unverifiedCount_attemptAll (check : SignatureCheck) (store : Store) (names : List Name) :
    (store.attemptAll check names).1.unverifiedCount + (store.attemptAll check names).2.length =
      store.unverifiedCount := by
  induction names generalizing store with
  | nil => simp [attemptAll]
  | cons waitee rest ih =>
    have step := unverifiedCount_attempt check store waitee
    unfold attemptAll
    split
    · rename_i next tried
      have later := ih next
      simp [tried] at step
      simp only [List.length_cons]
      omega
    · rename_i outcome next differs tried
      have later := ih next
      rw [tried, if_neg differs] at step
      exact later.trans step

private theorem unverifiedCount_wake (check : SignatureCheck) (store : Store) (signer : Name) :
    (store.wake check signer).1.unverifiedCount + (store.wake check signer).2.length =
      store.unverifiedCount :=
  unverifiedCount_attemptAll check store (store.waiting.waiteesOf signer)

theorem unverifiedCount_wakeAll (check : SignatureCheck) (store : Store) (signers : List Name) :
    (store.wakeAll check signers).1.unverifiedCount + (store.wakeAll check signers).2.length =
      store.unverifiedCount := by
  induction signers generalizing store with
  | nil => simp [wakeAll]
  | cons signer rest ih =>
    have first := unverifiedCount_wake check store signer
    have later := ih (store.wake check signer).1
    simp only [wakeAll, List.length_append]
    omega

/-- Takes names from the queue until it is empty. Each is announced, and the names
    that it wakes join the queue at the end. Gives the announced names in order. -/
def cascade (check : SignatureCheck) (store : Store) : List Name → Store × List Name
  | [] => (store, [])
  | name :: queue =>
    let woken := store.wakeAll check (store.signersOf name)
    let (last, announced) := cascade check woken.1 (queue ++ woken.2)
    (last, name :: announced)
termination_by queue => store.unverifiedCount + queue.length
decreasing_by
  have := unverifiedCount_wakeAll check store (store.signersOf name)
  simp only [List.length_append, List.length_cons]
  omega

@[simp] theorem cascade_nil (check : SignatureCheck) (store : Store) : store.cascade check [] = (store, []) := by
  rw [cascade]

theorem cascade_cons (check : SignatureCheck) (store : Store) (name : Name) (queue : List Name) :
    store.cascade check (name :: queue) =
      (let woken := store.wakeAll check (store.signersOf name)
       let later := woken.1.cascade check (queue ++ woken.2)
       (later.1, name :: later.2)) := by
  rw [cascade]

end Store
end RouteTrust
