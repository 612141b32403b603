import RouteTrust.Keyring.Basic
import RouteTrust.Proofs.Policy
import RouteTrust.Proofs.Provenance

/-!
Certificates from elsewhere. A keyring changes its store as a run of calls does,
one call for each arrival that the policy lets in (`store_receiveAll`), so the
history of a keyring is that of a store. The policy judges the text of a key
locator, while the key comes from the certificate that the locator finds.
-/
namespace RouteTrust

/-- A certificate from elsewhere, with the check at the moment of its arrival. -/
structure Arrival where
  check : SignatureCheck
  certificate : Certificate
  seq : UInt64

namespace Arrival

/-- The call that inserts the certificate, without trust. -/
def insertion (arrival : Arrival) : Operation := .insert arrival.check arrival.certificate arrival.seq false

/-- The policy lets the names of the certificate in. -/
def conforms (naming : Naming) (arrival : Arrival) : Bool :=
  (naming.checkSigner arrival.certificate.name arrival.certificate.signer).isOk

theorem conforms_iff {naming : Naming} {arrival : Arrival} :
    arrival.conforms naming = true ↔
      naming.checkSigner arrival.certificate.name arrival.certificate.signer = .ok () := by
  unfold conforms
  cases naming.checkSigner arrival.certificate.name arrival.certificate.signer with
  | error violation => simp [Except.isOk, Except.toBool]
  | ok => simp [Except.isOk, Except.toBool]

end Arrival

/-- The calls on the store that arrivals lead to. -/
def Naming.admitted (naming : Naming) (arrivals : List Arrival) : List Operation :=
  (arrivals.filter (·.conforms naming)).map Arrival.insertion

namespace Keyring

/-- The keyring after arrivals in order. -/
def receiveAll (keyring : Keyring) : List Arrival → Keyring
  | [] => keyring
  | arrival :: rest =>
    match keyring.receive arrival.check arrival.certificate arrival.seq with
    | .ok admission => admission.keyring.receiveAll rest
    | .error _ => keyring.receiveAll rest

/-- The actions on the store while arrivals come in. -/
def history (keyring : Keyring) (arrivals : List Arrival) : List Action :=
  keyring.store.trace (keyring.naming.admitted arrivals)

theorem receive_of_conforms {keyring : Keyring} {arrival : Arrival}
    (conforms : arrival.conforms keyring.naming = true) :
    keyring.receive arrival.check arrival.certificate arrival.seq =
      .ok ⟨(arrival.insertion.run keyring.store).answer,
        { keyring with store := (arrival.insertion.run keyring.store).store },
        (arrival.insertion.run keyring.store).announced⟩ := by
  rw [receive, Arrival.conforms_iff.1 conforms]
  rfl

theorem receive_of_not_conforms {keyring : Keyring} {arrival : Arrival}
    (refused : ¬ arrival.conforms keyring.naming = true) :
    ∃ violation, keyring.receive arrival.check arrival.certificate arrival.seq = .error violation := by
  unfold receive
  split
  · rename_i violation _
    exact ⟨violation, rfl⟩
  · rename_i allowed
    exact absurd (Arrival.conforms_iff.2 allowed) refused

theorem receiveAll_append (keyring : Keyring) (first second : List Arrival) :
    keyring.receiveAll (first ++ second) = (keyring.receiveAll first).receiveAll second := by
  induction first generalizing keyring with
  | nil => rfl
  | cons arrival rest ih =>
    rw [List.cons_append, receiveAll, receiveAll]
    split
    · exact ih _
    · exact ih keyring

/-- Arrivals change nothing but the store. -/
theorem naming_receiveAll (keyring : Keyring) (arrivals : List Arrival) :
    (keyring.receiveAll arrivals).naming = keyring.naming := by
  induction arrivals generalizing keyring with
  | nil => rfl
  | cons arrival rest ih =>
    rw [receiveAll]
    by_cases conforms : arrival.conforms keyring.naming = true
    · rw [receive_of_conforms conforms]
      exact ih _
    · obtain ⟨violation, refused⟩ := receive_of_not_conforms conforms
      rw [refused]
      exact ih keyring

/-- A keyring treats its store as a run of calls does. -/
theorem store_receiveAll (keyring : Keyring) (arrivals : List Arrival) :
    (keyring.receiveAll arrivals).store = keyring.store.replay (keyring.history arrivals) := by
  rw [history, Store.replay_trace]
  induction arrivals generalizing keyring with
  | nil => rfl
  | cons arrival rest ih =>
    unfold receiveAll
    by_cases conforms : arrival.conforms keyring.naming = true
    · rw [receive_of_conforms conforms]
      have later := ih { keyring with store := (arrival.insertion.run keyring.store).store }
      simp only [Naming.admitted, List.filter_cons, conforms, if_true, List.map_cons]
      exact later
    · obtain ⟨violation, refused⟩ := receive_of_not_conforms conforms
      rw [refused]
      have later := ih keyring
      simp only [Naming.admitted, List.filter_cons, conforms]
      exact later

theorem mem_admitted {naming : Naming} {arrivals : List Arrival} {operation : Operation} :
    operation ∈ naming.admitted arrivals ↔
      ∃ arrival ∈ arrivals, arrival.conforms naming = true ∧ arrival.insertion = operation := by
  simp [Naming.admitted, and_assoc]

/-! ### The store at the start -/

/-- The calls that put the starting certificates into a store. -/
def installations (check : SignatureCheck) (credentials : Credentials) (process : Certificate) (seq : UInt64) :
    List Operation :=
  [.insert check credentials.root bootstrapSeq true, .insert check credentials.site bootstrapSeq true,
    .insert check credentials.operator bootstrapSeq true, .insert check credentials.router seq true,
    .insert check process seq true]

/-- The names of the certificates that a keyring started from. -/
def bootstrapNames (keyring : Keyring) : List Name :=
  [keyring.rootCertificate, keyring.siteCertificate, keyring.operatorCertificate, keyring.routerCertificate]

variable {scheme : SignatureScheme} {check : SignatureCheck} {now : Time} {held : Store} {owner : Owner}
  {disk : Disk} {directory : Path} {keys : RouterKeys} {seq : UInt64} {keyring : Keyring}

/-- What a start makes of the credentials that it reads. -/
theorem exists_credentials_of_bootstrap
    (started : bootstrap scheme check now held owner disk directory keys seq = .ok keyring) :
    ∃ credentials process, process = issueProcess scheme now owner keys credentials.router.name ∧
      keyring.owner = owner ∧ keyring.processKey = keys.process ∧ keyring.processCertificate = process.name ∧
      keyring.bootstrapNames =
        [credentials.root.name, credentials.site.name, credentials.operator.name, credentials.router.name] ∧
      keyring.store = held.perform (installations check credentials process seq) := by
  unfold bootstrap at started
  cases loaded : Credentials.load disk directory with
  | error reason =>
    rw [loaded] at started
    cases started
  | ok credentials =>
    rw [loaded] at started
    simp only [bind, Except.bind, ofCredentials] at started
    split at started
    · cases started
    · cases started
      exact ⟨credentials, _, rfl, rfl, rfl, rfl, rfl, rfl⟩

/-- A keyring starts as its owner's, with five trusted certificates more. -/
theorem store_bootstrap
    (started : bootstrap scheme check now held owner disk directory keys seq = .ok keyring) :
    keyring.owner = owner ∧
      ∃ credentials process, keyring.store = held.perform (installations check credentials process seq) := by
  obtain ⟨credentials, process, _, same, _, _, _, stored⟩ := exists_credentials_of_bootstrap started
  exact ⟨same, credentials, process, stored⟩

/-- Whatever is unverified at the start was in the store before. -/
theorem mem_held_of_unverified
    (started : bootstrap scheme check now held owner disk directory keys seq = .ok keyring) {record : Record}
    (member : record ∈ keyring.store.records) (unverified : record.verified = false) : record ∈ held.records := by
  obtain ⟨_, credentials, process, installed⟩ := store_bootstrap started
  rw [installed, ← Store.replay_trace] at member
  rcases Store.placed_of_unverified _ member unverified with old | placed
  · exact old
  · obtain ⟨operation, called, prompts⟩ := Store.prompts_of_mem_trace placed
    obtain ⟨_, rfl⟩ := eq_insert_of_prompts prompts
    simp [installations] at called

/-- What is unverified later was held before the start, or the policy let it in. -/
theorem conforms_of_unverified
    (started : bootstrap scheme check now held owner disk directory keys seq = .ok keyring)
    {arrivals : List Arrival} {past : List Action} (within : past <+: keyring.history arrivals) {record : Record}
    (member : record ∈ (keyring.store.replay past).records) (unverified : record.verified = false) :
    record ∈ held.records ∨ keyring.naming.checkSigner record.name record.signer = .ok () := by
  rcases Store.placed_of_unverified past member unverified with atStart | placed
  · exact .inl (mem_held_of_unverified started atStart unverified)
  · obtain ⟨operation, called, prompts⟩ := Store.prompts_of_mem_trace (within.subset placed)
    obtain ⟨arrival, _, conforms, same⟩ := mem_admitted.1 called
    obtain ⟨_, rfl⟩ := eq_insert_of_prompts prompts
    simp only [Arrival.insertion, Operation.insert.injEq] at same
    obtain ⟨_, arrived, _⟩ := same
    rw [Record.name, Record.signer, ← arrived]
    exact .inr (Arrival.conforms_iff.1 conforms)

/-- While arrivals come in, records become verified by accepted signatures only. -/
theorem certified_of_newly_verified {arrivals : List Arrival} {past : List Action} {action : Action}
    (moment : past ++ [action] <+: keyring.history arrivals) {record : Record}
    (member : record ∈ (keyring.store.replay (past ++ [action])).records) (verified : record.verified = true)
    (new : record ∉ (keyring.store.replay past).records) :
    ∃ check lookup subject signer, action = .attempt check lookup ∧ record = subject.asVerified ∧
      Certified check (keyring.store.replay past) lookup subject signer := by
  obtain ⟨operation, called, prompts⟩ :=
    Store.prompts_of_mem_trace (moment.subset (List.mem_append_right past List.mem_cons_self))
  obtain ⟨arrival, _, _, same⟩ := mem_admitted.1 called
  subst same
  rw [Store.replay_append, Store.replay_cons, Store.replay_nil] at member
  cases prompts with
  | place =>
    rcases Store.mem_act_place.1 member with old | rfl
    · exact absurd old.1 new
    · cases verified
  | attempt _ lookup =>
    refine ⟨arrival.check, lookup, ?_⟩
    have cases := Store.attempted arrival.check (keyring.store.replay past) lookup
    simp only [Store.act, Arrival.insertion, Operation.check] at member
    generalize (keyring.store.replay past).attempt arrival.check lookup = result at member cases
    cases cases with
    | @verified subject signer certified =>
      rcases Store.mem_markFirst member with old | ⟨other, found, rfl⟩
      · exact absurd old new
      · cases certified.found.symm.trans found
        exact ⟨subject, signer, rfl, rfl, certified⟩
    | _ => exact absurd member new
  | forget => exact absurd member new

/-- How the policy stands to a certificate and the signer whose key has certified it. It
    has allowed the text of the locator. It allows the signer's own name exactly if
    that name has a sufficient role as well and shows the same place as the locator,
    and always if the locator adds no marker to a name without `LSA`. -/
structure Judged (naming : Naming) (subject signer : Record) : Prop where
  locator : naming.checkSigner subject.name subject.signer = .ok ()
  key_iff : naming.checkSigner subject.name signer.name = .ok () ↔
    (naming.roleOf signer.name).mayCertify (naming.roleOf subject.name) = true ∧
      naming.placeFor? (naming.roleOf subject.name) signer.name =
        naming.placeFor? (naming.roleOf subject.name) subject.signer
  unmarked : (∀ component, subject.signer.components = signer.name.components ++ [component] →
      component ∉ reservedMarkers) →
    lsaMarker ∉ signer.name.components → naming.checkSigner subject.name signer.name = .ok ()

private theorem judged_of_allowed {naming : Naming} {subject signer : Record}
    (allowed : naming.checkSigner subject.name subject.signer = .ok ())
    (resolves : subject.signer.resolvesTo signer.name = true) : Judged naming subject signer := by
  refine ⟨allowed, Naming.checkSigner_ok_iff_of_ok allowed, ?_⟩
  intro unmarked noLinks
  rcases Name.resolvesTo_iff.1 resolves with same | ⟨component, split⟩
  · rw [← same]
    exact allowed
  · exact Naming.checkSigner_of_longer split (unmarked component split) noLinks allowed

/-- The policy on the key that is really used. Whenever certificates from elsewhere lead
    to a verified record, a stored signer has certified it, and the policy has judged
    the two unless the record was held from the start. -/
theorem used_key_policy
    (started : bootstrap scheme check now held owner disk directory keys seq = .ok keyring)
    (arrivals : List Arrival) :
    (keyring.receiveAll arrivals).store = keyring.store.replay (keyring.history arrivals) ∧
      ∀ past action record, past ++ [action] <+: keyring.history arrivals →
        record ∈ (keyring.store.replay (past ++ [action])).records → record.verified = true →
        record ∉ (keyring.store.replay past).records →
        ∃ check lookup subject signer, action = .attempt check lookup ∧ record = subject.asVerified ∧
          Certified check (keyring.store.replay past) lookup subject signer ∧
          (subject ∈ held.records ∨ Judged keyring.naming subject signer) := by
  refine ⟨store_receiveAll keyring arrivals, ?_⟩
  intro past action record moment member verified new
  obtain ⟨check, lookup, subject, signer, tried, same, certified⟩ :=
    certified_of_newly_verified moment member verified new
  refine ⟨check, lookup, subject, signer, tried, same, certified, ?_⟩
  have within := (List.prefix_append past [action]).trans moment
  obtain ⟨stored, _⟩ := Store.mem_of_find? certified.found
  rcases conforms_of_unverified started within stored certified.unverified with old | allowed
  · exact .inl old
  · exact .inr (judged_of_allowed allowed (Store.mem_of_find? certified.signed).2)

/-- A scheme that signs nothing and refuses nothing. -/
def sampleScheme : SignatureScheme := ⟨SigningKey.seed, fun _ _ => Signature.blank, fun _ _ _ => .ok ()⟩

/-- The starting certificates of the router `pollux`. -/
def sampleCredentials : Credentials where
  root := .sample ["ndn", "edu", "KEY", "root"] ["ndn", "edu", "KEY", "root"]
  site := .sample ["ndn", "edu", "memphis", "KEY", "site"] ["ndn", "edu", "KEY", "root"]
  operator := .sample ["ndn", "edu", "memphis", "O.Start", "alice", "KEY", "op"]
    ["ndn", "edu", "memphis", "KEY", "site"]
  router := .sample ["ndn", "edu", "memphis", "R.Start", "pollux", "KEY", "rtr"]
    ["ndn", "edu", "memphis", "O.Start", "alice", "KEY", "op"]

/-- A disk with the sample certificates in a directory. -/
def sampleDisk (directory : Path) : Disk :=
  let save (disk : Disk) (file : String) (certificate : Certificate) : Disk :=
    (certificate.save disk (directory.join file) .base64).2
  let disk := save .empty rootFile sampleCredentials.root
  let disk := save disk siteFile sampleCredentials.site
  let disk := save disk operatorFile sampleCredentials.operator
  save disk routerFile sampleCredentials.router

/-- The start of the router `pollux` with an empty store. -/
def startPollux : Except BootstrapError Keyring :=
  bootstrap sampleScheme (sampleScheme.checkAt 0) 0 .empty
    ⟨.ofList ["ndn"], .ofList ["ndn", "edu"], .ofList ["memphis"], .ofList ["pollux"]⟩
    (sampleDisk ⟨"/certs"⟩) ⟨"/certs"⟩ ⟨⟨Octets.zero 32⟩, ⟨Octets.zero 32⟩⟩ 3

/-- The keyring of the router `pollux` after its start. -/
def pollux : Keyring :=
  let owner : Owner := ⟨.ofList ["ndn"], .ofList ["ndn", "edu"], .ofList ["memphis"], .ofList ["pollux"]⟩
  let process := issueProcess sampleScheme 0 owner ⟨⟨Octets.zero 32⟩, ⟨Octets.zero 32⟩⟩ sampleCredentials.router.name
  { owner
    store := ⟨[⟨sampleCredentials.root, 10, true⟩, ⟨sampleCredentials.site, 10, true⟩,
      ⟨sampleCredentials.operator, 10, true⟩, ⟨sampleCredentials.router, 3, true⟩, ⟨process, 3, true⟩], .empty⟩
    rootCertificate := sampleCredentials.root.name
    siteCertificate := sampleCredentials.site.name
    operatorCertificate := sampleCredentials.operator.name
    routerCertificate := sampleCredentials.router.name
    processCertificate := process.name
    processKey := ⟨Octets.zero 32⟩
    certificateSeq := 3 }

theorem startPollux_eq : startPollux = .ok pollux := by decide +kernel

/-- A certificate of another router, signed by the key of `pollux`. Its locator is the
    name of that key's certificate with an operator marker behind it. -/
def castor : Certificate :=
  .sample ["ndn", "edu", "memphis", "R.Start", "castor", "KEY", "evil"]
    ["ndn", "edu", "memphis", "R.Start", "pollux", "KEY", "rtr", "O.Start"]

/-- The locator passes for an operator's, and so a router's key certifies a router. -/
theorem used_key_policy_castor :
    ∃ keyring past signer, startPollux = .ok keyring ∧
      past ++ [.attempt (sampleScheme.checkAt 0) castor.name] <+:
        keyring.history [⟨sampleScheme.checkAt 0, castor, 4⟩] ∧
      Certified (sampleScheme.checkAt 0) (keyring.store.replay past) castor.name ⟨castor, 4, false⟩ signer ∧
      Judged keyring.naming ⟨castor, 4, false⟩ signer ∧
      keyring.naming.checkSigner castor.name signer.name ≠ .ok () := by
  have facts : (startPollux.map fun keyring => decide (
      (⟨sampleScheme.checkAt 0, castor, 4⟩ : Arrival).conforms keyring.naming = true ∧
      keyring.store.holdsFresher castor.name 4 = false ∧
      (keyring.store.replace castor 4).find? castor.name = some ⟨castor, 4, false⟩ ∧
      (keyring.store.replace castor 4).find? castor.signer = some ⟨sampleCredentials.router, 3, true⟩ ∧
      ⟨castor, 4, true⟩ ∉ (keyring.store.replace castor 4).records ∧
      ⟨castor, 4, true⟩ ∈ ((keyring.store.replace castor 4).markVerified castor.name).records ∧
      (keyring.naming.roleOf sampleCredentials.router.name).mayCertify
        (keyring.naming.roleOf castor.name) = false)) = .ok true := by decide +kernel
  cases started : startPollux with
  | error reason =>
    rw [started] at facts
    cases facts
  | ok keyring =>
    rw [started] at facts
    obtain ⟨conforms, fresh, found, signed, new, marked, below⟩ := of_decide_eq_true (Except.ok.inj facts)
    have certified : Certified (sampleScheme.checkAt 0) (keyring.store.replay [.place castor 4 false]) castor.name
        ⟨castor, 4, false⟩ ⟨sampleCredentials.router, 3, true⟩ :=
      ⟨found, rfl, signed, rfl, by decide +kernel⟩
    have moment : [.place castor 4 false] ++ [.attempt (sampleScheme.checkAt 0) castor.name] <+:
        keyring.history [⟨sampleScheme.checkAt 0, castor, 4⟩] := by
      simp [history, Naming.admitted, conforms, Store.trace, Operation.actions, Arrival.insertion,
        Operation.opening, fresh]
    have verified : ⟨castor, 4, true⟩ ∈ (keyring.store.replay
        ([.place castor 4 false] ++ [.attempt (sampleScheme.checkAt 0) castor.name])).records := by
      have outcome := congrArg Prod.snd (Store.attempt_of_certified certified)
      rw [Store.replay_append, Store.replay_cons, Store.act, outcome]
      exact marked
    obtain ⟨_, policy⟩ := used_key_policy started [⟨sampleScheme.checkAt 0, castor, 4⟩]
    obtain ⟨check, lookup, subject, signer, tried, _, certifiedToo, judged⟩ :=
      policy _ _ _ moment verified rfl new
    cases tried
    cases certified.found.symm.trans certifiedToo.found
    cases certified.signed.symm.trans certifiedToo.signed
    refine ⟨keyring, _, _, rfl, moment, certified, judged.resolve_left List.not_mem_nil, ?_⟩
    intro allowed
    have above : (keyring.naming.roleOf sampleCredentials.router.name).mayCertify
        (keyring.naming.roleOf castor.name) = true :=
      ((judged.resolve_left List.not_mem_nil).key_iff.1 allowed).1
    rw [below] at above
    cases above

end Keyring
end RouteTrust
