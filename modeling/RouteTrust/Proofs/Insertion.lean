import RouteTrust.Proofs.Displacement
import RouteTrust.Proofs.Stranding

/-!
What an insertion decides and does. It is refused if a certificate that overlaps the
new one is at least as fresh, and then nothing happens. Otherwise the new certificate
displaces all that overlap it and stands last, and the others only gain trust
(`insert_exactly`). Who asks first whether a certificate is newer learns less: the
question looks for the name and for the name that is one component shorter, and not
for names that are one component longer (`isNewer_iff`).
-/
namespace RouteTrust

/-- Behind records that only gain trust, the last one only gains trust. -/
theorem Grown.exists_concat {before after : List Record} {record : Record} (grown : Grown (before ++ [record]) after) :
    ∃ others last, after = others ++ [last] ∧ Grown before others ∧ record.Gains last := by
  induction before generalizing after with
  | nil =>
    cases grown with
    | cons gains rest =>
      cases rest
      exact ⟨[], _, rfl, .nil, gains⟩
  | cons head before ih =>
    cases grown with
    | cons gains rest =>
      obtain ⟨others, last, rfl, grown, lastGains⟩ := ih rest
      exact ⟨_ :: others, last, rfl, .cons gains grown, lastGains⟩

namespace Store
variable {check : SignatureCheck} {store : Store} {certificate : Certificate} {seq : UInt64} {trusted : Bool}

private theorem answer_insert_iff :
    (store.insert check certificate seq trusted).answer = true ↔
      ∀ record ∈ store.records, record.name.overlaps certificate.name = true → record.seq < seq := by
  rw [← holdsFresher_eq_false_iff]
  cases fresher : store.holdsFresher certificate.name seq with
  | true => simp [answer_insert_of_fresher fresher]
  | false => simp [answer_insert fresher]

/-- An insertion that answers no has done nothing. -/
theorem insert_of_refused (refused : (store.insert check certificate seq trusted).answer = false) :
    store.insert check certificate seq trusted = ⟨false, store, []⟩ := by
  cases fresher : store.holdsFresher certificate.name seq with
  | true => exact answer_insert_of_fresher fresher
  | false =>
    rw [answer_insert fresher] at refused
    cases refused

/-- A certificate that takes its place is certified by a verified one beside it. -/
theorem certified_replace_iff (separated : Separated store.records) (certificate : Certificate) (seq : UInt64) :
    (∃ subject signer, Certified check (store.replace certificate seq) certificate.name subject signer) ↔
      ∃ signer ∈ store.records, signer.verified = true ∧ certificate.signer.resolvesTo signer.name = true ∧
        signer.name.overlaps certificate.name = false ∧ check certificate signer.certificate.publicKey = true := by
  have placed : Separated (store.replace certificate seq).records :=
    separated_act separated (.place certificate seq false)
  have found := find?_replace separated certificate seq
  constructor
  · rintro ⟨subject, signer, certified⟩
    cases found.symm.trans certified.found
    obtain ⟨member, resolves⟩ := mem_of_find? certified.signed
    rcases mem_replace.1 member with ⟨old, apart⟩ | rfl
    · exact ⟨signer, old, certified.trusted, resolves, apart, certified.accepted⟩
    · cases certified.trusted
  · rintro ⟨signer, member, verified, resolves, apart, accepted⟩
    have beside : signer ∈ (store.replace certificate seq).records := mem_replace.2 (.inl ⟨member, apart⟩)
    exact ⟨_, signer, found, rfl, (find?_eq_some_iff placed).2 ⟨beside, resolves⟩, verified, accepted⟩

/-- A new certificate is verified if it comes trusted, or if a stored certificate that
    it leaves in place certifies it. -/
theorem mem_insert_verified_iff (separated : Separated store.records)
    (newer : store.holdsFresher certificate.name seq = false) :
    ⟨certificate, seq, true⟩ ∈ (store.insert check certificate seq trusted).store.records ↔
      trusted = true ∨
        ∃ signer ∈ store.records, signer.verified = true ∧ certificate.signer.resolvesTo signer.name = true ∧
          signer.name.overlaps certificate.name = false ∧ check certificate signer.certificate.publicKey = true := by
  rw [← certified_replace_iff separated certificate seq]
  cases trusted with
  | true => simp [(grown_insert newer).mem_of_verified (List.mem_append_right _ List.mem_cons_self) rfl]
  | false =>
    have unverified : ⟨certificate, seq, true⟩ ∉ (store.replace certificate seq).records := by
      rw [mem_replace]
      rintro (⟨_, apart⟩ | same)
      · rw [Record.name, Name.overlaps_self] at apart
        cases apart
      · cases same
    have found := find?_replace separated certificate seq
    have cases := attempted check (store.replace certificate seq) certificate.name
    rw [← attempt_eq_verified_iff]
    simp only [insert, newer, Bool.false_eq_true, if_false, false_or]
    generalize (store.replace certificate seq).attempt check certificate.name = result at cases
    cases cases with
    | @verified subject signer certified =>
      cases found.symm.trans certified.found
      have placed : Separated (store.replace certificate seq).records :=
        separated_act separated (.place certificate seq false)
      have marked := (mem_markVerified placed found).2 (.inl rfl)
      simp only [iff_true]
      exact (grown_cascade check _ [certificate.name]).mem_of_verified marked rfl
    | _ => exact iff_of_false unverified (by simp)

private theorem separated_insert (separated : Separated store.records) :
    Separated (store.insert check certificate seq trusted).store.records := by
  cases fresher : store.holdsFresher certificate.name seq with
  | true =>
    rw [answer_insert_of_fresher fresher]
    exact separated
  | false =>
    have placed := separated_act separated (.place certificate seq trusted)
    rw [records_act_place] at placed
    exact separated_of_map_asVerified (grown_insert fresher).map_asVerified placed

/-- A certificate that is taken stands last, behind all that it does not overlap. -/
theorem exists_others (separated : Separated store.records)
    (newer : store.holdsFresher certificate.name seq = false) :
    ∃ others verified,
      (store.insert check certificate seq trusted).store.records = others ++ [⟨certificate, seq, verified⟩] ∧
      Grown (store.records.filter fun record => !record.name.overlaps certificate.name) others ∧
      (∀ record ∈ others, record.name.overlaps certificate.name = false) ∧
      (store.insert check certificate seq trusted).store.find? certificate.name =
        some ⟨certificate, seq, verified⟩ ∧
      (verified = true ↔ ⟨certificate, seq, true⟩ ∈ (store.insert check certificate seq trusted).store.records) := by
  have placed : Separated (store.insert check certificate seq trusted).store.records := separated_insert separated
  obtain ⟨others, last, split, grown, gains⟩ := (grown_insert newer).exists_concat
  have kept : ∃ verified, last = ⟨certificate, seq, verified⟩ := by
    rcases gains with rfl | rfl
    · exact ⟨_, rfl⟩
    · exact ⟨_, rfl⟩
  obtain ⟨verified, rfl⟩ := kept
  have member : ⟨certificate, seq, verified⟩ ∈ (store.insert check certificate seq trusted).store.records := by
    rw [split]
    exact List.mem_append_right _ List.mem_cons_self
  refine ⟨others, verified, split, grown, ?_, find?_name placed member, ?_⟩
  · intro record stands
    obtain ⟨old, left, gains⟩ := grown.exists_old stands
    rw [gains.name_eq]
    simpa using (List.mem_filter.1 left).2
  · constructor
    · rintro rfl
      exact member
    · intro memberToo
      have same := placed.unique member memberToo (Name.overlaps_self certificate.name)
      exact congrArg Record.verified same

/-- What an insertion decides and does, after any calls. It is refused exactly if a
    certificate that overlaps it is at least as fresh, and then all is as before. One that is taken
    stands last and is what its name finds. All that overlap it are gone, and the others
    stand in their order, with more trust at most. It is verified if it comes trusted or a
    certificate that stays certifies it. -/
theorem insert_exactly (operations : List Operation) (check : SignatureCheck) (certificate : Certificate)
    (seq : UInt64) (trusted : Bool) :
    let store := empty.perform operations
    let update := store.insert check certificate seq trusted
    (update.answer = false ↔
      ∃ record ∈ store.records, record.name.overlaps certificate.name = true ∧ seq ≤ record.seq) ∧
    (update.answer = false → update = ⟨false, store, []⟩) ∧
    (update.answer = true → ∃ others verified,
      update.store.records = others ++ [⟨certificate, seq, verified⟩] ∧
      Grown (store.records.filter fun record => !record.name.overlaps certificate.name) others ∧
      (∀ record ∈ others, record.name.overlaps certificate.name = false) ∧
      update.store.find? certificate.name = some ⟨certificate, seq, verified⟩ ∧
      (verified = true ↔
        trusted = true ∨
          ∃ signer ∈ store.records, signer.verified = true ∧ certificate.signer.resolvesTo signer.name = true ∧
            signer.name.overlaps certificate.name = false ∧
            check certificate signer.certificate.publicKey = true)) := by
  intro store update
  have separated : Separated store.records := separated_perform operations
  refine ⟨?_, insert_of_refused, ?_⟩
  · rw [← Bool.not_eq_true, answer_insert_iff]
    simp only [not_forall, UInt64.not_lt, exists_prop]
  · intro taken
    have newer : store.holdsFresher certificate.name seq = false :=
      holdsFresher_eq_false_iff.2 (answer_insert_iff.1 taken)
    obtain ⟨others, verified, split, grown, apart, found, marked⟩ := exists_others separated newer
    exact ⟨others, verified, split, grown, apart, found, marked.trans (mem_insert_verified_iff separated newer)⟩

/-- A site's certificate is as fresh as its version in the store and is refused; with a
    greater number it takes that one's place, verified by the signer beside it. -/
theorem insert_exactly_site :
    let store := empty.perform [.insert (fun _ _ => true) (.sample ["s", "KEY", "1"] ["s", "KEY", "1"]) 1 true,
      .insert (fun _ _ => true) (.sample ["a", "KEY", "k", "v"] ["s", "KEY", "1"]) 2 false]
    store.insert (fun _ _ => true) (.sample ["a", "KEY", "k"] ["s", "KEY", "1"]) 2 false = ⟨false, store, []⟩ ∧
      (store.insert (fun _ _ => true) (.sample ["a", "KEY", "k"] ["s", "KEY", "1"]) 3 false).store.find?
        (.ofList ["a", "KEY", "k"]) = some ⟨.sample ["a", "KEY", "k"] ["s", "KEY", "1"], 3, true⟩ := by
  intro store
  refine ⟨?_, ?_⟩
  · exact (insert_exactly _ _ _ 2 false).2.1 (by decide +kernel)
  · obtain ⟨_, verified, _, _, _, found, marked⟩ :=
      (insert_exactly [.insert (fun _ _ => true) (.sample ["s", "KEY", "1"] ["s", "KEY", "1"]) 1 true,
        .insert (fun _ _ => true) (.sample ["a", "KEY", "k", "v"] ["s", "KEY", "1"]) 2 false] (fun _ _ => true)
        (.sample ["a", "KEY", "k"] ["s", "KEY", "1"]) 3 false).2.2 (by decide +kernel)
    have signed : ⟨.sample ["s", "KEY", "1"] ["s", "KEY", "1"], 1, true⟩ ∈ store.records := by decide +kernel
    rw [marked.2 (.inr ⟨_, signed, rfl, by decide +kernel, by decide +kernel, rfl⟩)] at found
    exact found

/-! ### What the question for a newer certificate leaves out -/

/-- The names that overlap one are those that it resolves to, and those that are one
    component longer. -/
theorem overlapping_iff {name : Name} :
    (∀ record ∈ store.records, record.name.overlaps name = true → record.seq < seq) ↔
      (∀ record ∈ store.records, name.resolvesTo record.name = true → record.seq < seq) ∧
        ∀ record ∈ store.records, ∀ version, record.name.components = name.components ++ [version] →
          record.seq < seq := by
  constructor
  · intro newer
    refine ⟨?_, ?_⟩
    · intro record member resolves
      exact newer record member (Name.overlaps_iff.2 (.inr resolves))
    · intro record member version longer
      exact newer record member (Name.overlaps_iff.2 (.inl (Name.resolvesTo_iff.2 (.inr ⟨version, longer⟩))))
  · rintro ⟨found, beyond⟩ record member overlap
    rcases Name.overlaps_iff.1 overlap with reaches | resolves
    · rcases Name.resolvesTo_iff.1 reaches with same | ⟨version, longer⟩
      · exact found record member (same ▸ Name.resolvesTo_self name)
      · exact beyond record member version longer
    · exact found record member resolves

/-- What the question for a newer certificate asks. -/
theorem isNewer_iff (separated : Separated store.records) {name : Name} :
    store.isNewer name seq = true ↔
      ∀ record ∈ store.records, name.resolvesTo record.name = true → record.seq < seq := by
  unfold isNewer
  cases found : store.find? name with
  | none =>
    have absent := find?_eq_none_iff.1 found
    refine iff_of_true rfl ?_
    intro record member resolves
    rw [absent record member] at resolves
    cases resolves
  | some record =>
    obtain ⟨stored, reaches⟩ := mem_of_find? found
    simp only [decide_eq_true_eq]
    constructor
    · intro newer other member resolves
      rw [separated.resolve member stored resolves reaches]
      exact newer
    · intro newer
      exact newer record stored reaches

/-- All certificates under names that are one component longer are older. -/
def NewerThanLonger (store : Store) (name : Name) (seq : UInt64) : Prop :=
  ∀ record ∈ store.records, ∀ version, record.name.components = name.components ++ [version] → record.seq < seq

/-- An insertion asks for longer names too. -/
theorem answer_insert_iff_isNewer (separated : Separated store.records) :
    (store.insert check certificate seq trusted).answer = true ↔
      store.isNewer certificate.name seq = true ∧ store.NewerThanLonger certificate.name seq := by
  rw [answer_insert_iff, isNewer_iff separated, NewerThanLonger, overlapping_iff]

/-- Where no names in use differ by one component, no stored name is longer. -/
theorem newerThanLonger_of_no_room {inUse : Name → Prop}
    (noRoom : ∀ short long, inUse short → inUse long → long.resolvesTo short = true → long = short)
    {operations : List Operation} (inserts : InsertsOnly inUse operations) {name : Name} (nameInUse : inUse name)
    (seq : UInt64) : (empty.perform operations).NewerThanLonger name seq := by
  intro record member version longer
  obtain ⟨check, trusted, inserted⟩ := inserted_of_mem_perform member
  have recordInUse : inUse record.name := inserts check record.certificate record.seq trusted inserted
  have same := noRoom name record.name nameInUse recordInUse (Name.resolvesTo_iff.2 (.inr ⟨version, longer⟩))
  exact absurd same (Name.ne_of_longer longer)

/-- A certificate of a longer name is stored, and the question for the shorter one does
    not see it. -/
theorem isNewer_of_longer {short long : Name} (longer : long.resolvesTo short = true) (differ : long ≠ short)
    (check : SignatureCheck) :
    (empty.insert check (.blank long long) 2 false).store.isNewer short 1 = true ∧
      ∀ trusted, ((empty.insert check (.blank long long) 2 false).store.insert check (.blank short short) 1
        trusted).answer = false := by
  have stored : (empty.insert check (.blank long long) 2 false).store =
      ⟨[⟨.blank long long, 2, false⟩], ⟨[⟨long, [long]⟩]⟩⟩ := insert_empty check (.blank long long) 2
  rw [stored]
  refine ⟨?_, ?_⟩
  · simp [isNewer, find?, Record.name, Name.not_resolvesTo_longer longer differ]
  · intro trusted
    rw [answer_insert_of_fresher]
    simp [holdsFresher, Record.name, Name.overlaps_iff.2 (.inl longer)]

/-- How far the question foretells an insertion, after any calls and in any keyring: the
    answers differ by the certificates under names that are one component longer. For
    names in use they agree in every run exactly if no two of the names differ by one
    component. -/
theorem query_exactly (operations : List Operation) (inUse : Name → Prop) :
    (∀ check certificate seq trusted,
      ((empty.perform operations).insert check certificate seq trusted).answer = true ↔
        (empty.perform operations).isNewer certificate.name seq = true ∧
          (empty.perform operations).NewerThanLonger certificate.name seq) ∧
    (∀ scheme check now owner disk directory keys seq keyring,
      Keyring.bootstrap scheme check now (empty.perform operations) owner disk directory keys seq = .ok keyring →
        ∀ arrivals checkNow certificate seqNow trusted,
          ((keyring.receiveAll arrivals).store.insert checkNow certificate seqNow trusted).answer = true ↔
            (keyring.receiveAll arrivals).store.isNewer certificate.name seqNow = true ∧
              (keyring.receiveAll arrivals).store.NewerThanLonger certificate.name seqNow) ∧
    ((∀ run, InsertsOnly inUse run → ∀ check certificate seq trusted, inUse certificate.name →
        ((empty.perform run).insert check certificate seq trusted).answer =
          (empty.perform run).isNewer certificate.name seq) ↔
      ∀ short long, inUse short → inUse long → long.resolvesTo short = true → long = short) := by
  refine ⟨?_, ?_, ?_, ?_⟩
  · intro check certificate seq trusted
    exact answer_insert_iff_isNewer (separated_perform operations)
  · intro scheme check now owner disk directory keys seq keyring started arrivals checkNow certificate seqNow trusted
    exact answer_insert_iff_isNewer (Keyring.separated_receiveAll started arrivals)
  · intro agree short long shortInUse longInUse longer
    by_contra differ
    obtain ⟨newer, refused⟩ := isNewer_of_longer longer differ fun _ _ => true
    have inserts : InsertsOnly inUse [.insert (fun _ _ => true) (.blank long long) 2 false] :=
      insertsOnly_cons_insert.2 ⟨longInUse, insertsOnly_nil⟩
    have same := agree _ inserts (fun _ _ => true) (.blank short short) 1 false shortInUse
    rw [perform, perform, Operation.run, refused] at same
    exact Bool.false_ne_true (same.trans newer)
  · intro noRoom run inserts check certificate seq trusted nameInUse
    rw [Bool.eq_iff_iff, answer_insert_iff_isNewer (separated_perform run)]
    exact and_iff_left (newerThanLonger_of_no_room noRoom inserts nameInUse seq)

/-- The router `pollux` holds its own certificate, so it takes no older one that is named
    like it without the last component. -/
theorem query_exactly_pollux :
    Keyring.startPollux = .ok Keyring.pollux ∧
      (∀ seq ≤ 3, (Keyring.pollux.store.insert (fun _ _ => true)
        (.sample ["ndn", "edu", "memphis", "R.Start", "pollux", "KEY"] ["ndn", "edu", "KEY", "root"]) seq
        false).answer = false) ∧
      ∀ seq, ((empty.perform [.insert (fun _ _ => true) (.sample ["s", "KEY", "1"] ["s", "KEY", "1"]) 5 true]).insert
        (fun _ _ => true) (.sample ["s", "KEY", "1"] ["s", "KEY", "1"]) seq false).answer =
          (empty.perform [.insert (fun _ _ => true) (.sample ["s", "KEY", "1"] ["s", "KEY", "1"]) 5 true]).isNewer
            (.ofList ["s", "KEY", "1"]) seq := by
  have started : Keyring.bootstrap Keyring.sampleScheme (Keyring.sampleScheme.checkAt 0) 0 (empty.perform [])
      ⟨.ofList ["ndn"], .ofList ["ndn", "edu"], .ofList ["memphis"], .ofList ["pollux"]⟩
      (Keyring.sampleDisk ⟨"/certs"⟩) ⟨"/certs"⟩ ⟨⟨Octets.zero 32⟩, ⟨Octets.zero 32⟩⟩ 3 = .ok Keyring.pollux :=
    Keyring.startPollux_eq
  refine ⟨started, ?_, ?_⟩
  · intro seq older
    rw [← Bool.not_eq_true]
    intro taken
    have router : ⟨Keyring.sampleCredentials.router, 3, true⟩ ∈ Keyring.pollux.store.records := by decide +kernel
    have exactly := (query_exactly [] fun _ => True).2.1 _ _ _ _ _ _ _ _ _ started []
    have newer := ((exactly _ _ seq false).1 taken).2 _ router "rtr" (by decide +kernel)
    exact UInt64.not_lt.2 older newer
  · intro seq
    refine (query_exactly [] (· = .ofList ["s", "KEY", "1"])).2.2.2 ?_ _ ?_ _ _ seq false rfl
    · rintro short long rfl rfl _
      rfl
    · exact insertsOnly_cons_insert.2 ⟨rfl, insertsOnly_nil⟩

/-- A version of a site's certificate is stored, and a certificate without it counts as
    newer, though it is refused. -/
theorem query_ahead_of_insertion :
    let store := empty.perform
      [.insert (fun _ _ => true) (.sample ["a", "KEY", "k", "v"] ["s", "KEY", "1"]) 5 false]
    store.isNewer (.ofList ["a", "KEY", "k"]) 3 = true ∧
      (store.insert (fun _ _ => true) (.sample ["a", "KEY", "k"] ["s", "KEY", "1"]) 3 false).answer = false := by
  decide +kernel

end Store
end RouteTrust
