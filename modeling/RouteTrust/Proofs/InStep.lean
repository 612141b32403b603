import RouteTrust.Proofs.ComposedNames
import RouteTrust.Proofs.SequenceFiles

/-!
A running router and its sequence files. A router that has started is up to its files:
no counter is behind the one on disk, and its certificate number is the one on disk
(`Config.InStep`). Starting brings this about, also where the start then fails to
establish trust (`inStep_of_resume`), and advertising and shutting down keep it. No
operation takes a number on disk back (`Config.Kept`).
-/
namespace RouteTrust

/-! ## The files of a router -/

namespace Config
variable (config : Config) (directory : DataDirectory)

private theorem lsaSequenceIn_eq : config.lsaSequenceIn directory =
    (config.sequenceDirectory.getD directory.base).join lsaSequenceFile := by
  unfold lsaSequenceIn
  cases config.sequenceDirectory <;> rfl

private theorem certificateSequenceIn_eq : config.certificateSequenceIn directory =
    (config.sequenceDirectory.getD directory.base).join certificateSequenceFile := by
  unfold certificateSequenceIn
  cases config.sequenceDirectory <;> rfl

private theorem place_lsaSequenceIn_ne :
    (config.lsaSequenceIn directory).place ≠ (config.certificateSequenceIn directory).place := by
  rw [lsaSequenceIn_eq, certificateSequenceIn_eq]
  exact Path.place_join_ne (by decide) (by decide) (by decide) _ _

private theorem place_lsaSequenceIn_ne_routerKey :
    (config.lsaSequenceIn directory).place ≠ directory.routerKey.place := by
  rw [lsaSequenceIn_eq]
  exact Path.place_join_ne (by decide) (by decide) (by decide) _ _

private theorem place_certificateSequenceIn_ne_routerKey :
    (config.certificateSequenceIn directory).place ≠ directory.routerKey.place := by
  rw [certificateSequenceIn_eq]
  exact Path.place_join_ne (by decide) (by decide) (by decide) _ _

/-- Both sequence files can be read where they stand. -/
structure Opens (disk : Disk) : Prop where
  lsa : disk.Opens (config.lsaSequenceIn directory)
  certificate : disk.Opens (config.certificateSequenceIn directory)

/-- A change leaves both sequence files readable and takes no number in them back. -/
structure Kept (before after : Disk) : Prop where
  lsa : LsaSequence.Kept before after (config.lsaSequenceIn directory)
  certificate : CertificateSequence.Kept before after (config.certificateSequenceIn directory)

/-- The numbers in memory are up to the sequence files: no counter is behind its file,
    and the certificate number is the one in its file. -/
structure InStep (sequence : LsaSequence) (certificateSequence : CertificateSequence) (disk : Disk) : Prop where
  lsaPath : sequence.path = config.lsaSequenceIn directory
  certificatePath : certificateSequence.path = config.certificateSequenceIn directory
  ahead : sequence.Ahead disk
  holds : disk.readNumber? (config.certificateSequenceIn directory) = some certificateSequence.seq

/-- After a change both sequence files can be read and read as before. -/
structure Untouched (before after : Disk) : Prop where
  lsa : Disk.Untouched before after (config.lsaSequenceIn directory)
  certificate : Disk.Untouched before after (config.certificateSequenceIn directory)

/-- The configuration of a router `pollux`, which takes its certificates from a directory
    of its own. -/
def pollux : Config :=
  ⟨⟨.ofList ["ndn"], .ofList ["ndn", "edu"], .ofList ["memphis"], .ofList ["pollux"]⟩, some ⟨"/certs"⟩, none⟩

end Config

section
variable {config : Config} {directory : DataDirectory} {before between after disk : Disk}

theorem Config.Kept.opens (kept : config.Kept directory before after) : config.Opens directory after :=
  ⟨kept.lsa.opens, kept.certificate.opens⟩

theorem Config.Kept.trans (one : config.Kept directory before between) (two : config.Kept directory between after) :
    config.Kept directory before after :=
  ⟨one.lsa.trans two.lsa, one.certificate.trans two.certificate⟩

theorem Config.Untouched.kept (untouched : config.Untouched directory before after) :
    config.Kept directory before after :=
  ⟨.of_untouched untouched.lsa, .of_untouched untouched.certificate⟩

private theorem Config.Opens.untouched (opened : config.Opens directory before)
    (lsa : Disk.Spares before after (config.lsaSequenceIn directory))
    (certificate : Disk.Spares before after (config.certificateSequenceIn directory)) :
    config.Untouched directory before after :=
  ⟨lsa.untouched opened.lsa, certificate.untouched opened.certificate⟩

theorem Config.InStep.of_untouched {sequence : LsaSequence} {certificateSequence : CertificateSequence}
    (inStep : config.InStep directory sequence certificateSequence before)
    (untouched : config.Untouched directory before after) :
    config.InStep directory sequence certificateSequence after where
  lsaPath := inStep.lsaPath
  certificatePath := inStep.certificatePath
  ahead := inStep.ahead.of_untouched (inStep.lsaPath ▸ untouched.lsa)
  holds := untouched.certificate.readNumber?.trans inStep.holds

/-- Writing either file again leaves memory and files in step. -/
theorem Config.InStep.persist {sequence : LsaSequence} {certificateSequence : CertificateSequence}
    (inStep : config.InStep directory sequence certificateSequence disk) (opened : config.Opens directory disk) :
    config.InStep directory sequence certificateSequence (sequence.persist disk).2 ∧
      config.Kept directory disk (sequence.persist disk).2 := by
  have lsaOpens := opened.lsa
  have apart := config.place_lsaSequenceIn_ne directory
  rw [← inStep.lsaPath] at lsaOpens apart
  obtain ⟨ahead, kept⟩ := inStep.ahead.persist lsaOpens
  have untouched := (LsaSequence.persist_spares apart.symm disk).untouched opened.certificate
  rw [inStep.lsaPath] at kept
  exact ⟨⟨inStep.lsaPath, inStep.certificatePath, ahead, untouched.readNumber?.trans inStep.holds⟩, kept,
    .of_untouched untouched⟩

private theorem Config.InStep.persistNumber {sequence : LsaSequence} {certificateSequence : CertificateSequence}
    (inStep : config.InStep directory sequence certificateSequence disk) (opened : config.Opens directory disk) :
    config.InStep directory sequence certificateSequence (certificateSequence.persist disk).2 ∧
      config.Kept directory disk (certificateSequence.persist disk).2 := by
  have certificateOpens := opened.certificate
  have holds := inStep.holds
  have apart := config.place_lsaSequenceIn_ne directory
  rw [← inStep.certificatePath] at certificateOpens holds apart
  obtain ⟨holds, kept⟩ := CertificateSequence.persist_again certificateOpens holds
  have untouched := (CertificateSequence.persist_spares apart disk).untouched opened.lsa
  have lsaKept := LsaSequence.Kept.of_untouched untouched
  rw [← inStep.lsaPath] at untouched
  rw [inStep.certificatePath] at holds kept
  exact ⟨⟨inStep.lsaPath, inStep.certificatePath, inStep.ahead.of_untouched untouched, holds⟩, lsaKept, kept⟩

end

namespace Node

/-! ## Starting -/

section
variable (config : Config) (directory : DataDirectory) (disk : Disk)

/-- The disk of a start once the data directory is made. -/
def madeDisk : Disk := (disk.createDirectory directory.base).disk

/-- The counters of a start, which it resumes first. -/
def resumeCounters : Except SequenceError LsaSequence × Disk :=
  LsaSequence.resume (madeDisk directory disk) (config.lsaSequenceIn directory)

/-- The certificate number of a start, which it resumes after the counters. -/
def resumeNumber : Except SequenceError CertificateSequence × Disk :=
  CertificateSequence.resume (resumeCounters config directory disk).2 (config.certificateSequenceIn directory)

/-- What a start does with the sequence files; after that it leaves them alone. -/
def resume : Except NodeError (LsaSequence × CertificateSequence) × Disk :=
  if (disk.createDirectory directory.base).isDone then
    match (resumeCounters config directory disk).1 with
    | .error reason => (.error (.sequence reason), (resumeCounters config directory disk).2)
    | .ok sequence =>
      match (resumeNumber config directory disk).1 with
      | .error reason => (.error (.sequence reason), (resumeNumber config directory disk).2)
      | .ok certificateSequence =>
        (.ok (sequence, certificateSequence), (resumeNumber config directory disk).2)
  else (.error .storage, madeDisk directory disk)

end

/-- The rest of a start: the router's key and its trust. -/
def establish (scheme : SignatureScheme) (surroundings : Surroundings) (config : Config)
    (directory : DataDirectory) (sequence : LsaSequence) (certificateSequence : CertificateSequence)
    (disk : Disk) : Except NodeError Node × Disk :=
  match SigningKey.loadOrCreate disk directory.routerKey surroundings.freshRouterKey with
  | (.error reason, disk) => (.error (.identity reason), disk)
  | (.ok found, disk) =>
  match Keyring.bootstrap scheme (scheme.checkAt surroundings.now) surroundings.now .empty config.owner
      disk (config.certificatesIn directory) ⟨found.key, surroundings.processKey⟩
      certificateSequence.seq with
  | .error reason => (.error (.bootstrap reason), disk)
  | .ok keyring => (.ok ⟨config, keyring, sequence, certificateSequence⟩, disk)

section
variable (scheme : SignatureScheme) (surroundings : Surroundings) (config : Config) (directory : DataDirectory)
  (disk : Disk)

theorem start_eq : start scheme surroundings config directory disk =
    match resume config directory disk with
    | (.error reason, disk) => (.error reason, disk)
    | (.ok (sequence, certificateSequence), disk) =>
      establish scheme surroundings config directory sequence certificateSequence disk := by
  unfold start resume resumeNumber resumeCounters madeDisk Change.orError
  cases (disk.createDirectory directory.base).isDone with
  | false => rfl
  | true =>
    simp only [if_true]
    rcases LsaSequence.resume (disk.createDirectory directory.base).disk (config.lsaSequenceIn directory)
      with ⟨_ | sequence, counted⟩
    · rfl
    simp only
    rcases CertificateSequence.resume counted (config.certificateSequenceIn directory)
      with ⟨_ | certificateSequence, numbered⟩
    · rfl
    · rfl

private theorem loadOrCreate_spares {path other : Path} (different : other.place ≠ path.place) (fresh : SigningKey) :
    Disk.Spares disk (SigningKey.loadOrCreate disk path fresh).2 other := by
  unfold SigningKey.loadOrCreate
  split
  · exact .refl disk other
  · exact Disk.save_spares different disk _

private theorem disk_establish (sequence : LsaSequence) (certificateSequence : CertificateSequence) :
    (establish scheme surroundings config directory sequence certificateSequence disk).2 =
      (SigningKey.loadOrCreate disk directory.routerKey surroundings.freshRouterKey).2 := by
  unfold establish
  rcases SigningKey.loadOrCreate disk directory.routerKey surroundings.freshRouterKey with ⟨_ | found, keyed⟩
  · rfl
  simp only
  split <;> rfl

private theorem untouched_establish (opened : config.Opens directory disk) (sequence : LsaSequence)
    (certificateSequence : CertificateSequence) :
    config.Untouched directory disk
      (establish scheme surroundings config directory sequence certificateSequence disk).2 := by
  rw [disk_establish]
  exact opened.untouched (loadOrCreate_spares disk (config.place_lsaSequenceIn_ne_routerKey directory) _)
    (loadOrCreate_spares disk (config.place_certificateSequenceIn_ne_routerKey directory) _)

variable {scheme surroundings config directory disk}

/-- A router that was established keeps the numbers that were resumed, and its trust
    comes from the certificate files. -/
theorem of_establish_eq_ok {sequence : LsaSequence} {certificateSequence : CertificateSequence} {node : Node}
    (established :
      (establish scheme surroundings config directory sequence certificateSequence disk).1 = .ok node) :
    node.config = config ∧ node.sequence = sequence ∧ node.certificateSequence = certificateSequence ∧
      ∃ files key, Keyring.bootstrap scheme (scheme.checkAt surroundings.now) surroundings.now .empty config.owner
        files (config.certificatesIn directory) ⟨key, surroundings.processKey⟩ certificateSequence.seq =
          .ok node.keyring := by
  unfold establish at established
  split at established
  · cases established
  · split at established
    · cases established
    · rename_i trusted
      cases established
      exact ⟨rfl, rfl, rfl, _, _, trusted⟩

private theorem untouched_madeDisk (opened : config.Opens directory disk) :
    config.Untouched directory disk (madeDisk directory disk) :=
  have widens := Disk.widens_createDirectory disk directory.base
  opened.untouched (widens.spares _) (widens.spares _)

private theorem kept_resumeCounters (opened : config.Opens directory disk) :
    config.Kept directory disk (resumeCounters config directory disk).2 := by
  have made := (untouched_madeDisk opened).kept
  have spared := LsaSequence.resume_spares (config.place_lsaSequenceIn_ne directory).symm (madeDisk directory disk)
  exact made.trans ⟨LsaSequence.kept_resume made.lsa.opens, .of_untouched (spared.untouched made.certificate.opens)⟩

private theorem resumeNumber_spares : Disk.Spares (resumeCounters config directory disk).2
    (resumeNumber config directory disk).2 (config.lsaSequenceIn directory) :=
  CertificateSequence.resume_spares (config.place_lsaSequenceIn_ne directory) _

private theorem kept_resumeNumber (opened : config.Opens directory disk) :
    config.Kept directory disk (resumeNumber config directory disk).2 := by
  have counted := kept_resumeCounters opened
  exact counted.trans ⟨.of_untouched (resumeNumber_spares.untouched counted.lsa.opens),
    CertificateSequence.kept_resume counted.certificate.opens⟩

/-- What a start writes to the sequence files stays, however far it gets. -/
theorem kept_resume (opened : config.Opens directory disk) :
    config.Kept directory disk (resume config directory disk).2 := by
  unfold resume
  split
  · split
    · exact kept_resumeCounters opened
    · split
      · exact kept_resumeNumber opened
      · exact kept_resumeNumber opened
  · exact (untouched_madeDisk opened).kept

private theorem of_resume_eq_ok {sequence : LsaSequence} {certificateSequence : CertificateSequence}
    (resumed : (resume config directory disk).1 = .ok (sequence, certificateSequence)) :
    (resumeCounters config directory disk).1 = .ok sequence ∧
      (resumeNumber config directory disk).1 = .ok certificateSequence ∧
      (resume config directory disk).2 = (resumeNumber config directory disk).2 := by
  unfold resume at resumed ⊢
  split at resumed
  · rename_i made
    split at resumed
    · cases resumed
    · rename_i counted
      split at resumed
      · cases resumed
      · rename_i numbered
        cases resumed
        simp only [if_pos made, counted, numbered, and_self]
  · cases resumed

/-- What a start resumes is up to the files, and its certificate number is the one
    after that in the file. -/
theorem inStep_of_resume {sequence : LsaSequence} {certificateSequence : CertificateSequence}
    (opened : config.Opens directory disk)
    (resumed : (resume config directory disk).1 = .ok (sequence, certificateSequence)) :
    config.InStep directory sequence certificateSequence (resume config directory disk).2 ∧
      certificateSequence.seq =
        CertificateSequence.following (disk.readNumber? (config.certificateSequenceIn directory)) := by
  obtain ⟨counted, numbered, last⟩ := of_resume_eq_ok resumed
  have made := untouched_madeDisk opened
  have countedOpens := (kept_resumeCounters opened).opens
  obtain ⟨lsaPath, ahead⟩ := LsaSequence.ahead_of_resume made.lsa.opens counted
  have lsaUntouched := resumeNumber_spares.untouched countedOpens.lsa
  rw [← lsaPath] at lsaUntouched
  have spared := LsaSequence.resume_spares (config.place_lsaSequenceIn_ne directory).symm (madeDisk directory disk)
  -- nobody has touched the certificate file when its turn comes
  have sameNumber := (spared.untouched made.certificate.opens).readNumber?.trans made.certificate.readNumber?
  rcases CertificateSequence.resume_cases (resumeCounters config directory disk).2
    (config.certificateSequenceIn directory) with ⟨done, _, holds⟩ | ⟨failed, _⟩
  · cases numbered.symm.trans done
    rw [last, ← sameNumber]
    exact ⟨⟨lsaPath, rfl, ahead.of_untouched lsaUntouched, holds⟩, rfl⟩
  · cases numbered.symm.trans failed

/-- The certificate number that a start gets, also where it fails later on. -/
def numberOfStart? (config : Config) (directory : DataDirectory) (disk : Disk) : Option UInt64 :=
  (resume config directory disk).1.toOption.map fun (_, certificateSequence) => certificateSequence.seq

theorem kept_start (scheme : SignatureScheme) (surroundings : Surroundings) (opened : config.Opens directory disk) :
    config.Kept directory disk (start scheme surroundings config directory disk).2 := by
  have kept := kept_resume opened
  rw [start_eq]
  rcases resumed : resume config directory disk with ⟨_ | ⟨sequence, certificateSequence⟩, after⟩
  · rw [resumed] at kept
    exact kept
  · rw [resumed] at kept
    exact kept.trans (untouched_establish scheme surroundings config directory after kept.opens _ _).kept

/-- A start that gets a certificate number gets the next one, and leaves it on disk. -/
theorem number_of_start (scheme : SignatureScheme) (surroundings : Surroundings) {number : UInt64}
    (opened : config.Opens directory disk) (got : numberOfStart? config directory disk = some number) :
    number = CertificateSequence.following (disk.readNumber? (config.certificateSequenceIn directory)) ∧
      (start scheme surroundings config directory disk).2.readNumber? (config.certificateSequenceIn directory) =
        some number := by
  rw [start_eq]
  unfold numberOfStart? at got
  rcases resumed : resume config directory disk with ⟨_ | ⟨sequence, certificateSequence⟩, after⟩
  · rw [resumed] at got
    cases got
  · rw [resumed] at got
    cases got
    obtain ⟨inStep, next⟩ := inStep_of_resume opened (congrArg Prod.fst resumed)
    have kept := kept_resume opened
    rw [resumed] at inStep kept
    have untouched :=
      untouched_establish scheme surroundings config directory after kept.opens sequence certificateSequence
    exact ⟨next, untouched.certificate.readNumber?.trans inStep.holds⟩

theorem inStep_of_start {node : Node} (opened : config.Opens directory disk)
    (started : (start scheme surroundings config directory disk).1 = .ok node) :
    config.InStep directory node.sequence node.certificateSequence
        (start scheme surroundings config directory disk).2 ∧
      numberOfStart? config directory disk = some node.certificateSequence.seq := by
  rw [start_eq] at started ⊢
  unfold numberOfStart?
  rcases resumed : resume config directory disk with ⟨_ | ⟨sequence, certificateSequence⟩, after⟩
  · rw [resumed] at started
    cases started
  · rw [resumed] at started
    obtain ⟨inStep, _⟩ := inStep_of_resume opened (congrArg Prod.fst resumed)
    have kept := kept_resume opened
    rw [resumed] at inStep kept
    obtain ⟨_, rfl, rfl, _⟩ := of_establish_eq_ok started
    exact ⟨inStep.of_untouched (untouched_establish scheme surroundings config directory after kept.opens _ _), rfl⟩

end

/-! ## Advertising -/

section
variable {config : Config} {directory : DataDirectory} {node : Node} {disk : Disk}

/-- The router with the counter of a kind raised, as an advertisement leaves it. -/
def raised (node : Node) (kind : LsaKind) : Node :=
  { node with sequence := { node.sequence with counters := node.sequence.counters.increment kind } }

/-- The number of the next advertisement of a kind. -/
def nextNumber (node : Node) (kind : LsaKind) : UInt64 := Counters.raise (node.sequence.counters.get kind) 1

theorem advertise_eq (scheme : SignatureScheme) (node : Node) (disk : Disk) (kind : LsaKind)
    (content : List UInt8) :
    node.advertise scheme disk kind content =
      ⟨match ((node.raised kind).sequence.persist disk).1 with
        | .ok () => .ok (node.keyring.sign scheme (node.lsaName kind (node.nextNumber kind)) content)
        | .error reason => .error (.sequence reason),
        node.raised kind, ((node.raised kind).sequence.persist disk).2⟩ := by
  have number : (node.sequence.counters.increment kind).get kind = node.nextNumber kind :=
    Counters.get_increment_self _ kind
  unfold advertise
  simp only [number]
  rcases written : (node.raised kind).sequence.persist disk with ⟨_ | _, after⟩
  · rw [raised] at written
    simp only [written, raised]
  · rw [raised] at written
    simp only [written, raised]
    rfl

theorem inStep_raised (inStep : config.InStep directory node.sequence node.certificateSequence disk)
    (kind : LsaKind) :
    config.InStep directory (node.raised kind).sequence (node.raised kind).certificateSequence disk where
  lsaPath := inStep.lsaPath
  certificatePath := inStep.certificatePath
  ahead :=
    { bounded := inStep.ahead.bounded.increment kind
      above := fun other => UInt64.le_trans (inStep.ahead.above other) (inStep.ahead.bounded.le_increment kind other) }
  holds := inStep.holds

/-- An advertisement is given out once its number is on disk, or none is and no file has
    changed. -/
theorem advertise_cases (scheme : SignatureScheme)
    (inStep : config.InStep directory node.sequence node.certificateSequence disk) (kind : LsaKind)
    (content : List UInt8) :
    (∃ packet, (node.advertise scheme disk kind content).packet = .ok packet ∧
        packet.name = node.lsaName kind (node.nextNumber kind) ∧
        (node.advertise scheme disk kind content).disk.readNumber? (config.lsaSequenceIn directory) =
          some (node.raised kind).sequence.counters.combined) ∨
      (node.advertise scheme disk kind content).packet =
          .error (.sequence (.notWritten (config.lsaSequenceIn directory))) ∧
        ∀ path, Disk.Spares disk (node.advertise scheme disk kind content).disk path := by
  have raisedInStep := inStep_raised inStep kind
  rw [advertise_eq, ← raisedInStep.lsaPath]
  rcases LsaSequence.persist_cases raisedInStep.ahead.bounded disk with ⟨done, _, holds, _⟩ | ⟨failed, spares⟩
  · simp only [done]
    exact .inl ⟨_, rfl, rfl, holds⟩
  · simp only [failed]
    exact .inr ⟨trivial, spares⟩

private theorem disk_shutdown (node : Node) (disk : Disk) :
    (node.shutdown disk).2 = (node.sequence.persist disk).2 ∨
      (node.shutdown disk).2 = (node.certificateSequence.persist (node.sequence.persist disk).2).2 := by
  unfold shutdown
  rcases node.sequence.persist disk with ⟨_ | _, counted⟩
  · exact .inl rfl
  · right
    simp only
    rcases node.certificateSequence.persist counted with ⟨_ | _, numbered⟩ <;> rfl

/-- Shutting down writes what is in memory, and so memory and files stay in step. -/
theorem inStep_shutdown (opened : config.Opens directory disk)
    (inStep : config.InStep directory node.sequence node.certificateSequence disk) :
    config.InStep directory node.sequence node.certificateSequence (node.shutdown disk).2 ∧
      config.Kept directory disk (node.shutdown disk).2 := by
  obtain ⟨counted, kept⟩ := inStep.persist opened
  obtain ⟨numbered, keptToo⟩ := counted.persistNumber kept.opens
  rcases node.disk_shutdown disk with same | same
  · rw [same]
    exact ⟨counted, kept⟩
  · rw [same]
    exact ⟨numbered, kept.trans keptToo⟩

end
end Node
end RouteTrust
