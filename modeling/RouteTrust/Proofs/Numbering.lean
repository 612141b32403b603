import RouteTrust.Proofs.Admission
import RouteTrust.Proofs.ComposedNames
import RouteTrust.Proofs.InStep

/-!
The numbers that the routers of one data directory give out, one router running after
the other. As long as nobody else touches the two sequence files, the numbers of
advertisements of each kind rise over all restarts, and so do those of certificates,
until they stand at their limit; no advertisement is out before its number is on disk
(`numbers_rise`).
-/
namespace RouteTrust

/-- The router that runs, if any, the disk, and all that was given out so far in order:
    advertisements, and certificate numbers at starts. -/
structure Host where
  node : Option Node
  disk : Disk
  issued : List Advertisement
  certificateNumbers : List UInt64

/-- What happens to a host between two operations or in one: others change the disk, a
    router starts, advertises, admits a certificate or writes its numbers, or the one
    that runs is gone. -/
inductive Happening
  | change (disk : Disk)
  | start (surroundings : Surroundings)
  | advertise (kind : LsaKind) (content : List UInt8)
  | receive (now : Time) (certificate : Certificate) (seq : UInt64)
  | shutdown
  | stop

/-- The happening is not somebody else's. -/
def Happening.isOwn : Happening → Bool
  | .change _ => false
  | _ => true

namespace Host

/-- The host with no router running yet. -/
def fresh (disk : Disk) : Host := ⟨none, disk, [], []⟩

/-- The numbers of the advertisements of a kind, in order. -/
def numbers (host : Host) (kind : LsaKind) : List UInt64 := host.issued.filterMap (·.name.number? kind)

section
variable (scheme : SignatureScheme) (config : Config) (directory : DataDirectory)

/-- A start, at which the router that ran before is gone. -/
def start (host : Host) (surroundings : Surroundings) : Host :=
  let started := Node.start scheme surroundings config directory host.disk
  { host with
    node := started.1.toOption
    disk := started.2
    certificateNumbers := host.certificateNumbers ++ (Node.numberOfStart? config directory host.disk).toList }

/-- The host after an advertisement of its router. -/
def advertise (host : Host) (node : Node) (kind : LsaKind) (content : List UInt8) : Host :=
  let advertised := node.advertise scheme host.disk kind content
  { host with
    node := some advertised.node
    disk := advertised.disk
    issued := host.issued ++ advertised.packet.toOption.toList }

/-- The router after a certificate from elsewhere. -/
def afterReceiving (now : Time) (node : Node) (certificate : Certificate) (seq : UInt64) : Node :=
  match node.receiveCertificate scheme now certificate seq with
  | .ok (_, after) => after
  | .error _ => node

/-- What a happening makes of the host. Nothing comes of asking a router that is not
    there. -/
def step (host : Host) : Happening → Host
  | .change disk => { host with disk }
  | .start surroundings => host.start scheme config directory surroundings
  | .advertise kind content =>
    match host.node with
    | some node => host.advertise scheme node kind content
    | none => host
  | .receive now certificate seq =>
    { host with node := host.node.map fun node => afterReceiving scheme now node certificate seq }
  | .shutdown =>
    match host.node with
    | some node => { host with disk := (node.shutdown host.disk).2 }
    | none => host
  | .stop => { host with node := none }

/-- What others do to the disk leaves both sequence files as they are. -/
def Allows (host : Host) : Happening → Prop
  | .change disk => config.Untouched directory host.disk disk
  | _ => True

/-- The hosts that come about from a disk whose sequence files can be read where they
    stand. -/
inductive Lived : Host → Prop
  | fresh {disk : Disk} (opened : config.Opens directory disk) : Lived (fresh disk)
  | step {host : Host} (lived : Lived host) (happening : Happening)
      (allowed : host.Allows config directory happening) : Lived (host.step scheme config directory happening)

end

/-! ## The invariant -/

/-- What was given out has risen and is on disk, and the router that runs is up to its
    files. -/
structure Ordered (config : Config) (directory : DataDirectory) (host : Host) : Prop where
  opens : config.Opens directory host.disk
  rising : ∀ kind, (host.numbers kind).Pairwise (Rises Counters.limit)
  onDisk : ∀ kind, ∀ number ∈ host.numbers kind,
    number ≤ host.disk.counter (config.lsaSequenceIn directory) kind
  certificatesRising : host.certificateNumbers.Pairwise (Rises CertificateSequence.limit)
  certificatesOnDisk : ∀ number ∈ host.certificateNumbers,
    number ≤ host.disk.number (config.certificateSequenceIn directory)
  inStep : ∀ node ∈ host.node, config.InStep directory node.sequence node.certificateSequence host.disk
  latest : ∀ node ∈ host.node, host.certificateNumbers.getLast? = some node.certificateSequence.seq

private theorem rising_snoc {limit next : UInt64} {numbers : List UInt64} (rising : numbers.Pairwise (Rises limit))
    (above : ∀ number ∈ numbers, Rises limit number next) : (numbers ++ [next]).Pairwise (Rises limit) :=
  List.pairwise_append.2 ⟨rising, List.pairwise_singleton _ _, fun number member other last => by
    rw [List.mem_singleton.1 last]
    exact above number member⟩

section
variable {scheme : SignatureScheme} {config : Config} {directory : DataDirectory} {host : Host}

private theorem ordered_fresh {disk : Disk} (opened : config.Opens directory disk) :
    (fresh disk).Ordered config directory where
  opens := opened
  rising _ := List.Pairwise.nil
  onDisk _ _ member := absurd member List.not_mem_nil
  certificatesRising := List.Pairwise.nil
  certificatesOnDisk _ member := absurd member List.not_mem_nil
  inStep node running := absurd running (Option.not_mem_none node)
  latest node running := absurd running (Option.not_mem_none node)

/-- A step that gives nothing out keeps the order if it takes no number on disk back and
    leaves the router in step. -/
theorem Ordered.of_kept (ordered : host.Ordered config directory) {node : Option Node} {disk : Disk}
    (kept : config.Kept directory host.disk disk)
    (inStep : ∀ running ∈ node, config.InStep directory running.sequence running.certificateSequence disk)
    (latest : ∀ running ∈ node, host.certificateNumbers.getLast? = some running.certificateSequence.seq) :
    ({ host with node, disk } : Host).Ordered config directory where
  opens := kept.opens
  rising := ordered.rising
  onDisk kind number member := UInt64.le_trans (ordered.onDisk kind number member) (kept.lsa.above kind)
  certificatesRising := ordered.certificatesRising
  certificatesOnDisk number member :=
    UInt64.le_trans (ordered.certificatesOnDisk number member) kept.certificate.above
  inStep := inStep
  latest := latest

private theorem inStep_of_mem_start (scheme : SignatureScheme) (surroundings : Surroundings)
    (ordered : host.Ordered config directory) {node : Node}
    (running : node ∈ (Node.start scheme surroundings config directory host.disk).1.toOption) :
    config.InStep directory node.sequence node.certificateSequence
        (Node.start scheme surroundings config directory host.disk).2 ∧
      Node.numberOfStart? config directory host.disk = some node.certificateSequence.seq := by
  cases started : (Node.start scheme surroundings config directory host.disk).1 with
  | error reason =>
    rw [started] at running
    cases running
  | ok other =>
    rw [started] at running
    cases running
    exact Node.inStep_of_start ordered.opens started

theorem Ordered.start (ordered : host.Ordered config directory) (surroundings : Surroundings) :
    (host.start scheme config directory surroundings).Ordered config directory := by
  have kept := Node.kept_start scheme surroundings ordered.opens
  have running := fun node => @inStep_of_mem_start config directory host scheme surroundings ordered node
  unfold Host.start
  cases got : Node.numberOfStart? config directory host.disk with
  | none =>
    rw [Option.toList_none, List.append_nil]
    refine ordered.of_kept kept (fun node member => (running node member).1) fun node member => ?_
    have none_left := (running node member).2
    rw [got] at none_left
    cases none_left
  | some number =>
    -- the number is given out also where no router comes of the start
    obtain ⟨next, holds⟩ := Node.number_of_start scheme surroundings ordered.opens got
    have onDisk : (Node.start scheme surroundings config directory host.disk).2.number
        (config.certificateSequenceIn directory) = number := by
      rw [Disk.number, holds, Option.getD_some]
    have ended : ({ host with
        node := none
        disk := (Node.start scheme surroundings config directory host.disk).2 } : Host).Ordered config directory :=
      ordered.of_kept kept (fun node member => absurd member (Option.not_mem_none node))
        fun node member => absurd member (Option.not_mem_none node)
    exact {
      opens := ended.opens
      rising := ended.rising
      onDisk := ended.onDisk
      certificatesRising := rising_snoc ordered.certificatesRising fun earlier member => by
        rw [next]
        exact CertificateSequence.rises_following (ordered.certificatesOnDisk earlier member)
      certificatesOnDisk := by
        intro earlier member
        rcases List.mem_append.1 member with before | new
        · exact ended.certificatesOnDisk earlier before
        · rw [List.mem_singleton.1 new, onDisk]
          exact UInt64.le_refl _
      inStep := fun node member => (running node member).1
      latest := by
        intro node member
        rw [Option.toList_some, List.getLast?_concat, ← got]
        exact (running node member).2 }

/-- One more advertisement keeps the order if its number is on disk and larger than all
    of its kind before. -/
theorem Ordered.issue (ordered : host.Ordered config directory) {packet : Advertisement} {node : Node}
    {kind : LsaKind} {number : UInt64} (named : packet.name = node.lsaName kind number)
    (above : ∀ earlier ∈ host.numbers kind, Rises Counters.limit earlier number)
    (holds : host.disk.counter (config.lsaSequenceIn directory) kind = number) :
    ({ host with issued := host.issued ++ [packet] } : Host).Ordered config directory := by
  have grown : ∀ other, ({ host with issued := host.issued ++ [packet] } : Host).numbers other =
      host.numbers other ++ if other = kind then [number] else [] := by
    intro other
    simp only [numbers, List.filterMap_append, List.filterMap_cons, List.filterMap_nil, named, Node.number?_lsaName]
    by_cases same : other = kind
    · rw [if_pos same, if_pos same]
    · rw [if_neg same, if_neg same]
  refine { ordered with rising := fun other => ?_, onDisk := fun other earlier member => ?_ }
  · rw [grown]
    by_cases same : other = kind
    · rw [if_pos same]
      exact rising_snoc (ordered.rising other) (same ▸ above)
    · rw [if_neg same, List.append_nil]
      exact ordered.rising other
  · rw [grown] at member
    rcases List.mem_append.1 member with before | new
    · exact ordered.onDisk other earlier before
    · by_cases same : other = kind
      · rw [if_pos same] at new
        rw [same, holds, List.mem_singleton.1 new]
        exact UInt64.le_refl _
      · rw [if_neg same] at new
        exact absurd new List.not_mem_nil

theorem Ordered.advertise (ordered : host.Ordered config directory) {node : Node} (running : node ∈ host.node)
    (kind : LsaKind) (content : List UInt8) :
    (host.advertise scheme node kind content).Ordered config directory := by
  have inStep := ordered.inStep node running
  have raised := Node.inStep_raised inStep kind
  obtain ⟨after, kept⟩ := raised.persist ordered.opens
  have written : ({ host with
      node := some (node.raised kind)
      disk := ((node.raised kind).sequence.persist host.disk).2 } : Host).Ordered config directory :=
    ordered.of_kept kept (fun other member => Option.some.inj member ▸ after)
      fun other member => Option.some.inj member ▸ ordered.latest node running
  unfold Host.advertise
  rw [Node.advertise_eq]
  -- a failed write leaves the counter in memory raised, which keeps the router in step
  rcases LsaSequence.persist_cases raised.ahead.bounded host.disk with ⟨done, _, _, holds⟩ | ⟨failed, _⟩
  · simp only [done]
    refine written.issue rfl (fun earlier member => ?_) ?_
    · -- what was given out is on disk, and the counter in memory is not behind the disk
      have below := UInt64.le_trans (ordered.onDisk kind earlier member)
        (inStep.lsaPath ▸ inStep.ahead.above kind)
      exact Counters.rises_raise below (inStep.ahead.bounded kind) (by decide)
    · rw [← raised.lsaPath]
      exact (holds kind).trans (Counters.get_increment_self _ kind)
  · simp only [failed]
    have none_out : host.issued ++ (Except.error (NodeError.sequence (.notWritten (node.raised kind).sequence.path)) :
        Except NodeError Advertisement).toOption.toList = host.issued := List.append_nil _
    rw [none_out]
    exact written

private theorem sequences_afterReceiving (scheme : SignatureScheme) (now : Time) (node : Node)
    (certificate : Certificate) (seq : UInt64) : (afterReceiving scheme now node certificate seq).sequence = node.sequence ∧
      (afterReceiving scheme now node certificate seq).certificateSequence = node.certificateSequence := by
  unfold afterReceiving Node.receiveCertificate
  cases node.keyring.receive (scheme.checkAt now) certificate seq <;> exact ⟨rfl, rfl⟩

/-- Where the disk stays as it is, nothing in it is taken back. -/
theorem Ordered.keeps (ordered : host.Ordered config directory) : config.Kept directory host.disk host.disk :=
  Config.Untouched.kept ⟨⟨ordered.opens.lsa, rfl⟩, ⟨ordered.opens.certificate, rfl⟩⟩

private theorem Ordered.step (ordered : host.Ordered config directory) {happening : Happening}
    (allowed : host.Allows config directory happening) :
    (host.step scheme config directory happening).Ordered config directory := by
  cases happening with
  | change disk =>
    exact ordered.of_kept allowed.kept (fun node running => (ordered.inStep node running).of_untouched allowed)
      ordered.latest
  | start surroundings => exact ordered.start surroundings
  | advertise kind content =>
    unfold Host.step
    cases running : host.node with
    | none => exact ordered
    | some node => exact ordered.advertise running kind content
  | receive now certificate seq =>
    refine ordered.of_kept ordered.keeps (fun other member => ?_) fun other member => ?_
    · obtain ⟨node, running, rfl⟩ := Option.map_eq_some_iff.1 member
      obtain ⟨same, sameToo⟩ := sequences_afterReceiving scheme now node certificate seq
      rw [same, sameToo]
      exact ordered.inStep node running
    · obtain ⟨node, running, rfl⟩ := Option.map_eq_some_iff.1 member
      rw [(sequences_afterReceiving scheme now node certificate seq).2]
      exact ordered.latest node running
  | shutdown =>
    unfold Host.step
    cases running : host.node with
    | none => exact ordered
    | some node =>
      obtain ⟨inStep, kept⟩ := Node.inStep_shutdown ordered.opens (ordered.inStep node running)
      exact ordered.of_kept kept (fun other member => Option.some.inj member ▸ inStep)
        fun other member => ordered.latest other (running.trans member)
  | stop =>
    exact ordered.of_kept ordered.keeps (fun node member => absurd member (Option.not_mem_none node))
      fun node member => absurd member (Option.not_mem_none node)

/-- Where others change nothing, every list of happenings is a life. -/
theorem Lived.foldl (lived : Lived scheme config directory host) {life : List Happening}
    (own : ∀ happening ∈ life, happening.isOwn = true) :
    Lived scheme config directory (life.foldl (Host.step scheme config directory) host) := by
  induction life generalizing host with
  | nil => exact lived
  | cons happening rest ih =>
    refine ih (lived.step happening ?_) fun later member => own later (List.mem_cons_of_mem _ member)
    have here := own happening List.mem_cons_self
    cases happening with
    | change disk => cases here
    | _ => trivial

/-- However a host came about, it is in order. -/
theorem ordered_of_lived (lived : Lived scheme config directory host) : host.Ordered config directory := by
  induction lived with
  | fresh opened => exact ordered_fresh opened
  | step _ happening allowed ih => exact ih.step allowed

/-- The numbers of advertisements of each kind, and those of certificates, rise over any
    life, and equal ones stand at the limit. A start gets no certificate number and no
    router comes of it, or it gets one that is then on disk and is that of its router, if
    one comes of it. Asked for one more advertisement, a router gives it out with the
    number that is now on disk, or it gives none out, the reason is that the file was not
    written, and the file reads as before. -/
theorem numbers_rise (lived : Lived scheme config directory host) :
    (∀ kind, (host.numbers kind).Pairwise (Rises Counters.limit)) ∧
    host.certificateNumbers.Pairwise (Rises CertificateSequence.limit) ∧
    (∀ surroundings,
      let next := host.step scheme config directory (.start surroundings)
      next.certificateNumbers = host.certificateNumbers ∧ next.node = none ∨
        ∃ number, next.certificateNumbers = host.certificateNumbers ++ [number] ∧
          next.disk.readNumber? (config.certificateSequenceIn directory) = some number ∧
          ∀ node ∈ next.node, node.certificateSequence.seq = number) ∧
    ∀ node ∈ host.node, ∀ kind content,
      let next := host.step scheme config directory (.advertise kind content)
      (∃ packet number total, (node.advertise scheme host.disk kind content).packet = .ok packet ∧
          next.issued = host.issued ++ [packet] ∧ packet.name = node.lsaName kind number ∧
          packet.name.number? kind = some number ∧
          next.disk.readNumber? (config.lsaSequenceIn directory) = some total ∧
          (Counters.split total).get kind = number) ∨
        (node.advertise scheme host.disk kind content).packet =
            .error (.sequence (.notWritten (config.lsaSequenceIn directory))) ∧
          next.issued = host.issued ∧
          next.disk.read? (config.lsaSequenceIn directory) = host.disk.read? (config.lsaSequenceIn directory) := by
  have ordered := ordered_of_lived lived
  refine ⟨ordered.rising, ordered.certificatesRising, fun surroundings => ?_, fun node running kind content => ?_⟩
  · have ofNode := fun node => @inStep_of_mem_start config directory host scheme surroundings ordered node
    simp only [step, start]
    cases got : Node.numberOfStart? config directory host.disk with
    | none =>
      refine .inl ⟨List.append_nil _, Option.eq_none_iff_forall_not_mem.2 fun node member => ?_⟩
      have numbered := (ofNode node member).2
      rw [got] at numbered
      cases numbered
    | some number =>
      refine .inr ⟨number, rfl, (Node.number_of_start scheme surroundings ordered.opens got).2, ?_⟩
      intro node member
      exact Option.some.inj ((ofNode node member).2.symm.trans got)
  · have inStep := ordered.inStep node running
    have stepped : host.step scheme config directory (.advertise kind content) =
        host.advertise scheme node kind content := by
      have some_node : host.node = some node := running
      simp only [step, some_node]
    simp only [stepped, advertise]
    rcases Node.advertise_cases scheme inStep kind content with ⟨packet, given, named, holds⟩ | ⟨failed, spares⟩
    · left
      refine ⟨packet, node.nextNumber kind, _, given, ?_, named, ?_, holds, ?_⟩
      · rw [given]
        rfl
      · rw [named, Node.number?_lsaName, if_pos rfl]
      · rw [Counters.split_combined (Node.inStep_raised inStep kind).ahead.bounded]
        exact Counters.get_increment_self _ kind
    · right
      refine ⟨failed, ?_, ((spares _).untouched ordered.opens.lsa).read⟩
      rw [failed]
      exact List.append_nil _

end

/-! ## A life with a restart -/

/-- The router `pollux` advertises, is gone, and starts and advertises again. -/
def polluxLife : List Happening :=
  let start := .start ⟨0, ⟨Octets.zero 32⟩, ⟨Octets.zero 32⟩⟩
  [start, .advertise .name [], .stop, start, .advertise .name []]

/-- The host after the life of `pollux`. -/
def polluxHost : Host :=
  polluxLife.foldl (step Keyring.sampleScheme Config.pollux ⟨⟨"/data"⟩⟩) (fresh (Keyring.sampleDisk ⟨"/certs"⟩))

theorem numbers_rise_pollux :
    Lived Keyring.sampleScheme Config.pollux ⟨⟨"/data"⟩⟩ polluxHost ∧
      polluxHost.numbers .name = [1, 12] ∧ polluxHost.certificateNumbers = [1, 2] ∧
      (polluxHost.numbers .name).Pairwise (Rises Counters.limit) ∧
      polluxHost.certificateNumbers.Pairwise (Rises CertificateSequence.limit) := by
  have opened : Config.pollux.Opens ⟨⟨"/data"⟩⟩ (Keyring.sampleDisk ⟨"/certs"⟩) :=
    ⟨by decide +kernel, by decide +kernel⟩
  have own : ∀ happening ∈ polluxLife, happening.isOwn = true := by decide
  have lived : Lived Keyring.sampleScheme Config.pollux ⟨⟨"/data"⟩⟩ polluxHost := (Lived.fresh opened).foldl own
  have given : polluxHost.numbers .name = [1, 12] ∧ polluxHost.certificateNumbers = [1, 2] := by decide +kernel
  have rise := numbers_rise lived
  exact ⟨lived, given.1, given.2, rise.1 .name, rise.2.1⟩

end Host
end RouteTrust
