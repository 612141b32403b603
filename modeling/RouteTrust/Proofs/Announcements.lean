import RouteTrust.Proofs.Registration
import RouteTrust.Proofs.Unambiguous

/-!
What a call announces. Each announced name finds a record that the call has verified,
different names find different ones, and none of these records is left out
(`telling_run`). But the name is the one under which a certificate waited: if that
certificate was replaced by one of a shorter name, the announced name is stale, and
no stored certificate has it. So the names in use decide whether names of stored
certificates only are announced in every run.
-/
namespace RouteTrust

namespace Store
variable {before now store : Store} {lookup name : Name} {record subject : Record}

/-- The records that are verified now, and were unverified or absent before. -/
def newlyVerified (before now : Store) : List Record :=
  now.records.filter fun record => record.verified && decide (record ∉ before.records)

private theorem mem_newlyVerified :
    record ∈ before.newlyVerified now ↔
      record ∈ now.records ∧ record.verified = true ∧ record ∉ before.records := by
  simp [newlyVerified]

private theorem nodup_newlyVerified (separated : Separated now.records) : (before.newlyVerified now).Nodup :=
  (List.Nodup.of_map Record.name separated.nodup_names).filter _

/-- Unverified and verified, one certificate does not stand in a store twice. -/
theorem asVerified_not_mem (separated : Separated store.records) (member : record ∈ store.records)
    (unverified : record.verified = false) : record.asVerified ∉ store.records := by
  intro verified
  have same := separated.unique member verified (Name.overlaps_self record.name)
  rw [same] at unverified
  cases unverified

/-- All verified records are from before, and the others would be new if they were verified. -/
structure NothingNew (before now : Store) : Prop where
  old : ∀ record ∈ now.records, record.verified = true → record ∈ before.records
  fresh : ∀ record ∈ now.records, record.verified = false → record.asVerified ∉ before.records

private theorem NothingNew.of_subset (separated : Separated before.records) (subset : now.records ⊆ before.records) :
    NothingNew before now :=
  ⟨fun _ member _ => subset member, fun _ member => asVerified_not_mem separated (subset member)⟩

/-- A certificate that takes its place was not there with the same number. -/
theorem NothingNew.replace (separated : Separated store.records) {certificate : Certificate} {seq : UInt64}
    (newer : store.holdsFresher certificate.name seq = false) : NothingNew store (store.replace certificate seq) := by
  refine ⟨?_, ?_⟩
  · intro record member verified
    rcases mem_replace.1 member with ⟨old, _⟩ | rfl
    · exact old
    · cases verified
  · intro record member unverified
    rcases mem_replace.1 member with ⟨old, _⟩ | rfl
    · exact asVerified_not_mem separated old unverified
    · intro stored
      have below := holdsFresher_eq_false_iff.1 newer _ stored (Name.overlaps_self certificate.name)
      exact absurd below (UInt64.lt_irrefl seq)

/-- Marking makes one more record new. -/
theorem newlyVerified_markVerified (separated : Separated store.records)
    (found : store.find? lookup = some subject) (unverified : subject.verified = false)
    (new : subject.asVerified ∉ before.records) :
    (before.newlyVerified (store.markVerified lookup)).Perm
      (before.newlyVerified store ++ [subject.asVerified]) := by
  have absent := asVerified_not_mem separated (mem_of_find? found).1 unverified
  have distinct : (before.newlyVerified store ++ [subject.asVerified]).Nodup := by
    refine (nodup_newlyVerified separated).append (List.nodup_singleton _) ?_
    intro record member isNew
    rw [List.mem_singleton.1 isNew] at member
    exact absent (mem_newlyVerified.1 member).1
  refine (List.perm_ext_iff_of_nodup (nodup_newlyVerified (separated_markVerified separated lookup)) distinct).2 ?_
  intro record
  rw [List.mem_append, List.mem_singleton, mem_newlyVerified, mem_newlyVerified, mem_markVerified separated found]
  constructor
  · rintro ⟨rfl | ⟨stored, _⟩, verified, fresh⟩
    · exact .inr rfl
    · exact .inl ⟨stored, verified, fresh⟩
  · rintro (⟨stored, verified, fresh⟩ | rfl)
    · refine ⟨.inr ⟨stored, ?_⟩, verified, fresh⟩
      rintro rfl
      rw [unverified] at verified
      cases verified
    · exact ⟨.inl rfl, rfl, new⟩

/-- A lookup that marks a record finds it marked. -/
theorem find?_markVerified_self (separated : Separated store.records) (found : store.find? lookup = some subject) :
    (store.markVerified lookup).find? lookup = some subject.asVerified :=
  (find?_eq_some_iff (separated_markVerified separated lookup)).2
    ⟨(mem_markVerified separated found).2 (.inl rfl), (mem_of_find? found).2⟩

/-- Who found a verified record goes on finding it. -/
theorem find?_markVerified_of_verified (separated : Separated store.records)
    (found : store.find? lookup = some subject) (unverified : subject.verified = false)
    (foundToo : store.find? name = some record) (verified : record.verified = true) :
    (store.markVerified lookup).find? name = some record := by
  obtain ⟨member, resolves⟩ := mem_of_find? foundToo
  refine (find?_eq_some_iff (separated_markVerified separated lookup)).2 ⟨?_, resolves⟩
  refine (mem_markVerified separated found).2 (.inr ⟨member, ?_⟩)
  rintro rfl
  rw [unverified] at verified
  cases verified

/-- The names find the records that are newly verified, each of them by one name. -/
def Tells (before now : Store) (names : List Name) : Prop :=
  (names.map now.find?).Perm ((before.newlyVerified now).map some)

variable {names : List Name}

private theorem Tells.exists_found (tells : before.Tells now names) (member : name ∈ names) :
    ∃ record ∈ before.newlyVerified now, now.find? name = some record := by
  obtain ⟨record, new, same⟩ := List.mem_map.1 (tells.subset (List.mem_map_of_mem member))
  exact ⟨record, new, same.symm⟩

private theorem Tells.exists_name (tells : before.Tells now names) (new : record ∈ before.newlyVerified now) :
    ∃ name ∈ names, now.find? name = some record :=
  List.mem_map.1 (tells.symm.subset (List.mem_map_of_mem new))

/-- No name is told twice. -/
theorem Tells.nodup (tells : before.Tells now names) (separated : Separated now.records) : names.Nodup := by
  have distinct : ((before.newlyVerified now).map some).Nodup :=
    List.Nodup.map (fun _ _ => Option.some.inj) (nodup_newlyVerified separated)
  exact List.Nodup.of_map now.find? (tells.nodup_iff.2 distinct)

/-- The lookup that marks a record tells of it, and all other names tell what they told. -/
theorem Tells.markVerified (tells : before.Tells store names) (separated : Separated store.records)
    (found : store.find? lookup = some subject) (unverified : subject.verified = false)
    (new : subject.asVerified ∉ before.records) :
    before.Tells (store.markVerified lookup) (names ++ [lookup]) := by
  have same : names.map (store.markVerified lookup).find? = names.map store.find? := by
    refine List.map_congr_left ?_
    intro name member
    obtain ⟨record, isNew, foundToo⟩ := tells.exists_found member
    rw [foundToo]
    exact find?_markVerified_of_verified separated found unverified foundToo (mem_newlyVerified.1 isNew).2.1
  have marked := newlyVerified_markVerified separated found unverified new
  refine List.Perm.trans ?_ (marked.map some).symm
  rw [List.map_append, List.map_append, same, List.map_singleton, List.map_singleton,
    find?_markVerified_self separated found]
  exact List.Perm.append_right _ tells

private theorem NothingNew.tells (same : NothingNew before now) : before.Tells now [] := by
  have none : before.newlyVerified now = [] := by
    rw [List.eq_nil_iff_forall_not_mem]
    intro record member
    obtain ⟨stored, verified, new⟩ := mem_newlyVerified.1 member
    exact new (same.old record stored verified)
  rw [Tells, none]
  exact List.Perm.nil

end Store

/-- A traced cascade in the course of a call on a store. The names that are announced or
    queued tell of the records that the call has verified so far. -/
structure Telling (before : Store) (state : Spreading) : Prop extends Traced state where
  fresh : ∀ record ∈ state.store.records, record.verified = false → record.asVerified ∉ before.records
  tells : before.Tells state.store (state.announced ++ state.queue)
  leads : ∀ name ∈ state.announced ++ state.queue, Leads state.past name

namespace Telling
variable {before : Store} {state last : Spreading}

private theorem attempt {check : SignatureCheck} {store : Store} {past : List Action}
    {announced queue waking : List Name} {current : Option Name} {waitee : Name} {trying : List Name}
    (telling : Telling before ⟨store, past, announced, queue, waking, current, waitee :: trying⟩) :
    Telling before ⟨(store.attempt check waitee).2, past ++ [.attempt check waitee], announced,
      queue ++ (if (store.attempt check waitee).1 = .verified then [waitee] else []), waking, current, trying⟩ := by
  have replayed : store = Store.after past := telling.replayed
  refine ⟨telling.toTraced.attempt, ?_, ?_, ?_⟩
  · intro record member unverified
    exact telling.fresh record (Store.mem_of_mem_attempt member unverified) unverified
  · have tells : before.Tells store (announced ++ queue) := telling.tells
    dsimp only
    rw [← List.append_assoc]
    have cases := Store.attempted check store waitee
    generalize store.attempt check waitee = result at cases
    cases cases with
    | @verified subject signer certified =>
      obtain ⟨stored, _⟩ := Store.mem_of_find? certified.found
      exact tells.markVerified telling.separated certified.found certified.unverified
        (telling.fresh subject stored certified.unverified)
    | _ =>
      rw [if_neg (by simp), List.append_nil]
      exact tells
  · intro name member
    rw [← List.append_assoc] at member
    rcases List.mem_append.1 member with old | new
    · exact (telling.leads name old).extend (Store.verified_stays_attempt past check waitee)
    · split at new
      · rename_i verified
        rw [List.mem_singleton.1 new]
        obtain ⟨subject, issuer, certified⟩ := Store.attempt_eq_verified_iff.1 verified
        exact Store.leads_of_certified (telling.trying waitee List.mem_cons_self) (replayed ▸ certified)
      · cases new

/-- Every step of a cascade goes on telling. -/
theorem next {check : SignatureCheck} (telling : Telling before state) (step : Spreading.Next check state last) :
    Telling before last := by
  have traced := telling.toTraced.next step
  cases step with
  | announce store past announced name queue =>
    have inOrder : announced ++ [name] ++ queue = announced ++ name :: queue := by simp
    refine ⟨traced, telling.fresh, ?_, ?_⟩
    · exact inOrder ▸ telling.tells
    · exact inOrder ▸ telling.leads
  | wake => exact ⟨traced, telling.fresh, telling.tells, telling.leads⟩
  | attempt => exact telling.attempt
  | forget store past announced queue waking signer =>
    refine ⟨traced, telling.fresh, telling.tells, ?_⟩
    intro name member
    exact (telling.leads name member).extend (Store.verified_stays_forget past signer)

variable {store now : Store} {past : List Action}

private theorem quiet {trying : List Name} (traced : Traced ⟨now, past, [], [], [], none, trying⟩)
    (same : Store.NothingNew before now) : Telling before ⟨now, past, [], [], [], none, trying⟩ :=
  ⟨traced, same.fresh, same.tells, fun _ member => by cases member⟩

/-- The first record that becomes verified is told of under its own name. -/
theorem marked {record : Record} (separated : Separated now.records) (same : Store.NothingNew before now)
    (member : record ∈ now.records) (unverified : record.verified = false)
    (traced : Traced (.start (now.markVerified record.name) past [] [record.name])) :
    Telling before (.start (now.markVerified record.name) past [] [record.name]) := by
  have own := Store.find?_name separated member
  refine ⟨traced, ?_, ?_, ?_⟩
  · intro other stored otherUnverified
    exact same.fresh other (Store.mem_of_mem_markFirst stored otherUnverified) otherUnverified
  · exact same.tells.markVerified separated own unverified (same.fresh record member unverified)
  · intro name told
    have replayed : now.markVerified record.name = Store.after past := traced.replayed
    have stored := (Store.mem_markVerified separated own).2 (.inl rfl)
    rw [replayed] at stored
    exact ⟨record.asVerified, stored, rfl, .inl (List.mem_singleton.1 told).symm⟩

/-- The opening of a call tells of what it verifies itself. -/
theorem opening (traced : Traced (.start store past [] [])) (operation : Operation) :
    Telling store (.start (store.replay (operation.opening store).1) (past ++ (operation.opening store).1) []
      (operation.opening store).2) := by
  have separated : Separated store.records := traced.separated
  have unmoved := Store.NothingNew.of_subset separated (List.Subset.refl store.records)
  have unchanged : Telling store (.start store (past ++ []) [] []) := by
    rw [List.append_nil]
    exact quiet traced unmoved
  cases operation with
  | insert check certificate seq trusted =>
    simp only [Operation.opening]
    split
    · exact unchanged
    · rename_i newer
      have replaced := Store.NothingNew.replace separated (Bool.eq_false_iff.2 newer)
      cases trusted with
      | true =>
        have member : ⟨certificate, seq, false⟩ ∈ (store.replace certificate seq).records :=
          List.mem_append_right _ List.mem_cons_self
        exact marked (Store.separated_act separated (.place certificate seq false)) replaced member rfl
          (traced.place certificate seq true (List.nil_subset _))
      | false =>
        have placed := quiet (traced.place certificate seq false (List.Subset.refl _)) replaced
        have inOrder := List.append_assoc past [.place certificate seq false] [.attempt check certificate.name]
        exact inOrder ▸ placed.attempt
  | setVerified check lookup verified =>
    simp only [Operation.opening]
    split
    · rename_i record found
      split
      · rename_i given
        have unverified : record.verified = false := by simpa using (Bool.and_eq_true_iff.1 given).2
        have acts : store.act (.endorse lookup) = store.markVerified record.name := by rw [Store.act_endorse, found]
        have endorsed : Traced (.start (store.markVerified record.name) (past ++ [.endorse lookup]) [] [record.name]) :=
          acts ▸ traced.still (.endorse lookup) (by simp)
        rw [Store.replay_cons, Store.replay_nil, acts]
        exact marked separated unmoved (Store.mem_of_find? found).1 unverified endorsed
      · exact unchanged
    · exact unchanged
  | remove lookup =>
    have left : (store.act (.discard lookup)).records ⊆ store.records := (Store.records_remove store lookup).subset
    exact quiet (traced.still (.discard lookup) (by simp)) (.of_subset separated left)

end Telling

/-- A call announces the own names of the records that it verifies, each once. -/
structure Faithful (before : Store) (update : Update) : Prop where
  once : update.announced.Nodup
  own : ∀ name, name ∈ update.announced ↔ ∃ record ∈ before.newlyVerified update.store, record.name = name

namespace Store

/-- What a call announces tells of all that it verifies. -/
theorem telling_run (operations : List Operation) (operation : Operation) :
    Telling (empty.perform operations)
      (.start (operation.run (empty.perform operations)).store (empty.trace (operations ++ [operation]))
        (operation.run (empty.perform operations)).announced []) := by
  have opened := Telling.opening (draining_trace operations).toTraced operation
  have runs := Spreading.runs_call operation (empty.perform operations) (empty.trace operations) []
  have called := runs.keeps (Telling (empty.perform operations)) opened fun _ _ step telling => telling.next step
  rw [trace_append, trace, trace, List.append_nil]
  exact called

private theorem tells_run (operations : List Operation) (operation : Operation) :
    (empty.perform operations).Tells (operation.run (empty.perform operations)).store
      (operation.run (empty.perform operations)).announced := by
  have tells := (telling_run operations operation).tells
  rw [Spreading.start, List.append_nil] at tells
  exact tells

/-- An announced name finds a record that the call has verified. It is this record's own
    name, or a stale one. -/
theorem exists_announced (operations : List Operation) (operation : Operation) {name : Name}
    (told : name ∈ (operation.run (empty.perform operations)).announced) :
    ∃ record ∈ (empty.perform operations).newlyVerified (operation.run (empty.perform operations)).store,
      (operation.run (empty.perform operations)).store.find? name = some record ∧
        (record.name = name ∨ Stale (empty.trace (operations ++ [operation])) name record) := by
  have telling := telling_run operations operation
  have separated : Separated (operation.run (empty.perform operations)).store.records := telling.separated
  obtain ⟨record, new, found⟩ := (tells_run operations operation).exists_found told
  obtain ⟨other, stored, _, origin⟩ := telling.leads name (List.mem_append_left _ told)
  have replayed : (operation.run (empty.perform operations)).store = after (empty.trace (operations ++ [operation])) :=
    telling.replayed
  have member : other ∈ (operation.run (empty.perform operations)).store.records := by
    rw [replayed]
    exact stored
  have resolves : name.resolvesTo other.name = true := by
    rcases origin with own | stale
    · rw [own, Name.resolvesTo_self]
    · exact Name.resolvesTo_iff.2 (.inr stale.longer)
  have foundToo := (find?_eq_some_iff separated).2 ⟨member, resolves⟩
  cases found.symm.trans foundToo
  exact ⟨record, new, found, origin⟩

/-- A call is faithful exactly if it announces no stale name. -/
theorem faithful_iff (operations : List Operation) (operation : Operation) :
    Faithful (empty.perform operations) (operation.run (empty.perform operations)) ↔
      ∀ name ∈ (operation.run (empty.perform operations)).announced, ∀ record,
        ¬ Stale (empty.trace (operations ++ [operation])) name record := by
  have telling := telling_run operations operation
  have tells := tells_run operations operation
  have separated : Separated (operation.run (empty.perform operations)).store.records := telling.separated
  have replayed : (operation.run (empty.perform operations)).store = after (empty.trace (operations ++ [operation])) :=
    telling.replayed
  constructor
  · intro faithful name told record stale
    obtain ⟨⟨before, check, event⟩, _, ⟨version, longer⟩, _⟩ := stale
    obtain ⟨own, new, rfl⟩ := (faithful.own name).1 told
    have member : record ∈ (operation.run (empty.perform operations)).store.records := replayed ▸ event.mem
    have resolves : own.name.resolvesTo record.name = true := Name.resolvesTo_iff.2 (.inr ⟨version, longer⟩)
    have same := separated.resolve (mem_newlyVerified.1 new).1 member (Name.resolvesTo_self own.name) resolves
    exact Name.ne_of_longer longer (congrArg Record.name same)
  · intro noneStale
    have named {name : Name} (told : name ∈ (operation.run (empty.perform operations)).announced) :
        ∃ record ∈ (empty.perform operations).newlyVerified (operation.run (empty.perform operations)).store,
          (operation.run (empty.perform operations)).store.find? name = some record ∧ record.name = name := by
      obtain ⟨record, new, found, own | stale⟩ := exists_announced operations operation told
      · exact ⟨record, new, found, own⟩
      · exact absurd stale (noneStale name told record)
    refine ⟨tells.nodup separated, ?_⟩
    intro name
    constructor
    · intro told
      obtain ⟨record, new, _, own⟩ := named told
      exact ⟨record, new, own⟩
    · rintro ⟨record, new, rfl⟩
      obtain ⟨name, told, found⟩ := tells.exists_name new
      obtain ⟨other, _, foundToo, own⟩ := named told
      cases found.symm.trans foundToo
      exact own ▸ told

/-! ### Names under which announcements are faithful -/

private theorem not_stale {inUse : Name → Prop}
    (noRoom : ∀ short long other, inUse short → inUse long → inUse other → long.resolvesTo short = true →
      long ≠ short → other.overlaps short = true)
    {operations : List Operation} (inserts : InsertsOnly inUse operations) (name : Name) (record : Record) :
    ¬ Stale (empty.trace operations) name record := by
  rintro ⟨⟨before, check, event⟩, placed, ⟨version, longer⟩, issuer, stored, _, apart⟩
  have recordInUse := inUse_of_placed inserts (placed_name_of_mem event.mem)
  have nameInUse := inUse_of_placed inserts placed
  have issuerInUse := inUse_of_placed inserts (placed_name_of_mem stored)
  have overlap := noRoom _ _ _ recordInUse nameInUse issuerInUse (Name.resolvesTo_iff.2 (.inr ⟨version, longer⟩))
    (Name.ne_of_longer longer)
  rw [apart] at overlap
  cases overlap

/-- The signer arrives as a trusted one. -/
def arrivalOf (other : Name) : Operation := .insert (fun _ _ => true) (.blank other other) 3 true

private theorem run_arrivalOf {short long other : Name} (longer : long.resolvesTo short = true) (differ : long ≠ short)
    (apart : other.overlaps short = false) :
    (arrivalOf other).run (empty.perform (renewalRun short long other)) =
      ⟨true, ⟨[⟨.blank short other, 2, true⟩, ⟨.blank other other, 3, true⟩], ⟨[]⟩⟩, [other, long]⟩ := by
  obtain ⟨otherShort, _⟩ := Name.overlaps_eq_false_iff.1 apart
  have apartToo : short.overlaps other = false := Name.overlaps_comm short other ▸ apart
  have arrives :
      Store.insert (fun _ _ => true) ⟨[⟨.blank short other, 2, false⟩], ⟨[⟨other, [long, short]⟩]⟩⟩
        (.blank other other) 3 true =
        ⟨true, ⟨[⟨.blank short other, 2, true⟩, ⟨.blank other other, 3, true⟩], ⟨[]⟩⟩, [other, long]⟩ := by
    simp [Store.insert, holdsFresher, replace, attempt, find?, trustedKey?, Record.name, Record.signer, otherShort,
      longer, apartToo, markVerified, markFirst, spread, cascade_cons, wakeAll, wake, attemptAll_cons,
      signersOf, WaitingList.signers, WaitingList.waiteesOf, WaitingList.get?, WaitingList.remove_eq]
  rw [perform_renewalRun longer differ, arrivalOf, Operation.run, arrives]

private theorem not_faithful_arrivalOf {short long other : Name} (longer : long.resolvesTo short = true)
    (differ : long ≠ short) (apart : other.overlaps short = false) :
    ¬ Faithful (empty.perform (renewalRun short long other))
      ((arrivalOf other).run (empty.perform (renewalRun short long other))) := by
  intro faithful
  rw [run_arrivalOf longer differ apart] at faithful
  obtain ⟨record, new, named⟩ := (faithful.own long).1 (by simp)
  have stored : record.name = short ∨ record.name = other := by
    rcases List.mem_pair.1 (mem_newlyVerified.1 new).1 with rfl | rfl
    · exact .inl rfl
    · exact .inr rfl
  rcases stored with isShort | isOther
  · exact differ (named.symm.trans isShort)
  · rw [← isOther, named, Name.overlaps_iff.2 (.inl longer)] at apart
    cases apart

private theorem insertsOnly_renewal {inUse : Name → Prop} {short long other : Name} (shortInUse : inUse short)
    (longInUse : inUse long) (otherInUse : inUse other) :
    InsertsOnly inUse (renewalRun short long other ++ [arrivalOf other]) := by
  simp only [renewalRun, arrivalOf, List.cons_append, List.nil_append, insertsOnly_cons_insert, insertsOnly_nil,
    and_true]
  exact ⟨longInUse, shortInUse, otherInUse⟩

/-- How faithful announcements are. After any calls, one more announces names that find
    the records it has verified, one name for each record and none twice, and it is silent
    if there are none. A name is the record's own or a stale one, and only a stale one
    makes a call unfaithful. Names in use are announced faithfully in every run exactly if
    no two of them differ by one component, or all that are in use overlap the shorter one. -/
theorem announced_exactly (operations : List Operation) (operation : Operation) (inUse : Name → Prop) :
    let before := empty.perform operations
    let update := operation.run before
    before.Tells update.store update.announced ∧ update.announced.Nodup ∧
      (update.announced = [] ↔ before.newlyVerified update.store = []) ∧
      (∀ name ∈ update.announced, ∃ record ∈ before.newlyVerified update.store,
        update.store.find? name = some record ∧
          (record.name = name ∨ Stale (empty.trace (operations ++ [operation])) name record)) ∧
      (Faithful before update ↔
        ∀ name ∈ update.announced, ∀ record, ¬ Stale (empty.trace (operations ++ [operation])) name record) ∧
      ((∀ run last, InsertsOnly inUse (run ++ [last]) → Faithful (empty.perform run) (last.run (empty.perform run))) ↔
        ∀ short long other, inUse short → inUse long → inUse other → long.resolvesTo short = true →
          long ≠ short → other.overlaps short = true) := by
  intro before update
  have tells : before.Tells update.store update.announced := tells_run operations operation
  have separated : Separated update.store.records := (telling_run operations operation).separated
  refine ⟨tells, tells.nodup separated, ?_, ?_, faithful_iff operations operation, ?_, ?_⟩
  · constructor
    · intro silent
      rw [Tells, silent] at tells
      exact List.map_eq_nil_iff.1 tells.nil_eq.symm
    · intro nothing
      rw [Tells, nothing] at tells
      exact List.map_eq_nil_iff.1 tells.eq_nil
  · intro name told
    exact exists_announced operations operation told
  · intro allFaithful short long other shortInUse longInUse otherInUse longer differ
    rw [← Bool.not_eq_false]
    intro apart
    exact not_faithful_arrivalOf longer differ apart
      (allFaithful _ _ (insertsOnly_renewal shortInUse longInUse otherInUse))
  · intro noRoom run last inserts
    refine (faithful_iff run last).2 ?_
    intro name _ record
    exact not_stale noRoom inserts name record

/-- The signer of a site's certificate arrives, and the name of the version that was
    replaced is announced. -/
theorem announced_exactly_site :
    ((arrivalOf (.ofList ["s", "KEY", "1"])).run (empty.perform (renewalRun (.ofList ["a", "KEY", "k"])
        (.ofList ["a", "KEY", "k", "v"]) (.ofList ["s", "KEY", "1"])))).announced =
      [.ofList ["s", "KEY", "1"], .ofList ["a", "KEY", "k", "v"]] ∧
    (∃ record, Stale (empty.trace (renewalRun (.ofList ["a", "KEY", "k"]) (.ofList ["a", "KEY", "k", "v"])
        (.ofList ["s", "KEY", "1"]) ++ [arrivalOf (.ofList ["s", "KEY", "1"])])) (.ofList ["a", "KEY", "k", "v"]) record) ∧
    Faithful empty ((arrivalOf (.ofList ["s", "KEY", "1"])).run empty) := by
  have longer : (Name.ofList ["a", "KEY", "k", "v"]).resolvesTo (.ofList ["a", "KEY", "k"]) = true := by
    decide +kernel
  have apart : (Name.ofList ["s", "KEY", "1"]).overlaps (.ofList ["a", "KEY", "k"]) = false := by decide +kernel
  have announced := run_arrivalOf longer (by decide +kernel) apart
  refine ⟨?_, ?_, ?_⟩
  · rw [announced]
  · obtain ⟨_, _, _, origins, _⟩ := announced_exactly (renewalRun (.ofList ["a", "KEY", "k"])
      (.ofList ["a", "KEY", "k", "v"]) (.ofList ["s", "KEY", "1"])) (arrivalOf (.ofList ["s", "KEY", "1"]))
      fun _ => True
    obtain ⟨record, new, _, own | stale⟩ := origins (.ofList ["a", "KEY", "k", "v"]) (by rw [announced]; decide +kernel)
    · rw [announced] at new
      rcases List.mem_pair.1 (mem_newlyVerified.1 new).1 with rfl | rfl
      · exact absurd own (by decide +kernel)
      · exact absurd own (by decide +kernel)
    · exact ⟨record, stale⟩
  · obtain ⟨_, _, _, _, _, settled⟩ := announced_exactly [] (arrivalOf (.ofList ["s", "KEY", "1"]))
      (· = .ofList ["s", "KEY", "1"])
    refine settled.2 ?_ [] (arrivalOf (.ofList ["s", "KEY", "1"])) ?_
    · rintro short long other rfl rfl rfl
      decide +kernel
    · exact insertsOnly_cons_insert.2 ⟨rfl, insertsOnly_nil⟩

end Store
end RouteTrust
