import RouteTrust.Proofs.Admission
import RouteTrust.Proofs.Identities

/-!
Who speaks for a router. An advertisement is accepted for the router that the name of its signer's
certificate shows, and a name shows a router by the markers in it, whatever its role is
(`isSome_routerOf?_iff`). The certificates of a start show one only in the roles of routers
and processes. But the policy looks at roles and sites alone, so it lets in names of other roles with
the markers of advertisements in them, and a site can issue such a name for every
router (`posing_allowed`).
-/
namespace RouteTrust

namespace Naming
variable {naming : Naming} {name : Name}

private theorem isSome_advertiserOf?_iff :
    (advertiserOf? name).isSome = true ↔ infoMarker ∈ name.components ∨ lsaMarker ∈ name.components := by
  rw [← Name.isSome_indexOf?_iff, ← Name.isSome_indexOf?_iff]
  unfold advertiserOf?
  simp only [Name.markers]
  cases info : name.indexOf? infoMarker with
  | none => simp
  | some stop => simp

/-- A name shows a router if it tells about one or advertises links, or if it has a router marker
    and with it the process marker or `KEY`. -/
theorem isSome_routerOf?_iff : (naming.routerOf? name).isSome = true ↔
    infoMarker ∈ name.components ∨ lsaMarker ∈ name.components ∨
      routerMarker ∈ name.components ∧ (processMarker ∈ name.components ∨ keyMarker ∈ name.components) := by
  have advertises : (advertiserOf? name).isSome = true ↔ _ := isSome_advertiserOf?_iff
  rw [← or_assoc, ← advertises]
  simp only [← Name.isSome_indexOf?_iff] at advertises ⊢
  unfold routerOf?
  simp only [Name.markers]
  split
  · rename_i router process atRouter atProcess
    simp [atRouter, atProcess]
  · rename_i router atRouter noProcess
    by_cases told : (advertiserOf? name).isSome = true
    · have loud : ((name.indexOf? infoMarker).isNone && (name.indexOf? lsaMarker).isNone) = false := by
        rcases advertises.1 told with info | lsa
        · simp [Option.isNone_eq_false_iff.2 info]
        · simp [Option.isNone_eq_false_iff.2 lsa]
      simp [loud, told]
    · have quiet : ((name.indexOf? infoMarker).isNone && (name.indexOf? lsaMarker).isNone) = true := by
        simpa [not_or] using mt advertises.2 told
      simp [quiet, told, atRouter, noProcess]
  · rename_i noRouter
    simp [noRouter]

/-- The name shows a router, but it is not the name of a key of a router or of its process. -/
def Poses (naming : Naming) (name : Name) : Prop :=
  (naming.routerOf? name).isSome = true ∧ naming.roleOf name ≠ .router ∧ naming.roleOf name ≠ .process

/-- Below the root, a router marker without an operator marker makes a name that of a router or of
    a process. -/
theorem roleOf_eq_router_or_process_iff (low : naming.roleOf name ≠ .root) :
    naming.roleOf name = .router ∨ naming.roleOf name = .process ↔
      operatorMarker ∉ name.components ∧ routerMarker ∈ name.components := by
  simp only [roleOf_of_ne_root low, Markers.role, Name.markers, Name.isSome_indexOf?_iff]
  split_ifs with operator router process
  · simp [operator]
  · simp [operator, router]
  · simp [operator, router]
  · simp [router]

private theorem poses_iff : naming.Poses name ↔
    (infoMarker ∈ name.components ∨ lsaMarker ∈ name.components ∨
      routerMarker ∈ name.components ∧ (processMarker ∈ name.components ∨ keyMarker ∈ name.components)) ∧
    (naming.roleOf name = .root ∨ operatorMarker ∈ name.components ∨ routerMarker ∉ name.components) := by
  rw [Poses, isSome_routerOf?_iff, ← not_or]
  refine and_congr_right fun _ => ?_
  by_cases direct : naming.roleOf name = .root
  · simp [direct]
  · rw [roleOf_eq_router_or_process_iff direct]
    simp only [direct, false_or]
    tauto

/-- A name of an operator of a site that advertises links of a router. -/
def posing (naming : Naming) (site : NamePart) (router : Name) : Name :=
  ((naming.rootPrefix ++ site.toName).push operatorMarker).push lsaMarker ++ router ++
    Name.ofList [keyMarker, "ksk-1", "1"]

section
variable {site : NamePart} {router : Name}

private theorem components_posing : (naming.posing site router).components =
    naming.rootPrefix.components ++ site.components ++
      operatorMarker :: lsaMarker :: (router.components ++ [keyMarker, "ksk-1", "1"]) := by
  have suffix : (Name.ofList [keyMarker, "ksk-1", "1"]).components = [keyMarker, "ksk-1", "1"] := by decide
  rw [posing, Name.components_append, Name.components_append, Name.components_push (by decide),
    Name.components_push (by decide), Name.components_append, suffix]
  simp only [List.append_assoc, List.cons_append, List.nil_append]

variable (unmarked : naming.rootPrefix.Unmarked) (plain : router.Unmarked)
include unmarked plain

private theorem roleOf_posing : naming.roleOf (naming.posing site router) = .operator := by
  have split : (naming.posing site router).components = naming.rootPrefix.components ++
      (site.components ++ operatorMarker :: lsaMarker :: router.components) ++ keyMarker :: ["ksk-1", "1"] := by
    rw [components_posing]
    simp only [List.append_assoc, List.cons_append]
  have clear : ∀ component ∈ naming.rootPrefix.components ++ ["ksk-1", "1"], component ∉ reservedMarkers :=
    List.forall_mem_append.2 ⟨unmarked, by decide⟩
  have first : keyMarker ∉ site.components ++ operatorMarker :: lsaMarker :: router.components := by
    have noSite := site.absent (show keyMarker ∈ reservedMarkers by decide)
    have noRouter := plain.absent (show keyMarker ∈ reservedMarkers by decide)
    simp only [List.mem_append, List.mem_cons, noSite, noRouter, or_false, false_or]
    decide
  rw [roleOf_of_path split clear first (by simp), if_pos (by simp)]

private theorem siteOf?_posing : naming.siteOf? (naming.posing site router) = some (naming.network ++ site.toName) := by
  have split : (naming.posing site router).components = _ := components_posing
  have absent {marker : String} (reserved : marker ∈ reservedMarkers) :
      marker ∉ naming.rootPrefix.components ++ site.components ∧ marker ∉ router.components := by
    rw [List.mem_append, not_or]
    exact ⟨⟨unmarked.absent reserved, site.absent reserved⟩, plain.absent reserved⟩
  have noRouter : (naming.posing site router).indexOf? routerMarker = none := by
    obtain ⟨noFront, noBack⟩ := absent (show routerMarker ∈ reservedMarkers by decide)
    refine Name.indexOf?_eq_none ?_
    rw [split, List.mem_append, not_or]
    refine ⟨noFront, ?_⟩
    simp only [List.mem_cons, List.mem_append, noBack, false_or]
    decide
  have atOperator := Name.indexOf?_of_split split (absent (show operatorMarker ∈ reservedMarkers by decide)).1
  refine siteOf?_of_stop split ?_
  rw [Name.markers, noRouter, atOperator, Option.none_or, Option.some_or]

private theorem routerOf?_posing : naming.routerOf? (naming.posing site router) = some router := by
  have split : (naming.posing site router).components =
      (naming.rootPrefix.components ++ site.components ++ [operatorMarker]) ++
        lsaMarker :: (router.components ++ [keyMarker, "ksk-1", "1"]) := by
    rw [components_posing]
    simp only [List.append_assoc, List.cons_append, List.nil_append]
  refine Name.eq_some_of_components (routerOf?_of_advertisement split rfl ?_ ?_)
  · simp only [List.mem_append, unmarked.absent (show lsaMarker ∈ reservedMarkers by decide),
      site.absent (show lsaMarker ∈ reservedMarkers by decide), false_or]
    decide
  · have reserved : [routerMarker, infoMarker] ⊆ reservedMarkers := by decide
    simp only [List.forall_mem_append]
    exact ⟨⟨⟨⟨fun c member listed => unmarked c member (reserved listed),
      fun c member listed => site.unmarked c member (reserved listed)⟩, by decide⟩,
      fun c member listed => plain c member (reserved listed)⟩, by decide⟩

/-- A site can issue an operator's name that shows any router. -/
theorem posing_allowed (id : NamePart) :
    naming.checkSigner (naming.posing site router) ((Holder.site site).certificate naming.rootPrefix id) = .ok () := by
  rw [checkSigner_ok_iff, roleOf_posing unmarked plain, Holder.roleOf_certificate unmarked]
  have shown : naming.siteOf? ((Holder.site site).certificate naming.rootPrefix id) =
      some (naming.network ++ site.toName) := Holder.siteOf?_certificate unmarked _ id
  exact ⟨rfl, by rw [placeFor?, siteOf?_posing unmarked plain]; rfl,
    by rw [placeFor?, placeFor?, siteOf?_posing unmarked plain, shown]⟩

end
end Naming

/-! ## The certificates of a start -/

/-- A certificate name of a documented shape shows a router only for routers and processes. -/
theorem Holder.not_poses {naming : Naming} (unmarked : naming.rootPrefix.Unmarked) (holder : Holder) (id : NamePart) :
    ¬ naming.Poses (holder.certificate naming.rootPrefix id) := by
  rintro ⟨shown, notRouter, notProcess⟩
  rw [routerOf?_certificate unmarked, Option.isSome_map] at shown
  rw [roleOf_certificate unmarked] at notRouter notProcess
  cases holder with
  | router s r => exact notRouter rfl
  | process s r => exact notProcess rfl
  | _ => cases shown

private theorem PublicKey.keyId_not_mem_markers (key : PublicKey) : PublicKey.keyId key ∉ reservedMarkers := by
  intro member
  have starts : (PublicKey.keyId key).toList.head? = some 'k' := by
    rw [PublicKey.keyId, String.toList_append]
    rfl
  have others : ∀ marker ∈ reservedMarkers, marker.toList.head? ≠ some 'k' := by decide
  exact others _ member starts

private theorem Owner.not_poses_processCertificate {owner : Owner} (unmarked : owner.Unmarked) (key : PublicKey) :
    ¬ owner.naming.Poses (owner.processCertificate key) := by
  have plain : (Name.ofList [PublicKey.keyId key]).Unmarked := by
    intro component member
    rw [Name.components_ofList] at member
    rw [List.mem_singleton.1 (List.mem_of_mem_filter member)]
    exact PublicKey.keyId_not_mem_markers key
  rw [processCertificate_eq]
  exact fun poses => poses.2.2 (reads_processKey unmarked plain).role

namespace Keyring
variable {scheme : SignatureScheme} {check : SignatureCheck} {now : Time} {held : Store} {owner : Owner}
  {disk : Disk} {directory : Path} {keys : RouterKeys} {seq : UInt64} {keyring : Keyring}

/-- What is stored after arrivals was held before the start, is one of the certificates of the
    start, or is an arrival that the policy let in. -/
theorem origin_of_mem
    (started : bootstrap scheme check now held owner disk directory keys seq = .ok keyring) (arrivals : List Arrival)
    {record : Record} (member : record ∈ (keyring.receiveAll arrivals).store.records) :
    (∃ old ∈ held.records, old.certificate = record.certificate) ∨
      record.name ∈ keyring.bootstrapNames ++ [keyring.processCertificate] ∨
      ∃ arrival ∈ arrivals, arrival.conforms keyring.naming = true ∧ arrival.certificate = record.certificate := by
  rw [store_receiveAll] at member
  rcases Store.stored_or_placed member with ⟨old, atStart, same, _⟩ | ⟨trusted, placed⟩
  · obtain ⟨credentials, process, _, _, _, named, names, installed⟩ := exists_credentials_of_bootstrap started
    rw [installed, ← Store.replay_trace] at atStart
    rcases Store.stored_or_placed atStart with ⟨first, stored, sameToo, _⟩ | ⟨trusted, placed⟩
    · exact .inl ⟨first, stored, sameToo.trans same⟩
    · right; left
      obtain ⟨operation, called, prompts⟩ := Store.prompts_of_mem_trace placed
      obtain ⟨_, rfl⟩ := eq_insert_of_prompts prompts
      rw [names, named, Record.name, ← same]
      simp only [installations, List.mem_cons, Operation.insert.injEq, List.not_mem_nil, or_false] at called
      rcases called with ⟨_, is, _⟩ | ⟨_, is, _⟩ | ⟨_, is, _⟩ | ⟨_, is, _⟩ | ⟨_, is, _⟩
      all_goals simp [is]
  · obtain ⟨operation, called, prompts⟩ := Store.prompts_of_mem_trace placed
    obtain ⟨arrival, arrived, conforms, rfl⟩ := mem_admitted.1 called
    obtain ⟨_, inserted⟩ := eq_insert_of_prompts prompts
    simp only [Arrival.insertion, Operation.insert.injEq] at inserted
    exact .inr (.inr ⟨arrival, arrived, conforms, inserted.2.1⟩)

/-- What it takes of a record that an advertisement is accepted under it. -/
structure Speaks (scheme : SignatureScheme) (keyring : Keyring) (record : Record) (advertisement : Advertisement) :
    Prop where
  found : keyring.store.find? advertisement.signer = some record
  verified : record.verified = true
  router : ∃ router, keyring.naming.routerOf? record.name = some router ∧
    keyring.naming.routerOf? advertisement.name = some router
  signed : advertisement.verify scheme record.certificate.publicKey = .ok ()

private theorem accepts_iff {advertisement : Advertisement} :
    keyring.accepts scheme advertisement = true ↔ ∃ record, keyring.Speaks scheme record advertisement := by
  unfold accepts
  constructor
  · intro accepted
    split at accepted
    · cases accepted
    · rename_i record found
      simp only [Bool.and_eq_true, Naming.sameRouter, beq_iff_eq] at accepted
      obtain ⟨⟨verified, shown, same⟩, signed⟩ := accepted
      obtain ⟨router, shown⟩ := Option.isSome_iff_exists.1 shown
      refine ⟨record, found, verified, ⟨router, same ▸ shown, shown⟩, ?_⟩
      cases outcome : advertisement.verify scheme record.certificate.publicKey with
      | ok _ => rfl
      | error reason =>
        rw [outcome] at signed
        cases signed
  · rintro ⟨record, found, verified, ⟨router, shown, same⟩, signed⟩
    simp only [found, verified, Naming.sameRouter, shown, same, signed]
    simp [Except.isOk, Except.toBool]

/-- Who speaks for routers. After a start from certificates with names of the documented shapes
    and after any arrivals, an advertisement is accepted exactly under the verified record that its
    signer finds, if the key of that verifies it and both show one router. The record is that
    of a router or a process, unless it was held before the start or the policy let it in
    under a name of another role that shows a router all the same. Such names are those with
    the markers of advertisements, or with those of routers below the root's `KEY` or
    beside an operator marker. The policy lets a site issue one for every router. -/
theorem speaks_exactly
    (started : bootstrap scheme check now held owner disk directory keys seq = .ok keyring) (unmarked : owner.Unmarked)
    (named : ∀ name ∈ keyring.bootstrapNames, ∃ holder id, name = Holder.certificate owner.rootPrefix holder id)
    (arrivals : List Arrival) :
    (∀ advertisement, (keyring.receiveAll arrivals).accepts scheme advertisement = true ↔
      ∃ record, (keyring.receiveAll arrivals).Speaks scheme record advertisement) ∧
    (∀ record advertisement, (keyring.receiveAll arrivals).Speaks scheme record advertisement →
      owner.naming.roleOf record.name = .router ∨ owner.naming.roleOf record.name = .process ∨
        owner.naming.Poses record.name ∧
          ((∃ old ∈ held.records, old.certificate = record.certificate) ∨
            ∃ arrival ∈ arrivals, arrival.conforms owner.naming = true ∧ arrival.certificate = record.certificate)) ∧
    (∀ name : Name, owner.naming.Poses name ↔
      (infoMarker ∈ name.components ∨ lsaMarker ∈ name.components ∨
        routerMarker ∈ name.components ∧ (processMarker ∈ name.components ∨ keyMarker ∈ name.components)) ∧
      (owner.naming.roleOf name = .root ∨ operatorMarker ∈ name.components ∨ routerMarker ∉ name.components)) ∧
    ∀ (site id : NamePart) (router : Name), router.Unmarked → ∃ name, owner.naming.Poses name ∧
      owner.naming.routerOf? name = some router ∧
      owner.naming.checkSigner name ((Holder.site site).certificate owner.rootPrefix id) = .ok () := by
  have plan : keyring.naming = owner.naming := by
    rw [naming, (store_bootstrap started).1]
  have clear : owner.naming.rootPrefix.Unmarked := unmarked owner.rootPrefix (by simp)
  refine ⟨fun _ => accepts_iff, ?_, fun _ => Naming.poses_iff, ?_⟩
  · intro record advertisement speaks
    obtain ⟨router, shown, _⟩ := speaks.router
    rw [naming_receiveAll, plan] at shown
    by_cases proper : owner.naming.roleOf record.name = .router ∨ owner.naming.roleOf record.name = .process
    · exact proper.imp_right .inl
    · have poses : owner.naming.Poses record.name := ⟨by rw [shown]; rfl, not_or.1 proper⟩
      refine .inr (.inr ⟨poses, ?_⟩)
      rcases origin_of_mem started arrivals (Store.mem_of_find? speaks.found).1 with old | starting | arrived
      · exact .inl old
      · rcases List.mem_append.1 starting with loaded | issued
        · obtain ⟨holder, id, same⟩ := named _ loaded
          exact absurd (same ▸ poses) (holder.not_poses clear id)
        · obtain ⟨_, process, rfl, _, _, same, _⟩ := exists_credentials_of_bootstrap started
          rw [List.mem_singleton.1 issued, same] at poses
          exact absurd poses (Owner.not_poses_processCertificate unmarked _)
      · rw [plan] at arrived
        exact .inr arrived
  · intro site id router plain
    have role : owner.naming.roleOf (owner.naming.posing site router) = .operator :=
      Naming.roleOf_posing clear plain
    have shown : owner.naming.routerOf? (owner.naming.posing site router) = some router :=
      Naming.routerOf?_posing clear plain
    refine ⟨owner.naming.posing site router, ⟨by rw [shown]; rfl, ?_, ?_⟩, shown,
      Naming.posing_allowed clear plain id⟩
    · rw [role]
      decide
    · rw [role]
      decide

/-- A certificate of an operator of the site of `pollux`, issued by the site, that shows the router
    `castor` of another site. -/
def poser : Arrival :=
  ⟨sampleScheme.checkAt 0, .sample ["ndn", "edu", "memphis", "O.Start", "LSA", "ndn", "ucla", "castor", "KEY", "op", "1"]
    ["ndn", "edu", "memphis", "KEY", "site"], 4⟩

/-- An advertisement of the router `castor`, signed with the operator's key. -/
def posted : Advertisement :=
  ⟨.ofList ["ndn", "NLSR", "LSA", "ndn", "ucla", "castor", "name", "7", "0"], poser.certificate.name, [0],
    Signature.blank⟩

/-- The operator speaks for the router of the other site. -/
theorem speaks_exactly_poser :
    startPollux = .ok pollux ∧ (pollux.receiveAll [poser]).accepts sampleScheme posted = true ∧
      ∃ record, (pollux.receiveAll [poser]).Speaks sampleScheme record posted ∧
        pollux.owner.naming.roleOf record.name = .operator ∧ pollux.owner.naming.Poses record.name := by
  have starting : pollux.bootstrapNames =
      [Holder.root.certificate pollux.owner.rootPrefix ⟨.ofList ["root"], by decide, by decide⟩,
        (Holder.site .memphis).certificate pollux.owner.rootPrefix ⟨.ofList ["site"], by decide, by decide⟩,
        (Holder.operator .memphis ⟨.ofList ["alice"], by decide, by decide⟩).certificate pollux.owner.rootPrefix
          ⟨.ofList ["op"], by decide, by decide⟩,
        (Holder.router .memphis .pollux).certificate pollux.owner.rootPrefix
          ⟨.ofList ["rtr"], by decide, by decide⟩] := by decide +kernel
  have named : ∀ name ∈ pollux.bootstrapNames,
      ∃ holder id, name = Holder.certificate pollux.owner.rootPrefix holder id := by
    simp only [starting, List.forall_mem_cons]
    exact ⟨⟨_, _, rfl⟩, ⟨_, _, rfl⟩, ⟨_, _, rfl⟩, ⟨_, _, rfl⟩, fun _ => nofun⟩
  obtain ⟨accepted, spoken, _, _⟩ := speaks_exactly startPollux_eq (by decide) named [poser]
  have speaks : (pollux.receiveAll [poser]).Speaks sampleScheme ⟨poser.certificate, 4, true⟩ posted :=
    ⟨by decide +kernel, rfl, ⟨.ofList ["ndn", "ucla", "castor"], by decide +kernel, by decide +kernel⟩, rfl⟩
  have role : pollux.owner.naming.roleOf poser.certificate.name = .operator := by decide +kernel
  refine ⟨startPollux_eq, (accepted posted).2 ⟨_, speaks⟩, _, speaks, role, ?_⟩
  rcases spoken _ _ speaks with isRouter | isProcess | ⟨poses, _⟩
  · exact absurd (role.symm.trans isRouter) (by decide)
  · exact absurd (role.symm.trans isProcess) (by decide)
  · exact poses

end Keyring
end RouteTrust
