import Mathlib.Data.List.Basic
import RouteTrust.Proofs.Grammar

/-!
The site of a process and the site of its signer. The policy asks of a process that its
signer belongs to the same router, and a router is known by its full name, in which
nothing tells where the site ends. Both sites begin that name
(`exists_site_of_showsRouter`), so they are the same where they have as many components;
and two sites have routers of one name exactly if the name of one site begins that of
the other.
-/
namespace RouteTrust

namespace Name

theorem isPrefixOf_append (front back : Name) : front.isPrefixOf (front ++ back) = true :=
  isPrefixOf_iff.2 (List.prefix_append front.components back.components)

/-- Two beginnings of one name are the same if they are equally long. -/
theorem eq_of_isPrefixOf {a b name : Name} (first : a.isPrefixOf name = true) (second : b.isPrefixOf name = true)
    (same : a.length = b.length) : a = b := by
  rw [isPrefixOf_iff] at first second
  exact ext_components ((List.prefix_of_prefix_length_le first second (Nat.le_of_eq same)).eq_of_length same)

/-- The router that the name belongs to is read around its router marker. -/
def showsRouter (name : Name) : Bool :=
  name.markers.router.isSome &&
    (name.markers.process.isSome || (name.markers.info.isNone && name.markers.lsa.isNone))

end Name

namespace Naming
variable {naming : Naming} {name : Name}

/-- Where a router is read around its marker, its name begins with the site. -/
theorem exists_site_of_showsRouter {router : Name} (shown : name.showsRouter = true)
    (found : naming.routerOf? name = some router) :
    ∃ site, naming.siteOf? name = some site ∧ site.isPrefixOf router = true := by
  obtain ⟨marked, read⟩ := Bool.and_eq_true_iff.1 shown
  obtain ⟨stop, atRouter⟩ := Option.isSome_iff_exists.1 marked
  refine ⟨naming.network ++ name.slice naming.rootPrefix.length stop, ?_, ?_⟩
  · simp only [siteOf?, atRouter, Option.some_or, Option.map_some]
  · have around : ∃ last, router = naming.routerUpTo name stop last := by
      unfold routerOf? at found
      simp only [atRouter] at found
      cases atProcess : name.markers.process with
      | some last =>
        rw [atProcess] at found
        exact ⟨last, (Option.some.inj found).symm⟩
      | none =>
        rw [atProcess, Option.isSome_none, Bool.false_or] at read
        rw [atProcess] at found
        simp only [read, if_true] at found
        obtain ⟨last, _, rfl⟩ := Option.map_eq_some_iff.1 found
        exact ⟨last, rfl⟩
    obtain ⟨last, rfl⟩ := around
    exact Name.isPrefixOf_append _ _

/-- The name of a process shows its router around the marker. -/
theorem showsRouter_of_process (isProcess : naming.roleOf name = .process) : name.showsRouter = true := by
  unfold roleOf at isProcess
  simp only at isProcess
  split at isProcess
  · cases isProcess
  · split at isProcess
    · cases isProcess
    · split at isProcess
      · rename_i marked
        split at isProcess
        · rename_i process
          rw [Name.showsRouter, marked, process, Bool.true_or, Bool.and_self]
        · cases isProcess
      · cases isProcess

end Naming

/-! ## Sites whose routers have one name -/

namespace NamePart

/-- A part behind components that are no markers is a part. -/
def after (front : Name) (unmarked : front.Unmarked) (part : NamePart) : NamePart where
  toName := front ++ part.toName
  components_ne_nil := by simp [part.components_ne_nil]
  unmarked := by
    rw [Name.components_append, List.forall_mem_append]
    exact ⟨unmarked, part.unmarked⟩

/-- What a part has beyond its beginning. -/
theorem exists_rest {front part : NamePart} (begins : front.isPrefixOf part.toName = true) :
    ∃ rest : Name, rest.Unmarked ∧ part.toName = front.toName ++ rest := by
  obtain ⟨rest, split⟩ := Name.isPrefixOf_iff.1 begins
  refine ⟨⟨rest, ?_⟩, ?_, Name.ext_components split.symm⟩
  · intro component member
    exact part.components_ne component (split ▸ List.mem_append_right _ member)
  · intro component member
    exact part.unmarked component (split ▸ List.mem_append_right _ member)

/-- A site whose name begins another's has a router that is called like one of the other's. -/
theorem exists_same_router {site other : NamePart} (begins : site.isPrefixOf other.toName = true) :
    ∃ router otherRouter : NamePart, site.toName ++ router.toName = other.toName ++ otherRouter.toName := by
  obtain ⟨rest, unmarked, split⟩ := exists_rest begins
  refine ⟨.after rest unmarked site, site, Name.ext_components ?_⟩
  simp only [split, after, Name.components_append, List.append_assoc]

/-- Two sites have routers of one full name exactly if one site's name begins the other's. -/
theorem exists_same_router_iff (site other : NamePart) :
    (∃ router otherRouter : NamePart, site.toName ++ router.toName = other.toName ++ otherRouter.toName) ↔
      site.isPrefixOf other.toName = true ∨ other.isPrefixOf site.toName = true := by
  constructor
  · rintro ⟨router, otherRouter, same⟩
    -- both sites begin the one full name
    rw [Name.isPrefixOf_iff, Name.isPrefixOf_iff]
    refine List.prefix_or_prefix_of_prefix (List.prefix_append _ router.components) ?_
    rw [Name.ext_iff, Name.components_append, Name.components_append] at same
    rw [same]
    exact List.prefix_append _ _
  · rintro (begins | begins)
    · exact exists_same_router begins
    · obtain ⟨otherRouter, router, same⟩ := exists_same_router begins
      exact ⟨router, otherRouter, same.symm⟩

end NamePart

namespace Naming

/-- How the site of a process stands to that of its signer. Whoever may sign for a process
    belongs to the same router, and the site of the process begins the name of that router.
    The signer is of the same site exactly if its site begins the name too and has as many
    components; the first holds of every signer whose router is read around the router
    marker. For names of the documented shapes this comes to a condition on two sites: a
    router of the one may certify a process of a router of the other exactly if one site's
    name begins the other's. -/
theorem process_site_exactly (naming : Naming) :
    (∀ subject signer, naming.checkSigner subject signer = .ok () → naming.roleOf subject = .process →
      ∃ router site, naming.routerOf? subject = some router ∧ naming.routerOf? signer = some router ∧
        naming.siteOf? subject = some site ∧ site.isPrefixOf router = true ∧
        (naming.siteOf? subject = naming.siteOf? signer ↔
          ∃ other, naming.siteOf? signer = some other ∧ other.isPrefixOf router = true ∧
            other.length = site.length) ∧
        (signer.showsRouter = true →
          ∃ other, naming.siteOf? signer = some other ∧ other.isPrefixOf router = true)) ∧
    (naming.rootPrefix.Unmarked → ∀ site other : NamePart,
      (∃ router otherRouter id otherId, naming.checkSigner
        ((Holder.process site router).certificate naming.rootPrefix id)
        ((Holder.router other otherRouter).certificate naming.rootPrefix otherId) = .ok ()) ↔
      site.isPrefixOf other.toName = true ∨ other.isPrefixOf site.toName = true) := by
  constructor
  · intro subject signer allowed isProcess
    obtain ⟨_, known, same⟩ := checkSigner_ok_iff.1 allowed
    rw [isProcess] at known same
    obtain ⟨router, found⟩ := Option.isSome_iff_exists.1 known
    have foundToo : naming.routerOf? signer = some router := same.symm.trans found
    obtain ⟨site, atSite, begins⟩ := exists_site_of_showsRouter (showsRouter_of_process isProcess) found
    refine ⟨router, site, found, foundToo, atSite, begins, ?_, ?_⟩
    · rw [atSite]
      constructor
      · intro sameSite
        exact ⟨site, sameSite.symm, begins, rfl⟩
      · rintro ⟨other, atOther, beginsToo, long⟩
        rw [atOther, Name.eq_of_isPrefixOf beginsToo begins long]
    · exact fun shown => exists_site_of_showsRouter shown foundToo
  · intro unmarked site other
    rw [← NamePart.exists_same_router_iff]
    constructor
    · rintro ⟨router, otherRouter, id, otherId, allowed⟩
      cases (Holder.checkSigner_certificate_iff unmarked _ _ id otherId).1 allowed with
      | process same => exact ⟨router, otherRouter, same⟩
    · rintro ⟨router, otherRouter, same⟩
      exact ⟨router, otherRouter, site, site,
        (Holder.checkSigner_certificate_iff unmarked _ _ site site).2 (.process same)⟩

/-- The key of `pollux` at the site `memphis/lab` may certify a process of `lab/pollux` at
    the site `memphis`. -/
theorem process_of_other_site :
    let subject := Name.ofList ["ndn", "edu", "memphis", "R.Start", "lab", "pollux", "nlsr", "KEY", "ksk-1"]
    let signer := Name.ofList ["ndn", "edu", "memphis", "lab", "R.Start", "pollux", "KEY", "ksk-1"]
    ndn.checkSigner subject signer = .ok () ∧ ndn.roleOf subject = .process ∧
      ndn.siteOf? subject = some (.ofList ["ndn", "memphis"]) ∧
      ndn.siteOf? signer = some (.ofList ["ndn", "memphis", "lab"]) ∧
      ndn.siteOf? subject ≠ ndn.siteOf? signer := by
  intro subject signer
  decide +kernel

theorem process_site_exactly_memphis :
    let subject := (Holder.process .memphis .labPollux).certificate ndn.rootPrefix .keyId
    let signer := (Holder.router .memphisLab .pollux).certificate ndn.rootPrefix .keyId
    ndn.checkSigner subject signer = .ok () ∧ ndn.roleOf subject = .process ∧ signer.showsRouter = true ∧
      (∃ router other, ndn.routerOf? subject = some router ∧ ndn.routerOf? signer = some router ∧
        ndn.siteOf? signer = some other ∧ other.isPrefixOf router = true) ∧
      ndn.rootPrefix.Unmarked ∧
      ∃ router otherRouter id otherId, ndn.checkSigner
        ((Holder.process .memphis router).certificate ndn.rootPrefix id)
        ((Holder.router .memphisLab otherRouter).certificate ndn.rootPrefix otherId) = .ok () := by
  have allowed : ndn.checkSigner ((Holder.process .memphis .labPollux).certificate ndn.rootPrefix .keyId)
      ((Holder.router .memphisLab .pollux).certificate ndn.rootPrefix .keyId) = .ok () := by decide +kernel
  have isProcess : ndn.roleOf ((Holder.process .memphis .labPollux).certificate ndn.rootPrefix .keyId) = .process := by
    decide +kernel
  have shown : ((Holder.router .memphisLab .pollux).certificate ndn.rootPrefix .keyId).showsRouter = true := by
    decide +kernel
  have unmarked : ndn.rootPrefix.Unmarked := by decide
  obtain ⟨router, site, found, foundToo, _, _, _, begins⟩ := (process_site_exactly ndn).1 _ _ allowed isProcess
  obtain ⟨other, atOther, beginsToo⟩ := begins shown
  have sites := (process_site_exactly ndn).2 unmarked .memphis .memphisLab
  exact ⟨allowed, isProcess, shown, ⟨router, other, found, foundToo, atOther, beginsToo⟩, unmarked,
    sites.2 (.inl (by decide))⟩

end Naming
end RouteTrust
