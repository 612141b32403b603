import RouteTrust.Proofs.Admission
import RouteTrust.Proofs.ProcessSites

/-!
Certificates under the root prefix. A root's or a site's certificate that the policy
allows has a name under the configured root prefix (`isPrefixOf_of_allowed`). Of the
others the policy reads what stands behind as many components as the root prefix has, and
does not look at these: it allows a name under any other prefix of that length as it
allows the one under the root prefix (`checkSigner_outside_iff`).
-/
namespace RouteTrust

namespace Name
variable {front other back : Name}

theorem indexOf?_append {marker : String} (absent : marker ∉ front.components) :
    (front ++ back).indexOf? marker = (back.indexOf? marker).map (· + front.length) := by
  have passed : front.components.findIdx? (· == marker) = none := indexOf?_eq_none absent
  rw [indexOf?, components_append, List.findIdx?_append, passed, Option.none_or]
  rfl

theorem length_append (front back : Name) : (front ++ back).length = front.length + back.length := List.length_append

/-- What is taken from behind the front is taken from what is behind it. -/
theorem slice_append {start stop : Nat} (behind : front.length ≤ start) :
    (front ++ back).slice start stop = back.slice (start - front.length) (stop - front.length) := by
  have sameSpan : (start < stop ∧ stop ≤ (front ++ back).length) ↔
      (start - front.length < stop - front.length ∧ stop - front.length ≤ back.length) := by
    rw [length_append]
    omega
  by_cases inside : start < stop ∧ stop ≤ (front ++ back).length
  · have frontTaken : front.components.take stop = front.components :=
      List.take_of_length_le (Nat.le_of_lt (Nat.lt_of_le_of_lt behind inside.1))
    have frontDropped : front.components.drop start = [] := List.drop_eq_nil_of_le behind
    rw [ext_iff, components_slice inside, components_slice (sameSpan.1 inside), components_append, List.take_append,
      frontTaken, List.drop_append, frontDropped, List.nil_append]
    rfl
  · rw [slice, if_neg inside, slice, if_neg (mt sameSpan.2 inside)]

/-- Fronts of one length without markers leave the markers in the same places. -/
theorem markers_swap (unmarked : front.Unmarked) (unmarkedToo : other.Unmarked) (long : front.length = other.length)
    (back : Name) :
    (front ++ back).markers = (other ++ back).markers := by
  have same {marker : String} (reserved : marker ∈ reservedMarkers) :
      (front ++ back).indexOf? marker = (other ++ back).indexOf? marker := by
    rw [indexOf?_append (unmarked.absent reserved), indexOf?_append (unmarkedToo.absent reserved), long]
  unfold markers
  rw [same (by decide), same (by decide), same (by decide), same (by decide), same (by decide), same (by decide)]

private theorem slice_swap {start stop : Nat} (long : front.length = other.length) (behind : front.length ≤ start) :
    (front ++ back).slice start stop = (other ++ back).slice start stop := by
  rw [slice_append behind, slice_append (long ▸ behind), long]

end Name

namespace Naming
variable {naming : Naming} {subject signer outside back : Name}

/-- Roots and sites are named under the root prefix. -/
theorem isPrefixOf_of_allowed (allowed : naming.checkSigner subject signer = .ok ())
    (high : naming.roleOf subject = .root ∨ naming.roleOf subject = .site) :
    naming.rootPrefix.isPrefixOf subject = true := by
  obtain ⟨above, _, same⟩ := checkSigner_ok_iff.1 allowed
  have signerRoot : naming.rootOf signer = naming.rootPrefix :=
    rootOf_of_root (Role.eq_root_of_mayCertify above high)
  have sameRoot : naming.rootOf subject = naming.rootOf signer := by
    rcases high with isRoot | isSite
    · rw [isRoot] at same
      exact Option.some.inj same
    · rw [isSite] at same
      exact Option.some.inj same
  rw [signerRoot] at sameRoot
  rw [Name.isPrefixOf_iff, ← sameRoot]
  exact List.take_prefix _ _

/-- Below the root, the markers alone decide the role. -/
theorem roleOf_eq_of_markers {a b : Name} (same : a.markers = b.markers) (low : naming.roleOf a ≠ .root)
    (lowToo : naming.roleOf b ≠ .root) : naming.roleOf a = naming.roleOf b := by
  rw [roleOf_of_ne_root low, roleOf_of_ne_root lowToo, same]

section
variable (unmarked : naming.rootPrefix.Unmarked) (unmarkedToo : outside.Unmarked)
  (long : outside.length = naming.rootPrefix.length)
include unmarked unmarkedToo long

private theorem roleOf_outside (low : naming.roleOf (naming.rootPrefix ++ back) ≠ .root) :
    naming.roleOf (outside ++ back) = naming.roleOf (naming.rootPrefix ++ back) := by
  have markers := Name.markers_swap unmarkedToo unmarked long back
  have lowToo : naming.roleOf (outside ++ back) ≠ .root := by
    intro isRoot
    obtain ⟨key, found, directly⟩ := roleOf_eq_root_iff.1 isRoot
    have foundToo : (naming.rootPrefix ++ back).indexOf? keyMarker = some key :=
      (congrArg Markers.key markers).symm.trans found
    -- a `KEY` that a name of the root prefix's length precedes stands right behind the root prefix
    have place : key = naming.rootPrefix.length := by
      rw [← directly, Name.length, Name.components_take, List.length_take]
      exact (Nat.min_eq_left (Nat.le_of_lt (Name.indexOf?_lt found))).symm
    refine low (roleOf_eq_root_iff.2 ⟨key, foundToo, Name.ext_components ?_⟩)
    rw [place, Name.components_take, Name.components_append, Name.length, List.take_left]
  exact roleOf_eq_of_markers markers lowToo low

private theorem siteOf?_outside : naming.siteOf? (outside ++ back) = naming.siteOf? (naming.rootPrefix ++ back) := by
  have markers := Name.markers_swap unmarkedToo unmarked long back
  unfold siteOf?
  rw [markers]
  refine Option.map_congr ?_
  intro stop _
  rw [Name.slice_swap long (Nat.le_of_eq long)]

private theorem routerOf?_outside (shown : (naming.rootPrefix ++ back).showsRouter = true) :
    naming.routerOf? (outside ++ back) = naming.routerOf? (naming.rootPrefix ++ back) := by
  have markers := Name.markers_swap unmarkedToo unmarked long back
  obtain ⟨marked, read⟩ := Bool.and_eq_true_iff.1 shown
  obtain ⟨first, atRouter⟩ := Option.isSome_iff_exists.1 marked
  have behind : naming.rootPrefix.length ≤ first := by
    have shifted : (naming.rootPrefix ++ back).indexOf? routerMarker =
        (back.indexOf? routerMarker).map (· + naming.rootPrefix.length) :=
      Name.indexOf?_append (unmarked.absent (by decide))
    obtain ⟨inBack, _, rfl⟩ := Option.map_eq_some_iff.1 (shifted.symm.trans atRouter)
    exact Nat.le_add_left _ _
  have same (last : Nat) : naming.routerUpTo (outside ++ back) first last =
      naming.routerUpTo (naming.rootPrefix ++ back) first last := by
    rw [routerUpTo, routerUpTo, Name.slice_swap long (Nat.le_of_eq long), Name.slice_swap long (by omega)]
  unfold routerOf?
  rw [markers]
  simp only [atRouter]
  cases atProcess : (naming.rootPrefix ++ back).markers.process with
  | some last => exact congrArg some (same last)
  | none =>
    rw [atProcess, Option.isSome_none, Bool.false_or] at read
    simp only [read, if_true, same]

/-- Of the certificates below sites the policy allows under another prefix of the root
    prefix's length what it allows under the root prefix. -/
theorem checkSigner_outside_iff
    (low : naming.roleOf (naming.rootPrefix ++ back) ≠ .root ∧ naming.roleOf (naming.rootPrefix ++ back) ≠ .site) :
    naming.checkSigner (outside ++ back) signer = .ok () ↔
      naming.checkSigner (naming.rootPrefix ++ back) signer = .ok () := by
  have sameRole := roleOf_outside unmarked unmarkedToo long low.1
  have samePlace : naming.placeFor? (naming.roleOf (naming.rootPrefix ++ back)) (outside ++ back) =
      naming.placeFor? (naming.roleOf (naming.rootPrefix ++ back)) (naming.rootPrefix ++ back) := by
    cases role : naming.roleOf (naming.rootPrefix ++ back) with
    | root => exact absurd role low.1
    | site => exact absurd role low.2
    | operator => exact siteOf?_outside unmarked unmarkedToo long
    | router => exact siteOf?_outside unmarked unmarkedToo long
    | process => exact routerOf?_outside unmarked unmarkedToo long (showsRouter_of_process role)
  rw [checkSigner_ok_iff, checkSigner_ok_iff, sameRole, samePlace]

end

/-! ## Every lower role outside the root prefix -/

/-- Below the roots and sites, every role has a holder and one who may issue for it. -/
theorem exists_issuer {role : Role} (low : role ≠ .root ∧ role ≠ .site) (site part : NamePart) :
    ∃ subject signer : Holder, signer.MayIssue subject ∧ subject.role = role := by
  cases role with
  | root => exact absurd rfl low.1
  | site => exact absurd rfl low.2
  | operator => exact ⟨.operator site part, .site site, .siteOperator site part, rfl⟩
  | router => exact ⟨.router site part, .site site, .siteRouter site part, rfl⟩
  | process => exact ⟨.process site part, .router site part, .process rfl, rfl⟩

/-- Beside a root prefix there is another one of the same length. -/
theorem exists_outside {rootPrefix : Name} (present : rootPrefix ≠ .root) :
    ∃ outside : Name, outside.Unmarked ∧ outside.length = rootPrefix.length ∧ outside ≠ rootPrefix := by
  have repeated (word : String) (plain : word ≠ "" ∧ word ∉ reservedMarkers)
      (other : rootPrefix.components.head? ≠ some word) :
      ∃ outside : Name, outside.Unmarked ∧ outside.length = rootPrefix.length ∧ outside ≠ rootPrefix := by
    refine ⟨⟨List.replicate rootPrefix.length word, ?_⟩, ?_, List.length_replicate, ?_⟩
    · intro component member
      rw [List.eq_of_mem_replicate member]
      exact plain.1
    · intro component member
      rw [List.eq_of_mem_replicate member]
      exact plain.2
    · intro same
      refine other ?_
      rw [← same, List.head?_replicate, if_neg]
      exact fun empty => present (Name.ext_components (List.eq_nil_of_length_eq_zero empty))
  by_cases first : rootPrefix.components.head? = some "a"
  · exact repeated "b" (by decide) (by rw [first]; decide)
  · exact repeated "a" (by decide) first

/-- Of a role, the policy allows names under the root prefix only. -/
def Confines (naming : Naming) (role : Role) : Prop :=
  ∀ subject signer, naming.checkSigner subject signer = .ok () → naming.roleOf subject = role →
    naming.rootPrefix.isPrefixOf subject = true

private theorem confines_of_high {role : Role} (high : role = .root ∨ role = .site) : naming.Confines role := by
  rintro subject signer allowed rfl
  exact isPrefixOf_of_allowed allowed high

/-- No other role is confined, unless every name is under the root prefix. -/
theorem confines_iff (unmarked : naming.rootPrefix.Unmarked) (role : Role) :
    naming.Confines role ↔ (role = .root ∨ role = .site) ∨ naming.rootPrefix = .root := by
  constructor
  · intro under
    by_contra other
    obtain ⟨low, present⟩ := (not_or.1 other).imp_left not_or.1
    obtain ⟨subject, signer, may, isRole⟩ := exists_issuer low .memphis .pollux
    obtain ⟨outside, unmarkedToo, long, different⟩ := exists_outside present
    have roleInside : naming.roleOf (subject.certificate naming.rootPrefix .keyId) = role :=
      (Holder.roleOf_certificate unmarked subject .keyId).trans isRole
    have inside := (Holder.checkSigner_certificate_iff unmarked subject signer .keyId .keyId).2 may
    rw [Holder.certificate_eq] at roleInside
    rw [Holder.certificate_eq naming.rootPrefix subject] at inside
    have allowed := (checkSigner_outside_iff unmarked unmarkedToo long (roleInside ▸ low)).2 inside
    have sameRole := roleOf_outside unmarked unmarkedToo long (roleInside ▸ low.1)
    have begins := under _ _ allowed (sameRole.trans roleInside)
    exact different (Name.eq_of_isPrefixOf (Name.isPrefixOf_append outside _) begins long)
  · rintro (high | everywhere)
    · exact confines_of_high high
    · intro subject _ _ _
      rw [everywhere]
      exact Name.isPrefixOf_iff.2 List.nil_prefix

end Naming

namespace Keyring

/-- Of a role, certificates from elsewhere are admitted under the root prefix only. -/
def Confines (keyring : Keyring) (role : Role) : Prop :=
  ∀ check certificate seq admission, keyring.receive check certificate seq = .ok admission →
    keyring.naming.roleOf certificate.name = role → keyring.naming.rootPrefix.isPrefixOf certificate.name = true

/-- Admission is left to the policy. -/
theorem confines_iff_naming (keyring : Keyring) (role : Role) :
    keyring.Confines role ↔ keyring.naming.Confines role := by
  constructor
  · intro confined subject signer allowed isRole
    let arrival : Arrival := ⟨fun _ _ => false, .blank subject signer, 0⟩
    have conforms : arrival.conforms keyring.naming = true := Arrival.conforms_iff.2 allowed
    exact confined _ _ _ _ (receive_of_conforms conforms) isRole
  · intro confined check certificate seq admission admitted isRole
    unfold receive at admitted
    split at admitted
    · cases admitted
    · rename_i allowed
      exact confined _ _ allowed isRole

/-- Which certificates stay under the root prefix. Those of roots and sites do, under every
    naming plan. Where the root prefix uses no marker and is not empty, no other role does:
    an operator, a router or a process may stand under any prefix of the same length that
    uses no marker, and is allowed there by the same signers. -/
theorem confined_exactly (keyring : Keyring) (role : Role) :
    (keyring.Confines role ↔ keyring.naming.Confines role) ∧
    (role = .root ∨ role = .site → keyring.Confines role) ∧
    (keyring.naming.rootPrefix.Unmarked →
      (keyring.Confines role ↔ (role = .root ∨ role = .site) ∨ keyring.naming.rootPrefix = .root) ∧
      ∀ outside back signer, outside.Unmarked → outside.length = keyring.naming.rootPrefix.length →
        keyring.naming.roleOf (keyring.naming.rootPrefix ++ back) = role → role ≠ .root ∧ role ≠ .site →
        (keyring.naming.checkSigner (outside ++ back) signer = .ok () ↔
          keyring.naming.checkSigner (keyring.naming.rootPrefix ++ back) signer = .ok ())) := by
  rw [confines_iff_naming]
  refine ⟨Iff.rfl, Naming.confines_of_high, fun unmarked => ⟨Naming.confines_iff unmarked role, ?_⟩⟩
  rintro outside back signer unmarkedToo long rfl low
  exact Naming.checkSigner_outside_iff unmarked unmarkedToo long low

/-- The operator `alice` may certify a router under `/evil/corp`. -/
theorem confined_exactly_pollux :
    pollux.Confines .site ∧ pollux.naming.rootPrefix.Unmarked ∧ ¬ pollux.Confines .router ∧
      pollux.naming.checkSigner (.ofList ["evil", "corp"] ++ .ofList ["memphis", "R.Start", "castor", "KEY", "c"])
        sampleCredentials.operator.name = .ok () := by
  have unmarked : pollux.naming.rootPrefix.Unmarked := by decide +kernel
  have sites := (confined_exactly pollux .site).2.1 (.inr rfl)
  obtain ⟨routers, anywhere⟩ := (confined_exactly pollux .router).2.2 unmarked
  refine ⟨sites, unmarked, mt routers.1 (by decide +kernel), ?_⟩
  have allowed : pollux.naming.checkSigner
      (pollux.naming.rootPrefix ++ .ofList ["memphis", "R.Start", "castor", "KEY", "c"])
      sampleCredentials.operator.name = .ok () := by decide +kernel
  exact (anywhere _ _ _ (by decide +kernel) (by decide +kernel) (by decide +kernel) (by decide)).2 allowed

end Keyring
end RouteTrust
