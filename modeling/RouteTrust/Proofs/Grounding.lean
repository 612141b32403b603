import RouteTrust.Proofs.Provenance

/-!
What trust rests on. Every verified record is grounded: it was placed with
trust, or endorsed by hand, or its signature was accepted under the key of a
stored signer that was grounded at that earlier moment (`Grounded`). A run that
gives no trust by hand verifies nothing.
-/
namespace RouteTrust

/-- A chain of accepted signatures from a record down to trust given by hand. The
    signer of each link was verified at a strictly earlier moment. -/
inductive Grounded : List Action → Record → Prop
  | trusted {past before : List Action} {certificate : Certificate} {seq : UInt64} {record : Record}
      (event : VerifiedAt past before (.place certificate seq true) record) : Grounded past record
  | endorsed {past before : List Action} {lookup : Name} {record : Record}
      (event : VerifiedAt past before (.endorse lookup) record) : Grounded past record
  | checked {past before : List Action} {check : SignatureCheck} {lookup : Name} {subject signer : Record}
      (event : VerifiedAt past before (.attempt check lookup) subject.asVerified)
      (certified : Certified check (Store.after before) lookup subject signer)
      (chain : Grounded before signer) : Grounded past subject.asVerified

/-- The call gives trust without a signature. -/
def Operation.givesTrust : Operation → Bool
  | insert _ _ _ trusted => trusted
  | setVerified _ _ verified => verified
  | remove _ => false

namespace Store

theorem grounded_of_verified {past : List Action} {record : Record} (member : record ∈ (after past).records)
    (verified : record.verified = true) : Grounded past record := by
  induction length : past.length using Nat.strongRecOn generalizing past record with
  | _ n ih =>
    obtain ⟨before, action, event⟩ := exists_verifiedAt member verified
    cases event.verifies with
    | trusted certificate seq => exact .trusted event
    | endorsed found unverified => exact .endorsed event
    | checked certified =>
      -- The signer was verified when it was used, so its own chain ends earlier.
      have earlier : before.length < n := length ▸ event.before_shorter
      have chain := ih before.length earlier (mem_of_find? certified.signed).1 certified.trusted rfl
      exact .checked event certified chain

end Store

/-- At the end of every chain somebody gave trust by hand. -/
theorem Grounded.source {past : List Action} {record : Record} (grounded : Grounded past record) :
    (∃ certificate seq, .place certificate seq true ∈ past) ∨ ∃ lookup, .endorse lookup ∈ past := by
  induction grounded with
  | trusted event => exact .inl ⟨_, _, event.action_mem⟩
  | endorsed event => exact .inr ⟨_, event.action_mem⟩
  | checked event _ _ ih =>
    have reaches := event.before_subset
    rcases ih with ⟨certificate, seq, placed⟩ | ⟨lookup, endorsed⟩
    · exact .inl ⟨certificate, seq, reaches placed⟩
    · exact .inr ⟨lookup, reaches endorsed⟩

private theorem givesTrust_of_place {operation : Operation} {certificate : Certificate} {seq : UInt64}
    (prompts : Prompts operation (.place certificate seq true)) : operation.givesTrust = true := by
  obtain ⟨_, rfl⟩ := eq_insert_of_prompts prompts
  rfl

private theorem givesTrust_of_endorse {operation : Operation} {lookup : Name}
    (prompts : Prompts operation (.endorse lookup)) : operation.givesTrust = true := by
  cases prompts
  rfl

namespace Store

/-- Who never gives trust by hand never trusts. -/
theorem unverified_of_no_trust {operations : List Operation}
    (noTrust : ∀ operation ∈ operations, operation.givesTrust = false) {past : List Action}
    (within : past <+: empty.trace operations) {record : Record} (member : record ∈ (after past).records) :
    record.verified = false := by
  rw [Bool.eq_false_iff]
  intro verified
  have refuted {action : Action} (inPast : action ∈ past)
      (gives : ∀ operation, Prompts operation action → operation.givesTrust = true) : False := by
    obtain ⟨operation, called, prompts⟩ := prompts_of_mem_trace (within.subset inPast)
    have given := gives operation prompts
    rw [noTrust operation called] at given
    cases given
  rcases (grounded_of_verified member verified).source with ⟨_, _, placed⟩ | ⟨_, endorsed⟩
  · exact refuted placed fun _ => givesTrust_of_place
  · exact refuted endorsed fun _ => givesTrust_of_endorse

/-- Trust is sound: at every moment of every run, what is verified is grounded in
    trust that a call gave by hand. -/
theorem verified_grounded (operations : List Operation) :
    after (empty.trace operations) = empty.perform operations ∧
      (∀ action ∈ empty.trace operations, ∃ operation ∈ operations, Prompts operation action) ∧
      (∀ past, past <+: empty.trace operations → ∀ record ∈ (after past).records,
        record.verified = true → Grounded past record) ∧
      ((∀ operation ∈ operations, operation.givesTrust = false) →
        ∀ past, past <+: empty.trace operations → ∀ record ∈ (after past).records,
          record.verified = false) := by
  refine ⟨replay_trace empty operations, ?_, ?_, ?_⟩
  · intro action member
    exact prompts_of_mem_trace member
  · intro past _ record member verified
    exact grounded_of_verified member verified
  · intro noTrust past within record member
    exact unverified_of_no_trust noTrust within member

/-- A site's certificate is inserted, then that of its root, which signs itself and is
    trusted or not. -/
def siteThenRoot (trusted : Bool) : List Operation :=
  [.insert (fun _ _ => true) (.sample ["edu", "site", "KEY", "s"] ["edu", "KEY", "r", "v1"]) 1 false,
    .insert (fun _ _ => true) (.sample ["edu", "KEY", "r"] ["edu", "KEY", "r"]) 1 trusted]

theorem verified_grounded_site :
    Grounded (empty.trace (siteThenRoot true))
        ⟨.sample ["edu", "site", "KEY", "s"] ["edu", "KEY", "r", "v1"], 1, true⟩ ∧
      ∀ record ∈ (after (empty.trace (siteThenRoot false))).records, record.verified = false := by
  refine ⟨?_, ?_⟩
  · obtain ⟨reached, _, grounded, _⟩ := verified_grounded (siteThenRoot true)
    refine grounded _ (List.prefix_refl _) _ ?_ rfl
    rw [reached]
    decide +kernel
  · obtain ⟨_, _, _, untrusted⟩ := verified_grounded (siteThenRoot false)
    exact untrusted (by simp [siteThenRoot, Operation.givesTrust]) _ (List.prefix_refl _)

end Store
end RouteTrust
