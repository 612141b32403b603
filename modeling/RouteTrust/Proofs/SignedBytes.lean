import RouteTrust.Advertisement
import RouteTrust.Certificate.Codec
import RouteTrust.Proofs.Fields
import RouteTrust.Proofs.UriForm

/-!
What a signature answers for. The signed bytes of certificates tell everything but
the signature, those of advertisements too, and no certificate has the signed bytes
of an advertisement (`signedBytes_tell_apart`). So a signature that is good for two
of them comes from two byte strings with one digest.
-/
namespace RouteTrust

private theorem Text.utf8_ne_nil {text : String} (present : text ≠ "") : Text.utf8 text ≠ [] :=
  fun none_left => present (Text.utf8_injective (none_left.trans Text.utf8_empty.symm))

/-- Two different byte strings have one digest. -/
def Crypto.Blake3.Collide (a b : List UInt8) : Prop := a ≠ b ∧ hash a = hash b

private theorem Crypto.Blake3.hash_eq_iff {a b : List UInt8} : hash a = hash b ↔ a = b ∨ Collide a b := by
  constructor
  · intro same
    by_cases equal : a = b
    · exact .inl equal
    · exact .inr ⟨equal, same⟩
  · rintro (rfl | ⟨_, same⟩)
    · rfl
    · exact same

/-- A name that is written as text stands in front of other fields. -/
theorem Name.uriField_append_inj {tag : Nat} {a b : Name} {rest others : List UInt8}
    (same : Wire.textField tag a.uri ++ rest = Wire.textField tag b.uri ++ others) :
    a.uri = b.uri ∧ rest = others := by
  obtain ⟨texts, rests⟩ := Wire.bytesField_append_inj (Text.utf8_ne_nil a.uri_ne_empty)
    (Text.utf8_ne_nil b.uri_ne_empty) same
  exact ⟨Text.utf8_injective texts, rests⟩

namespace Certificate

/-- Both certificates say the same; the signatures may differ. -/
structure Agrees (a b : Certificate) : Prop where
  name : a.name = b.name
  signer : a.signer = b.signer
  publicKey : a.publicKey = b.publicKey
  validity : a.validity = b.validity

/-- The signed fields behind the public key. -/
def signedTail (c : Certificate) : List UInt8 :=
  Wire.numberField 4 c.validity.start ++
    (Wire.numberField 5 c.validity.stop ++ Wire.bytesField 6 Signature.blank.bytes)

private theorem signedBytes_eq (c : Certificate) :
    c.signedBytes = Wire.textField 1 c.name.uri ++ (Wire.textField 2 c.signer.uri ++
      (Wire.bytesField 3 c.publicKey.bytes ++ c.signedTail)) := by
  simp only [signedBytes, encode, toMessage, CertificateMessage.encode, signedTail, List.append_assoc]

private theorem publicKey_ne_nil (c : Certificate) : c.publicKey.bytes ≠ [] :=
  List.ne_nil_of_length_pos (by rw [c.publicKey.length_eq]; decide)

private theorem blankField_eq :
    ∃ rest, Wire.bytesField 6 Signature.blank.bytes = Wire.key 6 .delimited ++ rest :=
  ⟨_, Wire.bytesField_of_ne (List.ne_nil_of_length_pos (by rw [Signature.blank.length_eq]; decide))⟩

private theorem signedTail_ne_nil (c : Certificate) : c.signedTail ≠ [] := by
  obtain ⟨rest, blank⟩ := blankField_eq
  simp [signedTail, blank, Wire.key, Wire.varint_ne_nil]

/-- The two times are told apart though a zero is left out. -/
theorem validity_eq_of_signedTail_eq {a b : Certificate} (same : a.signedTail = b.signedTail) :
    a.validity = b.validity := by
  obtain ⟨blank, blankEq⟩ := blankField_eq
  have noStart (stop : UInt64) :
      ¬ Wire.key 4 .varint <+: Wire.numberField 5 stop ++ Wire.bytesField 6 Signature.blank.bytes := by
    by_cases absent : stop = 0
    · rw [absent, Wire.numberField_zero, List.nil_append, blankEq]
      exact Wire.not_key_prefix (by decide) _
    · rw [Wire.numberField_of_ne absent, List.append_assoc]
      exact Wire.not_key_prefix (by decide) _
  have noStop : ¬ Wire.key 5 .varint <+: Wire.bytesField 6 Signature.blank.bytes := by
    rw [blankEq]
    exact Wire.not_key_prefix (by decide) _
  obtain ⟨starts, rest⟩ := Wire.numberField_append_inj (noStart _) (noStart _) same
  obtain ⟨stops, _⟩ := Wire.numberField_append_inj noStop noStop rest
  cases a with
  | mk _ _ _ first _ =>
    cases b with
    | mk _ _ _ second _ =>
      cases first
      cases second
      cases starts
      cases stops
      rfl

theorem signedBytes_eq_iff {a b : Certificate} (nameA : a.name.Unslashed) (signerA : a.signer.Unslashed)
    (nameB : b.name.Unslashed) (signerB : b.signer.Unslashed) :
    a.signedBytes = b.signedBytes ↔ a.Agrees b := by
  constructor
  · intro same
    rw [signedBytes_eq, signedBytes_eq] at same
    obtain ⟨names, same⟩ := Name.uriField_append_inj same
    obtain ⟨signers, same⟩ := Name.uriField_append_inj same
    obtain ⟨keys, tails⟩ := Wire.bytesField_append_inj a.publicKey_ne_nil b.publicKey_ne_nil same
    exact ⟨Name.uri_injective nameA nameB names, Name.uri_injective signerA signerB signers,
      Octets.ext_bytes keys, validity_eq_of_signedTail_eq tails⟩
  · rintro ⟨names, signers, keys, validities⟩
    rw [signedBytes_eq, signedBytes_eq, signedTail, signedTail, names, signers, keys, validities]

end Certificate

namespace Advertisement

/-- Both advertisements say the same; the signatures may differ. -/
structure Agrees (a b : Advertisement) : Prop where
  name : a.name = b.name
  signer : a.signer = b.signer
  content : a.content = b.content

private theorem signedBytes_eq (a : Advertisement) :
    a.signedBytes = Wire.textField 1 a.name.uri ++ (Wire.textField 2 a.signer.uri ++
      (Wire.bytesField 3 a.content ++ [])) := by
  simp only [signedBytes, List.append_assoc, List.append_nil]

private theorem contentField_ne_nil {content : List UInt8} (present : content ≠ []) :
    Wire.bytesField 3 content ≠ [] := by
  simp [Wire.bytesField_of_ne present, Wire.key, Wire.varint_ne_nil]

private theorem content_eq_of_field_eq {a b : List UInt8}
    (same : Wire.bytesField 3 a ++ [] = Wire.bytesField 3 b ++ []) : a = b := by
  by_cases first : a = []
  · by_cases second : b = []
    · rw [first, second]
    · rw [first, List.append_nil, List.append_nil, Wire.bytesField_nil] at same
      exact absurd same.symm (contentField_ne_nil second)
  · by_cases second : b = []
    · rw [second, List.append_nil, List.append_nil, Wire.bytesField_nil] at same
      exact absurd same (contentField_ne_nil first)
    · exact (Wire.bytesField_append_inj first second same).1

private theorem signedBytes_eq_iff {a b : Advertisement} (nameA : a.name.Unslashed) (signerA : a.signer.Unslashed)
    (nameB : b.name.Unslashed) (signerB : b.signer.Unslashed) :
    a.signedBytes = b.signedBytes ↔ a.Agrees b := by
  constructor
  · intro same
    rw [signedBytes_eq, signedBytes_eq] at same
    obtain ⟨names, same⟩ := Name.uriField_append_inj same
    obtain ⟨signers, same⟩ := Name.uriField_append_inj same
    exact ⟨Name.uri_injective nameA nameB names, Name.uri_injective signerA signerB signers,
      content_eq_of_field_eq same⟩
  · rintro ⟨names, signers, contents⟩
    rw [signedBytes_eq, signedBytes_eq, names, signers, contents]

/-- Behind its third field a certificate goes on, and an advertisement ends there. -/
theorem signedBytes_ne_certificate (c : Certificate) (a : Advertisement) : c.signedBytes ≠ a.signedBytes := by
  intro same
  rw [Certificate.signedBytes_eq, signedBytes_eq] at same
  obtain ⟨_, same⟩ := Name.uriField_append_inj same
  obtain ⟨_, same⟩ := Name.uriField_append_inj same
  by_cases empty : a.content = []
  · rw [empty, Wire.bytesField_nil, List.append_nil] at same
    exact c.signedTail_ne_nil (List.append_eq_nil_iff.1 same).2
  · exact c.signedTail_ne_nil (Wire.bytesField_append_inj c.publicKey_ne_nil empty same).2

end Advertisement

/-- Signed bytes tell what was signed. The names that can be read have no slashes in their
    components; among such names, certificates with the same signed bytes say the same,
    and so do advertisements, and no certificate has the signed bytes of an advertisement.
    Where the digests are the same and this does not hold, the signed bytes collide. -/
theorem signedBytes_tell_apart :
    (∀ uri name, Name.ofUri uri = .ok name → name.Unslashed) ∧
    (∀ a b : Certificate, a.name.Unslashed → a.signer.Unslashed → b.name.Unslashed → b.signer.Unslashed →
      (a.signedBytes = b.signedBytes ↔ a.Agrees b) ∧
        (a.digest = b.digest ↔ a.Agrees b ∨ Crypto.Blake3.Collide a.signedBytes b.signedBytes)) ∧
    (∀ a b : Advertisement, a.name.Unslashed → a.signer.Unslashed → b.name.Unslashed → b.signer.Unslashed →
      (a.signedBytes = b.signedBytes ↔ a.Agrees b) ∧
        (a.digest = b.digest ↔ a.Agrees b ∨ Crypto.Blake3.Collide a.signedBytes b.signedBytes)) ∧
    (∀ (c : Certificate) (a : Advertisement), c.signedBytes ≠ a.signedBytes ∧
      (c.digest = a.digest ↔ Crypto.Blake3.Collide c.signedBytes a.signedBytes)) := by
  refine ⟨fun uri name read => Name.unslashed_of_ofUri read, ?_, ?_, ?_⟩
  · intro a b nameA signerA nameB signerB
    have exactly := Certificate.signedBytes_eq_iff nameA signerA nameB signerB
    refine ⟨exactly, ?_⟩
    rw [← exactly]
    exact Crypto.Blake3.hash_eq_iff
  · intro a b nameA signerA nameB signerB
    have exactly := Advertisement.signedBytes_eq_iff nameA signerA nameB signerB
    refine ⟨exactly, ?_⟩
    rw [← exactly]
    exact Crypto.Blake3.hash_eq_iff
  · intro c a
    have differ := Advertisement.signedBytes_ne_certificate c a
    exact ⟨differ, Crypto.Blake3.hash_eq_iff.trans (or_iff_right differ)⟩

/-- A certificate that is valid up to a time, and one that is valid from then on: each
    leaves one of the two times out, as it is zero. -/
theorem signedBytes_tell_apart_windows :
    let name : Name := .ofList ["a", "KEY", "k"]
    let early : Certificate := ⟨name, name, Octets.zero 32, ⟨0, 5⟩, Signature.blank⟩
    let late : Certificate := { early with validity := ⟨5, 0⟩ }
    name.Unslashed ∧ early.signedBytes ≠ late.signedBytes ∧
      ∀ content, early.signedBytes ≠ (⟨name, name, content, Signature.blank⟩ : Advertisement).signedBytes := by
  intro name early late
  have unslashed : name.Unslashed := by decide +kernel
  obtain ⟨_, certificates, _, apart⟩ := signedBytes_tell_apart
  refine ⟨unslashed, ?_, ?_⟩
  · intro same
    have agree := (certificates early late unslashed unslashed unslashed unslashed).1.1 same
    exact absurd agree.validity (by decide)
  · intro content
    exact (apart early ⟨name, name, content, Signature.blank⟩).1

end RouteTrust
