import Mathlib.Data.List.Basic
import RouteTrust.Certificate.Codec
import RouteTrust.Proofs.Base64
import RouteTrust.Proofs.Fields
import RouteTrust.Storage.CertificateFile

namespace RouteTrust

/-! ## Lengths that cannot be written -/

namespace Wire

private theorem eq_of_readVarintWithin {width value found : Nat} {rest after : List UInt8}
    (read : readVarintWithin width (varint value ++ rest) = some (found, after)) : found = value := by
  induction width generalizing value found with
  | zero => cases read
  | succ width ih =>
    by_cases small : value < 128
    · have exact : (UInt8.ofNat value).toNat = value := by simp; omega
      simp only [varint_of_lt small, List.singleton_append, readVarintWithin, exact, small, if_true,
        Option.some.injEq, Prod.mk.injEq] at read
      exact read.1.symm
    · have exact : (UInt8.ofNat (value % 128 + 128)).toNat = value % 128 + 128 := by
        rw [UInt8.toNat_ofNat']; omega
      rw [varint_of_ge (by omega), List.cons_append, readVarintWithin, exact, if_neg (by omega)] at read
      obtain ⟨⟨high, others⟩, inner, same⟩ := Option.map_eq_some_iff.1 read
      cases same
      rw [ih inner]
      omega

/-- Bytes too many for their number cannot be read back. -/
theorem readBytes_of_too_many {bytes : List UInt8} (many : ¬ bytes.length < UInt64.size) (rest : List UInt8) :
    readBytes (varint bytes.length ++ rest) = .error .badVarint := by
  have unreadable : readVarint (varint bytes.length ++ rest) = none := by
    unfold readVarint
    split
    · rename_i read
      rw [eq_of_readVarintWithin read, if_neg many]
    · rfl
  simp only [readBytes, readNumber, unreadable]

end Wire

theorem Text.length_utf8 (text : String) : (utf8 text).length = text.utf8ByteSize := rfl

/-! ## Messages -/

namespace CertificateMessage
open Wire

section
variable {m next : CertificateMessage} {tag : Nat} {rest : List UInt8}

private theorem readAll_of_readField {bytes : List UInt8} (present : bytes ≠ [])
    (read : m.readField bytes = .ok (next, rest)) : m.readAll bytes = next.readAll rest := by
  obtain ⟨byte, more, rfl⟩ := List.exists_cons_of_ne_nil present
  rw [readAll]
  split
  · rename_i refused
    rw [read] at refused
    cases refused
  · rename_i taken
    rw [read] at taken
    cases taken
    rfl

private theorem readAll_of_readField_error {bytes : List UInt8} {error : MessageError} (present : bytes ≠ [])
    (read : m.readField bytes = .error error) : m.readAll bytes = .error error := by
  obtain ⟨byte, more, rfl⟩ := List.exists_cons_of_ne_nil present
  rw [readAll]
  split
  · rename_i refused
    rw [read] at refused
    cases refused
    rfl
  · rename_i taken
    rw [read] at taken
    cases taken

private theorem readField_key (positive : 0 < tag) (small : 8 * tag + 8 ≤ UInt32.size) (form : Form)
    (payload : List UInt8) : m.readField (key tag form ++ payload) = m.readPayload ⟨tag, form⟩ payload := by
  rw [readField, readKey_key positive small]

/-- A field of bytes is read, or there is none and nothing to read. -/
theorem readAll_bytesField {bytes : List UInt8} (positive : 0 < tag) (small : 8 * tag + 8 ≤ UInt32.size)
    (fits : bytes.length < UInt64.size) (omitted : bytes = [] → next = m)
    (known : ∀ payload, readBytes payload = .ok (bytes, rest) →
      m.readPayload ⟨tag, .delimited⟩ payload = .ok (next, rest)) :
    m.readAll (bytesField tag bytes ++ rest) = next.readAll rest := by
  by_cases absent : bytes = []
  · rw [absent, bytesField_nil, List.nil_append, omitted absent]
  · have read : m.readField (bytesField tag bytes ++ rest) = .ok (next, rest) := by
      rw [bytesField_of_ne absent, List.append_assoc, List.append_assoc, readField_key positive small]
      exact known _ (readBytes_varint fits rest)
    exact readAll_of_readField (by simp [bytesField_of_ne absent, key, varint_ne_nil]) read

private theorem readAll_textField {text : String} (positive : 0 < tag) (small : 8 * tag + 8 ≤ UInt32.size)
    (fits : text.utf8ByteSize < UInt64.size) (omitted : text = "" → next = m)
    (known : ∀ payload, readText payload = .ok (text, rest) →
      m.readPayload ⟨tag, .delimited⟩ payload = .ok (next, rest)) :
    m.readAll (textField tag text ++ rest) = next.readAll rest :=
  readAll_bytesField positive small fits (fun absent => omitted (Text.utf8_injective absent))
    fun payload read => known payload (readText_of_readBytes read)

private theorem readAll_numberField {value : UInt64} (positive : 0 < tag) (small : 8 * tag + 8 ≤ UInt32.size)
    (omitted : value = 0 → next = m)
    (known : ∀ payload, readNumber payload = .ok (value, rest) →
      m.readPayload ⟨tag, .varint⟩ payload = .ok (next, rest)) :
    m.readAll (numberField tag value ++ rest) = next.readAll rest := by
  by_cases absent : value = 0
  · rw [absent, numberField_zero, List.nil_append, omitted absent]
  · have read : m.readField (numberField tag value ++ rest) = .ok (next, rest) := by
      rw [numberField_of_ne absent, List.append_assoc, readField_key positive small]
      exact known _ (readNumber_varint value rest)
    exact readAll_of_readField (by simp [numberField_of_ne absent, key, varint_ne_nil]) read

/-- A text that is too long stops the reading. -/
theorem readAll_textField_too_long {text : String} {error : MessageError} (positive : 0 < tag)
    (small : 8 * tag + 8 ≤ UInt32.size) (long : ¬ text.utf8ByteSize < UInt64.size)
    (known : ∀ payload, readText payload = .error .badVarint →
      m.readPayload ⟨tag, .delimited⟩ payload = .error error) :
    m.readAll (textField tag text ++ rest) = .error error := by
  rw [← Text.length_utf8] at long
  have present : Text.utf8 text ≠ [] := by
    intro none_left
    rw [none_left] at long
    exact long (by decide)
  have read : m.readField (textField tag text ++ rest) = .error error := by
    rw [textField, bytesField_of_ne present, List.append_assoc, List.append_assoc, readField_key positive small]
    refine known _ ?_
    have refused := readBytes_of_too_many long (Text.utf8 text ++ rest)
    simp only [readText, refused]
  exact readAll_of_readField_error (by simp [textField, bytesField_of_ne present, key, varint_ne_nil]) read

end

private theorem encode_eq (m : CertificateMessage) :
    m.encode = textField 1 m.name ++ (textField 2 m.signer ++ (bytesField 3 m.publicKey ++
      (numberField 4 m.notBefore ++ (numberField 5 m.notAfter ++ (bytesField 6 m.signature ++ []))))) := by
  simp only [encode, List.append_assoc, List.append_nil]

private theorem readAll_name {name : String} (fits : name.utf8ByteSize < UInt64.size) (rest : List UInt8) :
    empty.readAll (textField 1 name ++ rest) = readAll ⟨name, "", [], 0, 0, []⟩ rest := by
  refine readAll_textField (by decide) (by decide) fits (fun absent => by rw [absent, empty]) ?_
  intro payload read
  simp [readPayload, readKnown, readAs, read, empty]

private theorem readAll_signer {name signer : String} (fits : signer.utf8ByteSize < UInt64.size) (rest : List UInt8) :
    readAll ⟨name, "", [], 0, 0, []⟩ (textField 2 signer ++ rest) = readAll ⟨name, signer, [], 0, 0, []⟩ rest := by
  refine readAll_textField (by decide) (by decide) fits (fun absent => by rw [absent]) ?_
  intro payload read
  simp [readPayload, readKnown, readAs, read]

/-- A message is read back from its fields. -/
theorem decode_encode {m : CertificateMessage} (name : m.name.utf8ByteSize < UInt64.size)
    (signer : m.signer.utf8ByteSize < UInt64.size) (publicKey : m.publicKey.length < UInt64.size)
    (signature : m.signature.length < UInt64.size) : decode m.encode = .ok m := by
  rw [decode, encode_eq, readAll_name name, readAll_signer signer]
  calc readAll ⟨m.name, m.signer, [], 0, 0, []⟩ _
      = readAll ⟨m.name, m.signer, m.publicKey, 0, 0, []⟩ _ := by
        refine readAll_bytesField (by decide) (by decide) publicKey (fun absent => by rw [absent]) ?_
        intro payload read
        simp [readPayload, readKnown, readAs, read]
    _ = readAll ⟨m.name, m.signer, m.publicKey, m.notBefore, 0, []⟩ _ := by
        refine readAll_numberField (by decide) (by decide) (fun absent => by rw [absent]) ?_
        intro payload read
        simp [readPayload, readKnown, readAs, read]
    _ = readAll ⟨m.name, m.signer, m.publicKey, m.notBefore, m.notAfter, []⟩ _ := by
        refine readAll_numberField (by decide) (by decide) (fun absent => by rw [absent]) ?_
        intro payload read
        simp [readPayload, readKnown, readAs, read]
    _ = readAll m [] := by
        refine readAll_bytesField (by decide) (by decide) signature (fun absent => by rw [← absent]) ?_
        intro payload read
        simp [readPayload, readKnown, readAs, read]
    _ = .ok m := by rw [readAll]

/-- A message with a text that is too long is not read back. -/
theorem fits_of_decode_encode {m next : CertificateMessage} (read : decode m.encode = .ok next) :
    m.name.utf8ByteSize < UInt64.size ∧ m.signer.utf8ByteSize < UInt64.size := by
  rw [decode, encode_eq] at read
  by_cases name : m.name.utf8ByteSize < UInt64.size
  · refine ⟨name, ?_⟩
    by_cases signer : m.signer.utf8ByteSize < UInt64.size
    · exact signer
    · have refused (rest : List UInt8) : readAll ⟨m.name, "", [], 0, 0, []⟩ (textField 2 m.signer ++ rest) =
          .error ⟨some "signer", .badVarint⟩ := by
        refine readAll_textField_too_long (by decide) (by decide) signer ?_
        intro payload failed
        simp [readPayload, readKnown, readAs, failed]
      rw [readAll_name name, refused] at read
      cases read
  · have refused (rest : List UInt8) : empty.readAll (textField 1 m.name ++ rest) =
        .error ⟨some "name", .badVarint⟩ := by
      refine readAll_textField_too_long (by decide) (by decide) name ?_
      intro payload failed
      simp [readPayload, readKnown, readAs, failed]
    rw [refused] at read
    cases read

end CertificateMessage

/-! ## Certificates and their files -/

/-- The name is recovered from its text form, and the length of that can be written. -/
structure Name.Recovered (name : Name) : Prop where
  read : ofUri name.uri = .ok name
  fits : name.uri.utf8ByteSize < UInt64.size

namespace Certificate

theorem nameOf_eq_ok_iff {uri : String} {name : Name} : nameOf uri = .ok name ↔ Name.ofUri uri = .ok name := by
  unfold nameOf
  cases Name.ofUri uri with
  | ok found => simp
  | error reason => simp

theorem ofMessage_toMessage (c : Certificate) :
    ofMessage c.toMessage = (nameOf c.name.uri).bind fun name => (nameOf c.signer.uri).bind fun signer =>
      .ok { c with name, signer } := by
  unfold ofMessage toMessage
  simp only [Octets.ofList?_bytes]
  rfl

private theorem ofMessage_toMessage_iff (c : Certificate) :
    ofMessage c.toMessage = .ok c ↔ Name.ofUri c.name.uri = .ok c.name ∧ Name.ofUri c.signer.uri = .ok c.signer := by
  rw [← nameOf_eq_ok_iff, ← nameOf_eq_ok_iff, ofMessage_toMessage]
  constructor
  · intro read
    cases named : nameOf c.name.uri with
    | error reason =>
      rw [named] at read
      cases read
    | ok name =>
      cases signed : nameOf c.signer.uri with
      | error reason =>
        rw [named, signed] at read
        cases read
      | ok signer =>
        rw [named, signed] at read
        have same := Except.ok.inj read
        have names : name = c.name := congrArg Certificate.name same
        have signers : signer = c.signer := congrArg Certificate.signer same
        exact ⟨congrArg Except.ok names, congrArg Except.ok signers⟩
  · rintro ⟨named, signed⟩
    rw [named, signed]
    rfl

private theorem decode_encode_iff (c : Certificate) :
    decode c.encode = .ok c ↔ c.name.Recovered ∧ c.signer.Recovered := by
  have key : c.publicKey.bytes.length < UInt64.size := by rw [c.publicKey.length_eq]; decide
  have signature : c.signature.bytes.length < UInt64.size := by rw [c.signature.length_eq]; decide
  constructor
  · intro read
    unfold decode at read
    split at read
    · rename_i m found
      obtain ⟨nameFits, signerFits⟩ := CertificateMessage.fits_of_decode_encode found
      have same : m = c.toMessage :=
        Except.ok.inj (found.symm.trans (CertificateMessage.decode_encode nameFits signerFits key signature))
      rw [same] at read
      obtain ⟨named, signed⟩ := c.ofMessage_toMessage_iff.1 read
      exact ⟨⟨named, nameFits⟩, ⟨signed, signerFits⟩⟩
    · cases read
  · rintro ⟨⟨named, nameFits⟩, ⟨signed, signerFits⟩⟩
    have message := CertificateMessage.decode_encode (m := c.toMessage) nameFits signerFits key signature
    rw [decode, encode, message]
    exact c.ofMessage_toMessage_iff.2 ⟨named, signed⟩

private theorem read?_of_saved {c : Certificate} {disk : Disk} {path : Path} {encoding : CertificateEncoding}
    (saved : (c.save disk path encoding).1 = .ok ()) :
    (c.save disk path encoding).2.read? path = some (encoding.write c) := by
  refine Disk.read?_of_save ?_
  by_cases done : (disk.save path (encoding.write c)).isDone = true
  · exact done
  · rw [save, Change.orError, if_neg done] at saved
    cases saved

private theorem read_write (c : Certificate) (encoding : CertificateEncoding) :
    encoding.read (encoding.write c) = decode c.encode := by
  cases encoding with
  | binary => rfl
  | base64 => rw [CertificateEncoding.write, CertificateEncoding.read,
      Text.Base64.decodeLoose_of_spaced (.refl _)]

/-- Certificates are read back. From its bytes a certificate is read back exactly if its two
    names are recovered from their text forms. Then it is also had from the file that it
    was saved to, in either encoding, and from every file with its base64 text and blanks
    anywhere in it. -/
theorem read_back (c : Certificate) :
    (decode c.encode = .ok c ↔ c.name.Recovered ∧ c.signer.Recovered) ∧
    (c.name.Recovered → c.signer.Recovered → ∀ disk path encoding, (c.save disk path encoding).1 = .ok () →
      load (c.save disk path encoding).2 path encoding = .ok c ∧
      (encoding = .base64 → ∀ contents text, (c.save disk path encoding).2.read? path = some contents →
        Text.Base64.Spaced contents text → ∀ (other : Disk) (place : Path), other.read? place = some text →
        load other place encoding = .ok c)) := by
  refine ⟨c.decode_encode_iff, ?_⟩
  intro named signed disk path encoding saved
  have decoded := c.decode_encode_iff.2 ⟨named, signed⟩
  have written := read?_of_saved saved
  refine ⟨?_, ?_⟩
  · simp only [load, written, read_write, decoded]
  · rintro rfl contents text found spaced other place holds
    rw [written] at found
    cases found
    simp only [load, holds, CertificateEncoding.read, Text.Base64.decodeLoose_of_spaced spaced, decoded]

/-- A certificate whose first time is zero, so it is left out. -/
def sampleOfZero : Certificate :=
  ⟨.ofList ["a", "KEY", "k"], .ofList ["a", "KEY", "k", "v"], Octets.zero 32, ⟨0, 5⟩, Signature.blank⟩

/-- The second file has a blank in front of the text. -/
theorem read_back_blank :
    decode sampleOfZero.encode = .ok sampleOfZero ∧
      load (sampleOfZero.save .empty ⟨"/c"⟩ .base64).2 ⟨"/c"⟩ .base64 = .ok sampleOfZero ∧
      load (Disk.empty.save ⟨"/d"⟩ (0x20 :: Text.Base64.encode sampleOfZero.encode)).disk ⟨"/d"⟩ .base64 =
        .ok sampleOfZero := by
  have named : Name.Recovered (.ofList ["a", "KEY", "k"]) := ⟨by decide +kernel, by decide +kernel⟩
  have signed : Name.Recovered (.ofList ["a", "KEY", "k", "v"]) := ⟨by decide +kernel, by decide +kernel⟩
  obtain ⟨bytes, files⟩ := read_back sampleOfZero
  have saved : (sampleOfZero.save .empty ⟨"/c"⟩ .base64).1 = .ok () := by decide +kernel
  obtain ⟨plain, spaced⟩ := files named signed .empty ⟨"/c"⟩ .base64 saved
  refine ⟨bytes.2 ⟨named, signed⟩, plain, ?_⟩
  have blank : Text.Base64.isLayout 0x20 = true := by decide
  have broken : Text.Base64.Spaced (CertificateEncoding.base64.write sampleOfZero)
      (0x20 :: Text.Base64.encode sampleOfZero.encode) := .blank blank (.refl _)
  have savedToo : (Disk.empty.save ⟨"/d"⟩ (0x20 :: Text.Base64.encode sampleOfZero.encode)).isDone = true := by
    decide +kernel
  exact spaced rfl _ _ (read?_of_saved saved) broken _ _ (Disk.read?_of_save savedToo)

end Certificate
end RouteTrust
