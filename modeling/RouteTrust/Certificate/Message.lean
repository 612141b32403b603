import RouteTrust.Wire.Field

/-!
The tagged fields of a certificate as they travel: names as text, key and
signature as byte strings of any length. Where a field occurs more than once the
last one counts, and fields of other tags are skipped.
-/
namespace RouteTrust

/-- The fields of a certificate as they travel. -/
structure CertificateMessage where
  name : String
  signer : String
  publicKey : List UInt8
  notBefore : UInt64
  notAfter : UInt64
  signature : List UInt8
  deriving DecidableEq, Repr

/-- Why bytes are not a certificate message, and in which known field. -/
structure MessageError where
  field : Option String
  fault : Wire.Fault
  deriving DecidableEq, Repr

def MessageError.message (error : MessageError) : String :=
  let place :=
    match error.field with
    | some field => "CertificateWire." ++ field ++ ": "
    | none => ""
  "failed to decode Protobuf message: " ++ place ++ error.fault.message

namespace CertificateMessage

/-- The message without fields: every field has its default. -/
def empty : CertificateMessage := ⟨"", "", [], 0, 0, []⟩

/-- The fields in the order of their tags. -/
def encode (m : CertificateMessage) : List UInt8 :=
  Wire.textField 1 m.name ++ Wire.textField 2 m.signer ++ Wire.bytesField 3 m.publicKey ++
    Wire.numberField 4 m.notBefore ++ Wire.numberField 5 m.notAfter ++ Wire.bytesField 6 m.signature

/-- Reads the payload of a known field and stores it by the given update. -/
def readKnown {α : Type} (field : String) (form : Wire.Form) (read : List UInt8 → Wire.Reading α)
    (key : Wire.Key) (payload : List UInt8) (store : α → CertificateMessage) :
    Except MessageError (CertificateMessage × List UInt8) :=
  match Wire.readAs form read key payload with
  | .ok (value, rest) => .ok (store value, rest)
  | .error fault => .error ⟨some field, fault⟩

/-- Reads the payload of a field into a message. -/
def readPayload (m : CertificateMessage) (key : Wire.Key) (payload : List UInt8) :
    Except MessageError (CertificateMessage × List UInt8) :=
  match key.tag with
  | 1 => readKnown "name" .delimited Wire.readText key payload fun v => { m with name := v }
  | 2 => readKnown "signer" .delimited Wire.readText key payload fun v => { m with signer := v }
  | 3 => readKnown "public_key" .delimited Wire.readBytes key payload fun v => { m with publicKey := v }
  | 4 => readKnown "not_before_ms" .varint Wire.readNumber key payload fun v => { m with notBefore := v }
  | 5 => readKnown "not_after_ms" .varint Wire.readNumber key payload fun v => { m with notAfter := v }
  | 6 => readKnown "signature" .delimited Wire.readBytes key payload fun v => { m with signature := v }
  | _ =>
    match Wire.skipField key payload with
    | .ok rest => .ok (m, rest)
    | .error fault => .error ⟨none, fault⟩

def readField (m : CertificateMessage) (bytes : List UInt8) :
    Except MessageError (CertificateMessage × List UInt8) :=
  match Wire.readKey bytes with
  | .error fault => .error ⟨none, fault⟩
  | .ok (key, payload) => m.readPayload key payload

private theorem readKnown_shorter {α : Type} {field : String} {form : Wire.Form}
    {read : List UInt8 → Wire.Reading α} {key : Wire.Key} {payload rest : List UInt8}
    {store : α → CertificateMessage} {m : CertificateMessage}
    (shorter : ∀ {value : α} {after : List UInt8}, read payload = .ok (value, after) →
      after.length < payload.length)
    (taken : readKnown field form read key payload store = .ok (m, rest)) :
    rest.length ≤ payload.length := by
  unfold readKnown at taken
  split at taken
  · rename_i found
    cases taken
    exact Nat.le_of_lt (shorter (Wire.readAs_ok found))
  · cases taken

private theorem readPayload_shorter {m next : CertificateMessage} {key : Wire.Key} {payload rest : List UInt8}
    (taken : m.readPayload key payload = .ok (next, rest)) : rest.length ≤ payload.length := by
  unfold readPayload at taken
  split at taken
  · exact readKnown_shorter Wire.readText_shorter taken
  · exact readKnown_shorter Wire.readText_shorter taken
  · exact readKnown_shorter Wire.readBytes_shorter taken
  · exact readKnown_shorter Wire.readNumber_shorter taken
  · exact readKnown_shorter Wire.readNumber_shorter taken
  · exact readKnown_shorter Wire.readBytes_shorter taken
  · split at taken
    · rename_i found; cases taken; exact Wire.skipField_shorter found
    · cases taken

private theorem readField_shorter {m next : CertificateMessage} {bytes rest : List UInt8}
    (taken : m.readField bytes = .ok (next, rest)) : rest.length < bytes.length := by
  unfold readField at taken
  split at taken
  · cases taken
  · rename_i found
    exact Nat.lt_of_le_of_lt (readPayload_shorter taken) (Wire.readKey_shorter found)

/-- Reads the remaining fields into a message. -/
def readAll (m : CertificateMessage) : List UInt8 → Except MessageError CertificateMessage
  | [] => .ok m
  | byte :: more =>
    match _taken : m.readField (byte :: more) with
    | .error error => .error error
    | .ok (next, rest) => readAll next rest
termination_by bytes => bytes.length
decreasing_by exact readField_shorter _taken

def decode (bytes : List UInt8) : Except MessageError CertificateMessage := readAll empty bytes

end CertificateMessage
end RouteTrust
