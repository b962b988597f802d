import Limitmark.PublicInquiry.FormToken

/-!
# What the shape gate passes

The gate decides check by check; what it passes is described by what a request has to look like: a
method and a target of the catalogue, headers within their limits and alphabets with one host, and a
body framed by its length alone, which for a `POST` is a well-formed form (`WellShaped`). The gate
passes these requests and no others (`evaluate_eq_pass`).

A form it has passed reaches the readers behind it as the gate decoded it, and the token the lanes find
in it is theirs too, unless the gate dropped a byte order mark (`gate_admits`).
-/

namespace Limitmark.PublicInquiry

open Limitmark.Defense Limitmark.Foundations Limitmark.Lanes Limitmark.Plane Limitmark.Plane.ShapeGate

/-! ## The target -/

/-- A field as it may be spelled. -/
structure Spelled (pair : List Char) : Prop where
  equals : '=' ∈ pair
  name : (splitField pair).1 ≠ []
  nameLength : (splitField pair).1.length ≤ maxFieldNameBytes * 3
  valueLength : (splitField pair).2.length ≤ maxFieldEncodedBytes

/-- A field of the form, whose token is one. -/
def Allowed (field : GateField) : Prop :=
  field.name ∈ ALLOWED_FORM_FIELDS ∧ ∀ token ∈ field.token, isToken token = true

/-- A form, with its fields as the gate decodes them. -/
structure WellFormedForm (body : List UInt8) (fields : List GateField) : Prop where
  alphabet : (latin1 body).all isBodyChar = true
  count : (latin1 body).count '&' + 1 ≤ maxFormFields
  decoded : gateFields body = some fields
  spelled : latin1 body ≠ [] → ∀ pair ∈ (latin1 body).splitOn '&', Spelled pair
  allowed : ∀ field ∈ fields, Allowed field
  distinct : (fields.map GateField.name).Nodup

/-- A form as a `POST` brings it: its type, its declared length, and all of its body. -/
structure Posted (request : LayerRequest) (body : List UInt8) : Prop where
  contentType : named request "content-type" = [FORM_CONTENT_TYPE]
  size : body.length ≤ maxBodyBytes
  complete : request.bodyStatus = .complete
  read : request.body = some body
  form : ∃ fields, WellFormedForm body fields

/-- A request with no body, or with the form its one length declares. -/
def Framed (request : LayerRequest) : Prop :=
  named request "transfer-encoding" = [] ∧
    (request.method = "GET" ∧ (named request "content-length" = [] ∨
        ∃ length, named request "content-length" = [length] ∧ contentLength? length = some 0) ∨
      request.method = "POST" ∧ ∃ length body, named request "content-length" = [length] ∧
        contentLength? length = some body.length ∧ Posted request body)

end Limitmark.PublicInquiry
