import SoftwareEntitlement.CertificatePins
import SoftwareEntitlement.ReferenceRuntime
import SoftwareEntitlement.RequestHandlers

/-!
# Responses on the wire

The server writes the value of a response as JSON, and the native client
reads the entitlement, or the message of its exception, from the body it
receives.  The two JSON libraries are a parameter.
-/

namespace SoftwareEntitlement

inductive Json where
  | null
  | boolean (value : Bool)
  | number (literal : String)
  | string (value : String)
  | array (items : List Json)
  | object (members : List (String × Json))

namespace Json

def typeName : Json → String
  | .null => "null"
  | .object _ => "object"
  | .array _ => "array"
  | .string _ => "string"
  | .boolean _ => "boolean"
  | .number _ => "number"

/-- `json.at(key)`. -/
def atKey (json : Json) (key : String) : Native Json :=
  match json with
  | .object members =>
      match members.lookup key with
      | some value => .ok value
      | none => .error (.json ("[json.exception.out_of_range.403] key '" ++
          key ++ "' not found"))
  | other => .error (.json
      ("[json.exception.type_error.304] cannot use at() with " ++
        other.typeName))

/-- The implicit conversion to `std::string`. -/
def toStdString (json : Json) : Native String :=
  match json with
  | .string value => .ok value
  | other => .error (.json
      ("[json.exception.type_error.302] type must be string, but is " ++
        other.typeName))

end Json

structure JsonLibraries where
  /-- The body which ASP.NET writes for a value. -/
  write : IResponseValue → String
  writeDate : DateTimeOffset → String
  parse : String → Except String Json

/-! ## What the server writes -/

def ErrorMessage.toJson (message : ErrorMessage) : Json :=
  .object [("lang", .string message.language), ("value", .string message.value)]

/-- The JSON of a value: names in camel case unless an attribute names them,
and a null `vmid` or a default `expiry` is left out. -/
def IResponseValue.toJson (writeDate : DateTimeOffset → String) :
    IResponseValue → Json
  | .approveV1Success entitlementId virtualMachineId =>
      .object (("id", .string entitlementId) ::
        match virtualMachineId with
        | none => []
        | some virtualMachineId => [("vmid", .string virtualMachineId)])
  | .approveV2Success entitlementId expiry =>
      .object (("id", .string entitlementId) ::
        if expiry = .minValue then []
        else [("expiry", .string (writeDate expiry))])
  | .acquireSuccess entitlementId initialExpiryTime =>
      .object [("entitlementId", .string entitlementId),
        ("initialExpiryTime", .string initialExpiryTime)]
  | .renewSuccess expiryTime => .object [("expiryTime", .string expiryTime)]
  | .failure code message =>
      .object [("code", .string code), ("message", message.toJson)]

def Response.body (json : JsonLibraries) (response : Response) : String :=
  match response.value with
  | none => ""
  | some value => json.write value

/-- What the server writes, the client parses: the body contains no null
character, and denotes the JSON of the value. -/
structure JsonLibraries.RoundTrip (json : JsonLibraries) : Prop where
  parses : ∀ value,
    json.parse (json.write value) = .ok (value.toJson json.writeDate)
  noNull : ∀ value, cString (json.write value) = json.write value

/-! ## What the client reads -/

def parseResponse (json : JsonLibraries) (response : String) : Native Json :=
  match json.parse (cString response) with
  | .ok value => .ok value
  | .error message => .error (.json message)

def extractValue (json : JsonLibraries) (response key : String) :
    Native String := do
  let j ← parseResponse json response
  let value ← j.atKey key
  value.toStdString

structure Entitlement where
  id : String
  vmId : String
  deriving DecidableEq

def Entitlement.ofResponse (json : JsonLibraries) (response : String) :
    Native Entitlement := do
  let id ← extractValue json response "id"
  let vmId ← extractValue json response "vmid"
  return ⟨id, vmId⟩

def getDetailedErrorMessage (json : JsonLibraries) (response : String) :
    String :=
  match parseResponse json response with
  | .error _ => "Unknown error: HTTP Status 400 missing expected output"
  | .ok j =>
      match (do (← (← j.atKey "message").atKey "value").toStdString) with
      | .ok value => value
      | .error _ =>
          match (do (← j.atKey "code").toStdString) with
          | .ok code => code
          | .error _ => "Unknown error: HTTP Status 400 missing expected output"

def getErrorMessage (json : JsonLibraries) (response : String) (code : ℕ) :
    String :=
  match code with
  | 400 | 403 => getDetailedErrorMessage json response
  | _ => "Unexpected error: HTTP status " ++ toString code

/-- `Curl::GetEntitlement`, on a received status code and body. -/
def interpretResponse (json : JsonLibraries) (code : ℕ) (response : String) :
    Native Entitlement :=
  if code = 200 then
    Entitlement.ofResponse json response
  else
    .error (.exception (getErrorMessage json response code))

/-! ## Reference JSON libraries -/

deriving instance Encodable for ErrorMessage
deriving instance Encodable for IResponseValue

/-- Libraries which write the number of a value, in unary. -/
def JsonLibraries.reference : JsonLibraries where
  write value := String.ofList (List.replicate (Encodable.encode value) 'x')
  writeDate instant := toString instant.ticks
  parse text :=
    match (Encodable.decode text.length : Option IResponseValue) with
    | none => .error "[json.exception.parse_error.101] parse error"
    | some value => .ok (value.toJson fun instant => toString instant.ticks)

theorem roundTrip_reference : JsonLibraries.reference.RoundTrip where
  parses value := by simp [JsonLibraries.reference]
  noNull value := by simp [JsonLibraries.reference, cString]

end SoftwareEntitlement
