import SoftwareEntitlement.NativeClient

/-!
# The contract of the native client on a response

The header promises an `Entitlement` object or an `Exception`.  The error path
catches what the JSON library throws; the path of a 200 response does not.
-/

namespace SoftwareEntitlement

open TracedOutcome

/-- An `Exception` of the client library, or of a class derived from it. -/
def NativeException.IsException : NativeException → Prop
  | .exception _ => True
  | .curlException _ _ => True
  | .json _ => False
  | .system _ _ => False

/-- The body, which is read up to its first null character, is a JSON object in
which the key has the given string. -/
def HasString (json : JsonLibraries) (body key value : String) : Prop :=
  ∃ members, json.parse (cString body) = .ok (.object members) ∧
    members.lookup key = some (.string value)

/-- Either an entitlement with what a 200 response says, or an `Exception`. -/
def InContract (json : JsonLibraries) (code : ℕ) (body : String)
    (outcome : Native Entitlement) : Prop :=
  match outcome with
  | .ok entitlement => code = 200 ∧ HasString json body "id" entitlement.id ∧
      HasString json body "vmid" entitlement.vmId
  | .error exception => exception.IsException

section Values

variable {json : JsonLibraries} {body key : String}

theorem Json.toStdString_atKey {value : Json} {text : String} :
    (value.atKey key >>= Json.toStdString) = .ok text ↔
      ∃ members, value = .object members ∧
        members.lookup key = some (.string text) := by
  cases value with
  | object members =>
      cases hlookup : members.lookup key with
      | none => simp [Json.atKey, hlookup, bind, Except.bind]
      | some member =>
          cases member <;>
            simp [Json.atKey, hlookup, Json.toStdString, bind, Except.bind]
  | _ => simp [Json.atKey, bind, Except.bind]

theorem Json.toStdString_atKey_cases (value : Json) (key : String) :
    (∃ text, (value.atKey key >>= Json.toStdString) = .ok text) ∨
      ∃ message, (value.atKey key >>= Json.toStdString) =
        .error (.json message) := by
  cases value with
  | object members =>
      cases hlookup : members.lookup key with
      | none =>
          exact .inr ⟨_, by simp [Json.atKey, hlookup, bind, Except.bind]; rfl⟩
      | some member =>
          cases member with
          | string text =>
              exact .inl ⟨text, by simp [Json.atKey, hlookup, Json.toStdString,
                bind, Except.bind]⟩
          | _ =>
              exact .inr ⟨_, by simp [Json.atKey, hlookup, Json.toStdString,
                bind, Except.bind]; rfl⟩
  | _ => exact .inr ⟨_, rfl⟩

theorem extractValue_of_parse {parsed : Json}
    (hparse : json.parse (cString body) = .ok parsed) :
    extractValue json body key = (parsed.atKey key >>= Json.toStdString) := by
  unfold extractValue parseResponse
  rw [hparse]
  rfl

theorem extractValue_eq_ok_iff {value : String} :
    extractValue json body key = .ok value ↔ HasString json body key value := by
  cases hparse : json.parse (cString body) with
  | error message =>
      simp [extractValue, parseResponse, HasString, hparse, bind, Except.bind]
  | ok parsed =>
      rw [extractValue_of_parse hparse, Json.toStdString_atKey]
      simp [HasString, hparse]

theorem extractValue_cases (json : JsonLibraries) (body key : String) :
    (∃ value, HasString json body key value ∧
      extractValue json body key = .ok value) ∨
    ((¬∃ value, HasString json body key value) ∧
      ∃ message, extractValue json body key = .error (.json message)) := by
  have houtcome : (∃ value, extractValue json body key = .ok value) ∨
      ∃ message, extractValue json body key = .error (.json message) := by
    cases hparse : json.parse (cString body) with
    | error message =>
        exact .inr ⟨message, by
          simp [extractValue, parseResponse, hparse, bind, Except.bind]⟩
    | ok parsed =>
        rw [extractValue_of_parse hparse]
        exact parsed.toStdString_atKey_cases key
  rcases houtcome with ⟨value, hvalue⟩ | ⟨message, hmessage⟩
  · exact .inl ⟨value, extractValue_eq_ok_iff.mp hvalue, hvalue⟩
  · refine .inr ⟨?_, message, hmessage⟩
    rintro ⟨value, hvalue⟩
    rw [extractValue_eq_ok_iff.mpr hvalue] at hmessage
    cases hmessage

end Values

section Responses

variable {json : JsonLibraries} {body : String}

theorem ofResponse_inContract_iff :
    InContract json 200 body (Entitlement.ofResponse json body) ↔
      (∃ id, HasString json body "id" id) ∧
        ∃ vmId, HasString json body "vmid" vmId := by
  unfold Entitlement.ofResponse
  rcases extractValue_cases json body "id" with
    ⟨id, hid, hextracted⟩ | ⟨hnone, message, hextracted⟩
  · rcases extractValue_cases json body "vmid" with
      ⟨vmId, hvmId, hextractedVm⟩ | ⟨hnoneVm, message, hextractedVm⟩
    · rw [hextracted, hextractedVm]
      exact iff_of_true ⟨rfl, hid, hvmId⟩ ⟨⟨id, hid⟩, ⟨vmId, hvmId⟩⟩
    · rw [hextracted, hextractedVm]
      exact iff_of_false (fun h => h) fun hvalues => hnoneVm hvalues.2
  · rw [hextracted]
    exact iff_of_false (fun h => h) fun hvalues => hnone hvalues.1

theorem interpretResponse_inContract_iff {code : ℕ} :
    InContract json code body (interpretResponse json code body) ↔
      (code = 200 → (∃ id, HasString json body "id" id) ∧
        ∃ vmId, HasString json body "vmid" vmId) := by
  unfold interpretResponse
  by_cases hcode : code = 200
  · simp only [hcode, if_true, forall_const]
    exact ofResponse_inContract_iff
  · simp only [hcode, if_false, false_imp_iff, iff_true]
    exact trivial

/-- Something other than an `Exception` escapes exactly where a 200 response
lacks one of the two strings. -/
theorem readEntitlement_inContract_iff (exchange : Exchange)
    (json : JsonLibraries) :
    InContract json exchange.responseCode.value exchange.response
        (Curl.readEntitlement exchange json).outcome ↔
      (exchange.responseCode.code = 0 → exchange.responseCode.value = 200 →
        (∃ id, HasString json exchange.response "id" id) ∧
          ∃ vmId, HasString json exchange.response "vmid" vmId) := by
  unfold Curl.readEntitlement Curl.throwIfCurlError
  by_cases hcode : exchange.responseCode.code = 0
  · simp only [hcode, if_true, forall_const, Traced.pure_bind]
    exact interpretResponse_inContract_iff
  · simp only [hcode, if_false, false_imp_iff, iff_true, Traced.fail_bind]
    exact trivial

end Responses

/-! ## An empty body -/

/-- The reference libraries, which refuse an empty text. -/
def JsonLibraries.refusingEmpty : JsonLibraries :=
  { JsonLibraries.reference with
    parse := fun text =>
      if text = "" then
        .error "[json.exception.parse_error.101] unexpected end of input"
      else JsonLibraries.reference.parse text }

/-- A response with status 200 and an empty body, after which libcurl reports
no error. -/
def emptyResponse : Exchange where
  initialised := true
  options := []
  setUrl := 0
  headersAllocated := true
  setHeaders := 0
  setBody := 0
  sendsBody := true
  performed := 0
  errorBuffer := ""
  certInfo := ⟨0, []⟩
  responseCode := ⟨0, 200⟩
  response := ""
  rootCerts := .ok ()

theorem not_inContract_emptyResponse :
    (Curl.readEntitlement emptyResponse .refusingEmpty).outcome =
        .error (.json
          "[json.exception.parse_error.101] unexpected end of input") ∧
      ¬InContract .refusingEmpty emptyResponse.responseCode.value
        emptyResponse.response
        (Curl.readEntitlement emptyResponse .refusingEmpty).outcome := by
  have houtcome : (Curl.readEntitlement emptyResponse .refusingEmpty).outcome =
      .error (.json
        "[json.exception.parse_error.101] unexpected end of input") := rfl
  refine ⟨houtcome, ?_⟩
  rw [houtcome]
  exact fun hcontract => hcontract

end SoftwareEntitlement
