import SoftwareEntitlement.EntitlementStore
import SoftwareEntitlement.TokenVerification

/-!
# Request handlers

One handler for each kind of request.  A handler is a LINQ query over results
whose error is the response to send, evaluated from top to bottom; its clauses
may read the clock, draw an identifier, access the store, or throw.
-/

namespace SoftwareEntitlement

open Interleaving

/-! ## Requests and responses -/

structure IVerificationRequestBody where
  token : Option String
  applicationId : Option String

structure ApproveRequestBody extends IVerificationRequestBody

structure AcquireRequestBody extends IVerificationRequestBody where
  duration : Option String

structure RenewRequestBody where
  duration : Option String

structure ErrorMessage where
  language : String := "en-us"
  value : String
  deriving DecidableEq

inductive IResponseValue where
  | approveV1Success (entitlementId : String) (virtualMachineId : Option String)
  | approveV2Success (entitlementId : String) (expiry : DateTimeOffset)
  | acquireSuccess (entitlementId initialExpiryTime : String)
  | renewSuccess (expiryTime : String)
  | failure (code : String) (message : ErrorMessage)
  deriving DecidableEq

structure Response where
  statusCode : ℕ
  value : Option IResponseValue
  deriving DecidableEq

def Response.createSuccess (value : IResponseValue) : Response :=
  ⟨200, some value⟩

section RequestHandlerBase

def createBadRequestResponse (errors : ErrorSet) : Response :=
  ⟨400, some (.failure "EntitlementDenied" { value := errors.joined })⟩

def createDeniedResponse (_errors : ErrorSet) (applicationId : String) :
    Response :=
  ⟨403, some (.failure "EntitlementDenied"
    { value := "Entitlement for " ++ applicationId ++ " was denied." })⟩

def createNotFoundResponse (entitlementId : String) : Response :=
  ⟨404, some (.failure "NotFound"
    { value := "Entitlement " ++ entitlementId ++ " was not found." })⟩

def createAlreadyReleasedResponse (entitlementId : String) : Response :=
  ⟨409, some (.failure "AlreadyReleased"
    { value := "Entitlement " ++ entitlementId ++ " is already released" })⟩

def createInternalErrorResponse (errors : ErrorSet) : Response :=
  ⟨500, some (.failure "InternalServerError" { value := errors.joined })⟩

end RequestHandlerBase

/-! ## Clauses shared by the handlers -/

/-- What the handlers are constructed with, the store apart. -/
structure Services where
  runtime : Runtime
  tokenPropertyParser : ITokenPropertyParser

def Handling.ofThrows {α : Type} (outcome : Throws α) : Handling α :=
  ExceptT.mk (.done outcome)

def parseDuration (runtime : Runtime) (duration : Option String) :
    Throws (Result TimeSpan ErrorSet) :=
  match duration with
  | none => .ok (.error (.create "Value for duration was not specified."))
  | some duration =>
      if duration == "" then
        .ok (.error (.create "Value for duration was not specified."))
      else
        match runtime.toTimeSpan duration with
        | .ok timeSpan => .ok (.ok timeSpan)
        | .error (.format message) =>
            .ok (.error (.create
              ("Unable to parse duration " ++ duration ++ ": " ++ message)))
        | .error .overflow => .error .overflow

theorem parseDuration_cases (runtime : Runtime) (duration : Option String) :
    (∃ text timeSpan, duration = some text ∧ text ≠ "" ∧
      runtime.toTimeSpan text = .ok timeSpan ∧
        parseDuration runtime duration = .ok (.ok timeSpan)) ∨
    (∃ text, duration = some text ∧ text ≠ "" ∧
      runtime.toTimeSpan text = .error .overflow ∧
        parseDuration runtime duration = .error .overflow) ∨
    (∃ errors, parseDuration runtime duration = .ok (.error errors) ∧
      ∀ text, duration = some text → text ≠ "" →
        ∃ message, runtime.toTimeSpan text = .error (.format message)) := by
  cases duration with
  | none => exact .inr (.inr ⟨_, rfl, by simp⟩)
  | some text =>
      by_cases hempty : text = ""
      · refine .inr (.inr ⟨_, by simp [parseDuration, hempty]; rfl, ?_⟩)
        intro other hother hne
        obtain rfl := Option.some.inj hother
        exact absurd hempty hne
      · rcases hparsed : runtime.toTimeSpan text with (message | _) | timeSpan
        · refine .inr (.inr ⟨_, by simp [parseDuration, hempty, hparsed]; rfl, ?_⟩)
          intro other hother _
          obtain rfl := Option.some.inj hother
          exact ⟨message, hparsed⟩
        · exact .inr (.inl ⟨text, rfl, hempty, hparsed,
            by simp [parseDuration, hempty, hparsed]⟩)
        · exact .inl ⟨text, timeSpan, rfl, hempty, hparsed,
            by simp [parseDuration, hempty, hparsed]⟩

def extractVerificationRequest (requestBody : Option IVerificationRequestBody)
    (remoteAddress : IPAddress) :
    Result (TokenVerificationRequest × String) ErrorSet :=
  match requestBody with
  | none =>
      .error (.create "Missing request body from software entitlement request.")
  | some body =>
      if isNullOrEmpty body.token then
        .error (.create "Missing token from software entitlement request.")
      else if isNullOrEmpty body.applicationId then
        .error (.create
          "Missing applicationId value from software entitlement request.")
      else
        .ok (⟨body.applicationId.getD "", remoteAddress⟩, body.token.getD "")

/-- A query whose failures are responses. -/
abbrev Query := ExceptT Response Handling

def Query.ofOutcome {α : Type} (outcome : Throws (Result α Response)) :
    Query α :=
  ExceptT.mk (Handling.ofThrows outcome)

/-- `Merge` of a query. -/
def Query.merge (query : Query Response) : Handling Response :=
  Result.merge <$> query.run

section Clauses

variable (services : Services)

def parseDurationClause (duration : Option (Option String)) : Query TimeSpan :=
  Query.ofOutcome do
    match duration with
    | none => throw .nullReference
    | some duration =>
        let timeSpan ← parseDuration services.runtime duration
        return timeSpan.onError createBadRequestResponse

def extractVerificationRequestClause (body : Option IVerificationRequestBody)
    (remoteIpAddress : IPAddress) : Query (TokenVerificationRequest × String) :=
  Query.ofOutcome (.ok ((extractVerificationRequest body remoteIpAddress).onError
    createBadRequestResponse))

def verifyClause (verification : TokenVerificationRequest) (token : String) :
    Query EntitlementTokenProperties := do
  let now ← request .validationTime
  Query.ofOutcome do
    let verified ← TokenVerifier.verify services.runtime
      services.tokenPropertyParser now verification token
    return verified.onError fun errors =>
      createDeniedResponse errors verification.applicationId

def findEntitlementClause (entitlementId : String) :
    Query EntitlementProperties :=
  ExceptT.mk do
    let found ← EntitlementStore.findEntitlement entitlementId
    return found.onError fun _ => createNotFoundResponse entitlementId

/-- `where NotReleased(...)`. -/
def notReleasedClause (entitlementProperties : EntitlementProperties) :
    Query Unit :=
  Query.ofOutcome <| .ok <|
    match asPredicateFailure entitlementProperties.isReleased
        (createAlreadyReleasedResponse entitlementProperties.entitlementId) with
    | .success => .ok ()
    | .failure response => .error response

/-- `let expiry = instant.Add(duration)`. -/
def addClause (instant : DateTimeOffset) (duration : TimeSpan) :
    Query DateTimeOffset :=
  Query.ofOutcome (.ok <$> instant.add duration)

end Clauses

/-! ## The handlers -/

section Handlers

variable (services : Services)

def ApproveV1RequestHandler.handle (remoteIpAddress : IPAddress)
    (requestContext : Option ApproveRequestBody) : Handling Response :=
  Query.merge do
    let (verification, token) ← extractVerificationRequestClause
      (requestContext.map ApproveRequestBody.toIVerificationRequestBody)
      remoteIpAddress
    let props ← verifyClause services verification token
    let guid ← request .newGuid
    return .createSuccess (.approveV1Success
      ("entitlement-" ++ guid.toString) props.virtualMachineId)

def ApproveV2RequestHandler.handle (remoteIpAddress : IPAddress)
    (requestContext : Option ApproveRequestBody) : Handling Response :=
  Query.merge do
    let (verification, token) ← extractVerificationRequestClause
      (requestContext.map ApproveRequestBody.toIVerificationRequestBody)
      remoteIpAddress
    let props ← verifyClause services verification token
    let guid ← request .newGuid
    return .createSuccess (.approveV2Success
      ("entitlement-" ++ guid.toString) props.notAfter)

def AcquireRequestHandler.handle (remoteIpAddress : IPAddress)
    (requestContext : Option AcquireRequestBody) : Handling Response :=
  Query.merge do
    let duration ← parseDurationClause services
      (requestContext.map AcquireRequestBody.duration)
    let (verification, token) ← extractVerificationRequestClause
      (requestContext.map AcquireRequestBody.toIVerificationRequestBody)
      remoteIpAddress
    let tokenProperties ← verifyClause services verification token
    let guid ← request .newGuid
    let entitlementId := guid.toStringN
    let acquisitionTime ← request .utcNow
    let expiry ← addClause acquisitionTime duration
    let _ ← EntitlementStore.storeEntitlement entitlementId tokenProperties
      acquisitionTime
    return .createSuccess (.acquireSuccess entitlementId
      (services.runtime.formatRoundtrip expiry))

def RenewRequestHandler.handle (requestContext : Option RenewRequestBody)
    (entitlementId : String) : Handling Response :=
  Query.merge do
    let duration ← parseDurationClause services
      (requestContext.map RenewRequestBody.duration)
    let foundEntitlement ← findEntitlementClause entitlementId
    notReleasedClause foundEntitlement
    let renewalTime ← request .utcNow
    let expiry ← addClause renewalTime duration
    let _ ← ExceptT.mk do
      let renewed ← EntitlementStore.renewEntitlement entitlementId renewalTime
      return renewed.onError createInternalErrorResponse
    return .createSuccess (.renewSuccess
      (services.runtime.formatRoundtrip expiry))

def ReleaseRequestHandler.handle (requestContext : String) :
    Handling Response :=
  Query.merge do
    let entitlementId := requestContext
    let _ ← findEntitlementClause entitlementId
    let releaseTime ← request .utcNow
    let _ ← ExceptT.mk do
      let released ←
        EntitlementStore.releaseEntitlement entitlementId releaseTime
      return released.onError createInternalErrorResponse
    return ⟨204, none⟩

end Handlers

end SoftwareEntitlement
