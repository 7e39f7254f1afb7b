import SoftwareEntitlement.Authorization
import SoftwareEntitlement.IssuedTokens
import SoftwareEntitlement.NativeResponses
import SoftwareEntitlement.QueryEvaluation

/-!
# The native client against the V1 server

The server leaves `vmid` out of an approval when the token has none, and the
client reads it from every approval.  The message of a refusal becomes that of
an exception, which can be read up to its first null character.
-/

namespace SoftwareEntitlement

open Interleaving

def receive (json : JsonLibraries) (response : Response) : Native Entitlement :=
  interpretResponse json response.statusCode (response.body json)

/-- The client interprets the response to a request as the server means it. -/
structure AgreesOnWire (json : JsonLibraries) (services : Services)
    (now : DateTimeOffset) (remoteIpAddress : IPAddress)
    (body : Option IVerificationRequestBody) (response : Response) : Prop where
  approved : response.statusCode = 200 →
    ∃ verification token properties entitlementId entitlement,
      extractVerificationRequest body remoteIpAddress =
          .ok (verification, token) ∧
        services.tokenPropertyParser now token = .ok (.ok properties) ∧
        response.value = some (.approveV1Success entitlementId
          properties.virtualMachineId) ∧
        receive json response = .ok entitlement ∧
        entitlement.id = entitlementId ∧
        ∀ virtualMachineId,
          properties.virtualMachineId = some virtualMachineId →
            entitlement.vmId = virtualMachineId
  refused : response.statusCode = 400 ∨ response.statusCode = 403 →
    ∃ code message thrown, response.value = some (.failure code message) ∧
      receive json response = .error (.exception thrown) ∧
        (NativeException.exception thrown).what = message.value

section Receiving

variable {json : JsonLibraries} {response : Response}

theorem parseResponse_write (hjson : json.RoundTrip) (value : IResponseValue) :
    parseResponse json (json.write value) = .ok (value.toJson json.writeDate) := by
  simp [parseResponse, hjson.noNull, hjson.parses]

theorem receive_failure (hjson : json.RoundTrip) {code : String}
    {message : ErrorMessage}
    (hstatus : response.statusCode = 400 ∨ response.statusCode = 403)
    (hvalue : response.value = some (.failure code message)) :
    receive json response = .error (.exception message.value) := by
  have hdetailed : getDetailedErrorMessage json (response.body json) =
      message.value := by
    simp [getDetailedErrorMessage, Response.body, hvalue,
      parseResponse_write hjson, IResponseValue.toJson, ErrorMessage.toJson,
      Json.atKey, Json.toStdString, List.lookup_cons, bind, Except.bind]
  rcases hstatus with hstatus | hstatus <;>
    simp [receive, interpretResponse, getErrorMessage, hstatus, hdetailed]

theorem receive_approval (hjson : json.RoundTrip)
    {entitlementId virtualMachineId : String}
    (hstatus : response.statusCode = 200)
    (hvalue : response.value =
      some (.approveV1Success entitlementId (some virtualMachineId))) :
    receive json response = .ok ⟨entitlementId, virtualMachineId⟩ := by
  simp [receive, interpretResponse, hstatus, Entitlement.ofResponse,
    extractValue, Response.body, hvalue, parseResponse_write hjson,
    IResponseValue.toJson, Json.atKey, Json.toStdString, List.lookup_cons, bind,
    Except.bind, pure, Except.pure]

theorem receive_approval_withoutVmId (hjson : json.RoundTrip)
    {entitlementId : String} (hstatus : response.statusCode = 200)
    (hvalue : response.value = some (.approveV1Success entitlementId none)) :
    ∃ message, receive json response = .error (.json message) := by
  simp [receive, interpretResponse, hstatus, Entitlement.ofResponse,
    extractValue, Response.body, hvalue, parseResponse_write hjson,
    IResponseValue.toJson, Json.atKey, Json.toStdString, List.lookup_cons, bind,
    Except.bind]

variable {services : Services} {now : DateTimeOffset}
  {remoteIpAddress : IPAddress} {body : Option IVerificationRequestBody}

theorem agreesOnWire_failure_iff (hjson : json.RoundTrip) {code : String}
    {message : ErrorMessage}
    (hstatus : response.statusCode = 400 ∨ response.statusCode = 403)
    (hvalue : response.value = some (.failure code message)) :
    AgreesOnWire json services now remoteIpAddress body response ↔
      ¬HasNull message.value := by
  have hthrows := receive_failure hjson hstatus hvalue
  constructor
  · intro hagrees
    obtain ⟨_, sent, thrown, hsent, hthrown, hwhat⟩ := hagrees.refused hstatus
    obtain ⟨-, rfl⟩ : code = _ ∧ message = sent := by
      simpa using hvalue.symm.trans hsent
    obtain rfl : message.value = thrown := by
      simpa using hthrows.symm.trans hthrown
    exact cString_eq_self_iff.mp hwhat
  · intro hwhole
    refine ⟨fun happroved => ?_, fun _ => ⟨code, message, message.value, hvalue,
      hthrows, cString_eq_self_iff.mpr hwhole⟩⟩
    omega

/-- A request without a token or an application is refused with a text of its
own. -/
theorem not_hasNull_badRequest {errors : ErrorSet}
    (hextract : extractVerificationRequest body remoteIpAddress =
      .error errors) : ¬HasNull errors.joined := by
  unfold extractVerificationRequest at hextract
  repeat' split at hextract
  all_goals
    cases hextract
    try decide

theorem agreesOnWire_badRequest (hjson : json.RoundTrip) {errors : ErrorSet}
    (hextract : extractVerificationRequest body remoteIpAddress =
      .error errors) :
    AgreesOnWire json services now remoteIpAddress body
      (createBadRequestResponse errors) := by
  have hwhole := not_hasNull_badRequest hextract
  rwa [agreesOnWire_failure_iff hjson (.inl rfl) rfl]

theorem hasNull_denied_iff {applicationId : String} :
    HasNull ("Entitlement for " ++ applicationId ++ " was denied.") ↔
      HasNull applicationId := by
  have hbefore : ¬HasNull "Entitlement for " := by decide
  have hafter : ¬HasNull " was denied." := by decide
  simp only [hasNull_append, hbefore, hafter, false_or, or_false]

theorem agreesOnWire_denied_iff (hjson : json.RoundTrip) {errors : ErrorSet}
    {applicationId : String} :
    AgreesOnWire json services now remoteIpAddress body
        (createDeniedResponse errors applicationId) ↔
      ¬HasNull applicationId := by
  rw [agreesOnWire_failure_iff hjson (.inr rfl) rfl]
  exact not_congr hasNull_denied_iff

theorem agreesOnWire_approval_iff (hjson : json.RoundTrip)
    {verification : TokenVerificationRequest} {token entitlementId : String}
    {properties : EntitlementTokenProperties}
    (hextract : extractVerificationRequest body remoteIpAddress =
      .ok (verification, token))
    (hparse : services.tokenPropertyParser now token = .ok (.ok properties)) :
    AgreesOnWire json services now remoteIpAddress body
        (.createSuccess
          (.approveV1Success entitlementId properties.virtualMachineId)) ↔
      properties.virtualMachineId.isSome = true := by
  constructor
  · intro hagrees
    obtain ⟨_, _, _, _, entitlement, -, -, -, hreceive, -⟩ :=
      hagrees.approved rfl
    cases hvmId : properties.virtualMachineId with
    | some virtualMachineId => rfl
    | none =>
        rw [hvmId] at hreceive
        have happroval : (Response.createSuccess
            (.approveV1Success entitlementId none)).statusCode = 200 := rfl
        obtain ⟨message, hthrows⟩ :=
          receive_approval_withoutVmId hjson happroval rfl
        rw [hthrows] at hreceive
        cases hreceive
  · intro hvmId
    obtain ⟨virtualMachineId, hvmId⟩ := Option.isSome_iff_exists.mp hvmId
    refine ⟨fun _ => ?_, fun hrefused => ?_⟩
    · refine ⟨verification, token, properties, entitlementId,
        ⟨entitlementId, virtualMachineId⟩, hextract, hparse, rfl, ?_, rfl, ?_⟩
      · exact receive_approval hjson rfl (by rw [hvmId]; rfl)
      · intro other hother
        exact Option.some.inj (hvmId.symm.trans hother)
    · simp [Response.createSuccess] at hrefused

end Receiving

/-- Whatever the server answers to an approval request, the client interprets
it as the server means it. -/
def AgreesOnRequest (json : JsonLibraries) (services : Services)
    (answer : (access : Access) → Reply access) (remoteIpAddress : IPAddress)
    (body : Option ApproveRequestBody) : Prop :=
  ∀ response,
    (ApproveV1RequestHandler.handle services remoteIpAddress body).outcome
        answer = .ok response →
      AgreesOnWire json services (answer .validationTime) remoteIpAddress
        (body.map ApproveRequestBody.toIVerificationRequestBody) response

theorem isSome_of_agreesOnRequest {json : JsonLibraries} {services : Services}
    {answer : (access : Access) → Reply access} {remoteIpAddress : IPAddress}
    {body : Option ApproveRequestBody} (hjson : json.RoundTrip)
    (hagrees : AgreesOnRequest json services answer remoteIpAddress body)
    {verification : TokenVerificationRequest} {token : String}
    {properties : EntitlementTokenProperties}
    (hextract : extractVerificationRequest
      (body.map ApproveRequestBody.toIVerificationRequestBody)
      remoteIpAddress = .ok (verification, token))
    (hverify : TokenVerifier.verify services.runtime
      services.tokenPropertyParser (answer .validationTime) verification token =
        .ok (.ok properties)) :
    properties.virtualMachineId.isSome = true := by
  obtain ⟨hparse, -⟩ :=
    (TokenVerifier.verify_eq_ok_iff services.runtime).mp hverify
  have happroval := hagrees (.createSuccess (.approveV1Success
    ("entitlement-" ++ (answer .newGuid).toString)
    properties.virtualMachineId)) (by
      rw [ApproveV1RequestHandler.outcome_handle]
      simp [tokenDecision, decideToken, hextract, hverify])
  exact (agreesOnWire_approval_iff hjson hextract hparse).mp happroval

theorem not_hasNull_of_agreesOnRequest {json : JsonLibraries}
    {services : Services} {answer : (access : Access) → Reply access}
    {remoteIpAddress : IPAddress} {body : Option ApproveRequestBody}
    (hjson : json.RoundTrip)
    (hagrees : AgreesOnRequest json services answer remoteIpAddress body)
    {verification : TokenVerificationRequest} {token : String}
    {errors : ErrorSet}
    (hextract : extractVerificationRequest
      (body.map ApproveRequestBody.toIVerificationRequestBody)
      remoteIpAddress = .ok (verification, token))
    (hverify : TokenVerifier.verify services.runtime
      services.tokenPropertyParser (answer .validationTime) verification token =
        .ok (.error errors)) :
    ¬HasNull verification.applicationId := by
  have hrefusal := hagrees
    (createDeniedResponse errors verification.applicationId) (by
      rw [ApproveV1RequestHandler.outcome_handle]
      simp [tokenDecision, decideToken, hextract, hverify])
  exact (agreesOnWire_denied_iff hjson).mp hrefusal

/-- The exact condition under which the two sides agree: an approved token has
a virtual machine identifier, and what is denied has no null character. -/
theorem agreesOnRequest_iff (json : JsonLibraries) (services : Services)
    (answer : (access : Access) → Reply access) (remoteIpAddress : IPAddress)
    (body : Option ApproveRequestBody) (hjson : json.RoundTrip) :
    AgreesOnRequest json services answer remoteIpAddress body ↔
      ∀ verification token,
        extractVerificationRequest
            (body.map ApproveRequestBody.toIVerificationRequestBody)
            remoteIpAddress = .ok (verification, token) →
          (∀ properties,
            TokenVerifier.verify services.runtime services.tokenPropertyParser
                (answer .validationTime) verification token =
              .ok (.ok properties) →
              properties.virtualMachineId.isSome = true) ∧
          ∀ errors,
            TokenVerifier.verify services.runtime services.tokenPropertyParser
                (answer .validationTime) verification token =
              .ok (.error errors) →
              ¬HasNull verification.applicationId := by
  constructor
  · intro hagrees verification token hextract
    exact ⟨fun properties hverify =>
        isSome_of_agreesOnRequest hjson hagrees hextract hverify,
      fun errors hverify =>
        not_hasNull_of_agreesOnRequest hjson hagrees hextract hverify⟩
  · intro hcondition response hresponse
    rw [ApproveV1RequestHandler.outcome_handle] at hresponse
    unfold tokenDecision decideToken at hresponse
    cases hextract : extractVerificationRequest
        (body.map ApproveRequestBody.toIVerificationRequestBody)
        remoteIpAddress with
    | error errors =>
        simp only [hextract, Except.ok.injEq] at hresponse
        subst hresponse
        exact agreesOnWire_badRequest hjson hextract
    | ok extracted =>
        obtain ⟨verification, token⟩ := extracted
        obtain ⟨happroved, hdenied⟩ := hcondition verification token hextract
        rcases hverify : TokenVerifier.verify services.runtime
            services.tokenPropertyParser (answer .validationTime) verification
            token with exception | (errors | properties)
        · simp [hextract, hverify] at hresponse
        · simp only [hextract, hverify, Except.ok.injEq] at hresponse
          subst hresponse
          exact (agreesOnWire_denied_iff hjson).mpr (hdenied errors hverify)
        · simp only [hextract, hverify, Except.ok.injEq] at hresponse
          subst hresponse
          obtain ⟨hparse, -⟩ :=
            (TokenVerifier.verify_eq_ok_iff services.runtime).mp hverify
          exact (agreesOnWire_approval_iff hjson hextract hparse).mpr
            (happroved properties hverify)

/-! ## Tokens with and without a virtual machine -/

def defaultParser : JwtPropertyParser :=
  ⟨some defaultAudience, some defaultIssuer, none, none⟩

/-- The request which presents a token for the issued application. -/
def issuedBody (token : String) : ApproveRequestBody :=
  ⟨some token, some issuedRequest.applicationId⟩

theorem extract_issuedBody {token : String} (htoken : token ≠ "") :
    extractVerificationRequest
        (some (issuedBody token).toIVerificationRequestBody)
        issuedRequest.ipAddress = .ok (issuedRequest, token) := by
  simp [extractVerificationRequest, issuedBody, issuedRequest, isNullOrEmpty,
    htoken]

/-- A token for the default parser, which it accepts and verifies. -/
theorem exists_issued_default (virtualMachineId : Option String) :
    ∃ token parsed,
      TokenGenerator.generate .reference .reference ⟨none, none⟩
          (defaultParser.issuedProperties virtualMachineId) = .ok token ∧
        token ≠ "" ∧ parsed.virtualMachineId = nullIfEmpty virtualMachineId ∧
        TokenVerifier.verify .reference
          (defaultParser.parse .reference .reference) referenceMoment
          issuedRequest token = .ok (.ok parsed) := by
  have hkeys : TokenGenerator.MatchedBy .reference ⟨none, none⟩
      defaultParser := by
    refine ⟨fun _ => rfl, ?_, ?_⟩ <;> rintro key ⟨⟩
  obtain ⟨token, parsed, hgenerate, -, hvmId, hverify⟩ := exists_issued
    separatesClaimTypes_reference parsesAddresses_reference
    JwtReference.transportsTokens hkeys (by decide) (by decide)
    virtualMachineId
  refine ⟨token, parsed, hgenerate, ?_, hvmId, hverify⟩
  rintro rfl
  have hparts := JwtReference.transportsTokens.encrypts _ _ hgenerate
  simp [tokenParts, TokenGenerator.descriptor] at hparts

theorem agreesOnRequest_virtualMachine :
    ∃ token,
      TokenGenerator.generate .reference .reference ⟨none, none⟩
          (defaultParser.issuedProperties (some "vm")) = .ok token ∧
        AgreesOnRequest .reference
          (defaultParser.services .reference .reference) firstAnswers
          issuedRequest.ipAddress (some (issuedBody token)) := by
  obtain ⟨token, parsed, hgenerate, htoken, hvmId, hverify⟩ :=
    exists_issued_default (some "vm")
  refine ⟨token, hgenerate, (agreesOnRequest_iff _ _ _ _ _
    roundTrip_reference).mpr ?_⟩
  intro verification presented hextract
  obtain ⟨rfl, rfl⟩ := Prod.mk.inj
    (Except.ok.inj ((extract_issuedBody htoken).symm.trans hextract))
  refine ⟨fun properties hverified => ?_, fun errors hverified => ?_⟩
  · have hsame := hverify.symm.trans hverified
    obtain rfl : parsed = properties := by simpa using hsame
    rw [hvmId]
    rfl
  · cases hverify.symm.trans hverified

/-- A token which is issued without a virtual machine is approved, and the
client fails on the approval. -/
theorem not_agreesOnRequest_withoutVirtualMachine :
    ∃ token,
      TokenGenerator.generate .reference .reference ⟨none, none⟩
          (defaultParser.issuedProperties none) = .ok token ∧
        ¬AgreesOnRequest .reference
          (defaultParser.services .reference .reference) firstAnswers
          issuedRequest.ipAddress (some (issuedBody token)) := by
  obtain ⟨token, parsed, hgenerate, htoken, hvmId, hverify⟩ :=
    exists_issued_default none
  refine ⟨token, hgenerate, fun hagrees => ?_⟩
  have hsome := isSome_of_agreesOnRequest roundTrip_reference hagrees
    (extract_issuedBody htoken) hverify
  rw [hvmId] at hsome
  cases hsome

end SoftwareEntitlement
