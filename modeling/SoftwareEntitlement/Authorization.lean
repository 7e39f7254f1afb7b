import SoftwareEntitlement.JwtReference
import SoftwareEntitlement.QueryEvaluation
import SoftwareEntitlement.ReferenceRuntime
import SoftwareEntitlement.TokenParsing

/-!
# The authorization decision

The three kinds of request which present a token are answered by one
decision, and the decision is a property of the validated token: its claims,
its audiences and its issue time.
-/

namespace SoftwareEntitlement

open Interleaving

/-- The claims of a token which have a type, in order.  Claim types are
compared as the platform compares them. -/
def JwtSecurityToken.claimsOfType (runtime : Runtime) (jwt : JwtSecurityToken)
    (type : String) : List Claim :=
  jwt.claims.filter fun claim =>
    runtime.equalsOrdinalIgnoreCase claim.type type

/-- What an approval of `applicationId`, for a request from `remoteAddress`,
requires of the validated token. -/
structure JwtSecurityToken.Grants (runtime : Runtime) (jwt : JwtSecurityToken)
    (applicationId : String) (remoteAddress : IPAddress) : Prop where
  audience : ∃ audience, jwt.audiences = some [audience]
  issuedAt : jwt.iat.isSome = true
  tokenId : ∃ claim, (jwt.claimsOfType runtime claimTokenId).head? = some claim ∧
    claim.value ≠ ""
  applications : jwt.claimsOfType runtime claimApplication ≠ []
  ipAddresses : ∀ claim ∈ jwt.claimsOfType runtime claimIpAddress,
    (runtime.tryParseAddress claim.value).isSome = true
  application : ∃ claim ∈ jwt.claimsOfType runtime claimApplication,
    runtime.equalsOrdinalIgnoreCase (trim claim.value) applicationId = true
  address : ∃ claim ∈ jwt.claimsOfType runtime claimIpAddress,
    runtime.tryParseAddress claim.value = some remoteAddress

/-- The library validates the token, and the token grants the request. -/
def JwtPropertyParser.Authorises (runtime : Runtime) (library : JwtLibrary)
    (parser : JwtPropertyParser) (now : DateTimeOffset) (token : String)
    (applicationId : String) (remoteAddress : IPAddress) : Prop :=
  ∃ principal jwt,
    library.validateToken now parser.validationParameters token =
        .ok (principal, .jwt jwt) ∧
      jwt.Grants runtime applicationId remoteAddress

section Reading

variable {runtime : Runtime} {library : JwtLibrary} {parser : JwtPropertyParser}
  {now : DateTimeOffset} {token : String} {principal : ClaimsPrincipal}
  {jwt : JwtSecurityToken}

theorem readAll_eq_claimsOfType (hclaims : principal.claims = jwt.claims)
    (type : String) :
    (⟨principal, jwt⟩ : JwtPropertyProvider).readAll runtime type =
      (jwt.claimsOfType runtime type).map Claim.value := by
  simp [JwtPropertyProvider.readAll, ClaimsPrincipal.findAll, hclaims,
    JwtSecurityToken.claimsOfType]

theorem read_eq_claimsOfType (hclaims : principal.claims = jwt.claims)
    (type : String) :
    (⟨principal, jwt⟩ : JwtPropertyProvider).read runtime type =
      (jwt.claimsOfType runtime type).head?.map Claim.value := by
  simp [JwtPropertyProvider.read, ClaimsPrincipal.findFirst_eq_head?,
    ClaimsPrincipal.findAll, hclaims, JwtSecurityToken.claimsOfType]

theorem grantsApplication_iff (hclaims : principal.claims = jwt.claims)
    (applicationId : String) :
    TokenVerifier.grantsApplication runtime
        (.ofValues ((⟨principal, jwt⟩ : JwtPropertyProvider).values runtime
          library)) applicationId = true ↔
      ∃ claim ∈ jwt.claimsOfType runtime claimApplication,
        runtime.equalsOrdinalIgnoreCase (trim claim.value) applicationId =
          true := by
  simp only [TokenVerifier.grantsApplication, List.any_eq_true,
    ← ImmutableHashSet.mem_def, JwtPropertyProvider.applications_ofValues,
    ImmutableHashSet.mem_createRange, readAll_eq_claimsOfType hclaims,
    List.map_map, List.mem_map]
  constructor
  · rintro ⟨application, ⟨claim, hclaim, rfl⟩, hequal⟩
    exact ⟨claim, hclaim, hequal⟩
  · rintro ⟨claim, hclaim, hequal⟩
    exact ⟨_, ⟨claim, hclaim, rfl⟩, hequal⟩

theorem grantsAddress_iff (hclaims : principal.claims = jwt.claims)
    (remoteAddress : IPAddress) :
    TokenVerifier.grantsAddress
        (.ofValues ((⟨principal, jwt⟩ : JwtPropertyProvider).values runtime
          library)) remoteAddress = true ↔
      ∃ claim ∈ jwt.claimsOfType runtime claimIpAddress,
        runtime.tryParseAddress claim.value = some remoteAddress := by
  simp only [TokenVerifier.grantsAddress, List.any_eq_true, beq_iff_eq,
    exists_eq_right, ← ImmutableHashSet.mem_def,
    EntitlementTokenProperties.ofValues, ImmutableHashSet.mem_createRange,
    JwtPropertyProvider.values, Option.getD_some,
    readAll_eq_claimsOfType hclaims, List.mem_filterMap, List.mem_map]
  constructor
  · rintro ⟨value, ⟨claim, hclaim, rfl⟩, hparsed⟩
    exact ⟨claim, hclaim, hparsed⟩
  · rintro ⟨claim, hclaim, hparsed⟩
    exact ⟨_, ⟨claim, hclaim, rfl⟩, hparsed⟩

theorem readable_iff (hclaims : principal.claims = jwt.claims) :
    (⟨principal, jwt⟩ : JwtPropertyProvider).Readable runtime ↔
      (∃ audience, jwt.audiences = some [audience]) ∧
        jwt.iat.isSome = true ∧
        (∃ claim, (jwt.claimsOfType runtime claimTokenId).head? = some claim ∧
          claim.value ≠ "") ∧
        jwt.claimsOfType runtime claimApplication ≠ [] ∧
        ∀ claim ∈ jwt.claimsOfType runtime claimIpAddress,
          (runtime.tryParseAddress claim.value).isSome = true := by
  have htokenId : isNullOrEmpty
      ((⟨principal, jwt⟩ : JwtPropertyProvider).read runtime claimTokenId) =
        false ↔
      ∃ claim, (jwt.claimsOfType runtime claimTokenId).head? = some claim ∧
        claim.value ≠ "" := by
    rw [isNullOrEmpty_eq_false, read_eq_claimsOfType hclaims]
    simp [Option.map_eq_some_iff]
  constructor
  · rintro ⟨haudience, hissuedAt, hid, happlications, hipAddresses⟩
    rw [readAll_eq_claimsOfType hclaims] at happlications hipAddresses
    exact ⟨haudience, hissuedAt, htokenId.mp hid, by simpa using happlications,
      List.forall_mem_map.mp hipAddresses⟩
  · rintro ⟨haudience, hissuedAt, hid, happlications, hipAddresses⟩
    refine ⟨haudience, hissuedAt, htokenId.mpr hid, ?_, ?_⟩
    · simpa [readAll_eq_claimsOfType hclaims] using happlications
    · rw [readAll_eq_claimsOfType hclaims]
      exact List.forall_mem_map.mpr hipAddresses

variable (library) in
theorem grants_iff (hclaims : principal.claims = jwt.claims)
    (applicationId : String) (remoteAddress : IPAddress) :
    jwt.Grants runtime applicationId remoteAddress ↔
      (⟨principal, jwt⟩ : JwtPropertyProvider).Readable runtime ∧
        TokenVerifier.grantsApplication runtime
          (.ofValues ((⟨principal, jwt⟩ : JwtPropertyProvider).values runtime
            library)) applicationId = true ∧
        TokenVerifier.grantsAddress
          (.ofValues ((⟨principal, jwt⟩ : JwtPropertyProvider).values runtime
            library)) remoteAddress = true := by
  rw [readable_iff hclaims, grantsApplication_iff hclaims,
    grantsAddress_iff hclaims]
  constructor
  · rintro ⟨haudience, hissuedAt, hid, happlications, hipAddresses,
      happlication, haddress⟩
    exact ⟨⟨haudience, hissuedAt, hid, happlications, hipAddresses⟩,
      happlication, haddress⟩
  · rintro ⟨⟨haudience, hissuedAt, hid, happlications, hipAddresses⟩,
      happlication, haddress⟩
    exact ⟨haudience, hissuedAt, hid, happlications, hipAddresses,
      happlication, haddress⟩

end Reading

/-! ## Verification decides -/

/-- What the code relies on when it reads a validated token. -/
structure JwtLibrary.Reads (library : JwtLibrary) : Prop where
  exposesTokens : library.ExposesTokens
  reportsUtc : library.ReportsUtc
  checksParties : library.ChecksParties

section Verification

variable {runtime : Runtime} {library : JwtLibrary} {parser : JwtPropertyParser}
  {now : DateTimeOffset} {token : String} {request : TokenVerificationRequest}

theorem parse_of_readable (hlibrary : library.Reads)
    {principal : ClaimsPrincipal} {jwt : JwtSecurityToken}
    (hvalidated : library.validateToken now parser.validationParameters token =
      .ok (principal, .jwt jwt))
    (hreadable : (⟨principal, jwt⟩ : JwtPropertyProvider).Readable runtime) :
    parser.parse runtime library now token =
      .ok (.ok (.ofValues ((⟨principal, jwt⟩ : JwtPropertyProvider).values
        runtime library))) := by
  obtain ⟨hfrom, hto⟩ :=
    hlibrary.reportsUtc.lifetime _ _ _ _ _ hvalidated
  rw [JwtPropertyParser.parse_of_validated hvalidated]
  refine hreadable.build
    ⟨hfrom, hto, fun _ _ => hlibrary.reportsUtc.epochTime _⟩
    (hlibrary.exposesTokens.issuer _ _ _ _ _ hvalidated) ?_
  intro audience haudience
  obtain ⟨valid, audiences, -, hne, haudiences, hmem⟩ :=
    hlibrary.checksParties.audience _ _ _ _ _ hvalidated rfl
  obtain rfl : audiences = [audience] :=
    Option.some.inj (haudiences.symm.trans haudience)
  rwa [List.mem_singleton.mp hmem] at hne

theorem parse_of_not_readable (hlibrary : library.Reads)
    {principal : ClaimsPrincipal} {jwt : JwtSecurityToken}
    (hvalidated : library.validateToken now parser.validationParameters token =
      .ok (principal, .jwt jwt))
    (hreadable : ¬(⟨principal, jwt⟩ : JwtPropertyProvider).Readable runtime) :
    ∃ errors, parser.parse runtime library now token = .ok (.error errors) := by
  obtain ⟨hfrom, hto⟩ :=
    hlibrary.reportsUtc.lifetime _ _ _ _ _ hvalidated
  rw [JwtPropertyParser.parse_of_validated hvalidated]
  exact JwtPropertyProvider.build_of_not_readable
    ⟨hfrom, hto, fun _ _ => hlibrary.reportsUtc.epochTime _⟩ hreadable

/-- Verification does not throw, and succeeds exactly on the tokens which
authorise the request. -/
theorem verify_decides (runtime : Runtime) (hlibrary : library.Reads)
    (parser : JwtPropertyParser) (now : DateTimeOffset)
    (request : TokenVerificationRequest) (token : String) :
    ∃ result, TokenVerifier.verify runtime (parser.parse runtime library) now
        request token = .ok result ∧
      (result.isOk = true ↔ parser.Authorises runtime library now token
        request.applicationId request.ipAddress) := by
  rw [TokenVerifier.verify_eq]
  by_cases hvalidated : ∃ principal jwt,
      library.validateToken now parser.validationParameters token =
        .ok (principal, .jwt jwt)
  · obtain ⟨principal, jwt, hvalidated⟩ := hvalidated
    have hclaims := hlibrary.exposesTokens.claims _ _ _ _ _ hvalidated
    have hauthorises : parser.Authorises runtime library now token
          request.applicationId request.ipAddress ↔
        jwt.Grants runtime request.applicationId request.ipAddress := by
      constructor
      · rintro ⟨principal', jwt', hvalidated', hgrants⟩
        rw [hvalidated] at hvalidated'
        obtain ⟨-, hsame⟩ := Prod.mk.inj (Except.ok.inj hvalidated')
        rwa [SecurityToken.jwt.inj hsame]
      · intro hgrants
        exact ⟨principal, jwt, hvalidated, hgrants⟩
    rw [hauthorises, grants_iff library hclaims]
    by_cases hreadable :
        (⟨principal, jwt⟩ : JwtPropertyProvider).Readable runtime
    · rw [parse_of_readable hlibrary hvalidated hreadable]
      refine ⟨_, rfl, ?_⟩
      simp [TokenVerifier.verifyProperties_isOk, hreadable]
    · obtain ⟨errors, herrors⟩ :=
        parse_of_not_readable hlibrary hvalidated hreadable
      rw [herrors]
      refine ⟨_, rfl, ?_⟩
      simp [Except.isOk, Except.toBool, hreadable]
  · obtain ⟨errors, herrors⟩ := JwtPropertyParser.parse_of_not_validated runtime
      fun principal jwt h => hvalidated ⟨principal, jwt, h⟩
    rw [herrors]
    refine ⟨_, rfl, ?_⟩
    simp only [Except.isOk, Except.toBool, Bool.false_eq_true, false_iff]
    rintro ⟨principal, jwt, h, -⟩
    exact hvalidated ⟨principal, jwt, h⟩

end Verification

/-! ## The three handlers -/

/-- The outcome of a request is the decision on its body: 400 if a part of it
is missing, else 200 or 403. -/
structure Decides (outcome : Throws Response) (body : IVerificationRequestBody)
    (authorised : Prop) : Prop where
  malformed : isNullOrEmpty body.token = true ∨
      isNullOrEmpty body.applicationId = true →
    ∃ response, outcome = .ok response ∧ response.statusCode = 400
  granted : isNullOrEmpty body.token = false →
    isNullOrEmpty body.applicationId = false → authorised →
      ∃ response, outcome = .ok response ∧ response.statusCode = 200
  denied : isNullOrEmpty body.token = false →
    isNullOrEmpty body.applicationId = false → ¬authorised →
      ∃ response, outcome = .ok response ∧ response.statusCode = 403

def JwtPropertyParser.services (runtime : Runtime) (library : JwtLibrary)
    (parser : JwtPropertyParser) : Services :=
  ⟨runtime, parser.parse runtime library⟩

section Handlers

variable {runtime : Runtime} {library : JwtLibrary} {parser : JwtPropertyParser}
  {now : DateTimeOffset} {remoteIpAddress : IPAddress}

theorem extractVerificationRequest_malformed {body : IVerificationRequestBody}
    (hmalformed : isNullOrEmpty body.token = true ∨
      isNullOrEmpty body.applicationId = true) (remoteIpAddress : IPAddress) :
    ∃ errors, extractVerificationRequest (some body) remoteIpAddress =
      .error errors := by
  cases htoken : isNullOrEmpty body.token with
  | true => simp [extractVerificationRequest, htoken]
  | false =>
      have happlication : isNullOrEmpty body.applicationId = true := by
        simpa [htoken] using hmalformed
      simp [extractVerificationRequest, htoken, happlication]

theorem extractVerificationRequest_wellFormed {body : IVerificationRequestBody}
    (htoken : isNullOrEmpty body.token = false)
    (happlication : isNullOrEmpty body.applicationId = false)
    (remoteIpAddress : IPAddress) :
    extractVerificationRequest (some body) remoteIpAddress =
      .ok (⟨body.applicationId.getD "", remoteIpAddress⟩,
        body.token.getD "") := by
  simp [extractVerificationRequest, htoken, happlication]

theorem tokenDecision_decides (hlibrary : library.Reads)
    {success : EntitlementTokenProperties → Response}
    (hsuccess : ∀ tokenProperties, (success tokenProperties).statusCode = 200)
    (body : IVerificationRequestBody) :
    Decides (tokenDecision (parser.services runtime library) now remoteIpAddress
        (some body) success) body
      (parser.Authorises runtime library now (body.token.getD "")
        (body.applicationId.getD "") remoteIpAddress) := by
  obtain ⟨result, hverify, hresult⟩ := verify_decides runtime hlibrary parser
    now ⟨body.applicationId.getD "", remoteIpAddress⟩ (body.token.getD "")
  refine ⟨fun hmalformed => ?_, fun htoken happlication hauthorised => ?_,
    fun htoken happlication hdenied => ?_⟩
  · obtain ⟨errors, herrors⟩ :=
      extractVerificationRequest_malformed hmalformed remoteIpAddress
    refine ⟨createBadRequestResponse errors, ?_, rfl⟩
    simp [tokenDecision, decideToken, herrors]
  · cases result with
    | error errors => simp [← hresult, Except.isOk, Except.toBool] at hauthorised
    | ok tokenProperties =>
        refine ⟨success tokenProperties, ?_, hsuccess tokenProperties⟩
        simp [tokenDecision, decideToken, JwtPropertyParser.services, hverify,
          extractVerificationRequest_wellFormed htoken happlication]
  · cases result with
    | error errors =>
        refine ⟨createDeniedResponse errors (body.applicationId.getD ""), ?_,
          rfl⟩
        simp [tokenDecision, decideToken, JwtPropertyParser.services, hverify,
          extractVerificationRequest_wellFormed htoken happlication]
    | ok tokenProperties =>
        simp [← hresult, Except.isOk, Except.toBool] at hdenied

/-- Approvals, and acquisitions which get as far as the token, are decided by
the body and the validated token alone. -/
theorem decides_of_reads (runtime : Runtime) (library : JwtLibrary)
    (parser : JwtPropertyParser) (hlibrary : library.Reads)
    (answer : (access : Access) → Reply access) (remoteIpAddress : IPAddress) :
    (∀ body : ApproveRequestBody,
      Decides
        ((ApproveV1RequestHandler.handle (parser.services runtime library)
          remoteIpAddress (some body)).outcome answer)
        body.toIVerificationRequestBody
        (parser.Authorises runtime library (answer .validationTime)
          (body.token.getD "") (body.applicationId.getD "")
          remoteIpAddress)) ∧
    (∀ body : ApproveRequestBody,
      Decides
        ((ApproveV2RequestHandler.handle (parser.services runtime library)
          remoteIpAddress (some body)).outcome answer)
        body.toIVerificationRequestBody
        (parser.Authorises runtime library (answer .validationTime)
          (body.token.getD "") (body.applicationId.getD "")
          remoteIpAddress)) ∧
    ∀ (body : AcquireRequestBody) (duration : TimeSpan)
      (expiry : DateTimeOffset),
      parseDuration runtime body.duration = .ok (.ok duration) →
      DateTimeOffset.add (answer .utcNow) duration = .ok expiry →
      Decides
        ((AcquireRequestHandler.handle (parser.services runtime library)
          remoteIpAddress (some body)).outcome answer)
        body.toIVerificationRequestBody
        (parser.Authorises runtime library (answer .validationTime)
          (body.token.getD "") (body.applicationId.getD "")
          remoteIpAddress) := by
  refine ⟨fun body => ?_, fun body => ?_,
    fun body duration expiry hduration hexpiry => ?_⟩
  · rw [ApproveV1RequestHandler.outcome_handle]
    exact tokenDecision_decides hlibrary (fun _ => rfl) _
  · rw [ApproveV2RequestHandler.outcome_handle]
    exact tokenDecision_decides hlibrary (fun _ => rfl) _
  · rw [AcquireRequestHandler.outcome_handle hduration hexpiry]
    exact tokenDecision_decides hlibrary (fun _ => rfl) _

end Handlers

theorem JwtReference.reads : JwtLibrary.reference.Reads :=
  ⟨exposesTokens, reportsUtc, checksParties⟩

/-- A first request: the store is empty, and both clock readings agree. -/
def firstAnswers : (access : Access) → Reply access
  | .utcNow => referenceMoment
  | .validationTime => referenceMoment
  | .newGuid => ⟨"0123456789abcdef0123456789abcdef"⟩
  | .allocate record => ⟨0, record⟩
  | .tryGetValue _ => none
  | .addOrUpdate _ addValue _ => addValue
  | .tryUpdate _ _ _ => false

theorem decides_firstAnswers :
    Decides
      ((AcquireRequestHandler.handle
        (JwtPropertyParser.services .reference .reference
          ⟨some defaultAudience, some defaultIssuer, none, none⟩)
        (.v4 16777343#32)
        (some ⟨⟨some "..", some "contosoapp"⟩, some "PT1H"⟩)).outcome
          firstAnswers)
      ⟨some "..", some "contosoapp"⟩
      (JwtPropertyParser.Authorises .reference .reference
        ⟨some defaultAudience, some defaultIssuer, none, none⟩
        (firstAnswers .validationTime) ".." "contosoapp" (.v4 16777343#32)) :=
  (decides_of_reads .reference .reference _ JwtReference.reads firstAnswers
    _).2.2 ⟨⟨some "..", some "contosoapp"⟩, some "PT1H"⟩ ReferenceRuntime.hour
      ⟨630000036000000000, by decide⟩ rfl rfl

end SoftwareEntitlement
