import SoftwareEntitlement.EntitlementIsolation
import SoftwareEntitlement.IssuedTokens

/-!
# What a generated token is good for

A server with the keys of a generator approves its tokens for the applications
and the addresses which were written to them, while they are in force, and for
nothing else.  The moment which counts is the one which the request reads,
whatever the other requests do meanwhile.
-/

namespace SoftwareEntitlement

open Interleaving SoftwareEntitlementsController

/-! ## Verification -/

/-- What a request asks for is among what was written to the token. -/
structure EntitlementTokenProperties.Grants (runtime : Runtime)
    (properties : EntitlementTokenProperties)
    (request : TokenVerificationRequest) : Prop where
  application : ∃ application ∈ properties.applications,
    runtime.equalsOrdinalIgnoreCase application request.applicationId = true
  address : request.ipAddress ∈ properties.ipAddresses

section Verification

variable {runtime : Runtime} {library : JwtLibrary}
  {generator : TokenGenerator} {parser : JwtPropertyParser}
  {properties parsed : EntitlementTokenProperties} {token : String}
  {now : DateTimeOffset}

theorem grants_of_roundTrips (hround : properties.RoundTrips parsed)
    (request : TokenVerificationRequest) :
    (TokenVerifier.grantsApplication runtime parsed request.applicationId = true ∧
        TokenVerifier.grantsAddress parsed request.ipAddress = true) ↔
      properties.Grants runtime request := by
  simp only [TokenVerifier.grantsApplication, TokenVerifier.grantsAddress,
    List.any_eq_true, beq_iff_eq, exists_eq_right]
  constructor
  · rintro ⟨⟨application, happlication, hequal⟩, haddress⟩
    exact ⟨⟨application, (hround.applications _).mp happlication, hequal⟩,
      (hround.ipAddresses _).mp haddress⟩
  · rintro ⟨⟨application, happlication, hequal⟩, haddress⟩
    exact ⟨⟨application, (hround.applications _).mpr happlication, hequal⟩,
      (hround.ipAddresses _).mpr haddress⟩

/-- Outside its lifetime a token which the library wrote is not validated. -/
theorem inForce_of_validated (htransports : library.TransportsTokens)
    (hlifetimes : library.ChecksLifetimes) (hwritable : properties.Writable)
    (hmatches : TokenValidationParameters.Matches library
      parser.validationParameters (generator.descriptor runtime properties))
    (hgenerate : generator.generate runtime library properties = .ok token)
    {accepted : ClaimsPrincipal × SecurityToken}
    (hvalidated : library.validateToken now parser.validationParameters token =
      .ok accepted) :
    parser.validationParameters.InForce
      (generator.descriptor runtime properties) now := by
  obtain ⟨principal, jwt, hstart, hcarries⟩ :=
    htransports.accepts properties.notBefore parser.validationParameters _ token
      hgenerate
      (fun _ => TokenGenerator.type_not_registered_of_mem_createClaims)
      hmatches (inForce_of_between (le_refl _) hwritable.lifetime.le)
  obtain rfl := hlifetimes.same _ _ _ _ _ _ hstart hvalidated
  have hadmits := hlifetimes.admits _ _ _ _ _ hvalidated rfl
  rw [TokenValidationParameters.Admits, hcarries.validFrom,
    hcarries.validTo] at hadmits
  exact hadmits

/-- Verifying a generated token does not throw, and succeeds exactly when the
token is in force and grants the request. -/
theorem verify_generated (hruntime : runtime.SeparatesClaimTypes)
    (hparses : runtime.ParsesAddresses) (htransports : library.TransportsTokens)
    (hlifetimes : library.ChecksLifetimes) (hwritable : properties.Writable)
    (hmatches : TokenValidationParameters.Matches library
      parser.validationParameters (generator.descriptor runtime properties))
    (hgenerate : generator.generate runtime library properties = .ok token)
    (now : DateTimeOffset) (request : TokenVerificationRequest) :
    ∃ result, TokenVerifier.verify runtime (parser.parse runtime library) now
        request token = .ok result ∧
      (∀ verified, result = .ok verified → properties.RoundTrips verified) ∧
      ((∃ verified, result = .ok verified) ↔
        parser.validationParameters.InForce
            (generator.descriptor runtime properties) now ∧
          properties.Grants runtime request) := by
  rw [TokenVerifier.verify_eq]
  by_cases hinForce : parser.validationParameters.InForce
    (generator.descriptor runtime properties) now
  · obtain ⟨parsed, hparse, hround⟩ := parse_generated hruntime hparses
      htransports hwritable hmatches hinForce hgenerate
    simp only [hparse]
    refine ⟨_, rfl, ?_, ?_⟩
    · intro verified hverified
      exact ((TokenVerifier.verifyProperties_eq_ok_iff runtime).mp
        hverified).1 ▸ hround
    · simp [TokenVerifier.verifyProperties_eq_ok_iff, hinForce,
        ← grants_of_roundTrips hround]
  · obtain ⟨errors, herrors⟩ := JwtPropertyParser.parse_of_not_validated runtime
      fun principal jwt hvalidated => hinForce (inForce_of_validated htransports
        hlifetimes hwritable hmatches hgenerate hvalidated)
    simp only [herrors]
    exact ⟨_, rfl, nofun, by simp [hinForce]⟩

theorem token_ne_empty (htransports : library.TransportsTokens)
    (hgenerate : generator.generate runtime library properties = .ok token) :
    token ≠ "" := by
  rintro rfl
  have hparts := htransports.encrypts _ _ hgenerate
  split at hparts <;> cases hparts

end Verification

/-! ## Approvals -/

/-- What an approval answers for a token with these properties. -/
def SoftwareEntitlementsController.Action.approval
    (virtualMachineId : Option String) (notAfter : DateTimeOffset)
    (guid : Guid) : Action → Option IResponseValue
  | .approveV1 => some (.approveV1Success ("entitlement-" ++ guid.toString)
      virtualMachineId)
  | .approveV2 => some (.approveV2Success ("entitlement-" ++ guid.toString)
      notAfter)
  | _ => none

section Approvals

variable {ι α β : Type} {services : Services} {thread : ι}
  {trace : List (Event ι)} {post : Throws Response → List (Event ι) → Prop}

/-- The query has a value, of which `mid` is true then, or ends its handler as
`post` says. -/
def Query.LeadsTo (thread : ι) (query : Query α)
    (mid : α → List (Event ι) → Prop)
    (post : Throws Response → List (Event ι) → Prop)
    (trace : List (Event ι)) : Prop :=
  Handling.Obeys thread (fun _ _ => True) query.run
    (fun outcome trace' =>
      match outcome with
      | .error exception => post (.error exception) trace'
      | .ok (.error response) => post (.ok response) trace'
      | .ok (.ok value) => mid value trace') trace

theorem Query.LeadsTo.bind {query : Query α} {f : α → Query β}
    {mid : α → List (Event ι) → Prop} {last : β → List (Event ι) → Prop}
    (hquery : query.LeadsTo thread mid post trace)
    (hnext : ∀ value trace', mid value trace' →
      (f value).LeadsTo thread last post trace') :
    (query >>= f).LeadsTo thread last post trace := by
  refine Program.Obeys.bind hquery fun outcome trace' houtcome => ?_
  rcases outcome with exception | (response | value)
  · exact houtcome
  · exact houtcome
  · exact hnext value trace' houtcome

theorem Query.LeadsTo.merge {query : Query Response}
    (hquery : query.LeadsTo thread (fun response => post (.ok response)) post
      trace) :
    query.merge.Obeys thread (fun _ _ => True) post trace := by
  refine Program.Obeys.exceptMap (Program.Obeys.mono hquery ?_)
  rintro (exception | (response | response)) trace' houtcome
  · exact houtcome
  · exact houtcome
  · exact houtcome

variable {remoteIpAddress : IPAddress} {body : Option IVerificationRequestBody}
  {success : EntitlementTokenProperties → Guid → Response}

/-- The response is the decision on the token at the moment which was read,
with the identifier which was drawn. -/
def DecidesToken (services : Services) (thread : ι)
    (verification : TokenVerificationRequest) (token : String)
    (success : EntitlementTokenProperties → Guid → Response)
    (outcome : Throws Response) (trace : List (Event ι)) : Prop :=
  ∃ now, ⟨thread, .validationTime, now⟩ ∈ trace ∧
    match TokenVerifier.verify services.runtime services.tokenPropertyParser now
      verification token with
    | .error exception => outcome = .error exception
    | .ok (.error errors) =>
        outcome = .ok (createDeniedResponse errors verification.applicationId)
    | .ok (.ok tokenProperties) => ∃ guid, ⟨thread, .newGuid, guid⟩ ∈ trace ∧
        outcome = .ok (success tokenProperties guid)

theorem approve_decides {verification : TokenVerificationRequest}
    {token : String}
    (hextracted : extractVerificationRequest body remoteIpAddress =
      .ok (verification, token)) :
    Handling.Obeys thread (fun _ _ => True)
      (Query.merge do
        let (verification, token) ←
          extractVerificationRequestClause body remoteIpAddress
        let tokenProperties ← verifyClause services verification token
        let guid ← SoftwareEntitlement.request .newGuid
        return success tokenProperties guid)
      (DecidesToken services thread verification token success) [] := by
  have hextract : (extractVerificationRequestClause body
      remoteIpAddress).LeadsTo thread
        (fun extracted trace => extracted = (verification, token) ∧ trace = [])
        (DecidesToken services thread verification token success) [] := by
    simp only [extractVerificationRequestClause, hextracted]
    exact ⟨rfl, rfl⟩
  refine Query.LeadsTo.merge (hextract.bind ?_)
  rintro _ _ ⟨rfl, rfl⟩
  have hverify : (verifyClause services verification token).LeadsTo thread
      (fun tokenProperties trace => ∃ now,
        ⟨thread, .validationTime, now⟩ ∈ trace ∧
          TokenVerifier.verify services.runtime services.tokenPropertyParser now
            verification token = .ok (.ok tokenProperties))
      (DecidesToken services thread verification token success)
      ([] : List (Event ι)) := by
    have hrequest : (liftM (SoftwareEntitlement.request .validationTime) :
        Query DateTimeOffset).LeadsTo thread
          (fun now trace => trace = [⟨thread, .validationTime, now⟩])
          (DecidesToken services thread verification token success)
          ([] : List (Event ι)) := ⟨trivial, fun _ => rfl⟩
    refine hrequest.bind ?_
    rintro now _ rfl
    rcases hverified : TokenVerifier.verify services.runtime
      services.tokenPropertyParser now verification token with
      exception | (errors | tokenProperties)
    · exact ⟨now, List.mem_cons_self, by simp only [hverified]⟩
    · exact ⟨now, List.mem_cons_self, by simp only [hverified]⟩
    · exact ⟨now, List.mem_cons_self, hverified⟩
  refine hverify.bind fun tokenProperties trace hread => ?_
  obtain ⟨now, hmem, hverified⟩ := hread
  refine ⟨trivial, fun guid => ⟨now, List.mem_cons_of_mem _ hmem, ?_⟩⟩
  rw [hverified]
  exact ⟨guid, List.mem_cons_self, rfl⟩

variable [DecidableEq ι]
  {serverOptions : SoftwareEntitlementsController.ServerOptions}
  {requests : ι → HttpRequest} {pool : HttpPool ι} {action : Action}
  {outcome : HttpOutcome}

theorem HttpPool.approval_of_done
    (hreachable : HttpPool.Reachable services serverOptions requests pool)
    (happrove : action = .approveV1 ∨ action = .approveV2)
    (hroutes : Routes services.runtime (requests thread) action)
    {verification : TokenVerificationRequest} {token : String}
    (hextracted : extractVerificationRequest
      ((requests thread).body.approve.map
        ApproveRequestBody.toIVerificationRequestBody)
      (requests thread).remoteIpAddress = .ok (verification, token))
    (hdone : pool.threads thread = .done outcome) :
    ∃ response,
      outcome = ⟨.ofOutcome response, serverOptions.exitAfterRequest⟩ ∧
        DecidesToken services thread verification token
          (fun tokenProperties guid =>
            ⟨200, action.approval tokenProperties.virtualMachineId
              tokenProperties.notAfter guid⟩)
          response (ownEvents thread pool.shared.past) := by
  let start := HttpPool.start services serverOptions requests
  have hprocess : (start.threads thread).Obeys (serverLog.label thread)
      (fun _ _ => True)
      (fun outcome trace => ∃ response,
        outcome = ⟨.ofOutcome response, serverOptions.exitAfterRequest⟩ ∧
          DecidesToken services thread verification token
            (fun tokenProperties guid =>
              ⟨200, action.approval tokenProperties.virtualMachineId
                tokenProperties.notAfter guid⟩)
            response trace)
      (serverLog.own thread (serverLog.entries start.shared)) := by
    change ((requests thread).process services serverOptions).Obeys _ _ _ []
    simp only [HttpRequest.process, selectAction_of_routes hroutes]
    rcases happrove with rfl | rfl
    · exact Program.Obeys.bind (approve_decides hextracted)
        fun response trace hdecides => ⟨response, rfl, hdecides⟩
    · exact Program.Obeys.bind (approve_decides hextracted)
        fun response trace hdecides => ⟨response, rfl, hdecides⟩
  exact Log.post_of_reaches hprocess hreachable hdone

end Approvals

/-! ## Approvals of generated tokens -/

/-- How the approval of a token ends which was generated for `properties`: the
moment which the request reads decides, and what it asks for. -/
structure HttpPool.ApprovesGenerated {ι : Type} (runtime : Runtime)
    (parser : JwtPropertyParser) (generator : TokenGenerator)
    (properties : EntitlementTokenProperties) (action : Action)
    (verification : TokenVerificationRequest) (thread : ι)
    (result : HttpResult) (past : List (Event ι)) (now : DateTimeOffset) :
    Prop where
  read : ⟨thread, .validationTime, now⟩ ∈ past
  granted : parser.validationParameters.InForce
      (generator.descriptor runtime properties) now →
    properties.Grants runtime verification →
      ∃ guid, ⟨thread, .newGuid, guid⟩ ∈ past ∧
        result = .ofOutcome (.ok ⟨200, action.approval
          (nullIfEmpty properties.virtualMachineId)
          properties.notAfter.truncateToSecond guid⟩)
  denied : ¬(parser.validationParameters.InForce
      (generator.descriptor runtime properties) now ∧
        properties.Grants runtime verification) →
    ∃ errors, result = .ofOutcome (.ok (createDeniedResponse errors
      verification.applicationId))

section Generated

variable {ι : Type} [DecidableEq ι] {runtime : Runtime} {library : JwtLibrary}
  {generator : TokenGenerator} {parser : JwtPropertyParser}
  {properties : EntitlementTokenProperties} {token applicationId : String}
  {serverOptions : SoftwareEntitlementsController.ServerOptions}
  {requests : ι → HttpRequest} {pool : HttpPool ι} {thread : ι}
  {action : Action} {body : ApproveRequestBody} {outcome : HttpOutcome}

theorem HttpPool.approves_generated
    (hruntime : runtime.SeparatesClaimTypes)
    (hparses : runtime.ParsesAddresses) (htransports : library.TransportsTokens)
    (hlifetimes : library.ChecksLifetimes) (hwritable : properties.Writable)
    (hmatches : TokenValidationParameters.Matches library
      parser.validationParameters (generator.descriptor runtime properties))
    (hgenerate : generator.generate runtime library properties = .ok token)
    (hreachable : HttpPool.Reachable (parser.services runtime library)
      serverOptions requests pool)
    (happrove : action = .approveV1 ∨ action = .approveV2)
    (hroutes : Routes runtime (requests thread) action)
    (hbody : (requests thread).body.approve =
      some ⟨⟨some token, some applicationId⟩⟩)
    (happlication : applicationId ≠ "")
    (hdone : pool.threads thread = .done outcome) :
    outcome.stopApplication = serverOptions.exitAfterRequest ∧
      ∃ now, HttpPool.ApprovesGenerated runtime parser generator properties
        action ⟨applicationId, (requests thread).remoteIpAddress⟩ thread
        outcome.result pool.shared.past now := by
  have htoken := token_ne_empty htransports hgenerate
  have hextracted : extractVerificationRequest
      ((requests thread).body.approve.map
        ApproveRequestBody.toIVerificationRequestBody)
      (requests thread).remoteIpAddress =
        .ok (⟨applicationId, (requests thread).remoteIpAddress⟩, token) := by
    simp [hbody, extractVerificationRequest, isNullOrEmpty, htoken,
      happlication]
  obtain ⟨response, rfl, now, hread, hdecides⟩ :=
    HttpPool.approval_of_done hreachable happrove hroutes hextracted hdone
  obtain ⟨result, hverify, hround, hok⟩ := verify_generated hruntime hparses
    htransports hlifetimes hwritable hmatches hgenerate now
    ⟨applicationId, (requests thread).remoteIpAddress⟩
  simp only [JwtPropertyParser.services, hverify] at hdecides
  refine ⟨rfl, now, mem_ownEvents.mp hread, fun hinForce hgrants => ?_,
    fun hdenied => ?_⟩
  · obtain ⟨verified, rfl⟩ := hok.mpr ⟨hinForce, hgrants⟩
    obtain ⟨guid, hguid, rfl⟩ := hdecides
    refine ⟨guid, mem_ownEvents.mp hguid, ?_⟩
    rw [(hround verified rfl).virtualMachineId, (hround verified rfl).notAfter]
  · cases result with
    | error errors => exact ⟨errors, by rw [hdecides]⟩
    | ok verified => exact absurd (hok.mp ⟨verified, rfl⟩) hdenied

end Generated

end SoftwareEntitlement
