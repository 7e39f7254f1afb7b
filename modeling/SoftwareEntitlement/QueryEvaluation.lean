import SoftwareEntitlement.RequestHandlers

/-!
# Evaluating a handler alone

A request which is answered whatever the store and the clock reply, is
evaluated for an arbitrary assignment of replies.  A query then has one of
three outcomes: an exception, a response which ends it, or a value.
-/

namespace SoftwareEntitlement

open Interleaving

variable {α β : Type} (answer : (access : Access) → Reply access)

/-- What a handler returns when its accesses are answered by `answer`. -/
def Handling.outcome (handling : Handling α) : Throws α :=
  handling.run.eval answer

def Query.outcome (query : Query α) : Throws (Result α Response) :=
  Handling.outcome answer query.run

variable {answer}

theorem Handling.outcome_bind (handling : Handling α) (f : α → Handling β) :
    Handling.outcome answer (handling >>= f) =
      handling.outcome answer >>= fun value => (f value).outcome answer := by
  refine (Program.eval_bind answer handling.run _).trans ?_
  unfold Handling.outcome
  cases handling.run.eval answer with
  | error exception => rfl
  | ok value => rfl

theorem Handling.outcome_map (f : α → β) (handling : Handling α) :
    Handling.outcome answer (f <$> handling) =
      f <$> handling.outcome answer := by
  refine (Program.eval_bind answer handling.run _).trans ?_
  unfold Handling.outcome
  cases handling.run.eval answer with
  | error exception => rfl
  | ok value => rfl

@[simp] theorem Query.outcome_ofOutcome
    (outcome : Throws (Result α Response)) :
    (Query.ofOutcome outcome).outcome answer = outcome := rfl

theorem Query.outcome_bind (query : Query α) (f : α → Query β) :
    (query >>= f).outcome answer =
      match query.outcome answer with
      | .error exception => .error exception
      | .ok (.error response) => .ok (.error response)
      | .ok (.ok value) => (f value).outcome answer := by
  refine (Handling.outcome_bind query.run _).trans ?_
  change (query.outcome answer >>= _) = _
  rcases query.outcome answer with exception | (response | value)
  · rfl
  · rfl
  · rfl

theorem Query.outcome_merge (query : Query Response) :
    query.merge.outcome answer = Result.merge <$> query.outcome answer :=
  Handling.outcome_map Result.merge query.run

/-! ## The handlers which decide on a token -/

section Decision

variable (services : Services) (now : DateTimeOffset)

/-- The response to a request which presents a token, when `success` is what is
sent for the properties of a verified token; this may fail. -/
def decideToken (remoteIpAddress : IPAddress)
    (body : Option IVerificationRequestBody)
    (success : EntitlementTokenProperties → Throws Response) :
    Throws Response :=
  match extractVerificationRequest body remoteIpAddress with
  | .error errors => .ok (createBadRequestResponse errors)
  | .ok (verification, token) =>
      match TokenVerifier.verify services.runtime services.tokenPropertyParser
          now verification token with
      | .error exception => .error exception
      | .ok (.error errors) =>
          .ok (createDeniedResponse errors verification.applicationId)
      | .ok (.ok tokenProperties) => success tokenProperties

/-- The same decision when sending the response cannot fail. -/
def tokenDecision (remoteIpAddress : IPAddress)
    (body : Option IVerificationRequestBody)
    (success : EntitlementTokenProperties → Response) : Throws Response :=
  decideToken services now remoteIpAddress body
    fun tokenProperties => .ok (success tokenProperties)

variable {services} {remoteIpAddress : IPAddress}

theorem outcome_verifyClause (verification : TokenVerificationRequest)
    (token : String) :
    (verifyClause services verification token).outcome answer = (do
      let verified ← TokenVerifier.verify services.runtime
        services.tokenPropertyParser (answer .validationTime) verification token
      return verified.onError fun errors =>
        createDeniedResponse errors verification.applicationId) := rfl

/-- A query which extracts the request and verifies it, before whatever comes
next. -/
theorem outcome_tokenQuery_of_merge {body : Option IVerificationRequestBody}
    {success : EntitlementTokenProperties → Throws Response}
    {rest : EntitlementTokenProperties → Query Response}
    (hrest : ∀ tokenProperties,
      Result.merge <$> (rest tokenProperties).outcome answer =
        success tokenProperties) :
    Result.merge <$> Query.outcome answer (do
      let (verification, token) ←
        extractVerificationRequestClause body remoteIpAddress
      let tokenProperties ← verifyClause services verification token
      rest tokenProperties) =
    decideToken services (answer .validationTime) remoteIpAddress body
      success := by
  rw [Query.outcome_bind, extractVerificationRequestClause,
    Query.outcome_ofOutcome]
  unfold decideToken
  cases extractVerificationRequest body remoteIpAddress with
  | error errors => rfl
  | ok extracted =>
      obtain ⟨verification, token⟩ := extracted
      simp only [Result.onError]
      rw [Query.outcome_bind, outcome_verifyClause]
      rcases TokenVerifier.verify services.runtime services.tokenPropertyParser
        (answer .validationTime) verification token with
        exception | (errors | tokenProperties)
      · rfl
      · rfl
      · exact hrest tokenProperties

/-- A query which extracts the request, verifies it, and then always ends with
the response to send. -/
theorem outcome_tokenQuery {body : Option IVerificationRequestBody}
    {success : EntitlementTokenProperties → Response}
    {rest : EntitlementTokenProperties → Query Response}
    (hrest : ∀ tokenProperties, (rest tokenProperties).outcome answer =
      .ok (.ok (success tokenProperties))) :
    Result.merge <$> Query.outcome answer (do
      let (verification, token) ←
        extractVerificationRequestClause body remoteIpAddress
      let tokenProperties ← verifyClause services verification token
      rest tokenProperties) =
    tokenDecision services (answer .validationTime) remoteIpAddress body
      success :=
  outcome_tokenQuery_of_merge fun tokenProperties =>
    congrArg (Result.merge <$> ·) (hrest tokenProperties)

theorem ApproveV1RequestHandler.outcome_handle
    (body : Option ApproveRequestBody) :
    (ApproveV1RequestHandler.handle services remoteIpAddress body).outcome
        answer =
      tokenDecision services (answer .validationTime) remoteIpAddress
        (body.map ApproveRequestBody.toIVerificationRequestBody)
        fun tokenProperties => .createSuccess (.approveV1Success
          ("entitlement-" ++ (answer .newGuid).toString)
          tokenProperties.virtualMachineId) :=
  (Query.outcome_merge _).trans (outcome_tokenQuery fun _ => rfl)

theorem ApproveV2RequestHandler.outcome_handle
    (body : Option ApproveRequestBody) :
    (ApproveV2RequestHandler.handle services remoteIpAddress body).outcome
        answer =
      tokenDecision services (answer .validationTime) remoteIpAddress
        (body.map ApproveRequestBody.toIVerificationRequestBody)
        fun tokenProperties => .createSuccess (.approveV2Success
          ("entitlement-" ++ (answer .newGuid).toString)
          tokenProperties.notAfter) :=
  (Query.outcome_merge _).trans (outcome_tokenQuery fun _ => rfl)

/-- A query which ends with the response for an expiry. -/
theorem outcome_addClause {instant : DateTimeOffset} {duration : TimeSpan}
    {success : DateTimeOffset → Throws Response}
    {rest : DateTimeOffset → Query Response}
    (hrest : ∀ expiry,
      Result.merge <$> (rest expiry).outcome answer = success expiry) :
    Result.merge <$> (addClause instant duration >>= rest).outcome answer =
      instant.add duration >>= success := by
  rw [Query.outcome_bind, addClause, Query.outcome_ofOutcome]
  cases instant.add duration with
  | error exception => rfl
  | ok expiry => exact hrest expiry

/-- The response to a request which states a duration, when `success` decides
on the duration it states. -/
def decideDuration (services : Services) (duration : Option (Option String))
    (success : TimeSpan → Throws Response) : Throws Response :=
  match duration with
  | none => .error .nullReference
  | some duration =>
      match parseDuration services.runtime duration with
      | .error exception => .error exception
      | .ok (.error errors) => .ok (createBadRequestResponse errors)
      | .ok (.ok timeSpan) => success timeSpan

theorem outcome_parseDurationClause {duration : Option (Option String)}
    {success : TimeSpan → Throws Response} {rest : TimeSpan → Query Response}
    (hrest : ∀ timeSpan,
      Result.merge <$> (rest timeSpan).outcome answer = success timeSpan) :
    Result.merge <$> (parseDurationClause services duration >>= rest).outcome
        answer =
      decideDuration services duration success := by
  cases duration with
  | none => rfl
  | some duration =>
      have hclause :
          (parseDurationClause services (some duration)).outcome answer = do
            let timeSpan ← parseDuration services.runtime duration
            return timeSpan.onError createBadRequestResponse := rfl
      rw [Query.outcome_bind, hclause]
      simp only [decideDuration]
      rcases parseDuration services.runtime duration with
        exception | (errors | timeSpan)
      · rfl
      · rfl
      · exact hrest timeSpan

/-- The Acquire handler: the duration, the token, the expiry. -/
theorem AcquireRequestHandler.outcome_eq (body : Option AcquireRequestBody) :
    (AcquireRequestHandler.handle services remoteIpAddress body).outcome
        answer =
      decideDuration services (body.map AcquireRequestBody.duration)
        fun duration =>
          decideToken services (answer .validationTime) remoteIpAddress
            (body.map AcquireRequestBody.toIVerificationRequestBody)
            fun _ => (answer .utcNow).add duration >>= fun expiry =>
              .ok (.createSuccess (.acquireSuccess (answer .newGuid).toStringN
                (services.runtime.formatRoundtrip expiry))) := by
  refine (Query.outcome_merge _).trans ?_
  refine outcome_parseDurationClause fun duration => ?_
  refine outcome_tokenQuery_of_merge fun tokenProperties => ?_
  have hrest : ∀ expiry, Result.merge <$> Query.outcome answer (do
      let _ ← liftM (EntitlementStore.storeEntitlement
        (answer .newGuid).toStringN tokenProperties (answer .utcNow))
      return Response.createSuccess (.acquireSuccess
        (answer .newGuid).toStringN
        (services.runtime.formatRoundtrip expiry))) =
      .ok (.createSuccess (.acquireSuccess (answer .newGuid).toStringN
        (services.runtime.formatRoundtrip expiry))) := fun _ => rfl
  exact outcome_addClause hrest

theorem AcquireRequestHandler.outcome_handle {body : AcquireRequestBody}
    {duration : TimeSpan} {expiry : DateTimeOffset}
    (hduration : parseDuration services.runtime body.duration =
      .ok (.ok duration))
    (hexpiry : (answer .utcNow).add duration = .ok expiry) :
    (AcquireRequestHandler.handle services remoteIpAddress (some body)).outcome
        answer =
      tokenDecision services (answer .validationTime) remoteIpAddress
        (some body.toIVerificationRequestBody)
        fun _ => .createSuccess (.acquireSuccess (answer .newGuid).toStringN
          (services.runtime.formatRoundtrip expiry)) := by
  rw [AcquireRequestHandler.outcome_eq, tokenDecision]
  simp only [Option.map_some, decideDuration, hduration, hexpiry]
  rfl

end Decision

/-! ## The handlers which update an entry -/

section Updates

variable (answer)

/-- The response to a request about an entry, when `success` decides on the
record which is stored. -/
def decideFound (entitlementId : String)
    (success : Reference → Throws Response) : Throws Response :=
  match (answer (.tryGetValue entitlementId) : Option Reference) with
  | none => .ok (createNotFoundResponse entitlementId)
  | some found => success found

/-- The response after the attempt to replace the record of an entry. -/
def updateResponse (entitlementId : String)
    (updater : EntitlementProperties → EntitlementProperties)
    (errorMessage : String) (success : Response) (current : Reference) :
    Response :=
  let updated : Reference := answer (.allocate (updater current.value))
  let replaced : Bool := answer (.tryUpdate entitlementId updated current)
  if replaced then success
  else createInternalErrorResponse (.create errorMessage)

variable {answer}

theorem Handling.outcome_request_bind (access : Access)
    (f : Reply access → Handling β) :
    (request access >>= f).outcome answer =
      (f (answer access)).outcome answer := rfl

theorem outcome_findEntitlementClause {entitlementId : String}
    {success : Reference → Throws Response}
    {rest : EntitlementProperties → Query Response}
    (hrest : ∀ found, answer (.tryGetValue entitlementId) = some found →
      Result.merge <$> (rest found.value).outcome answer = success found) :
    Result.merge <$> (findEntitlementClause entitlementId >>= rest).outcome
        answer =
      decideFound answer entitlementId success := by
  have hclause : (findEntitlementClause entitlementId).outcome answer =
      (EntitlementStore.findEntitlement entitlementId).outcome answer >>=
        fun found => .ok (found.onError fun _ =>
          createNotFoundResponse entitlementId) :=
    Handling.outcome_bind _ _
  rw [Query.outcome_bind, hclause, EntitlementStore.findEntitlement,
    Handling.outcome_request_bind]
  unfold decideFound
  cases hfound : (answer (.tryGetValue entitlementId) : Option Reference) with
  | none => rfl
  | some found => exact hrest found hfound

theorem outcome_tryUpdate {entitlementId : String} {current : Reference}
    (hcurrent : answer (.tryGetValue entitlementId) = some current)
    (updater : EntitlementProperties → EntitlementProperties)
    (errorMessage : String) (success : Response) :
    Result.merge <$> Query.outcome answer (do
      let _ ← ExceptT.mk do
        let updated ←
          EntitlementStore.tryUpdate entitlementId updater errorMessage
        return updated.onError createInternalErrorResponse
      return success) =
    .ok (updateResponse answer entitlementId updater errorMessage success
      current) := by
  let updated : Reference := answer (.allocate (updater current.value))
  have hupdate :
      (EntitlementStore.tryUpdate entitlementId updater errorMessage).outcome
          answer =
        Handling.outcome answer (do
          if ← request (.tryUpdate entitlementId updated current) then
            return .ok updated.value
          else
            return .error (.create errorMessage)) := by
    rw [EntitlementStore.tryUpdate, Handling.outcome_request_bind, hcurrent]
    rfl
  have hclause : Query.outcome answer (ExceptT.mk do
        let updated ←
          EntitlementStore.tryUpdate entitlementId updater errorMessage
        return updated.onError createInternalErrorResponse) =
      (EntitlementStore.tryUpdate entitlementId updater errorMessage).outcome
          answer >>=
        fun updated => .ok (updated.onError createInternalErrorResponse) :=
    Handling.outcome_bind _ _
  rw [Query.outcome_bind, hclause, hupdate, Handling.outcome_request_bind]
  unfold updateResponse
  cases hreplaced :
      (answer (.tryUpdate entitlementId updated current) : Bool) with
  | false => simp [updated, hreplaced]; rfl
  | true => simp [updated, hreplaced]; rfl

/-- The Renew handler: the duration, the entry, the expiry, the update. -/
theorem RenewRequestHandler.outcome_eq {services : Services}
    (body : Option RenewRequestBody) (entitlementId : String) :
    (RenewRequestHandler.handle services body entitlementId).outcome answer =
      decideDuration services (body.map RenewRequestBody.duration)
        fun duration => decideFound answer entitlementId fun found =>
          if found.value.isReleased then
            .ok (createAlreadyReleasedResponse found.value.entitlementId)
          else
            (answer .utcNow).add duration >>= fun expiry =>
              .ok (updateResponse answer entitlementId
                (fun props => props.withRenewal (answer .utcNow))
                ("Unable to store renewal event for " ++ entitlementId)
                (.createSuccess (.renewSuccess
                  (services.runtime.formatRoundtrip expiry))) found) := by
  refine (Query.outcome_merge _).trans ?_
  refine outcome_parseDurationClause fun duration => ?_
  refine outcome_findEntitlementClause fun found hfound => ?_
  rw [Query.outcome_bind, notReleasedClause, Query.outcome_ofOutcome]
  cases hreleased : found.value.isReleased with
  | true => rfl
  | false =>
      have hrest (expiry : DateTimeOffset) :=
        outcome_tryUpdate hfound
          (fun props => props.withRenewal (answer .utcNow))
          ("Unable to store renewal event for " ++ entitlementId)
          (.createSuccess (.renewSuccess
            (services.runtime.formatRoundtrip expiry)))
      exact outcome_addClause hrest

/-- The Release handler: the entry, the update. -/
theorem ReleaseRequestHandler.outcome_eq (entitlementId : String) :
    (ReleaseRequestHandler.handle entitlementId).outcome answer =
      decideFound answer entitlementId fun found =>
        .ok (updateResponse answer entitlementId
          (fun props => props.withRelease (answer .utcNow))
          ("Unable to store release event for " ++ entitlementId)
          ⟨204, none⟩ found) := by
  refine (Query.outcome_merge _).trans ?_
  refine outcome_findEntitlementClause fun found hfound => ?_
  have hrest := outcome_tryUpdate hfound
    (fun props => props.withRelease (answer .utcNow))
    ("Unable to store release event for " ++ entitlementId) ⟨204, none⟩
  exact hrest

end Updates

end SoftwareEntitlement
