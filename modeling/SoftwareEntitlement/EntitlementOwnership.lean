import SoftwareEntitlement.HttpServer

/-!
# Which requests touch which entitlements

An entitlement belongs to the request which drew its identifier, and later to
the requests which name it in their path.  The discipline of a request says
which accesses it may make after those it has made, and whether the five
handlers keep to it is checked along their clauses.
-/

namespace SoftwareEntitlement

open Interleaving SoftwareEntitlementsController

variable {ι : Type}

/-! ## The discipline of a request -/

/-- The entitlement which the value of a response grants. -/
def IResponseValue.granted : IResponseValue → Option String
  | .approveV1Success entitlementId _ => some entitlementId
  | .approveV2Success entitlementId _ => some entitlementId
  | .acquireSuccess entitlementId _ => some entitlementId
  | _ => none

def Response.granted (response : Response) : Option String :=
  response.value.bind IResponseValue.granted

def HttpResult.granted : HttpResult → Option String
  | .actionResult (.objectResult _ value) => value.granted
  | _ => none

namespace HandlerRequest

/-- The entitlement which a request is about. -/
def target : HandlerRequest → Option String
  | .renew _ entitlementId => some entitlementId
  | .release entitlementId => some entitlementId
  | _ => none

/-- The identifier under which a request grants an entitlement, when it has
drawn `guid`. -/
def grantsAs (guid : Guid) : HandlerRequest → Option String
  | .approveV1 _ _ => some ("entitlement-" ++ guid.toString)
  | .approveV2 _ _ => some ("entitlement-" ++ guid.toString)
  | .acquire _ _ => some guid.toStringN
  | _ => none

def IsAcquire (request : HandlerRequest) : Prop :=
  ∃ remoteIpAddress body, request = .acquire remoteIpAddress body

/-- What a request may do after the events of its trace: one identifier is
drawn at most, only Acquire stores, and it stores once under its identifier,
and only the entitlement of the request is looked up or updated. -/
def Permits (request : HandlerRequest) (thread : ι) (trace : List (Event ι)) :
    Access → Prop
  | .newGuid => ∀ guid, ⟨thread, .newGuid, guid⟩ ∉ trace
  | .tryGetValue key => request.target = some key
  | .tryUpdate key _ _ => request.target = some key
  | .addOrUpdate key _ _ => request.IsAcquire ∧
      (∃ guid, ⟨thread, .newGuid, guid⟩ ∈ trace ∧ key = guid.toStringN) ∧
        ∀ key' added factory reply,
          ⟨thread, .addOrUpdate key' added factory, reply⟩ ∉ trace
  | .allocate _ => request.IsAcquire ∨ request.target.isSome
  | _ => True

/-- An entitlement is granted under the identifier which was drawn for it. -/
def Concludes (request : HandlerRequest) (thread : ι)
    (outcome : Throws Response) (trace : List (Event ι)) : Prop :=
  ∀ response id, outcome = .ok response → response.granted = some id →
    ∃ guid, ⟨thread, .newGuid, guid⟩ ∈ trace ∧ request.grantsAs guid = some id

end HandlerRequest

/-- A request for the latest version which names the entitlement in its
path. -/
def HttpRequest.IsAbout (runtime : Runtime) (request : HttpRequest)
    (entitlementId : String) : Prop :=
  request.resource runtime = some (.item entitlementId) ∧
    (Routes runtime request .renew ∨ Routes runtime request .release)

section Routes

variable {runtime : Runtime} {request : HttpRequest}
  {handlerRequest : HandlerRequest}

theorem HttpRequest.entitlementId_of_resource {entitlementId : String}
    (hresource : request.resource runtime = some (.item entitlementId)) :
    request.entitlementId runtime = entitlementId := by
  simp only [HttpRequest.entitlementId, hresource]

theorem HttpRequest.isAbout_of_target {id : String}
    (hhandled : request.handlerRequest runtime = some handlerRequest)
    (htarget : handlerRequest.target = some id) :
    request.IsAbout runtime id := by
  obtain ⟨action, hroutes, haction⟩ := HttpRequest.exists_routes hhandled
  cases hroutes with
  | renew entitlementId hresource hmethod hversion =>
      cases haction
      obtain rfl := Option.some.inj htarget
      exact ⟨(HttpRequest.entitlementId_of_resource hresource).symm ▸ hresource,
        .inl (.renew _ hresource hmethod hversion)⟩
  | release entitlementId hresource hmethod hversion =>
      cases haction
      obtain rfl := Option.some.inj htarget
      exact ⟨(HttpRequest.entitlementId_of_resource hresource).symm ▸ hresource,
        .inr (.release _ hresource hmethod hversion)⟩
  | missingApiVersion => cases haction
  | invalidApiVersion => cases haction
  | _ => cases haction; cases htarget

theorem HttpRequest.routes_of_isAcquire
    (hhandled : request.handlerRequest runtime = some handlerRequest)
    (hacquire : handlerRequest.IsAcquire) :
    Routes runtime request .acquire := by
  obtain ⟨action, hroutes, haction⟩ := HttpRequest.exists_routes hhandled
  obtain ⟨remoteIpAddress, body, rfl⟩ := hacquire
  cases action with
  | acquire => exact hroutes
  | _ => cases haction

theorem HttpRequest.IsAbout.specifiedVersion {id : String}
    (habout : request.IsAbout runtime id) :
    request.specifiedVersion runtime = some ApiVersions.apiVersionLatest := by
  obtain ⟨-, hroutes | hroutes⟩ := habout <;> cases hroutes <;> assumption

end Routes

/-! ## Rules -/

section Rules

variable {α β : Type} (request : HandlerRequest) (thread : ι)

/-- The query keeps to the discipline of its request, also when it ends its
handler; `mid` is what its trace is when it has a value. -/
def Query.KeepsTo (query : Query α) (mid : α → List (Event ι) → Prop)
    (trace : List (Event ι)) : Prop :=
  Handling.Obeys thread (request.Permits thread) query.run
    (fun outcome trace' =>
      match outcome with
      | .error exception => request.Concludes thread (.error exception) trace'
      | .ok (.error response) => request.Concludes thread (.ok response) trace'
      | .ok (.ok value) => mid value trace') trace

variable {request thread} {trace : List (Event ι)}

theorem HandlerRequest.Concludes.of_exception (exception : ClrException) :
    request.Concludes thread (.error exception) trace := by
  rintro response id ⟨⟩

theorem HandlerRequest.Concludes.of_not_granted {response : Response}
    (hnone : response.granted = none) :
    request.Concludes thread (.ok response) trace := by
  rintro response' id heq hgranted
  obtain rfl := Except.ok.inj heq
  rw [hnone] at hgranted
  cases hgranted

theorem Query.KeepsTo.bind {query : Query α} {f : α → Query β}
    {mid : α → List (Event ι) → Prop} {post : β → List (Event ι) → Prop}
    (hquery : query.KeepsTo request thread mid trace)
    (hnext : ∀ value trace', mid value trace' →
      (f value).KeepsTo request thread post trace') :
    (query >>= f).KeepsTo request thread post trace := by
  refine Program.Obeys.bind hquery fun outcome trace' houtcome => ?_
  rcases outcome with exception | (response | value)
  · exact houtcome
  · exact houtcome
  · exact hnext value trace' houtcome

theorem Query.KeepsTo.mono {query : Query α}
    {mid mid' : α → List (Event ι) → Prop}
    (hquery : query.KeepsTo request thread mid trace)
    (hmid : ∀ value trace', mid value trace' → mid' value trace') :
    query.KeepsTo request thread mid' trace := by
  refine Program.Obeys.mono hquery ?_
  rintro (exception | (response | value)) trace' houtcome
  · exact houtcome
  · exact houtcome
  · exact hmid value trace' houtcome

theorem Query.ofOutcome_keepsTo {outcome : Throws (Result α Response)}
    (hrefuses : ∀ response, outcome = .ok (.error response) →
      response.granted = none) :
    (Query.ofOutcome outcome).KeepsTo request thread
      (fun _ trace' => trace' = trace) trace := by
  rcases outcome with exception | (response | value)
  · exact .of_exception exception
  · exact .of_not_granted (hrefuses response rfl)
  · rfl

theorem Query.request_keepsTo (access : Access)
    (hpermits : request.Permits thread trace access) :
    (liftM (SoftwareEntitlement.request access) :
        Query (Reply access)).KeepsTo request thread
      (fun reply trace' => trace' = ⟨thread, access, reply⟩ :: trace) trace :=
  ⟨hpermits, fun _ => rfl⟩

theorem Query.KeepsTo.merge {query : Query Response}
    (hquery : query.KeepsTo request thread
      (fun response => request.Concludes thread (.ok response)) trace) :
    query.merge.Obeys thread (request.Permits thread)
      (request.Concludes thread) trace := by
  refine Program.Obeys.exceptMap (Program.Obeys.mono hquery ?_)
  rintro (exception | (response | response)) trace' houtcome
  · exact houtcome
  · exact houtcome
  · exact houtcome

end Rules

/-! ## The clauses and the handlers -/

section Handlers

variable {services : Services} {request : HandlerRequest} {thread : ι}
  {trace : List (Event ι)}

theorem parseDurationClause_keepsTo (duration : Option (Option String)) :
    (parseDurationClause services duration).KeepsTo request thread
      (fun _ trace' => trace' = trace) trace := by
  refine Query.ofOutcome_keepsTo fun response houtcome => ?_
  cases duration with
  | none => cases houtcome
  | some duration =>
      rcases hparsed : parseDuration services.runtime duration with
        exception | (errors | timeSpan) <;>
        simp only [hparsed] at houtcome <;> cases houtcome
      rfl

theorem extractVerificationRequestClause_keepsTo
    (body : Option IVerificationRequestBody) (remoteIpAddress : IPAddress) :
    (extractVerificationRequestClause body remoteIpAddress).KeepsTo request
      thread (fun _ trace' => trace' = trace) trace := by
  refine Query.ofOutcome_keepsTo fun response houtcome => ?_
  rcases hextracted : extractVerificationRequest body remoteIpAddress with
    errors | extracted <;>
    simp only [hextracted] at houtcome <;> cases houtcome
  rfl

theorem verifyClause_keepsTo (verification : TokenVerificationRequest)
    (token : String) :
    (verifyClause services verification token).KeepsTo request thread
      (fun _ trace' => ∃ now,
        trace' = ⟨thread, .validationTime, now⟩ :: trace) trace := by
  refine (Query.request_keepsTo .validationTime trivial).bind
    fun now trace' htrace => ?_
  subst htrace
  refine (Query.ofOutcome_keepsTo fun response houtcome => ?_).mono
    fun _ _ htrace => ⟨now, htrace⟩
  rcases hverified : TokenVerifier.verify services.runtime
    services.tokenPropertyParser now verification token with
    exception | (errors | verified) <;>
    simp only [hverified] at houtcome <;> cases houtcome
  rfl

theorem addClause_keepsTo (instant : DateTimeOffset) (duration : TimeSpan) :
    (addClause instant duration).KeepsTo request thread
      (fun _ trace' => trace' = trace) trace := by
  refine Query.ofOutcome_keepsTo fun response houtcome => ?_
  cases hadd : instant.add duration <;>
    simp only [hadd] at houtcome <;> cases houtcome

theorem notReleasedClause_keepsTo (properties : EntitlementProperties) :
    (notReleasedClause properties).KeepsTo request thread
      (fun _ trace' => trace' = trace) trace := by
  refine Query.ofOutcome_keepsTo fun response houtcome => ?_
  cases hreleased : properties.isReleased <;>
    simp only [asPredicateFailure, hreleased] at houtcome <;> cases houtcome
  rfl

theorem findEntitlementClause_keepsTo {id : String}
    (htarget : request.target = some id) :
    (findEntitlementClause id).KeepsTo request thread (fun _ _ => True)
      trace := by
  refine ⟨htarget, fun found => ?_⟩
  cases found with
  | none => exact .of_not_granted rfl
  | some reference => trivial

/-- The shared end of the Renew and Release handlers. -/
theorem update_keepsTo {id errorMessage : String} {response : Response}
    {updater : EntitlementProperties → EntitlementProperties}
    (htarget : request.target = some id) (hresponse : response.granted = none) :
    Query.KeepsTo request thread
      (do
        let _ ← (ExceptT.mk do
          let result ← EntitlementStore.tryUpdate id updater errorMessage
          return result.onError createInternalErrorResponse : Query _)
        return response)
      (fun response => request.Concludes thread (.ok response)) trace := by
  refine ⟨htarget, fun found => ?_⟩
  cases found with
  | none => exact .of_not_granted rfl
  | some current =>
      refine ⟨.inr (by simp [htarget]), fun updated =>
        ⟨htarget, fun swapped => ?_⟩⟩
      cases swapped with
      | false => exact .of_not_granted rfl
      | true => exact .of_not_granted hresponse

/-- The shared part of the Approve handlers: the request is verified and an
identifier is drawn. -/
theorem approve_keepsTo {remoteIpAddress : IPAddress}
    {body : Option IVerificationRequestBody}
    {success : EntitlementTokenProperties → Guid → Response}
    (hgrants : ∀ tokenProperties guid id,
      (success tokenProperties guid).granted = some id →
        request.grantsAs guid = some id) :
    Query.KeepsTo request thread
      (do
        let (verification, token) ←
          extractVerificationRequestClause body remoteIpAddress
        let props ← verifyClause services verification token
        let guid ← SoftwareEntitlement.request .newGuid
        return success props guid)
      (fun response => request.Concludes thread (.ok response)) [] := by
  refine (extractVerificationRequestClause_keepsTo _ _).bind
    fun (verification, token) trace₁ h₁ => ?_
  refine (verifyClause_keepsTo verification token).bind
    fun tokenProperties trace₂ h₂ => ?_
  obtain ⟨now, rfl⟩ := h₂
  subst h₁
  refine (Query.request_keepsTo .newGuid
    (by simp [HandlerRequest.Permits])).bind
    fun guid trace₃ h₃ => ?_
  subst h₃
  rintro response id heq hgranted
  obtain rfl := Except.ok.inj heq
  exact ⟨guid, List.mem_cons_self, hgrants _ _ _ hgranted⟩

theorem acquire_keepsTo {remoteIpAddress : IPAddress}
    {body : Option AcquireRequestBody} :
    (AcquireRequestHandler.handle services remoteIpAddress body).Obeys thread
      ((HandlerRequest.acquire remoteIpAddress body).Permits thread)
      ((HandlerRequest.acquire remoteIpAddress body).Concludes thread) [] := by
  refine Query.KeepsTo.merge ?_
  refine (parseDurationClause_keepsTo _).bind fun duration trace₁ h₁ => ?_
  refine (extractVerificationRequestClause_keepsTo _ _).bind
    fun (verification, token) trace₂ h₂ => ?_
  refine (verifyClause_keepsTo verification token).bind
    fun tokenProperties trace₃ h₃ => ?_
  obtain ⟨now, rfl⟩ := h₃
  subst h₂ h₁
  refine (Query.request_keepsTo .newGuid
    (by simp [HandlerRequest.Permits])).bind
    fun guid trace₄ h₄ => ?_
  refine (Query.request_keepsTo .utcNow trivial).bind
    fun acquisitionTime trace₅ h₅ => ?_
  refine (addClause_keepsTo _ _).bind fun expiry trace₆ h₆ => ?_
  subst h₆ h₅ h₄
  refine ⟨.inl ⟨_, _, rfl⟩, fun added => ⟨⟨⟨_, _, rfl⟩, ⟨guid, ?_, rfl⟩, ?_⟩,
    fun stored => ?_⟩⟩
  · simp
  · simp
  · rintro response id heq hgranted
    obtain rfl := Except.ok.inj heq
    exact ⟨guid, by simp, hgranted⟩

theorem HandlerRequest.handle_obeys (request : HandlerRequest) :
    (request.handle services).Obeys thread (request.Permits thread)
      (request.Concludes thread) [] := by
  cases request with
  | approveV1 remoteIpAddress body =>
      exact Query.KeepsTo.merge (approve_keepsTo fun _ _ _ h => h)
  | approveV2 remoteIpAddress body =>
      exact Query.KeepsTo.merge (approve_keepsTo fun _ _ _ h => h)
  | acquire remoteIpAddress body => exact acquire_keepsTo
  | renew body id =>
      refine Query.KeepsTo.merge ?_
      refine (parseDurationClause_keepsTo _).bind fun duration _ _ => ?_
      refine (findEntitlementClause_keepsTo rfl).bind fun record _ _ => ?_
      refine (notReleasedClause_keepsTo _).bind fun _ _ _ => ?_
      refine (Query.request_keepsTo .utcNow trivial).bind fun renewalTime _ _ => ?_
      refine (addClause_keepsTo _ _).bind fun expiry _ _ => ?_
      exact update_keepsTo rfl rfl
  | release id =>
      refine Query.KeepsTo.merge ?_
      refine (findEntitlementClause_keepsTo rfl).bind fun record _ _ => ?_
      refine (Query.request_keepsTo .utcNow trivial).bind fun releaseTime _ _ => ?_
      exact update_keepsTo rfl rfl

end Handlers

end SoftwareEntitlement
