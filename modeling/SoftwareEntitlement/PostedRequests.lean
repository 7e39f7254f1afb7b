import SoftwareEntitlement.GeneratedTokens
import SoftwareEntitlement.HttpSessions
import SoftwareEntitlement.NativeClient

/-!
# Requests which clients post

Both clients post a token and an application to the collection, under an API
version.  The version and the token decide what the server answers; the network
and the framework, which carry the request and the answer, are a parameter.
-/

namespace SoftwareEntitlement

open Interleaving SoftwareEntitlementsController

/-! ## What a client posts -/

/-- The bodies of the two clients, which differ in the order of the names. -/
inductive PostsToken (token applicationId : String) : Json → Prop
  | tokenFirst : PostsToken token applicationId
      (.object [("token", .string token),
        ("applicationId", .string applicationId)])
  | applicationFirst : PostsToken token applicationId
      (requestBody token applicationId)

/-- The request to the collection which presents a token. -/
def postedRequest (version token applicationId : String)
    (remoteIpAddress : IPAddress) : HttpRequest where
  method := .post
  path := ["softwareEntitlements"]
  query := [(ApiVersions.parameterName, version)]
  remoteIpAddress := remoteIpAddress
  body := {
    approve := some ⟨⟨some token, some applicationId⟩⟩
    acquire := some ⟨⟨some token, some applicationId⟩, none⟩
    renew := some ⟨none⟩ }

/-- What lies between a client and the controller. -/
structure HttpStack where
  urlEncode : String → String
  /-- The path and the query for which libcurl asks the host of a URL. -/
  target : String → String × String
  /-- The request as the controller sees it: the path and the query of a POST,
  its body and the address of the client. -/
  receive : String → String → Json → IPAddress → HttpRequest

/-- The characters of an API version and of its name. -/
def isPlain (c : Char) : Bool := c.isAlphanum || c == '-' || c == '.'

/-- What can stand between the scheme of a URL and its path. -/
def IsAuthority (host : String) : Prop :=
  ∀ c ∈ host.toList, c ≠ '/' ∧ c ≠ '?' ∧ c ≠ '#' ∧ c ≠ Char.ofNat 0

structure HttpStack.Conveys (stack : HttpStack) : Prop where
  plain : ∀ text : String,
    text.toList.all isPlain = true → stack.urlEncode text = text
  /-- The target of a URL which has no fragment. -/
  targets : ∀ host path query : String, IsAuthority host →
    path.toList.all isPlain = true →
    query.toList.all (fun c => isPlain c || c == '=') = true →
      stack.target ("https://" ++ host ++ "/" ++ (path ++ "?" ++ query)) =
        ("/" ++ path, query)
  posts : ∀ version token applicationId body remoteIpAddress,
    PostsToken token applicationId body →
      stack.receive "/softwareEntitlements"
          (stack.urlEncode ApiVersions.parameterName ++ "=" ++
            stack.urlEncode version) body remoteIpAddress =
        postedRequest version token applicationId remoteIpAddress

structure HttpReply where
  statusCode : ℕ
  content : String

/-- The reply which the framework makes of an outcome.  Where the controller
has no result, it makes an error of its own. -/
structure HttpOutcome.RepliedWith (json : JsonLibraries)
    (outcome : HttpOutcome) (reply : HttpReply) : Prop where
  statusCode : ∀ code, outcome.statusCode = some code → reply.statusCode = code
  content : ∀ code value,
    outcome.result = .actionResult (.objectResult code value) →
      reply.content = json.write value
  failure : outcome.statusCode = none → 400 ≤ reply.statusCode

/-! ## What the server answers -/

/-- The action which approves under a version. -/
inductive Approves : String → Action → Prop
  | v1 {version : String}
      (hversion : version ∈ [ApiVersions.may012017, ApiVersions.june012017]) :
      Approves version .approveV1
  | v2 {version : String}
      (hversion : version ∈ [ApiVersions.sept012017, ApiVersions.march012018,
        ApiVersions.august012018]) :
      Approves version .approveV2

/-- The answer to a posted token. -/
inductive AnswersPost {ι : Type} [DecidableEq ι] (services : Services)
    (version token : String) (verification : TokenVerificationRequest)
    (thread : ι) (past : List (Event ι)) : HttpResult → Prop
  | decided {action : Action} {response : Throws Response}
      (happroves : Approves version action)
      (hdecides : DecidesToken services thread verification token
        (fun tokenProperties guid =>
          ⟨200, action.approval tokenProperties.virtualMachineId
            tokenProperties.notAfter guid⟩)
        response (ownEvents thread past)) :
      AnswersPost services version token verification thread past
        (.ofOutcome response)
  /-- Nothing is approved without a token and an application.  An entitlement is
  not acquired without a duration, nor under a version which is not supported. -/
  | refused (message : String)
      (hrefused : token ≠ "" → verification.applicationId ≠ "" →
        ∀ action, ¬Approves version action) :
      AnswersPost services version token verification thread past
        (.actionResult (.objectResult 400
          (.failure "EntitlementDenied" { value := message })))

section Answers

variable {services : Services} {version token applicationId : String}
  {remoteIpAddress : IPAddress}

theorem resource_postedRequest (runtime : Runtime)
    (version token applicationId : String) (remoteIpAddress : IPAddress) :
    (postedRequest version token applicationId remoteIpAddress).resource
      runtime = some .collection := by
  simp [HttpRequest.resource, postedRequest, Runtime.equalsOrdinalIgnoreCase]

theorem specifiedVersion_postedRequest (runtime : Runtime)
    (version token applicationId : String) (remoteIpAddress : IPAddress) :
    (postedRequest version token applicationId
      remoteIpAddress).specifiedVersion runtime = some version := by
  simp [HttpRequest.specifiedVersion, postedRequest, IQueryCollection.item,
    IQueryCollection.values, Runtime.equalsOrdinalIgnoreCase]

theorem routes_of_approves {action : Action}
    (happroves : Approves version action) :
    Routes services.runtime
      (postedRequest version token applicationId remoteIpAddress) action := by
  cases happroves with
  | v1 hversion =>
      exact .approveV1 _ (resource_postedRequest _ _ _ _ _) rfl
        (specifiedVersion_postedRequest _ _ _ _ _) hversion
  | v2 hversion =>
      exact .approveV2 _ (resource_postedRequest _ _ _ _ _) rfl
        (specifiedVersion_postedRequest _ _ _ _ _) hversion

theorem Approves.action_eq {action : Action}
    (happroves : Approves version action) :
    action = .approveV1 ∨ action = .approveV2 := by
  cases happroves with
  | v1 => exact .inl rfl
  | v2 => exact .inr rfl

def RefusesAtOnce (services : Services)
    (serverOptions : SoftwareEntitlementsController.ServerOptions)
    (request : HttpRequest) : Prop :=
  ∃ message stopApplication, request.process services serverOptions =
    .done ⟨.actionResult (.objectResult 400
      (.failure "EntitlementDenied" { value := message })), stopApplication⟩

theorem refusesAtOnce_of_not_approves
    (serverOptions : SoftwareEntitlementsController.ServerOptions)
    (hversion : ∀ action, ¬Approves version action) :
    RefusesAtOnce services serverOptions
      (postedRequest version token applicationId remoteIpAddress) := by
  have hresource := resource_postedRequest services.runtime version token
    applicationId remoteIpAddress
  have hspecified := specifiedVersion_postedRequest services.runtime version
    token applicationId remoteIpAddress
  obtain ⟨action, hroutes⟩ := Routes.exists_of_collection hresource rfl
  simp only [RefusesAtOnce, HttpRequest.process,
    selectAction_of_routes hroutes]
  cases hroutes with
  | missingApiVersion _ _ hmissing => cases hspecified.symm.trans hmissing
  | invalidApiVersion => exact ⟨_, _, rfl⟩
  | approveV1 other _ _ hother hvalid =>
      obtain rfl := Option.some.inj (hspecified.symm.trans hother)
      exact absurd (.v1 hvalid) (hversion _)
  | approveV2 other _ _ hother hvalid =>
      obtain rfl := Option.some.inj (hspecified.symm.trans hother)
      exact absurd (.v2 hvalid) (hversion _)
  | acquire => exact ⟨_, _, rfl⟩
  | renew id hitem => cases hresource.symm.trans hitem
  | release id hitem => cases hresource.symm.trans hitem

theorem refusesAtOnce_of_not_extracted
    (serverOptions : SoftwareEntitlementsController.ServerOptions)
    {action : Action} (happroves : Approves version action) {errors : ErrorSet}
    (hextracted : extractVerificationRequest
      (some ⟨some token, some applicationId⟩) remoteIpAddress =
        .error errors) :
    RefusesAtOnce services serverOptions
      (postedRequest version token applicationId remoteIpAddress) := by
  have hroutes : Routes services.runtime (postedRequest version token
    applicationId remoteIpAddress) action := routes_of_approves happroves
  have hbody : (postedRequest version token applicationId
      remoteIpAddress).body.approve =
        some ⟨⟨some token, some applicationId⟩⟩ := rfl
  have haddress : (postedRequest version token applicationId
      remoteIpAddress).remoteIpAddress = remoteIpAddress := rfl
  refine ⟨errors.joined, serverOptions.exitAfterRequest, ?_⟩
  simp only [HttpRequest.process, selectAction_of_routes hroutes]
  rcases happroves.action_eq with rfl | rfl
  · simp only [invoke, handleRequest, ApproveV1RequestHandler.handle, hbody,
      haddress, Option.map_some, extractVerificationRequestClause, hextracted]
    rfl
  · simp only [invoke, handleRequest, ApproveV2RequestHandler.handle, hbody,
      haddress, Option.map_some, extractVerificationRequestClause, hextracted]
    rfl

variable {ι : Type} [DecidableEq ι]
  {serverOptions : SoftwareEntitlementsController.ServerOptions}
  {requests : ι → HttpRequest} {pool : HttpPool ι} {thread : ι}
  {outcome : HttpOutcome}

theorem HttpPool.answersPost_of_refusesAtOnce
    (hreachable : HttpPool.Reachable services serverOptions requests pool)
    (hrequest : requests thread =
      postedRequest version token applicationId remoteIpAddress)
    (hdone : pool.threads thread = .done outcome)
    (hrefuses : RefusesAtOnce services serverOptions
      (postedRequest version token applicationId remoteIpAddress))
    (hrefused : token ≠ "" → applicationId ≠ "" →
      ∀ action, ¬Approves version action) :
    AnswersPost services version token ⟨applicationId, remoteIpAddress⟩ thread
      pool.shared.past outcome.result := by
  obtain ⟨message, stopApplication, hprocess⟩ := hrefuses
  let start := HttpPool.start services serverOptions requests
  have hobeys : (start.threads thread).Obeys (serverLog.label thread)
      (fun _ _ => True)
      (fun outcome _ => outcome.result = .actionResult (.objectResult 400
        (.failure "EntitlementDenied" { value := message })))
      (serverLog.own thread (serverLog.entries start.shared)) := by
    change ((requests thread).process services serverOptions).Obeys _ _ _ _
    rw [hrequest, hprocess]
    rfl
  rw [Log.post_of_reaches hobeys hreachable hdone]
  exact .refused message hrefused

/-- Whatever the other requests do, the answer to a posted token is the
decision on it, or a refusal of the request. -/
theorem HttpPool.answersPost_of_done
    (hreachable : HttpPool.Reachable services serverOptions requests pool)
    (hrequest : requests thread =
      postedRequest version token applicationId remoteIpAddress)
    (hdone : pool.threads thread = .done outcome) :
    AnswersPost services version token ⟨applicationId, remoteIpAddress⟩ thread
      pool.shared.past outcome.result := by
  by_cases happroves : ∃ action, Approves version action
  · obtain ⟨action, happroves⟩ := happroves
    cases hextracted : extractVerificationRequest
        (some ⟨some token, some applicationId⟩) remoteIpAddress with
    | error errors =>
        refine HttpPool.answersPost_of_refusesAtOnce hreachable hrequest hdone
          (refusesAtOnce_of_not_extracted serverOptions happroves hextracted) ?_
        intro htoken happlication
        simp [extractVerificationRequest, isNullOrEmpty, htoken,
          happlication] at hextracted
    | ok extracted =>
        have hpresented : extracted =
            (⟨applicationId, remoteIpAddress⟩, token) := by
          simp only [extractVerificationRequest, Option.getD_some] at hextracted
          split at hextracted
          · cases hextracted
          · split at hextracted
            · cases hextracted
            · exact (Except.ok.inj hextracted).symm
        have hbody : extractVerificationRequest
            ((requests thread).body.approve.map
              ApproveRequestBody.toIVerificationRequestBody)
            (requests thread).remoteIpAddress =
              .ok (⟨applicationId, remoteIpAddress⟩, token) := by
          rw [hrequest, ← hpresented]
          exact hextracted
        obtain ⟨response, rfl, hdecides⟩ := HttpPool.approval_of_done hreachable
          happroves.action_eq (hrequest ▸ routes_of_approves happroves) hbody
          hdone
        exact .decided happroves hdecides
  · have hversion : ∀ action, ¬Approves version action :=
      fun action haction => happroves ⟨action, haction⟩
    exact HttpPool.answersPost_of_refusesAtOnce hreachable hrequest hdone
      (refusesAtOnce_of_not_approves serverOptions hversion)
      fun _ _ => hversion

end Answers

/-! ## A stack and its replies -/

def plainStack : HttpStack where
  urlEncode := id
  target url :=
    let target := (url.toList.drop 8).dropWhile (· ≠ '/')
    (String.ofList (target.takeWhile (· ≠ '?')),
      String.ofList ((target.dropWhile (· ≠ '?')).drop 1))
  receive path query body remoteIpAddress :=
    let text (name : String) :=
      match body with
      | .object members =>
          match members.lookup name with
          | some (.string value) => some value
          | _ => none
      | _ => none
    { method := .post
      path := [String.ofList (path.toList.drop 1)]
      query := [(String.ofList (query.toList.takeWhile (· ≠ '=')),
        String.ofList ((query.toList.dropWhile (· ≠ '=')).drop 1))]
      remoteIpAddress := remoteIpAddress
      body := {
        approve := some ⟨⟨text "token", text "applicationId"⟩⟩
        acquire := some ⟨⟨text "token", text "applicationId"⟩, text "duration"⟩
        renew := some ⟨text "duration"⟩ } }

theorem target_plainStack {host path query : String} (hhost : IsAuthority host)
    (hpath : path.toList.all isPlain = true) :
    plainStack.target ("https://" ++ host ++ "/" ++ (path ++ "?" ++ query)) =
      ("/" ++ path, query) := by
  have hscheme : "https://".toList.drop 8 = [] := by decide
  have hslash : ∀ c ∈ host.toList, decide (c ≠ '/') = true := by
    simpa using fun c hc => (hhost c hc).1
  have hmark : ∀ c ∈ '/' :: path.toList, decide (c ≠ '?') = true := by
    intro c hc
    rcases List.mem_cons.mp hc with rfl | hc
    · decide
    · have hplain := List.all_eq_true.mp hpath c hc
      rw [decide_eq_true_eq]
      rintro rfl
      cases hplain
  have htarget : (("https://" ++ host ++ "/" ++
      (path ++ "?" ++ query)).toList.drop 8).dropWhile (· ≠ '/') =
        ('/' :: path.toList) ++ '?' :: query.toList := by
    simp only [String.toList_append, List.append_assoc]
    rw [List.drop_append_of_le_length (by decide), hscheme, List.nil_append,
      List.dropWhile_append_of_pos hslash]
    rfl
  simp only [plainStack, htarget]
  rw [List.takeWhile_append_of_pos hmark, List.dropWhile_append_of_pos hmark]
  simp

theorem conveys_plainStack : plainStack.Conveys where
  plain _ _ := rfl
  targets _ _ _ hhost hpath _ := target_plainStack hhost hpath
  posts version token applicationId body remoteIpAddress hbody := by
    cases hbody <;>
      simp [plainStack, postedRequest, ApiVersions.parameterName, requestBody,
        List.lookup_cons]

def replyOf (json : JsonLibraries) (outcome : HttpOutcome) : HttpReply where
  statusCode := outcome.statusCode.getD 500
  content :=
    match outcome.result with
    | .actionResult (.objectResult _ value) => json.write value
    | _ => ""

theorem repliedWith_replyOf (json : JsonLibraries) (outcome : HttpOutcome) :
    outcome.RepliedWith json (replyOf json outcome) where
  statusCode code hcode := by simp [replyOf, hcode]
  content code value hresult := by simp [replyOf, hresult]
  failure hnone := by simp [replyOf, hnone]

end SoftwareEntitlement
