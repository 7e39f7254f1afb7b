import SoftwareEntitlement.PostedRequests
import SoftwareEntitlement.SesclientNative
import SoftwareEntitlement.WireFormat

/-!
# The native command and the server

`sesclient.native` may ask several times, and the server answers each time.
The first answer which the command reads from a pinned server decides how it
ends, and this answer is the decision on the token.
-/

namespace SoftwareEntitlement

open Interleaving RetryLoop SoftwareEntitlementsController TracedOutcome

/-! ## The attempt which is answered -/

/-- The attempt reads a response, and its certificate chain is pinned. -/
structure Exchange.Completes (exchange : Exchange) (call : ClientCall)
    (url : String) : Prop extends exchange.Transfers where
  performed : exchange.performed = 0
  certInfo : exchange.certInfo.code = 0
  pinned : verifyIntermediateCertificate url call.sslCerts
    exchange.certInfo.value = .ok ()
  responseCode : exchange.responseCode.code = 0

def Exchange.reply (exchange : Exchange) : HttpReply :=
  ⟨exchange.responseCode.value, exchange.response⟩

section Attempts

variable {call : ClientCall} {url : String} {exchange : Exchange}
  {exchanges : ℕ → Exchange} {n : ℕ}

theorem Exchange.Entitles.completes {entitlement : Entitlement}
    (hentitles : exchange.Entitles call url entitlement) :
    exchange.Completes call url where
  toTransfers := hentitles.toTransfers
  performed := hentitles.performed
  certInfo := hentitles.certInfo
  pinned := hentitles.pinned
  responseCode := by rw [hentitles.responseCode]

theorem ClientCall.attempt_of_completes
    (hcompletes : exchange.Completes call url) :
    (call.attempt url exchange).outcome =
      interpretResponse call.json exchange.reply.statusCode
        exchange.reply.content := by
  rw [attempt, Curl.outcome_of_transfers hcompletes.toTransfers]
  unfold Curl.afterTransfer Curl.verifyChain Curl.readEntitlement
  simp only [hcompletes.performed, hcompletes.certInfo, hcompletes.pinned,
    hcompletes.responseCode, Curl.throwIfCurlError_zero, Traced.pure_bind]
  rfl

/-- An attempt which completes is not retried. -/
theorem ClientCall.inLoop_of_completes
    (hcompletes : exchange.Completes call url) :
    call.inLoop url exchange =
      some (interpretResponse call.json exchange.reply.statusCode
        exchange.reply.content) := by
  have hcode := curlCode_interpretResponse call.json exchange.reply.statusCode
    exchange.reply.content
  rw [inLoop, attempt_of_completes hcompletes]
  generalize interpretResponse call.json exchange.reply.statusCode
    exchange.reply.content = outcome at hcode
  rcases outcome with (message | ⟨code, message⟩ | message | code) | entitlement
  case error.curlException => cases hcode
  all_goals rfl

theorem ClientCall.getEntitlement_of_completes
    (hbound : call.retries.toNat ≠ 2 ^ 32 - 1)
    (hchecked : checkUrl call.url = .ok url)
    (hmakes : call.Makes url exchanges n)
    (hcompletes : (exchanges n).Completes call url) :
    call.getEntitlement exchanges =
      some (interpretResponse call.json (exchanges n).reply.statusCode
        (exchanges n).reply.content) := by
  have hretried : ∀ k < n, call.inLoop url (exchanges k) = none :=
    fun k hk => inLoop_eq_none_iff.mpr (hmakes.1 k hk)
  have hn : n ≤ call.retries.toNat := hmakes.2.resolve_right hbound
  have hfinished : call.loop url exchanges (call.retries.toNat + 1) =
      .finished (interpretResponse call.json (exchanges n).reply.statusCode
        (exchanges n).reply.content) := by
    refine (finished_iff hbound).mpr ?_
    rcases hn.lt_or_eq with hlt | rfl
    · exact .inl ⟨n, hlt, hretried, inLoop_of_completes hcompletes⟩
    · exact .inr ⟨hretried, attempt_of_completes hcompletes⟩
  simp only [getEntitlement, progress, hchecked, hfinished]

end Attempts

/-! ## The call which the command makes -/

namespace SesclientNative

variable {platform : Platform} {arguments : List String}
  {parameters : List (String × String)} {call : ClientCall}

theorem Gives.unique {name first second : String}
    (hfirst : Gives parameters name first)
    (hsecond : Gives parameters name second) : first = second :=
  Option.some.inj ((lookup_reverse_eq_some_iff.mpr hfirst).symm.trans
    (lookup_reverse_eq_some_iff.mpr hsecond))

theorem Gives.not_omits {name value : String}
    (hgives : Gives parameters name value) : ¬Omits parameters name := by
  obtain ⟨before, after, rfl, -⟩ := hgives
  exact fun homits => homits (name, value) (by simp) rfl

theorem readToken_of_presents {parser : ParameterParser}
    (hparses : Parses parameters parser.parameters) {token : String}
    (hpresents : Presents platform parameters token) :
    readToken platform parser = .ok token := by
  unfold readToken
  cases hpresents with
  | given hgives hne => simp [find_of_gives hparses hgives, hne]
  | read hgives hread => simp [find_of_gives hparses hgives, hread]

theorem configureConnection_of_pins {parser : ParameterParser}
    (hparses : Parses parameters parser.parameters) {sslCerts : List CertInfo}
    (hpins : Pins parameters sslCerts) :
    configureConnection parser microsoftIntermediateCerts =
      .ok (.ok sslCerts) := by
  unfold configureConnection
  cases hpins with
  | builtIn hthumbprint hcommonName =>
      simp [(contains_eq_false_iff hparses _).mpr hthumbprint,
        (contains_eq_false_iff hparses _).mpr hcommonName]
  | added hthumbprint hcommonName hparse =>
      have hgiven : ∀ {name value : String}, Gives parameters name value →
          parser.contains name = true := fun hgives =>
        Bool.not_eq_false _ |>.mp fun hfalse =>
          hgives.not_omits ((contains_eq_false_iff hparses _).mp hfalse)
      simp [hgiven hthumbprint, hgiven hcommonName,
        find_of_gives hparses hthumbprint, find_of_gives hparses hcommonName,
        PinCall.perform, hparse, bind, Except.bind, pure, Except.pure]

/-- A command line which is in order makes the call for which it asks. -/
theorem main_eq_request (exeName : String)
    (haccepts : Accepts platform arguments parameters)
    (hcalls : Calls platform parameters call) :
    main platform exeName arguments = request platform call := by
  obtain ⟨parser, hparse, hparses, -, hflag⟩ :=
    parse_of_reads haccepts.toReads
  have hnone : ¬parser.hasConfigurationError = true :=
    mt hflag.mp fun ⟨message, hproblem⟩ => haccepts.names message hproblem
  obtain ⟨json, windows, sslCerts, url, token, application, retries⟩ := call
  obtain ⟨rfl, rfl, hpins, hurl, htoken, happlication, rfl⟩ := hcalls
  simp only [main, initializer, haccepts.initialised, ne_eq, not_true_eq_false,
    if_false, hparse, Bool.false_eq_true, hnone, submit,
    readToken_of_presents hparses htoken, PinCall.apply, PinCall.perform,
    List.nil_append, configureConnection_of_pins hparses hpins,
    find_of_gives hparses hurl, find_of_gives hparses happlication]

/-! ## How the command ends -/

/-- The end of the command when `thread` has answered its request. -/
inductive Decided {ι : Type} (services : Services) (call : ClientCall)
    (remoteIpAddress : IPAddress) (thread : ι) (past : List (Event ι)) :
    Run → Prop
  | granted {now : DateTimeOffset} {guid : Guid}
      {tokenProperties : EntitlementTokenProperties} {virtualMachineId : String}
      (hread : ⟨thread, .validationTime, now⟩ ∈ past)
      (hverify : TokenVerifier.verify services.runtime
        services.tokenPropertyParser now
          ⟨call.requestedEntitlement, remoteIpAddress⟩ call.entitlementToken =
        .ok (.ok tokenProperties))
      (hmachine : tokenProperties.virtualMachineId = some virtualMachineId)
      (hguid : ⟨thread, .newGuid, guid⟩ ∈ past) :
      Decided services call remoteIpAddress thread past
        ⟨0, ["entitlement-" ++ guid.toString], [], some call⟩
  /-- The server approves the token, and the client misses a name in its
  response. -/
  | withoutMachine {now : DateTimeOffset}
      {tokenProperties : EntitlementTokenProperties} (message : String)
      (hread : ⟨thread, .validationTime, now⟩ ∈ past)
      (hverify : TokenVerifier.verify services.runtime
        services.tokenPropertyParser now
          ⟨call.requestedEntitlement, remoteIpAddress⟩ call.entitlementToken =
        .ok (.ok tokenProperties))
      (hmachine : tokenProperties.virtualMachineId = none) :
      Decided services call remoteIpAddress thread past
        (.caught message (some call))
  | denied {now : DateTimeOffset} {errors : ErrorSet}
      (hread : ⟨thread, .validationTime, now⟩ ∈ past)
      (hverify : TokenVerifier.verify services.runtime
        services.tokenPropertyParser now
          ⟨call.requestedEntitlement, remoteIpAddress⟩ call.entitlementToken =
        .ok (.error errors)) :
      Decided services call remoteIpAddress thread past
        (.caught (cString ("Entitlement for " ++ call.requestedEntitlement ++
          " was denied.")) (some call))
  | thrown {now : DateTimeOffset} {exception : ClrException}
      (message : String) (hread : ⟨thread, .validationTime, now⟩ ∈ past)
      (hverify : TokenVerifier.verify services.runtime
        services.tokenPropertyParser now
          ⟨call.requestedEntitlement, remoteIpAddress⟩ call.entitlementToken =
        .error exception) :
      Decided services call remoteIpAddress thread past
        (.caught message (some call))
  | notPresented (message : String)
      (hmissing : call.entitlementToken = "" ∨ call.requestedEntitlement = "") :
      Decided services call remoteIpAddress thread past
        (.caught message (some call))

section Answers

variable {ι : Type} [DecidableEq ι] {services : Services}
  {url host : String} {stack : HttpStack} {remoteIpAddress : IPAddress}
  {thread : ι} {past : List (Event ι)} {outcome : HttpOutcome}
  {reply : HttpReply}

theorem target_posted (hconveys : stack.Conveys)
    (hurl : url = "https://" ++ host ++ "/") (hhost : IsAuthority host) :
    stack.target
        (cString (url ++ "softwareEntitlements?api-version=2017-05-01.5.0")) =
      ("/softwareEntitlements", "api-version=2017-05-01.5.0") := by
  have hwhole : ¬HasNull
      (url ++ "softwareEntitlements?api-version=2017-05-01.5.0") := by
    have hscheme : ¬HasNull "https://" := by decide
    have hslash : ¬HasNull "/" := by decide
    have hservice :
        ¬HasNull "softwareEntitlements?api-version=2017-05-01.5.0" := by decide
    have hname : ¬HasNull host := fun hnull => (hhost _ hnull).2.2.2 rfl
    simp only [hurl, hasNull_append, hscheme, hslash, hservice, hname, or_self,
      not_false_eq_true]
  have hservice : "softwareEntitlements?api-version=2017-05-01.5.0" =
      "softwareEntitlements" ++ "?" ++ "api-version=2017-05-01.5.0" := by decide
  rw [cString_eq_self_iff.mpr hwhole, hurl, hservice]
  exact hconveys.targets host _ _ hhost (by decide) (by decide)

theorem receive_posted (hconveys : stack.Conveys)
    (hurl : url = "https://" ++ host ++ "/") (hhost : IsAuthority host)
    (token applicationId : String) :
    stack.receive
        (stack.target (cString
          (url ++ "softwareEntitlements?api-version=2017-05-01.5.0"))).1
        (stack.target (cString
          (url ++ "softwareEntitlements?api-version=2017-05-01.5.0"))).2
        (requestBody token applicationId) remoteIpAddress =
      postedRequest ApiVersions.may012017 token applicationId
        remoteIpAddress := by
  have hquery : "api-version=2017-05-01.5.0" =
      stack.urlEncode ApiVersions.parameterName ++ "=" ++
        stack.urlEncode ApiVersions.may012017 := by
    rw [hconveys.plain ApiVersions.parameterName (by decide),
      hconveys.plain ApiVersions.may012017 (by decide)]
    decide
  rw [target_posted hconveys hurl hhost, hquery]
  exact hconveys.posts _ _ _ _ _ .applicationFirst

theorem interpretResponse_of_ne (json : JsonLibraries) {code : ℕ}
    (content : String) (hcode : code ≠ 200) :
    ∃ message, interpretResponse json code content =
      .error (.exception message) :=
  ⟨_, if_neg hcode⟩

theorem interpretResponse_write (json : JsonLibraries) (code : ℕ)
    (value : IResponseValue) :
    interpretResponse json code (json.write value) =
      receive json ⟨code, some value⟩ := rfl

/-- What the client makes of a reply is what the server has decided. -/
theorem decided_of_answersPost (hjson : call.json.RoundTrip)
    (hanswers : AnswersPost services ApiVersions.may012017
      call.entitlementToken ⟨call.requestedEntitlement, remoteIpAddress⟩ thread
      past outcome.result)
    (hreplied : outcome.RepliedWith call.json reply) :
    Decided services call remoteIpAddress thread past
      (.ofResult call
        (interpretResponse call.json reply.statusCode reply.content)) := by
  have happroves : Approves ApiVersions.may012017 .approveV1 := .v1 (by decide)
  generalize hresult : outcome.result = result at hanswers
  cases hanswers with
  | refused message hrefused =>
      have hstatus : reply.statusCode = 400 := hreplied.statusCode 400 (by
        rw [HttpOutcome.statusCode, hresult])
      obtain ⟨text, hinterpret⟩ := interpretResponse_of_ne call.json
        reply.content (hstatus.trans_ne (by decide))
      rw [hinterpret]
      refine .notPresented (cString text) ?_
      by_contra hpresented
      rw [not_or] at hpresented
      exact hrefused hpresented.1 hpresented.2 _ happroves
  | @decided action response hversion hdecides =>
      obtain rfl : action = .approveV1 := by
        cases hversion with
        | v1 => rfl
        | v2 hversion => exact absurd hversion (by decide)
      obtain ⟨now, hread, hdecides⟩ := hdecides
      have hread := mem_ownEvents.mp hread
      rcases hverify : TokenVerifier.verify services.runtime
        services.tokenPropertyParser now
        ⟨call.requestedEntitlement, remoteIpAddress⟩ call.entitlementToken with
        exception | (errors | tokenProperties)
      · simp only [hverify] at hdecides
        subst hdecides
        have hstatus := hreplied.failure (by
          rw [HttpOutcome.statusCode, hresult]
          rfl)
        have hne : reply.statusCode ≠ 200 := by omega
        obtain ⟨text, hinterpret⟩ :=
          interpretResponse_of_ne call.json reply.content hne
        rw [hinterpret]
        exact .thrown (cString text) hread hverify
      · simp only [hverify] at hdecides
        subst hdecides
        have hstatus := hreplied.statusCode 403 (by
          rw [HttpOutcome.statusCode, hresult]
          rfl)
        have hcontent := hreplied.content 403 _ hresult
        rw [hstatus, hcontent, interpretResponse_write,
          receive_failure hjson (.inr rfl) rfl]
        exact .denied hread hverify
      · simp only [hverify] at hdecides
        obtain ⟨guid, hguid, rfl⟩ := hdecides
        have hguid := mem_ownEvents.mp hguid
        have hstatus := hreplied.statusCode 200 (by
          rw [HttpOutcome.statusCode, hresult]
          rfl)
        have hcontent := hreplied.content 200 _ hresult
        rw [hstatus, hcontent, interpretResponse_write]
        cases hmachine : tokenProperties.virtualMachineId with
        | none =>
            have hvalue : (Response.createSuccess (.approveV1Success
                ("entitlement-" ++ guid.toString) none)).value = some _ := rfl
            obtain ⟨message, hreceive⟩ :=
              receive_approval_withoutVmId hjson (by rfl) hvalue
            rw [Response.createSuccess] at hreceive
            rw [hreceive]
            exact .withoutMachine (cString message) hread hverify hmachine
        | some virtualMachineId =>
            rw [receive_approval hjson rfl rfl]
            exact .granted hread hverify hmachine hguid

end Answers

/-- The server answers attempt number `n` with `thread`, and the client reads
the reply. -/
structure Serves {ι : Type} (stack : HttpStack) (remoteIpAddress : IPAddress)
    (call : ClientCall) (url : String) (exchange : Exchange)
    (requests : ι → HttpRequest) (pool : HttpPool ι) (thread : ι) : Prop where
  request : requests thread =
    stack.receive
      (stack.target (cString
        (url ++ "softwareEntitlements?api-version=2017-05-01.5.0"))).1
      (stack.target (cString
        (url ++ "softwareEntitlements?api-version=2017-05-01.5.0"))).2
      (requestBody call.entitlementToken call.requestedEntitlement)
      remoteIpAddress
  replies : ∃ outcome, pool.threads thread = .done outcome ∧
    outcome.RepliedWith call.json exchange.reply

/-- Against a server whose answers to the attempts may come in any run, the
command ends with what the server has decided for the first attempt whose
response it reads; without such a response it fails. -/
theorem main_decided (exeName : String)
    (haccepts : Accepts platform arguments parameters)
    (hcalls : Calls platform parameters call) {url host : String}
    (hchecked : checkUrl call.url = .ok url)
    (hurl : url = "https://" ++ host ++ "/") (hhost : IsAuthority host)
    (hjson : platform.json.RoundTrip) {stack : HttpStack}
    (hconveys : stack.Conveys) {ι : Type} [DecidableEq ι]
    {services : Services}
    {serverOptions : SoftwareEntitlementsController.ServerOptions}
    {requests : ι → HttpRequest} {pool : HttpPool ι}
    (hreachable : HttpPool.Reachable services serverOptions requests pool)
    {remoteIpAddress : IPAddress} {thread : ℕ → ι}
    (hserves : ∀ n, (platform.exchanges n).Completes call url →
      Serves stack remoteIpAddress call url (platform.exchanges n) requests
        pool (thread n)) :
    ∃ run, main platform exeName arguments = some run ∧
      (run.exitCode = 0 → ∃ n, call.Makes url platform.exchanges n ∧
        (platform.exchanges n).Completes call url) ∧
      ∀ n, call.Makes url platform.exchanges n →
        (platform.exchanges n).Completes call url →
          Decided services call remoteIpAddress (thread n) pool.shared.past
            run := by
  have hbound : call.retries.toNat ≠ 2 ^ 32 - 1 := by
    rw [hcalls.retries]
    decide
  obtain ⟨result, hreturns⟩ :=
    call.exists_getEntitlement platform.exchanges hbound
  refine ⟨.ofResult call result, ?_, fun hexit => ?_,
    fun n hmakes hcompletes => ?_⟩
  · rw [main_eq_request exeName haccepts hcalls, request, hreturns]
    rfl
  · cases result with
    | error exception => cases hexit
    | ok entitlement =>
        obtain ⟨other, n, hother, hmakes, hentitles⟩ :=
          (ClientCall.getEntitlement_eq_ok_iff hbound).mp hreturns
        obtain rfl := Except.ok.inj (hchecked.symm.trans hother)
        exact ⟨n, hmakes, hentitles.completes⟩
  · have hdecisive := ClientCall.getEntitlement_of_completes hbound hchecked
      hmakes hcompletes
    obtain rfl := Option.some.inj (hreturns.symm.trans hdecisive)
    obtain ⟨hrequest, outcome, hdone, hreplied⟩ := hserves n hcompletes
    rw [receive_posted hconveys hurl hhost] at hrequest
    exact decided_of_answersPost (hcalls.json ▸ hjson)
      (HttpPool.answersPost_of_done hreachable hrequest hdone) hreplied

/-! ## A command which is answered at once -/

/-- An attempt which reads this reply from a server with a built-in pin. -/
def answeredExchange (reply : HttpReply) : Exchange where
  initialised := true
  options := []
  setUrl := 0
  headersAllocated := true
  setHeaders := 0
  setBody := 0
  sendsBody := true
  performed := 0
  errorBuffer := ""
  certInfo := ⟨0, [some ⟨some microsoftItSslSha2.thumbprint.bytes,
    some microsoftItSslSha2.commonName⟩]⟩
  responseCode := ⟨0, reply.statusCode⟩
  response := reply.content
  rootCerts := .ok ()

def answeredPlatform (reply : HttpReply) : Platform where
  json := .reference
  windows := false
  globalInit := 0
  standardInput := none
  exchanges _ := answeredExchange reply

def sampleParameters : List (String × String) :=
  [("--url", "https://localhost"), ("--token", "token"),
    ("--application", "contoso-app")]

def sampleCall : ClientCall where
  json := .reference
  windows := false
  sslCerts := microsoftIntermediateCerts
  url := "https://localhost"
  entitlementToken := "token"
  requestedEntitlement := "contoso-app"
  retries := 5

theorem gives_sampleParameters :
    Gives sampleParameters "--url" "https://localhost" ∧
      Gives sampleParameters "--token" "token" ∧
        Gives sampleParameters "--application" "contoso-app" :=
  ⟨lookup_reverse_eq_some_iff.mp rfl, lookup_reverse_eq_some_iff.mp rfl,
    lookup_reverse_eq_some_iff.mp rfl⟩

theorem accepts_sampleParameters (reply : HttpReply) :
    Accepts (answeredPlatform reply) (argumentsOf sampleParameters)
      sampleParameters := by
  refine ⟨⟨rfl, rfl, by decide⟩, ?_⟩
  rintro _ (⟨hname, homits⟩ | @⟨name, value, hgives, hname⟩)
  · obtain ⟨hurl, htoken, happlication⟩ := gives_sampleParameters
    simp only [mandatoryParameterNames, List.mem_cons, List.not_mem_nil,
      or_false] at hname
    rcases hname with rfl | rfl | rfl
    · exact hurl.not_omits homits
    · exact htoken.not_omits homits
    · exact happlication.not_omits homits
  · obtain ⟨before, after, hparameters, -⟩ := hgives
    have hmem : name ∈ sampleParameters.map Prod.fst := by
      rw [hparameters]
      simp
    have hknown : ∀ known ∈ sampleParameters.map Prod.fst,
        known ∈ mandatoryParameterNames ++ optionalParameterNames := by
      decide
    exact hname (hknown name hmem)

theorem calls_sampleCall (reply : HttpReply) :
    Calls (answeredPlatform reply) sampleParameters sampleCall where
  json := rfl
  windows := rfl
  pins := .builtIn (lookup_reverse_eq_none_iff.mp rfl)
    (lookup_reverse_eq_none_iff.mp rfl)
  url := gives_sampleParameters.1
  token := .given gives_sampleParameters.2.1 (by decide)
  application := gives_sampleParameters.2.2
  retries := rfl

theorem completes_answeredExchange (reply : HttpReply) :
    (answeredExchange reply).Completes sampleCall "https://localhost/" where
  initialised := rfl
  options := by simp [answeredExchange]
  setUrl := rfl
  headersAllocated := rfl
  setHeaders := rfl
  setBody := rfl
  performed := rfl
  certInfo := rfl
  pinned := rfl
  responseCode := rfl

theorem main_decided_sample :
    ∃ pool outcome run,
      HttpPool.Reachable trustingServices exitingOptions
        (fun _ : Unit => postedRequest ApiVersions.may012017 "token"
          "contoso-app" (.v4 5)) pool ∧
      pool.threads () = .done outcome ∧
      main (answeredPlatform (replyOf .reference outcome)) "sesclient"
        (argumentsOf sampleParameters) = some run ∧
      Decided trustingServices sampleCall (.v4 5) () pool.shared.past run := by
  obtain ⟨pool, outcome, hreachable, hdone, -⟩ :=
    HttpPool.exists_answered trustingServices exitingOptions
      (postedRequest ApiVersions.may012017 "token" "contoso-app" (.v4 5))
      referenceMoment
  have hurl : "https://localhost/" = "https://" ++ "localhost" ++ "/" := by
    simp
  have hhost : IsAuthority "localhost" := by
    simp [IsAuthority]
  obtain ⟨run, hrun, -, hdecided⟩ := main_decided "sesclient"
    (accepts_sampleParameters (replyOf .reference outcome))
    (calls_sampleCall _) (by decide) hurl hhost roundTrip_reference
    conveys_plainStack hreachable fun n _ =>
      ⟨(receive_posted conveys_plainStack hurl hhost _ _).symm, outcome, hdone,
        repliedWith_replyOf .reference outcome⟩
  exact ⟨pool, outcome, run, hreachable, hdone, hrun, hdecided 0
    ⟨fun k hk => absurd hk (Nat.not_lt_zero k), .inl (Nat.zero_le _)⟩
    (completes_answeredExchange _)⟩

end SesclientNative

end SoftwareEntitlement
