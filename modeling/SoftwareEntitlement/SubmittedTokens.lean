import SoftwareEntitlement.GenerateAndServe
import SoftwareEntitlement.VerifyCommand

/-!
# Generating, serving and verifying

The three commands of `sestest` together: the exit code of `verify` says whether
`generate` was asked for what is presented, and whether the server read its
clock while the token was in force.
-/

namespace SoftwareEntitlement

open Interleaving SoftwareEntitlementsController

/-! ## A generator and a server which fit together -/

/-- `sestest generate` has issued `token`, and `sestest server` with the same
setup uses `parser`. -/
structure Deployed (platform : GeneratePlatform) (uris : UriLibrary)
    (provider : CommandLineEntitlementPropertyProvider)
    (properties : EntitlementTokenProperties)
    (signingCert encryptionCert : Option X509Certificate2) (token : String)
    (commandLine : ServerCommandLine) (parser : JwtPropertyParser) : Prop where
  separatesClaimTypes : platform.runtime.toRuntime.SeparatesClaimTypes
  parsesAddresses : platform.runtime.toRuntime.ParsesAddresses
  transportsTokens : platform.library.TransportsTokens
  checksLifetimes : platform.library.ChecksLifetimes
  rejectsEmptyLifetimes : RejectsEmptyLifetimes platform.library
    (GenerateCommand.tokenGenerator signingCert encryptionCert)
  issues : GenerateCommand.Issues platform provider properties signingCert
    encryptionCert token
  sameSetup : SameSetup platform.runtime provider.commandLine commandLine
  signing : ∀ certificate, signingCert = some certificate →
    certificate.hasPrivateKey = true
  encryption : ∀ certificate, encryptionCert = some certificate →
    certificate.Usable platform.library
  serves : ∃ options, ServerOptionBuilder.build (platform.server uris)
    commandLine = .ok (.ok options) ∧ options.parser = .ok parser

section Deployment

variable {platform : GeneratePlatform} {uris : UriLibrary}
  {provider : CommandLineEntitlementPropertyProvider}
  {properties : EntitlementTokenProperties}
  {signingCert encryptionCert : Option X509Certificate2} {token : String}
  {commandLine : ServerCommandLine} {parser : JwtPropertyParser}

theorem Deployed.lifetime
    (hdeployed : Deployed platform uris provider properties signingCert
      encryptionCert token commandLine parser) :
    properties.notBefore < properties.notAfter :=
  (generate_iff platform.runtime.toRuntime
    hdeployed.rejectsEmptyLifetimes).mp ⟨token, hdeployed.issues.token⟩

theorem Deployed.token_ne_empty
    (hdeployed : Deployed platform uris provider properties signingCert
      encryptionCert token commandLine parser) : token ≠ "" :=
  SoftwareEntitlement.token_ne_empty hdeployed.transportsTokens
    hdeployed.issues.token

/-- The server verifies the token for what the generator was asked for. -/
theorem Deployed.verify
    (hdeployed : Deployed platform uris provider properties signingCert
      encryptionCert token commandLine parser)
    (now : DateTimeOffset) (request : TokenVerificationRequest) :
    ∃ result, TokenVerifier.verify platform.runtime.toRuntime
        (parser.parse platform.runtime.toRuntime platform.library) now request
        token = .ok result ∧
      (∀ verified, result = .ok verified → properties.RoundTrips verified) ∧
      ((∃ verified, result = .ok verified) ↔
        WithinLifetime properties.notBefore properties.notAfter now ∧
          provider.commandLine.Allows platform.toCommandLinePlatform
            request) := by
  obtain ⟨options, hserver, hparser⟩ := hdeployed.serves
  have hmatches := matches_of_sameSetup hdeployed.issues hdeployed.lifetime
    hdeployed.sameSetup hdeployed.signing hdeployed.encryption hserver hparser
  obtain ⟨result, hverify, hround, hok⟩ := verify_generated
    hdeployed.separatesClaimTypes hdeployed.parsesAddresses
    hdeployed.transportsTokens hdeployed.checksLifetimes
    (writable_of_build hdeployed.issues.build hdeployed.lifetime) hmatches
    hdeployed.issues.token now request
  refine ⟨result, hverify, hround, hok.trans ?_⟩
  exact and_congr_right fun _ => grants_iff_allows hdeployed.issues.build request

end Deployment

/-! ## What the exit code says -/

/-- The exit code of `sestest verify`, when its request is answered by `thread`
in a run of the server. -/
structure VerifyCommand.Verdict {ι : Type} (platform : CommandLinePlatform)
    (commandLine : GenerateCommandLine) (notBefore notAfter : DateTimeOffset)
    (version : String) (verification : TokenVerificationRequest) (thread : ι)
    (past : List (Event ι)) (exitCode : ℤ) : Prop where
  exits : exitCode = ResultCodes.success ∨ exitCode = ResultCodes.failed
  /-- Versions under which nothing is approved. -/
  unsupported : (∀ action, ¬Approves version action) →
    exitCode = ResultCodes.failed
  decided : ∀ action, Approves version action →
    ∃ now, ⟨thread, .validationTime, now⟩ ∈ past ∧
      (exitCode = ResultCodes.success ↔
        WithinLifetime notBefore notAfter now ∧
          commandLine.Allows platform verification)

section Exit

variable {client : VerifyPlatform} {verifyLine : VerifyCommandLine}
  {server : Uri} {token applicationId version : String} {json : JsonLibraries}
  {reply : HttpReply} {outcome : HttpOutcome}

/-- With an answer, the exit code is a matter of the answer alone. -/
theorem VerifyCommand.exit_eq
    (hfind : VerifyCommand.find client verifyLine =
      .ok (((server, token), applicationId), version))
    (hproxy : ∀ proxyOrigin, client.environment "https_proxy" =
      some proxyOrigin → client.newWebProxy proxyOrigin = .ok ())
    (hpost : client.postAsync (VerifyCommand.submission client server token
      applicationId version) = .ok reply)
    (hlog : ∀ value, client.logJson (json.write value) = .ok ())
    (hcontent : reply.isSuccessStatusCode = true →
      ∃ value, reply.content = json.write value) :
    Program.runCommand (VerifyCommand.execute client verifyLine).outcome =
      if reply.isSuccessStatusCode then ResultCodes.success
      else ResultCodes.failed := by
  have hexits := submitToken_exits client server token applicationId version
  have hexecute : VerifyCommand.execute client verifyLine =
      submitToken client server token applicationId version := by
    simp only [VerifyCommand.execute, hfind]
  rw [hexecute]
  generalize Program.runCommand (submitToken client server token applicationId
    version).outcome = exitCode at hexits
  generalize (submitToken client server token applicationId version).events =
    submitted at hexits
  cases hexits with
  | invalidProxy hset hinvalid =>
      cases (hproxy _ hset).symm.trans hinvalid
  | unanswered _ hfails => cases hpost.symm.trans hfails
  | refused _ hpost' hstatus =>
      obtain rfl := Except.ok.inj (hpost.symm.trans hpost')
      simp [hstatus]
  | unreadable _ hpost' hstatus hjson =>
      obtain rfl := Except.ok.inj (hpost.symm.trans hpost')
      obtain ⟨value, hvalue⟩ := hcontent hstatus
      rw [hvalue, hlog] at hjson
      cases hjson
  | accepted _ hpost' hstatus _ =>
      obtain rfl := Except.ok.inj (hpost.symm.trans hpost')
      simp [hstatus]

theorem VerifyCommand.submitted_eq {stack : HttpStack}
    (hconveys : stack.Conveys) (hencode : client.urlEncode = stack.urlEncode)
    (hroot : client.absolutePath server = "/")
    (remoteIpAddress : IPAddress) :
    stack.receive (VerifyCommand.uri client server version).path
        (VerifyCommand.uri client server version).query
        (VerifyCommand.requestBody token applicationId) remoteIpAddress =
      postedRequest version token applicationId remoteIpAddress := by
  have hpath : (VerifyCommand.uri client server version).path =
      "/softwareEntitlements" := by
    simp [VerifyCommand.uri, hroot]
  have hquery : (VerifyCommand.uri client server version).query =
      stack.urlEncode ApiVersions.parameterName ++ "=" ++
        stack.urlEncode version := by
    simp [VerifyCommand.uri, VerifyCommand.createParameters, hencode,
      ApiVersions.parameterName]
  rw [hpath, hquery]
  exact hconveys.posts _ _ _ _ _ .tokenFirst

theorem isSuccessStatusCode_of_ge {statusCode : ℕ}
    (hstatus : reply.statusCode = statusCode) (hge : 400 ≤ statusCode) :
    reply.isSuccessStatusCode = false := by
  simp only [HttpReply.isSuccessStatusCode, hstatus, Bool.and_eq_false_iff,
    decide_eq_false_iff_not]
  omega

theorem isSuccessStatusCode_ofOutcome {ι : Type} [DecidableEq ι]
    {services : Services} {thread : ι}
    {verification : TokenVerificationRequest} {action : Action}
    {response : Throws Response} {trace : List (Event ι)}
    (happroves : Approves version action)
    (hdecides : DecidesToken services thread verification token
      (fun tokenProperties guid =>
        ⟨200, action.approval tokenProperties.virtualMachineId
          tokenProperties.notAfter guid⟩) response trace)
    (hresult : outcome.result = .ofOutcome response)
    (hreplied : outcome.RepliedWith json reply) :
    (reply.isSuccessStatusCode = true →
      ∃ value, reply.content = json.write value) ∧
    ∃ now, ⟨thread, .validationTime, now⟩ ∈ trace ∧
      (reply.isSuccessStatusCode = true ↔ ∃ tokenProperties,
        TokenVerifier.verify services.runtime services.tokenPropertyParser now
          verification token = .ok (.ok tokenProperties)) := by
  obtain ⟨now, hread, hdecides⟩ := hdecides
  suffices hreply : (reply.isSuccessStatusCode = true →
        ∃ value, reply.content = json.write value) ∧
      (reply.isSuccessStatusCode = true ↔ ∃ tokenProperties,
        TokenVerifier.verify services.runtime services.tokenPropertyParser now
          verification token = .ok (.ok tokenProperties)) from
    ⟨hreply.1, now, hread, hreply.2⟩
  rcases hverify : TokenVerifier.verify services.runtime
    services.tokenPropertyParser now verification token with
    exception | (errors | tokenProperties)
  · simp only [hverify] at hdecides
    subst hdecides
    have hfailure := isSuccessStatusCode_of_ge rfl (hreplied.failure (by
      simp [HttpOutcome.statusCode, hresult, HttpResult.ofOutcome]))
    simp [hfailure]
  · simp only [hverify] at hdecides
    subst hdecides
    have hfailure := isSuccessStatusCode_of_ge (hreplied.statusCode 403 (by
      rw [HttpOutcome.statusCode, hresult]
      rfl)) (by decide)
    simp [hfailure]
  · simp only [hverify] at hdecides
    obtain ⟨guid, -, rfl⟩ := hdecides
    obtain ⟨value, hvalue⟩ : ∃ value, action.approval
        tokenProperties.virtualMachineId tokenProperties.notAfter guid =
          some value := by
      cases happroves <;> exact ⟨_, rfl⟩
    have hobject : outcome.result =
        .actionResult (.objectResult 200 value) := by
      rw [hresult, HttpResult.ofOutcome, createActionResult, hvalue]
    have hstatus : reply.statusCode = 200 := hreplied.statusCode 200 (by
      rw [HttpOutcome.statusCode, hobject])
    refine ⟨fun _ => ⟨value, hreplied.content 200 value hobject⟩, ?_⟩
    simp [HttpReply.isSuccessStatusCode, hstatus]

end Exit

/-- The exit code of `sestest verify` is 0 exactly when the server of a token
which was generated as asked has read its clock while the token was in force,
under a version which approves; in every run, whatever else is requested. -/
theorem VerifyCommand.verdict {platform : GeneratePlatform} {uris : UriLibrary}
    {provider : CommandLineEntitlementPropertyProvider}
    {properties : EntitlementTokenProperties}
    {signingCert encryptionCert : Option X509Certificate2} {token : String}
    {commandLine : ServerCommandLine} {parser : JwtPropertyParser}
    (hdeployed : Deployed platform uris provider properties signingCert
      encryptionCert token commandLine parser)
    {ι : Type} [DecidableEq ι]
    {serverOptions : SoftwareEntitlementsController.ServerOptions}
    {requests : ι → HttpRequest} {pool : HttpPool ι}
    (hreachable : HttpPool.Reachable
      (parser.services platform.runtime.toRuntime platform.library)
      serverOptions requests pool)
    {stack : HttpStack} (hconveys : stack.Conveys) {client : VerifyPlatform}
    (hencode : client.urlEncode = stack.urlEncode)
    {verifyLine : VerifyCommandLine} {server : Uri}
    {applicationId version : String}
    (hfind : VerifyCommand.find client verifyLine =
      .ok (((server, token), applicationId), version))
    (hroot : client.absolutePath server = "/")
    {thread : ι} {remoteIpAddress : IPAddress}
    (hrequest : requests thread =
      stack.receive (VerifyCommand.uri client server version).path
        (VerifyCommand.uri client server version).query
        (VerifyCommand.requestBody token applicationId) remoteIpAddress)
    {outcome : HttpOutcome} (hdone : pool.threads thread = .done outcome)
    {json : JsonLibraries} {reply : HttpReply}
    (hreplied : outcome.RepliedWith json reply)
    (hproxy : ∀ proxyOrigin, client.environment "https_proxy" =
      some proxyOrigin → client.newWebProxy proxyOrigin = .ok ())
    (hpost : client.postAsync (VerifyCommand.submission client server token
      applicationId version) = .ok reply)
    (hlog : ∀ value, client.logJson (json.write value) = .ok ()) :
    VerifyCommand.Verdict platform.toCommandLinePlatform provider.commandLine
      properties.notBefore properties.notAfter version
      ⟨applicationId, remoteIpAddress⟩ thread pool.shared.past
      (Program.runCommand
        (VerifyCommand.execute client verifyLine).outcome) := by
  have happlication : applicationId ≠ "" :=
    ((VerifyCommand.find_describes client verifyLine).2 _ _ _ _
      hfind).application.2
  rw [VerifyCommand.submitted_eq hconveys hencode hroot] at hrequest
  have hanswers := HttpPool.answersPost_of_done hreachable hrequest hdone
  generalize hresult : outcome.result = result at hanswers
  cases hanswers with
  | refused message hrefused =>
      have hversion := hrefused hdeployed.token_ne_empty happlication
      have hfailure : reply.isSuccessStatusCode = false :=
        isSuccessStatusCode_of_ge (hreplied.statusCode 400 (by
          rw [HttpOutcome.statusCode, hresult])) (by decide)
      have hexit := VerifyCommand.exit_eq hfind hproxy hpost hlog (by
        simp [hfailure])
      rw [hfailure] at hexit
      exact ⟨.inr hexit, fun _ => hexit, fun action happroves =>
        absurd happroves (hversion action)⟩
  | decided happroves hdecides =>
      obtain ⟨hcontent, now, hread, hsuccess⟩ :=
        isSuccessStatusCode_ofOutcome happroves hdecides hresult hreplied
      have hexit := VerifyCommand.exit_eq hfind hproxy hpost hlog hcontent
      obtain ⟨verified, hverify, -, hok⟩ := hdeployed.verify now
        ⟨applicationId, remoteIpAddress⟩
      simp only [JwtPropertyParser.services, hverify] at hsuccess
      have hasked : reply.isSuccessStatusCode = true ↔
          WithinLifetime properties.notBefore properties.notAfter now ∧
            provider.commandLine.Allows platform.toCommandLinePlatform
              ⟨applicationId, remoteIpAddress⟩ := by
        rw [hsuccess, ← hok]
        simp
      refine ⟨?_, fun hnone => absurd happroves (hnone _), fun action _ =>
        ⟨now, mem_ownEvents.mp hread, ?_⟩⟩
      · rw [hexit]
        split
        · exact .inl rfl
        · exact .inr rfl
      · rw [hexit, ← hasked]
        cases reply.isSuccessStatusCode <;> decide

/-! ## All three commands on one machine -/

section Machine

/-- A client whose environment names the server, which gives it this reply. -/
def clientOf (reply : HttpReply) : VerifyPlatform where
  environment name :=
    if name = "AZ_BATCH_ACCOUNT_URL" then
      some ServerCommandLine.defaultServerUrl
    else none
  uris := machineUris
  host _ := "localhost"
  port _ := 4443
  absolutePath _ := "/"
  newWebProxy _ := .ok ()
  urlEncode := id
  postAsync _ := .ok reply
  logJson _ := .ok ()

def verifyOf (token : String) : VerifyCommandLine where
  logLevel := none
  logFile := none
  logFileLevel := none
  token := some token
  application := some "contoso-app"
  server := none
  apiVersion := some ApiVersions.march012018

theorem find_verifyOf {token : String} (htoken : token ≠ "")
    (reply : HttpReply) :
    VerifyCommand.find (clientOf reply) (verifyOf token) =
      .ok (((⟨ServerCommandLine.defaultServerUrl⟩, token), "contoso-app"),
        ApiVersions.march012018) := by
  have hgiven : isNullOrEmpty (some token) = false := by
    simpa [isNullOrEmpty] using htoken
  have htokenFound : VerifyCommand.findToken (clientOf reply) (verifyOf token) =
      .ok token := by
    simp [VerifyCommand.findToken, verifyOf, hgiven]
  simp only [VerifyCommand.find, htokenFound]
  rfl

theorem deployed_machine {token : String}
    (hissues : GenerateCommand.Issues machine generateSigned
      (generatedProperties referenceMoment nextMonth) (some machineCertificate)
      (some machineCertificate) token) :
    Deployed machine machineUris generateSigned
      (generatedProperties referenceMoment nextMonth) (some machineCertificate)
      (some machineCertificate) token serveSigned machineParser where
  separatesClaimTypes := separatesClaimTypes_reference
  parsesAddresses := parsesAddresses_reference
  transportsTokens := JwtReference.transportsTokens
  checksLifetimes := JwtReference.checksLifetimes
  rejectsEmptyLifetimes :=
    rejectsEmptyLifetimes_of_holdsPrivatePart (by rintro key ⟨⟩; rfl)
  issues := hissues
  sameSetup := sameSetup_machine
  signing := by rintro _ ⟨⟩; rfl
  encryption := by
    rintro _ ⟨⟩
    refine ⟨rfl, ?_, ?_⟩
    · rintro _ ⟨⟩
      rfl
    · rintro _ ⟨⟩
      rfl
  serves := ⟨_, rfl, rfl⟩

/-- The request which is served alone, at a moment in the lifetime of the token,
lets the command succeed. -/
theorem verdict_machine :
    ∃ token pool outcome exitCode,
      GenerateCommand.Issues machine generateSigned
        (generatedProperties referenceMoment nextMonth)
        (some machineCertificate) (some machineCertificate) token ∧
      HttpPool.Reachable (machineParser.services .reference .reference)
        exitingOptions (fun _ : Unit => postedRequest ApiVersions.march012018
          token "contoso-app" (.v4 5)) pool ∧
      pool.threads () = .done outcome ∧
      exitCode = Program.runCommand (VerifyCommand.execute
        (clientOf (replyOf .reference outcome)) (verifyOf token)).outcome ∧
      VerifyCommand.Verdict .reference generateSigned.commandLine
        referenceMoment nextMonth ApiVersions.march012018
        ⟨"contoso-app", .v4 5⟩ () pool.shared.past exitCode ∧
      exitCode = ResultCodes.success := by
  obtain ⟨token, hissues⟩ := issues_machine
  have hdeployed := deployed_machine hissues
  obtain ⟨pool, outcome, hreachable, hdone, hvalidated⟩ :=
    HttpPool.exists_answered (machineParser.services .reference .reference)
      exitingOptions
      (postedRequest ApiVersions.march012018 token "contoso-app" (.v4 5))
      referenceMoment
  have hverdict := VerifyCommand.verdict hdeployed hreachable
    conveys_plainStack rfl (find_verifyOf hdeployed.token_ne_empty _) rfl
    (VerifyCommand.submitted_eq conveys_plainStack rfl rfl _).symm hdone
    (repliedWith_replyOf .reference outcome) nofun rfl fun _ => rfl
  refine ⟨token, pool, outcome, _, hissues, hreachable, hdone, rfl, hverdict, ?_⟩
  obtain ⟨now, hread, hsuccess⟩ := hverdict.decided .approveV2
    (.v2 (by decide))
  rw [hvalidated () now hread] at hsuccess
  exact hsuccess.mpr ⟨withinLifetime_referenceMoment, allows_generateSigned⟩

end Machine

end SoftwareEntitlement
