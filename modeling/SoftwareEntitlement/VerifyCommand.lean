import SoftwareEntitlement.PostedRequests
import SoftwareEntitlement.ServerStartup
import SoftwareEntitlement.TracedOutcomes

/-!
# The verify command

`sestest verify` takes a server, a token, an application and an API version from
its command line or from the environment, and submits the token.  Its exit code
says whether the server approves it.  The submissions are recorded.
-/

namespace SoftwareEntitlement

open TracedOutcome

structure VerifyCommandLine extends CommandLineBase where
  token : Option String
  application : Option String
  server : Option String
  apiVersion : Option String

/-- The parts of a URI from which `UriBuilder` makes one. -/
structure UriBuilder where
  scheme : String
  host : String
  port : ℤ
  path : String
  query : String
  deriving DecidableEq

structure Submission where
  /-- The proxy of the client. -/
  proxy : Option String
  uri : UriBuilder
  contentType : String
  body : Json

structure VerifyPlatform where
  /-- `Environment.GetEnvironmentVariable`. -/
  environment : String → Option String
  uris : UriLibrary
  host : Uri → String
  port : Uri → ℤ
  absolutePath : Uri → String
  /-- The constructor of `WebProxy`. -/
  newWebProxy : String → Throws Unit
  /-- How one component of a query is written by `HttpUtility`. -/
  urlEncode : String → String
  /-- `PostAsync`, to the `Uri` of the builder. -/
  postAsync : Submission → Throws HttpReply
  logJson : String → Throws Unit

def HttpReply.isSuccessStatusCode (reply : HttpReply) : Bool :=
  200 ≤ reply.statusCode && reply.statusCode ≤ 299

namespace VerifyCommand

variable (platform : VerifyPlatform) (commandLine : VerifyCommandLine)

def findToken : Result String ErrorSet :=
  let token := commandLine.token
  let token :=
    if isNullOrEmpty token then
      platform.environment "AZ_BATCH_SOFTWARE_ENTITLEMENT_TOKEN"
    else token
  if isNullOrEmpty token then
    .error (.create ("No token supplied on command line and " ++
      "AZ_BATCH_SOFTWARE_ENTITLEMENT_TOKEN not set."))
  else
    .ok (token.getD "")

def findApplication : Result String ErrorSet :=
  let application := commandLine.application
  if isNullOrEmpty application then
    .error (.create "No application specified.")
  else
    .ok (application.getD "")

def findServer : Result Uri ErrorSet :=
  let server := commandLine.server
  let server :=
    if isNullOrEmpty server then platform.environment "AZ_BATCH_ACCOUNT_URL"
    else server
  if isNullOrEmpty server then
    .error (.create
      "No server supplied on command line and AZ_BATCH_ACCOUNT_URL not set.")
  else
    match platform.uris.new (server.getD "") with
    | .ok uri => .ok uri
    | .error message =>
        .error (.create ("Failed to parse server url (" ++ message ++ ")"))

def findApiVersion : Result String ErrorSet :=
  let version := commandLine.apiVersion
  let version :=
    if isNullOrEmpty version then some "2017-05-01.5.0" else version
  .ok (version.getD "")

def createParameters (parameters : List (String × String)) : String :=
  "&".intercalate (parameters.map fun parameter =>
    platform.urlEncode parameter.1 ++ "=" ++ platform.urlEncode parameter.2)

/-- The proxy of the client, if the environment names one. -/
def getClientHandler : Throws (Option String) :=
  match platform.environment "https_proxy" with
  | none => .ok none
  | some proxyOrigin => do
      platform.newWebProxy proxyOrigin
      return some proxyOrigin

def uri (server : Uri) (api : String) : UriBuilder :=
  let absolutePath := platform.absolutePath server
  let serverPath :=
    if absolutePath.toList.getLast? = some '/' then absolutePath
    else absolutePath ++ "/"
  { scheme := platform.uris.scheme server
    host := platform.host server
    port := platform.port server
    path := serverPath ++ "softwareEntitlements"
    query := createParameters platform [("api-version", api)] }

def requestBody (token app : String) : Json :=
  .object [("token", .string token), ("applicationId", .string app)]

/-- The client posts the request; that it does is recorded before its reply. -/
def post (submission : Submission) :
    Traced ClrException Submission HttpReply := do
  .record submission
  .lift (platform.postAsync submission)

def submitToken (server : Uri) (token app api : String) :
    Traced ClrException Submission ℤ := do
  let proxy ← .lift (getClientHandler platform)
  let result ← post platform {
    proxy := proxy
    uri := uri platform server api
    contentType := "application/json; odata=minimalmetadata"
    body := requestBody token app }
  if !result.isSuccessStatusCode then
    return ResultCodes.failed
  .lift (platform.logJson result.content)
  return ResultCodes.success

/-- The four results which the query joins. -/
def find : Result (((Uri × String) × String) × String) ErrorSet :=
  findServer platform commandLine |>.join (findToken platform commandLine)
    |>.join (findApplication commandLine) |>.join (findApiVersion commandLine)

def execute : Traced ClrException Submission ℤ :=
  match find platform commandLine with
  | .error _ => pure ResultCodes.failed
  | .ok (((server, token), app), api) =>
      submitToken platform server token app api

end VerifyCommand

/-! ## What the command line asks for -/

/-- The text of an option, or of the environment variable in its place. -/
inductive VerifyPlatform.Supplies (platform : VerifyPlatform)
    (option : Option String) (variableName : String) : String → Prop
  | commandLine {text : String} (hne : text ≠ "") (hgiven : option = some text) :
      Supplies platform option variableName text
  | environment {text : String} (hne : text ≠ "")
      (hmissing : isNullOrEmpty option = true)
      (hset : platform.environment variableName = some text) :
      Supplies platform option variableName text

section Requirements

variable (platform : VerifyPlatform) (commandLine : VerifyCommandLine)

inductive VerifyCommandLine.Problem : String → Prop
  | noServer (hnone : ∀ text, ¬platform.Supplies commandLine.server
      "AZ_BATCH_ACCOUNT_URL" text) :
      Problem
        "No server supplied on command line and AZ_BATCH_ACCOUNT_URL not set."
  | invalidServer {text message : String}
      (hsupplies : platform.Supplies commandLine.server "AZ_BATCH_ACCOUNT_URL"
        text)
      (hinvalid : platform.uris.new text = .error message) :
      Problem ("Failed to parse server url (" ++ message ++ ")")
  | noToken (hnone : ∀ text, ¬platform.Supplies commandLine.token
      "AZ_BATCH_SOFTWARE_ENTITLEMENT_TOKEN" text) :
      Problem ("No token supplied on command line and " ++
        "AZ_BATCH_SOFTWARE_ENTITLEMENT_TOKEN not set.")
  | noApplication (hmissing : isNullOrEmpty commandLine.application = true) :
      Problem "No application specified."

/-- What the command line asks to submit. -/
structure VerifyCommandLine.Asks (server : Uri) (token app api : String) :
    Prop where
  server : ∃ text, platform.Supplies commandLine.server "AZ_BATCH_ACCOUNT_URL"
    text ∧ platform.uris.new text = .ok server
  token : platform.Supplies commandLine.token
    "AZ_BATCH_SOFTWARE_ENTITLEMENT_TOKEN" token
  application : commandLine.application = some app ∧ app ≠ ""
  api : api = if isNullOrEmpty commandLine.apiVersion then "2017-05-01.5.0"
    else commandLine.apiVersion.getD ""

end Requirements

section Lookups

variable {platform : VerifyPlatform} {commandLine : VerifyCommandLine}

/-- What both lookups do before they report a missing text. -/
theorem VerifyPlatform.supplies_iff {option : Option String}
    {variableName text : String} :
    platform.Supplies option variableName text ↔
      text ≠ "" ∧ (if isNullOrEmpty option then
        platform.environment variableName else option) = some text := by
  constructor
  · rintro (⟨hne, rfl⟩ | ⟨hne, hmissing, hset⟩)
    · have hempty : isNullOrEmpty (some text) = false := by
        simpa [isNullOrEmpty] using hne
      exact ⟨hne, by simp [hempty]⟩
    · exact ⟨hne, by simp [hmissing, hset]⟩
  · rintro ⟨hne, htext⟩
    split at htext
    · rename_i hmissing
      exact .environment hne hmissing htext
    · exact .commandLine hne htext

namespace VerifyCommand

theorem findToken_describes (platform : VerifyPlatform)
    (commandLine : VerifyCommandLine) :
    (findToken platform commandLine).Describes (fun message =>
      (∀ text, ¬platform.Supplies commandLine.token
        "AZ_BATCH_SOFTWARE_ENTITLEMENT_TOKEN" text) ∧
      message = "No token supplied on command line and " ++
        "AZ_BATCH_SOFTWARE_ENTITLEMENT_TOKEN not set.") ∧
    ∀ token, findToken platform commandLine = .ok token →
      platform.Supplies commandLine.token "AZ_BATCH_SOFTWARE_ENTITLEMENT_TOKEN"
        token := by
  unfold findToken
  simp only [VerifyPlatform.supplies_iff]
  generalize (if isNullOrEmpty commandLine.token = true then
    platform.environment "AZ_BATCH_SOFTWARE_ENTITLEMENT_TOKEN"
    else commandLine.token) = token
  cases hempty : isNullOrEmpty token with
  | true =>
      refine ⟨.of_create fun message => and_iff_right ?_,
        fun _ heq => by cases heq⟩
      rintro text ⟨hne, rfl⟩
      simp [isNullOrEmpty, hne] at hempty
  | false =>
      obtain ⟨text, rfl, hne⟩ := isNullOrEmpty_eq_false.mp hempty
      refine ⟨.of_ok text fun _ hnone => hnone.1 text ⟨hne, rfl⟩, ?_⟩
      rintro _ ⟨⟩
      exact ⟨hne, rfl⟩

theorem findServer_describes (platform : VerifyPlatform)
    (commandLine : VerifyCommandLine) :
    (findServer platform commandLine).Describes (fun message =>
      ((∀ text, ¬platform.Supplies commandLine.server "AZ_BATCH_ACCOUNT_URL"
          text) ∧
        message =
          "No server supplied on command line and AZ_BATCH_ACCOUNT_URL not set.") ∨
      ∃ text reason, platform.Supplies commandLine.server
          "AZ_BATCH_ACCOUNT_URL" text ∧
        platform.uris.new text = .error reason ∧
          message = "Failed to parse server url (" ++ reason ++ ")") ∧
    ∀ server, findServer platform commandLine = .ok server →
      ∃ text, platform.Supplies commandLine.server "AZ_BATCH_ACCOUNT_URL"
        text ∧ platform.uris.new text = .ok server := by
  unfold findServer
  simp only [VerifyPlatform.supplies_iff]
  generalize (if isNullOrEmpty commandLine.server = true then
    platform.environment "AZ_BATCH_ACCOUNT_URL"
    else commandLine.server) = server
  cases hempty : isNullOrEmpty server with
  | true =>
      have hnone : ∀ text, ¬(text ≠ "" ∧ server = some text) := by
        rintro text ⟨hne, rfl⟩
        simp [isNullOrEmpty, hne] at hempty
      refine ⟨.of_create fun message => ?_, fun _ heq => by cases heq⟩
      constructor
      · rintro (⟨-, rfl⟩ | ⟨text, -, hsupplies, -⟩)
        · rfl
        · exact absurd hsupplies (hnone text)
      · rintro rfl
        exact .inl ⟨hnone, rfl⟩
  | false =>
      obtain ⟨text, rfl, hne⟩ := isNullOrEmpty_eq_false.mp hempty
      have hgiven : ¬∀ other, ¬(other ≠ "" ∧ some text = some other) :=
        fun hnone => hnone text ⟨hne, rfl⟩
      simp only [Option.getD_some]
      cases hnew : platform.uris.new text with
      | error reason =>
          refine ⟨.of_create fun message => ?_, fun _ heq => by cases heq⟩
          constructor
          · rintro (⟨hnone, -⟩ | ⟨other, otherReason, ⟨-, hother⟩, hinvalid, rfl⟩)
            · exact absurd hnone hgiven
            · obtain rfl := Option.some.inj hother
              obtain rfl := Except.error.inj (hnew.symm.trans hinvalid)
              rfl
          · rintro rfl
            exact .inr ⟨text, reason, ⟨hne, rfl⟩, hnew, rfl⟩
      | ok uri =>
          refine ⟨.of_ok uri ?_, ?_⟩
          · rintro _ (⟨hnone, -⟩ | ⟨other, reason, ⟨-, hother⟩, hinvalid, -⟩)
            · exact hgiven hnone
            · obtain rfl := Option.some.inj hother
              cases hnew.symm.trans hinvalid
          · rintro _ ⟨⟩
            exact ⟨text, ⟨hne, rfl⟩, hnew⟩

theorem findApplication_describes (commandLine : VerifyCommandLine) :
    (findApplication commandLine).Describes (fun message =>
      isNullOrEmpty commandLine.application = true ∧
        message = "No application specified.") ∧
    ∀ app, findApplication commandLine = .ok app →
      commandLine.application = some app ∧ app ≠ "" := by
  unfold findApplication
  cases hempty : isNullOrEmpty commandLine.application with
  | true =>
      simp only [hempty, if_true]
      exact ⟨.of_create fun message => and_iff_right trivial,
        fun _ heq => by cases heq⟩
  | false =>
      obtain ⟨app, happ, hne⟩ := isNullOrEmpty_eq_false.mp hempty
      simp only [hempty, Bool.false_eq_true, if_false]
      refine ⟨.of_ok _ fun _ hcontradiction => hcontradiction.1.elim, ?_⟩
      rintro _ ⟨⟩
      exact ⟨by rw [happ, Option.getD_some], by rwa [happ, Option.getD_some]⟩

theorem findApiVersion_eq (commandLine : VerifyCommandLine) :
    findApiVersion commandLine =
      .ok (if isNullOrEmpty commandLine.apiVersion then "2017-05-01.5.0"
        else commandLine.apiVersion.getD "") := by
  unfold findApiVersion
  cases hempty : isNullOrEmpty commandLine.apiVersion <;> simp [hempty]

/-- What is found is what the command line asks for, or all that is wrong with
it. -/
theorem find_describes (platform : VerifyPlatform)
    (commandLine : VerifyCommandLine) :
    (find platform commandLine).Describes (commandLine.Problem platform) ∧
    ∀ server token app api,
      find platform commandLine = .ok (((server, token), app), api) →
        commandLine.Asks platform server token app api := by
  obtain ⟨hserver, hasksServer⟩ := findServer_describes platform commandLine
  obtain ⟨htoken, hasksToken⟩ := findToken_describes platform commandLine
  obtain ⟨happlication, hasksApplication⟩ :=
    findApplication_describes commandLine
  have hapi : (findApiVersion commandLine).Describes fun _ => False := by
    rw [findApiVersion_eq]
    exact .of_ok _ fun _ => id
  unfold find
  constructor
  · refine (((hserver.join htoken).join happlication).join hapi).congr ?_
    intro message
    constructor
    · rintro ((((⟨hnone, rfl⟩ | ⟨text, reason, hsupplies, hinvalid, rfl⟩) |
        ⟨hnone, rfl⟩) | ⟨hmissing, rfl⟩) | ⟨⟨⟩⟩)
      · exact .noServer hnone
      · exact .invalidServer hsupplies hinvalid
      · exact .noToken hnone
      · exact .noApplication hmissing
    · rintro (hnone | ⟨hsupplies, hinvalid⟩ | hnone | hmissing)
      · exact .inl (.inl (.inl (.inl ⟨hnone, rfl⟩)))
      · exact .inl (.inl (.inl (.inr ⟨_, _, hsupplies, hinvalid, rfl⟩)))
      · exact .inl (.inl (.inr ⟨hnone, rfl⟩))
      · exact .inl (.inr ⟨hmissing, rfl⟩)
  · intro server token app api hfound
    simp only [Result.join_eq_ok_iff, findApiVersion_eq,
      Except.ok.injEq] at hfound
    obtain ⟨⟨⟨hfoundServer, hfoundToken⟩, hfoundApplication⟩, rfl⟩ := hfound
    exact ⟨hasksServer server hfoundServer, hasksToken token hfoundToken,
      hasksApplication app hfoundApplication, rfl⟩

end VerifyCommand

end Lookups

/-! ## What becomes of the command -/

namespace VerifyCommand

def submission (platform : VerifyPlatform) (server : Uri)
    (token app api : String) : Submission where
  proxy := platform.environment "https_proxy"
  uri := uri platform server api
  contentType := "application/json; odata=minimalmetadata"
  body := requestBody token app

/-- The exit code of the command when it is to submit `submission`, and what it
submits. -/
inductive Exits (platform : VerifyPlatform) (submission : Submission) :
    ℤ → List Submission → Prop
  | invalidProxy {proxyOrigin : String} {exception : ClrException}
      (hproxy : submission.proxy = some proxyOrigin)
      (hinvalid : platform.newWebProxy proxyOrigin = .error exception) :
      Exits platform submission ResultCodes.internalError []
  | unanswered {exception : ClrException}
      (hproxy : ∀ proxyOrigin, submission.proxy = some proxyOrigin →
        platform.newWebProxy proxyOrigin = .ok ())
      (hpost : platform.postAsync submission = .error exception) :
      Exits platform submission ResultCodes.internalError [submission]
  | refused {reply : HttpReply}
      (hproxy : ∀ proxyOrigin, submission.proxy = some proxyOrigin →
        platform.newWebProxy proxyOrigin = .ok ())
      (hpost : platform.postAsync submission = .ok reply)
      (hstatus : reply.isSuccessStatusCode = false) :
      Exits platform submission ResultCodes.failed [submission]
  | unreadable {reply : HttpReply} {exception : ClrException}
      (hproxy : ∀ proxyOrigin, submission.proxy = some proxyOrigin →
        platform.newWebProxy proxyOrigin = .ok ())
      (hpost : platform.postAsync submission = .ok reply)
      (hstatus : reply.isSuccessStatusCode = true)
      (hjson : platform.logJson reply.content = .error exception) :
      Exits platform submission ResultCodes.internalError [submission]
  | accepted {reply : HttpReply}
      (hproxy : ∀ proxyOrigin, submission.proxy = some proxyOrigin →
        platform.newWebProxy proxyOrigin = .ok ())
      (hpost : platform.postAsync submission = .ok reply)
      (hstatus : reply.isSuccessStatusCode = true)
      (hjson : platform.logJson reply.content = .ok ()) :
      Exits platform submission ResultCodes.success [submission]

/-- The proxy of the environment is refused, or it is the proxy of the
client. -/
theorem getClientHandler_cases (platform : VerifyPlatform) :
    (∃ proxyOrigin exception,
      platform.environment "https_proxy" = some proxyOrigin ∧
        platform.newWebProxy proxyOrigin = .error exception ∧
          getClientHandler platform = .error exception) ∨
    ((∀ proxyOrigin, platform.environment "https_proxy" = some proxyOrigin →
        platform.newWebProxy proxyOrigin = .ok ()) ∧
      getClientHandler platform =
        .ok (platform.environment "https_proxy")) := by
  unfold getClientHandler
  cases platform.environment "https_proxy" with
  | none => simp
  | some proxyOrigin =>
      cases hnew : platform.newWebProxy proxyOrigin with
      | error exception =>
          exact .inl ⟨proxyOrigin, exception, rfl, hnew, by simp [hnew]⟩
      | ok accepted => exact .inr (by simp [hnew])

theorem submitToken_exits (platform : VerifyPlatform) (server : Uri)
    (token app api : String) :
    Exits platform (submission platform server token app api)
      (Program.runCommand (submitToken platform server token app api).outcome)
      (submitToken platform server token app api).events := by
  rcases getClientHandler_cases platform with
    ⟨proxyOrigin, exception, hset, hinvalid, hhandler⟩ | ⟨hproxy, hhandler⟩
  · have hsubmit : submitToken platform server token app api =
        .lift (.error exception) := by
      simp only [submitToken, hhandler, Traced.fail_bind]
    rw [hsubmit]
    exact .invalidProxy hset hinvalid
  · have hsubmit : submitToken platform server token app api = (do
        let result ← post platform (submission platform server token app api)
        if !result.isSuccessStatusCode then
          return ResultCodes.failed
        .lift (platform.logJson result.content)
        return ResultCodes.success) := by
      simp only [submitToken, hhandler, Traced.ok_bind, submission]
    rw [hsubmit]
    simp only [post, Traced.bind_assoc]
    simp only [Traced.record_bind]
    cases hpost : platform.postAsync
        (submission platform server token app api) with
    | error exception => exact .unanswered hproxy hpost
    | ok reply =>
        simp only [Traced.ok_bind]
        cases hstatus : reply.isSuccessStatusCode with
        | false => exact .refused hproxy hpost hstatus
        | true =>
            cases hjson : platform.logJson reply.content with
            | error exception => exact .unreadable hproxy hpost hstatus hjson
            | ok logged => exact .accepted hproxy hpost hstatus hjson

end VerifyCommand

/-- What becomes of `sestest verify`: with problems, all of them are reported
and nothing is submitted; without, one request is, unless the proxy is refused,
and its reply decides. -/
structure VerifyCommand.Submits (platform : VerifyPlatform)
    (commandLine : VerifyCommandLine) : Prop where
  refused : (∃ message, commandLine.Problem platform message) →
    execute platform commandLine = ⟨.ok ResultCodes.failed, []⟩ ∧
      ∃ errors, find platform commandLine = .error errors ∧
        ∀ message, message ∈ errors.errors ↔
          commandLine.Problem platform message
  submitted : (∀ message, ¬commandLine.Problem platform message) →
    ∃ server token app api, commandLine.Asks platform server token app api ∧
      Exits platform (submission platform server token app api)
        (Program.runCommand (execute platform commandLine).outcome)
        (execute platform commandLine).events

theorem VerifyCommand.submits (platform : VerifyPlatform)
    (commandLine : VerifyCommandLine) :
    VerifyCommand.Submits platform commandLine := by
  obtain ⟨hdescribes, hasks⟩ := find_describes platform commandLine
  refine ⟨fun ⟨message, hproblem⟩ => ?_, fun hnone => ?_⟩
  · obtain ⟨errors, herrors, -⟩ := (hdescribes.reports_iff message).mpr hproblem
    refine ⟨?_, errors, herrors, fun other => ?_⟩
    · simp only [execute, herrors]
      rfl
    · rw [← hdescribes.reports_iff, herrors]
      simp [Result.Reports]
  · obtain ⟨⟨⟨⟨server, token⟩, app⟩, api⟩, hfound⟩ :=
      hdescribes.ok_iff.mpr hnone
    refine ⟨server, token, app, api, hasks _ _ _ _ hfound, ?_⟩
    simp only [execute, hfound]
    exact submitToken_exits platform server token app api

end SoftwareEntitlement
