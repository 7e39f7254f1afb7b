import SoftwareEntitlement.CertificateStores
import SoftwareEntitlement.LoggingOptions
import SoftwareEntitlement.ServerWiring

/-!
# Starting the server

`sestest server` builds its options from the command line: seven results are
joined, so that whatever is wrong is reported at once, and the server starts
only when nothing is.
-/

namespace SoftwareEntitlement

structure ServerCommandLine extends CommandLineBase where
  signingCertificateThumbprint : Option String
  encryptionCertificateThumbprint : Option String
  connectionCertificateThumbprint : Option String
  serverUrl : Option String
  audience : Option String
  issuer : Option String
  exitAfterRequest : Bool

def ServerCommandLine.defaultServerUrl : String := "https://localhost:4443"

/-- `System.Uri`: what the constructor makes of a text, or the message of its
exception, and the scheme. -/
structure UriLibrary where
  new : String → Except String Uri
  scheme : Uri → String

structure ServerPlatform where
  runtime : TextRuntime
  uris : UriLibrary
  stores : X509Stores X509Certificate2

def UriLibrary.hasScheme (uris : UriLibrary) (runtime : Runtime) (uri : Uri)
    (scheme : String) : Bool :=
  runtime.equalsOrdinalIgnoreCase (uris.scheme uri) scheme

namespace ServerOptionBuilder

variable (platform : ServerPlatform) (commandLine : ServerCommandLine)

def serverUrl : Result Uri ErrorSet :=
  let serverUrl :=
    if isNullOrWhiteSpace commandLine.serverUrl then
      ServerCommandLine.defaultServerUrl
    else commandLine.serverUrl.getD ""
  match platform.uris.new serverUrl with
  | .ok result =>
      if !platform.uris.hasScheme platform.runtime.toRuntime result "https" then
        .error (.create "Server endpoint URL must specify https://")
      else
        .ok result
  | .error message =>
      .error (.create
        ("Invalid server endpoint URL specified (" ++ message ++ ")"))

def findCertificate (purpose : String) (thumbprint : Option String) :
    Throws (Result X509Certificate2 ErrorSet) :=
  if isNullOrWhiteSpace thumbprint then
    .ok (.error (.create ("No thumbprint supplied; unable to find a " ++
      purpose ++ " certificate.")))
  else do
    let certificateThumbprint ←
      CertificateThumbprint.new platform.runtime thumbprint
    CertificateStore.findByThumbprint platform.runtime platform.stores purpose
      certificateThumbprint

def connectionCertificate : Throws (Result X509Certificate2 ErrorSet) :=
  if isNullOrEmpty commandLine.connectionCertificateThumbprint then
    .ok (.error (.create "A connection thumbprint is required."))
  else
    findCertificate platform "connection"
      commandLine.connectionCertificateThumbprint

/-- The certificate for a purpose which needs none. -/
def optionalCertificate (purpose : String) (thumbprint : Option String) :
    Throws (Result (Option X509Certificate2) ErrorSet) :=
  if isNullOrEmpty thumbprint then .ok (.ok none)
  else do
    let found ← findCertificate platform purpose thumbprint
    return found.map some

def signingCertificate : Throws (Result (Option X509Certificate2) ErrorSet) :=
  optionalCertificate platform "signing" commandLine.signingCertificateThumbprint

def encryptingCertificate :
    Throws (Result (Option X509Certificate2) ErrorSet) :=
  optionalCertificate platform "encrypting"
    commandLine.encryptionCertificateThumbprint

def audience : Result (Option String) ErrorSet :=
  if isNullOrEmpty commandLine.audience then .ok (some defaultAudience)
  else .ok commandLine.audience

def issuer : Result (Option String) ErrorSet :=
  if isNullOrEmpty commandLine.issuer then .ok (some defaultIssuer)
  else .ok commandLine.issuer

def exitAfterRequest : Result Bool ErrorSet := .ok commandLine.exitAfterRequest

/-- The values of the seven results. -/
structure Selected where
  url : Uri
  connCert : X509Certificate2
  signCert : Option X509Certificate2
  encryptCert : Option X509Certificate2
  audience : Option String
  issuer : Option String
  exit : Bool

def select (selected : Selected) : Throws ServerOptions := do
  let options ← ServerOptions.new.withServerUrl (some selected.url)
  let options ← options.withConnectionCertificate (some selected.connCert)
  let options ← (options.withSigningCertificate selected.signCert
    |>.withEncryptionCertificate selected.encryptCert).withAudience
      selected.audience
  let options ← options.withIssuer selected.issuer
  return options.withAutomaticExitAfterOneRequest selected.exit

def build : Throws (Result ServerOptions ErrorSet) := do
  let url := serverUrl platform commandLine
  let connCert ← connectionCertificate platform commandLine
  let signCert ← signingCertificate platform commandLine
  let encryptCert ← encryptingCertificate platform commandLine
  let joined := url |>.join connCert |>.join signCert |>.join encryptCert
    |>.join (audience commandLine) |>.join (issuer commandLine)
    |>.join (exitAfterRequest commandLine)
  match joined with
  | .error errors => return .error errors
  | .ok ((((((url, connCert), signCert), encryptCert), audience), issuer),
      exit) =>
      return .ok (← select {
        url := url, connCert := connCert, signCert := signCert
        encryptCert := encryptCert, audience := audience, issuer := issuer
        exit := exit })

end ServerOptionBuilder

/-- `Serve`, when `runServer` is what becomes of a server with the options. -/
def Program.serve (platform : ServerPlatform)
    (runServer : ServerOptions → Throws Unit) (commandLine : ServerCommandLine) :
    Throws ℤ := do
  let options ← ServerOptionBuilder.build platform commandLine
  match options with
  | .error _ => return ResultCodes.failed
  | .ok options =>
      runServer options
      return ResultCodes.success

/-! ## What the command line asks for -/

section Requirements

variable (platform : ServerPlatform) (commandLine : ServerCommandLine)

/-- The text which is parsed as the URL of the server. -/
def ServerCommandLine.effectiveUrl : String :=
  if isNullOrWhiteSpace commandLine.serverUrl then
    ServerCommandLine.defaultServerUrl
  else commandLine.serverUrl.getD ""

/-- A thumbprint is given for this purpose. -/
inductive ServerCommandLine.Requests (commandLine : ServerCommandLine) :
    String → String → Prop
  | connection {text : String} (hne : text ≠ "")
      (hgiven : commandLine.connectionCertificateThumbprint = some text) :
      Requests commandLine "connection" text
  | signing {text : String} (hne : text ≠ "")
      (hgiven : commandLine.signingCertificateThumbprint = some text) :
      Requests commandLine "signing" text
  | encrypting {text : String} (hne : text ≠ "")
      (hgiven : commandLine.encryptionCertificateThumbprint = some text) :
      Requests commandLine "encrypting" text

namespace ServerPlatform

def Holds (text : String) (certificate : X509Certificate2) : Prop :=
  CertificateStore.Holds platform.runtime platform.stores
    ⟨CertificateThumbprint.sanitizeThumbprint platform.runtime text⟩ certificate

/-- No supported store has several certificates with this thumbprint. -/
def Single (text : String) : Prop :=
  isNullOrWhiteSpace (some text) = false →
    ∀ name location certificates,
      platform.stores.certificates name location = .ok certificates →
        (CertificateStore.find platform.runtime certificates
          ⟨CertificateThumbprint.sanitizeThumbprint platform.runtime
            text⟩).length ≤ 1

/-- A certificate from the stores, with its private key if there is one. -/
structure Provides (text : String) (certificate : X509Certificate2) :
    Prop where
  holds : platform.Holds text certificate
  privateKey : (∃ held, platform.Holds text held ∧ held.hasPrivateKey = true) →
    certificate.hasPrivateKey = true

inductive CertificateProblem (purpose text : String) : String → Prop
  | blank (hblank : isNullOrWhiteSpace (some text) = true) :
      CertificateProblem purpose text
        ("No thumbprint supplied; unable to find a " ++ purpose ++
          " certificate.")
  | unknown (hgiven : isNullOrWhiteSpace (some text) = false)
      (hnone : ∀ certificate, ¬platform.Holds text certificate) :
      CertificateProblem purpose text
        ("Did not find " ++ purpose ++ " certificate " ++
          CertificateThumbprint.sanitizeThumbprint platform.runtime text)

inductive UrlProblem (text : String) : String → Prop
  | invalid {message : String} (hinvalid : platform.uris.new text = .error message) :
      UrlProblem text
        ("Invalid server endpoint URL specified (" ++ message ++ ")")
  | insecure {url : Uri} (hurl : platform.uris.new text = .ok url)
      (hscheme : platform.uris.hasScheme platform.runtime.toRuntime url
        "https" = false) :
      UrlProblem text "Server endpoint URL must specify https://"

/-- What is wrong with a command line. -/
inductive Problem : String → Prop
  | url {message : String}
      (hproblem : platform.UrlProblem commandLine.effectiveUrl message) :
      Problem message
  | noConnection
      (hmissing : isNullOrEmpty commandLine.connectionCertificateThumbprint =
        true) : Problem "A connection thumbprint is required."
  | certificate {purpose text message : String}
      (hrequests : commandLine.Requests purpose text)
      (hproblem : platform.CertificateProblem purpose text message) :
      Problem message

def Unambiguous : Prop :=
  ∀ purpose text, commandLine.Requests purpose text → platform.Single text

/-- The certificate which the thumbprint names, or none if it is missing. -/
structure ProvidesOptional (thumbprint : Option String)
    (certificate : Option X509Certificate2) : Prop where
  missing : isNullOrEmpty thumbprint = true → certificate = none
  given : ∀ text, thumbprint = some text → text ≠ "" →
    ∃ held, certificate = some held ∧ platform.Provides text held

/-- Options which have all that the command line asks for. -/
structure AsRequested (options : ServerOptions) : Prop where
  serverUrl : ∃ url, options.serverUrl = some url ∧
    platform.uris.new commandLine.effectiveUrl = .ok url ∧
      platform.uris.hasScheme platform.runtime.toRuntime url "https" = true
  connection : ∃ text certificate,
    commandLine.connectionCertificateThumbprint = some text ∧
      options.connectionCertificate = some certificate ∧
        platform.Provides text certificate
  signing : platform.ProvidesOptional
    commandLine.signingCertificateThumbprint options.signingCertificate
  encryption : platform.ProvidesOptional
    commandLine.encryptionCertificateThumbprint options.encryptionCertificate
  audience : options.audience =
    if isNullOrEmpty commandLine.audience then some defaultAudience
    else commandLine.audience
  issuer : options.issuer =
    if isNullOrEmpty commandLine.issuer then some defaultIssuer
    else commandLine.issuer
  exitAfterRequest : options.exitAfterRequest = commandLine.exitAfterRequest

end ServerPlatform

end Requirements

/-! ## Results and their problems -/

/-- The result is an error exactly when there are problems, and reports these
problems. -/
structure Result.Describes {α : Type} (result : Result α ErrorSet)
    (problem : String → Prop) : Prop where
  ok_iff : (∃ value, result = .ok value) ↔ ∀ message, ¬problem message
  reports_iff : ∀ message, result.Reports message ↔ problem message

namespace Result.Describes

variable {α β : Type} {result : Result α ErrorSet} {inner : Result β ErrorSet}
  {problem other : String → Prop}

theorem of_ok (value : α) (hnone : ∀ message, ¬problem message) :
    Describes (.ok value) problem where
  ok_iff := ⟨fun _ => hnone, fun _ => ⟨value, rfl⟩⟩
  reports_iff message := by simp [Result.Reports, hnone message]

theorem of_create {error : String}
    (hproblem : ∀ message, problem message ↔ message = error) :
    Describes (.error (.create error) : Result α ErrorSet) problem where
  ok_iff := by simp [hproblem]
  reports_iff message := by
    simp [Result.Reports, hproblem, ErrorSet.create]

theorem congr (hdescribes : result.Describes problem)
    (hproblem : ∀ message, problem message ↔ other message) :
    result.Describes other where
  ok_iff := hdescribes.ok_iff.trans
    (forall_congr' fun message => not_congr (hproblem message))
  reports_iff message := (hdescribes.reports_iff message).trans
    (hproblem message)

theorem of_error {errors : ErrorSet}
    (hdescribes : Describes (.error errors : Result α ErrorSet) problem) :
    Describes (.error errors : Result β ErrorSet) problem where
  ok_iff := by simpa using hdescribes.ok_iff
  reports_iff message := by
    simpa [Result.Reports] using hdescribes.reports_iff message

theorem map (hdescribes : result.Describes problem) (f : α → β) :
    Describes (result.map f) problem := by
  obtain ⟨hok, hreports⟩ := hdescribes
  cases result with
  | ok value =>
      exact ⟨by simpa [Except.map] using hok,
        by simpa [Except.map, Result.Reports] using hreports⟩
  | error errors =>
      exact ⟨by simpa [Except.map] using hok,
        by simpa [Except.map, Result.Reports] using hreports⟩

theorem join (hresult : result.Describes problem)
    (hinner : inner.Describes other) :
    (result.join inner).Describes fun message =>
      problem message ∨ other message where
  ok_iff := by
    simp only [not_or, forall_and, ← hresult.ok_iff, ← hinner.ok_iff,
      Result.join_eq_ok_iff, Prod.exists, exists_and_left, exists_and_right]
  reports_iff message := by
    rw [Result.reports_join, hresult.reports_iff, hinner.reports_iff]

end Result.Describes

/-! ## The joined results -/

namespace ServerOptionBuilder

variable {platform : ServerPlatform} {commandLine : ServerCommandLine}

theorem serverUrl_describes (platform : ServerPlatform)
    (commandLine : ServerCommandLine) :
    (serverUrl platform commandLine).Describes
      (platform.UrlProblem commandLine.effectiveUrl) := by
  unfold serverUrl
  change Result.Describes (match platform.uris.new commandLine.effectiveUrl with
    | .ok result => _
    | .error message => _) _
  cases hnew : platform.uris.new commandLine.effectiveUrl with
  | error message =>
      refine .of_create fun reported => ⟨?_, ?_⟩
      · rintro (⟨hinvalid⟩ | ⟨hurl, -⟩)
        · obtain rfl := Except.error.inj (hnew.symm.trans hinvalid)
          rfl
        · cases hnew.symm.trans hurl
      · rintro rfl
        exact .invalid hnew
  | ok url =>
      cases hscheme : platform.uris.hasScheme platform.runtime.toRuntime url
          "https" with
      | false =>
          simp only [hscheme, Bool.not_false, if_true]
          refine .of_create fun reported => ⟨?_, ?_⟩
          · rintro (⟨hinvalid⟩ | ⟨-, -⟩)
            · cases hnew.symm.trans hinvalid
            · rfl
          · rintro rfl
            exact .insecure hnew hscheme
      | true =>
          simp only [hscheme, Bool.not_true, Bool.false_eq_true, if_false]
          refine .of_ok url ?_
          rintro _ (⟨hinvalid⟩ | ⟨hurl, hinsecure⟩)
          · cases hnew.symm.trans hinvalid
          · obtain rfl := Except.ok.inj (hnew.symm.trans hurl)
            cases hscheme.symm.trans hinsecure

theorem secure_of_serverUrl {url : Uri}
    (hserverUrl : serverUrl platform commandLine = .ok url) :
    platform.uris.new commandLine.effectiveUrl = .ok url ∧
      platform.uris.hasScheme platform.runtime.toRuntime url "https" =
        true := by
  unfold serverUrl at hserverUrl
  change (match platform.uris.new commandLine.effectiveUrl with
    | .ok result => _
    | .error message => _) = _ at hserverUrl
  cases hnew : platform.uris.new commandLine.effectiveUrl with
  | error message =>
      simp only [hnew] at hserverUrl
      cases hserverUrl
  | ok result =>
      cases hscheme : platform.uris.hasScheme platform.runtime.toRuntime result
          "https" with
      | false => simp [hnew, hscheme] at hserverUrl
      | true =>
          simp only [hnew, hscheme, Bool.not_true, Bool.false_eq_true,
            if_false] at hserverUrl
          obtain rfl := Except.ok.inj hserverUrl
          exact ⟨rfl, hscheme⟩

theorem errors_of_findByThumbprint {runtime : TextRuntime}
    {stores : X509Stores X509Certificate2} {purpose : String}
    {thumbprint : CertificateThumbprint} {errors : ErrorSet}
    (hfind : CertificateStore.findByThumbprint runtime stores purpose
      thumbprint = .ok (.error errors)) :
    errors = .create ("Did not find " ++ purpose ++ " certificate " ++
      thumbprint.toString) := by
  obtain ⟨found, -, hfind⟩ := Traversal.bind_eq_ok_iff.mp hfind
  simp only at hfind
  split at hfind
  · cases hfind
  · split at hfind
    · cases hfind
    · exact (Except.error.inj (Except.ok.inj hfind)).symm

/-- A certificate is looked up without an exception exactly when no store has
several. -/
theorem findCertificate_returns_iff (purpose : String) {text : String} :
    (∃ result, findCertificate platform purpose (some text) = .ok result) ↔
      platform.Single text := by
  unfold findCertificate ServerPlatform.Single
  cases hblank : isNullOrWhiteSpace (some text) with
  | true => simp
  | false =>
      simp only [Bool.false_eq_true, if_false, CertificateThumbprint.new, hblank,
        true_implies, Option.getD_some, bind, Except.bind]
      exact CertificateStore.exists_findByThumbprint_iff purpose

theorem findCertificate_describes {purpose text : String}
    {result : Result X509Certificate2 ErrorSet}
    (hfind : findCertificate platform purpose (some text) = .ok result) :
    result.Describes (platform.CertificateProblem purpose text) ∧
      ∀ certificate, result = .ok certificate →
        platform.Provides text certificate := by
  cases hblank : isNullOrWhiteSpace (some text) with
  | true =>
      rw [findCertificate, if_pos hblank] at hfind
      obtain rfl := Except.ok.inj hfind
      refine ⟨.of_create fun message => ⟨?_, ?_⟩, nofun⟩
      · rintro (- | ⟨hgiven, -⟩)
        · rfl
        · cases hblank.symm.trans hgiven
      · rintro rfl
        exact .blank hblank
  | false =>
      simp only [findCertificate, hblank, Bool.false_eq_true, if_false,
        CertificateThumbprint.new, Option.getD_some, bind, Except.bind] at hfind
      obtain ⟨result', hfind', hfinds, hprovides⟩ :=
        CertificateStore.completeLookup_of_returns hfind
      obtain rfl := Except.ok.inj (hfind'.symm.trans hfind)
      refine ⟨?_, fun certificate hresult =>
        ⟨(hprovides certificate hresult).1, (hprovides certificate hresult).2⟩⟩
      cases result' with
      | ok certificate =>
          refine .of_ok certificate ?_
          rintro _ (hblank' | ⟨-, hnone⟩)
          · cases hblank.symm.trans hblank'
          · exact hnone certificate (hprovides certificate rfl).1
      | error errors =>
          obtain rfl := errors_of_findByThumbprint hfind
          refine .of_create fun message => ⟨?_, ?_⟩
          · rintro (hblank' | ⟨-, -⟩)
            · cases hblank.symm.trans hblank'
            · rfl
          · rintro rfl
            refine .unknown hblank fun certificate hholds => ?_
            obtain ⟨_, hok⟩ := hfinds.mpr ⟨certificate, hholds⟩
            cases hok

/-- What can be wrong with a thumbprint which is given for a purpose. -/
def PurposeProblem (platform : ServerPlatform) (purpose : String)
    (thumbprint : Option String) (message : String) : Prop :=
  ∃ text, thumbprint = some text ∧ text ≠ "" ∧
    platform.CertificateProblem purpose text message

section Certificates

variable {purpose : String} {thumbprint : Option String}

theorem isNullOrEmpty_some_iff {text : String} :
    isNullOrEmpty (some text) = true ↔ text = "" := by
  simp [isNullOrEmpty]

theorem optionalCertificate_returns_iff :
    (∃ result, optionalCertificate platform purpose thumbprint = .ok result) ↔
      ∀ text, thumbprint = some text → text ≠ "" → platform.Single text := by
  unfold optionalCertificate
  cases hempty : isNullOrEmpty thumbprint with
  | true =>
      simp only [if_true, Except.ok.injEq, exists_eq', true_iff]
      rintro text rfl hne
      exact absurd (isNullOrEmpty_some_iff.mp hempty) hne
  | false =>
      obtain ⟨text, rfl, hne⟩ := isNullOrEmpty_eq_false.mp hempty
      simp only [Bool.false_eq_true, if_false, Option.some.injEq, forall_eq',
        ne_eq, hne, not_false_eq_true, true_implies,
        ← findCertificate_returns_iff purpose]
      cases findCertificate platform purpose (some text) <;>
        simp [bind, Except.bind, pure, Except.pure]

theorem optionalCertificate_describes
    {result : Result (Option X509Certificate2) ErrorSet}
    (hfind : optionalCertificate platform purpose thumbprint = .ok result) :
    result.Describes (PurposeProblem platform purpose thumbprint) ∧
      ∀ certificate, result = .ok certificate →
        platform.ProvidesOptional thumbprint certificate := by
  unfold optionalCertificate at hfind
  cases hempty : isNullOrEmpty thumbprint with
  | true =>
      rw [if_pos hempty] at hfind
      obtain rfl := Except.ok.inj hfind
      have hnone : ∀ text, thumbprint = some text → text = "" := by
        rintro text rfl
        exact isNullOrEmpty_some_iff.mp hempty
      refine ⟨.of_ok none ?_, ?_⟩
      · rintro message ⟨text, hgiven, hne, -⟩
        exact hne (hnone text hgiven)
      · rintro certificate heq
        obtain rfl := Except.ok.inj heq
        exact ⟨fun _ => rfl, fun text hgiven hne =>
          absurd (hnone text hgiven) hne⟩
  | false =>
      obtain ⟨text, rfl, hne⟩ := isNullOrEmpty_eq_false.mp hempty
      rw [if_neg (by simp [hempty])] at hfind
      obtain ⟨found, hfound, hresult⟩ := Traversal.bind_eq_ok_iff.mp hfind
      obtain rfl := Except.ok.inj hresult
      obtain ⟨hdescribes, hprovides⟩ := findCertificate_describes hfound
      refine ⟨(hdescribes.map some).congr fun message => ?_, ?_⟩
      · simp [PurposeProblem, hne]
      · intro certificate heq
        cases found with
        | error errors => cases heq
        | ok held =>
            obtain rfl := Except.ok.inj heq
            refine ⟨fun h => absurd h (by simp [hempty]), ?_⟩
            rintro other hother -
            obtain rfl := Option.some.inj hother
            exact ⟨held, rfl, hprovides held rfl⟩

theorem connectionCertificate_returns_iff :
    (∃ result, connectionCertificate platform commandLine = .ok result) ↔
      ∀ text, commandLine.connectionCertificateThumbprint = some text →
        text ≠ "" → platform.Single text := by
  unfold connectionCertificate
  cases hempty : isNullOrEmpty commandLine.connectionCertificateThumbprint with
  | true =>
      simp only [if_true, Except.ok.injEq, exists_eq', true_iff]
      intro text hgiven hne
      rw [hgiven] at hempty
      exact absurd (isNullOrEmpty_some_iff.mp hempty) hne
  | false =>
      obtain ⟨text, hgiven, hne⟩ := isNullOrEmpty_eq_false.mp hempty
      simp [hgiven, hne, findCertificate_returns_iff]

theorem connectionCertificate_describes
    {result : Result X509Certificate2 ErrorSet}
    (hfind : connectionCertificate platform commandLine = .ok result) :
    (result.Describes fun message =>
      (isNullOrEmpty commandLine.connectionCertificateThumbprint = true ∧
        message = "A connection thumbprint is required.") ∨
      PurposeProblem platform "connection"
        commandLine.connectionCertificateThumbprint message) ∧
    ∀ certificate, result = .ok certificate →
      ∃ text, commandLine.connectionCertificateThumbprint = some text ∧
        platform.Provides text certificate := by
  unfold connectionCertificate at hfind
  cases hempty : isNullOrEmpty commandLine.connectionCertificateThumbprint with
  | true =>
      rw [if_pos hempty] at hfind
      obtain rfl := Except.ok.inj hfind
      refine ⟨.of_create fun message => ?_, nofun⟩
      simp only [true_and, or_iff_left_iff_imp]
      rintro ⟨text, hgiven, hne, -⟩
      rw [hgiven] at hempty
      exact absurd (isNullOrEmpty_some_iff.mp hempty) hne
  | false =>
      obtain ⟨text, hgiven, hne⟩ := isNullOrEmpty_eq_false.mp hempty
      rw [if_neg (by simp [hempty]), hgiven] at hfind
      obtain ⟨hdescribes, hprovides⟩ := findCertificate_describes hfind
      refine ⟨hdescribes.congr fun message => ?_, fun certificate heq =>
        ⟨text, hgiven, hprovides certificate heq⟩⟩
      simp [PurposeProblem, hgiven, hne]

end Certificates

/-! ## The options -/

theorem audience_eq_ok (commandLine : ServerCommandLine) :
    ∃ value, audience commandLine = .ok (some value) ∧ value ≠ "" ∧
      some value = if isNullOrEmpty commandLine.audience then
        some defaultAudience else commandLine.audience := by
  unfold audience
  cases hempty : isNullOrEmpty commandLine.audience with
  | true => exact ⟨defaultAudience, rfl, by decide, rfl⟩
  | false =>
      obtain ⟨value, hgiven, hne⟩ := isNullOrEmpty_eq_false.mp hempty
      exact ⟨value, by simp [hgiven], hne, hgiven.symm⟩

theorem issuer_eq_ok (commandLine : ServerCommandLine) :
    ∃ value, issuer commandLine = .ok (some value) ∧ value ≠ "" ∧
      some value = if isNullOrEmpty commandLine.issuer then
        some defaultIssuer else commandLine.issuer := by
  unfold issuer
  cases hempty : isNullOrEmpty commandLine.issuer with
  | true => exact ⟨defaultIssuer, rfl, by decide, rfl⟩
  | false =>
      obtain ⟨value, hgiven, hne⟩ := isNullOrEmpty_eq_false.mp hempty
      exact ⟨value, by simp [hgiven], hne, hgiven.symm⟩

theorem select_eq_ok (selected : Selected)
    (haudience : isNullOrEmpty selected.audience = false)
    (hissuer : isNullOrEmpty selected.issuer = false) :
    ∃ options, select selected = .ok options ∧
      options.serverUrl = some selected.url ∧
      options.connectionCertificate = some selected.connCert ∧
      options.signingCertificate = selected.signCert ∧
      options.encryptionCertificate = selected.encryptCert ∧
      options.audience = selected.audience ∧
      options.issuer = selected.issuer ∧
      options.exitAfterRequest = selected.exit := by
  have haudience' : ¬isNullOrEmpty selected.audience = true := by
    simp [haudience]
  have hissuer' : ¬isNullOrEmpty selected.issuer = true := by
    simp [hissuer]
  simp only [select, ServerOptions.withServerUrl,
    ServerOptions.withConnectionCertificate, ServerOptions.withAudience,
    ServerOptions.withIssuer, bind, Except.bind, pure, Except.pure,
    dif_neg haudience', dif_neg hissuer']
  exact ⟨_, rfl, rfl, rfl, rfl, rfl, rfl, rfl, rfl⟩

section Build

variable {connCert : Result X509Certificate2 ErrorSet}
  {signCert encryptCert : Result (Option X509Certificate2) ErrorSet}

theorem problem_iff {message : String} :
    platform.Problem commandLine message ↔
      ((platform.UrlProblem commandLine.effectiveUrl message ∨
        (isNullOrEmpty commandLine.connectionCertificateThumbprint = true ∧
            message = "A connection thumbprint is required.") ∨
          PurposeProblem platform "connection"
            commandLine.connectionCertificateThumbprint message) ∨
        PurposeProblem platform "signing"
          commandLine.signingCertificateThumbprint message) ∨
      PurposeProblem platform "encrypting"
        commandLine.encryptionCertificateThumbprint message := by
  constructor
  · rintro (hurl | hmissing | ⟨hrequests, hproblem⟩)
    · exact .inl (.inl (.inl hurl))
    · exact .inl (.inl (.inr (.inl ⟨hmissing, rfl⟩)))
    · cases hrequests with
      | connection hne hgiven =>
          exact .inl (.inl (.inr (.inr ⟨_, hgiven, hne, hproblem⟩)))
      | signing hne hgiven => exact .inl (.inr ⟨_, hgiven, hne, hproblem⟩)
      | encrypting hne hgiven => exact .inr ⟨_, hgiven, hne, hproblem⟩
  · rintro (((hurl | ⟨hmissing, rfl⟩ | ⟨text, hgiven, hne, hproblem⟩) |
      ⟨text, hgiven, hne, hproblem⟩) | ⟨text, hgiven, hne, hproblem⟩)
    · exact .url hurl
    · exact .noConnection hmissing
    · exact .certificate (.connection hne hgiven) hproblem
    · exact .certificate (.signing hne hgiven) hproblem
    · exact .certificate (.encrypting hne hgiven) hproblem

/-- With the certificates looked up, `Build` returns the options or the errors
of the join. -/
theorem build_of_lookups
    (hconnection : connectionCertificate platform commandLine = .ok connCert)
    (hsigning : signingCertificate platform commandLine = .ok signCert)
    (hencrypting : encryptingCertificate platform commandLine =
      .ok encryptCert) :
    ∃ result, build platform commandLine = .ok result ∧
      result.Describes (platform.Problem commandLine) ∧
      ∀ options, result = .ok options →
        platform.AsRequested commandLine options ∧
          signCert = .ok options.signingCertificate ∧
            encryptCert = .ok options.encryptionCertificate := by
  obtain ⟨hconnection', hprovidesConnection⟩ :=
    connectionCertificate_describes hconnection
  unfold signingCertificate at hsigning
  unfold encryptingCertificate at hencrypting
  obtain ⟨hsigning', hprovidesSigning⟩ := optionalCertificate_describes hsigning
  obtain ⟨hencrypting', hprovidesEncrypting⟩ :=
    optionalCertificate_describes hencrypting
  obtain ⟨audience', haudience, haudienceNe, hrequestedAudience⟩ :=
    audience_eq_ok commandLine
  obtain ⟨issuer', hissuer, hissuerNe, hrequestedIssuer⟩ :=
    issuer_eq_ok commandLine
  have hdescribes : ((((serverUrl platform commandLine).join connCert).join
      signCert).join encryptCert).Describes (platform.Problem commandLine) := by
    have hparts := (((serverUrl_describes platform commandLine).join
      hconnection').join hsigning').join hencrypting'
    exact hparts.congr fun message => problem_iff.symm
  simp only [build, hconnection, signingCertificate, hsigning,
    encryptingCertificate, hencrypting, bind, Except.bind, haudience, hissuer,
    exitAfterRequest]
  cases hjoined : (((serverUrl platform commandLine).join connCert).join
      signCert).join encryptCert with
  | error errors =>
      rw [hjoined] at hdescribes
      exact ⟨.error errors, rfl, hdescribes.of_error,
        fun _ heq => nomatch heq⟩
  | ok values =>
      rw [hjoined] at hdescribes
      obtain ⟨⟨⟨url, connection⟩, signing⟩, encrypting⟩ := values
      simp only [Result.join_eq_ok_iff] at hjoined
      obtain ⟨⟨⟨hurl, rfl⟩, rfl⟩, rfl⟩ := hjoined
      obtain ⟨options, hselect, hfields⟩ := select_eq_ok
        ⟨url, connection, signing, encrypting, some audience', some issuer',
          commandLine.exitAfterRequest⟩
        (by simpa [isNullOrEmpty] using haudienceNe)
        (by simpa [isNullOrEmpty] using hissuerNe)
      refine ⟨.ok options, ?_, .of_ok options
        (hdescribes.ok_iff.mp ⟨_, rfl⟩), ?_⟩
      · simp only [Result.join_ok, hselect]
        rfl
      · rintro _ ⟨⟩
        obtain ⟨h₁, h₂, h₃, h₄, h₅, h₆, h₇⟩ := hfields
        obtain ⟨text, hgiven, hprovides⟩ := hprovidesConnection connection rfl
        refine ⟨?_, by rw [h₃], by rw [h₄]⟩
        exact {
          serverUrl := ⟨url, h₁, secure_of_serverUrl hurl⟩
          connection := ⟨text, connection, hgiven, h₂, hprovides⟩
          signing := h₃ ▸ hprovidesSigning signing rfl
          encryption := h₄ ▸ hprovidesEncrypting encrypting rfl
          audience := h₅.trans hrequestedAudience
          issuer := h₆.trans hrequestedIssuer
          exitAfterRequest := h₇ }

theorem build_returns_iff :
    (∃ result, build platform commandLine = .ok result) ↔
      platform.Unambiguous commandLine := by
  constructor
  · rintro ⟨result, hbuild⟩
    obtain ⟨connCert, hconnection, hbuild⟩ := Traversal.bind_eq_ok_iff.mp hbuild
    obtain ⟨signCert, hsigning, hbuild⟩ := Traversal.bind_eq_ok_iff.mp hbuild
    obtain ⟨encryptCert, hencrypting, -⟩ := Traversal.bind_eq_ok_iff.mp hbuild
    intro purpose text hrequests
    cases hrequests with
    | connection hne hgiven =>
        exact connectionCertificate_returns_iff.mp ⟨_, hconnection⟩ _ hgiven hne
    | signing hne hgiven =>
        exact optionalCertificate_returns_iff.mp ⟨_, hsigning⟩ _ hgiven hne
    | encrypting hne hgiven =>
        exact optionalCertificate_returns_iff.mp ⟨_, hencrypting⟩ _ hgiven hne
  · intro hsingle
    obtain ⟨connCert, hconnection⟩ := connectionCertificate_returns_iff.mpr
      fun _ hgiven hne => hsingle _ _ (.connection hne hgiven)
    obtain ⟨signCert, hsigning⟩ :
        ∃ result, signingCertificate platform commandLine = .ok result :=
      optionalCertificate_returns_iff.mpr
        fun _ hgiven hne => hsingle _ _ (.signing hne hgiven)
    obtain ⟨encryptCert, hencrypting⟩ :
        ∃ result, encryptingCertificate platform commandLine = .ok result :=
      optionalCertificate_returns_iff.mpr
        fun _ hgiven hne => hsingle _ _ (.encrypting hne hgiven)
    obtain ⟨result, hbuild, -⟩ :=
      build_of_lookups hconnection hsigning hencrypting
    exact ⟨result, hbuild⟩

/-- The certificates in the options are those which were looked up. -/
theorem build_describes {result : Result ServerOptions ErrorSet}
    (hbuild : build platform commandLine = .ok result) :
    result.Describes (platform.Problem commandLine) ∧
      ∀ options, result = .ok options →
        platform.AsRequested commandLine options ∧
          signingCertificate platform commandLine =
              .ok (.ok options.signingCertificate) ∧
            encryptingCertificate platform commandLine =
              .ok (.ok options.encryptionCertificate) := by
  have hbuild' := hbuild
  obtain ⟨connCert, hconnection, hbuild'⟩ :=
    Traversal.bind_eq_ok_iff.mp hbuild'
  obtain ⟨signCert, hsigning, hbuild'⟩ := Traversal.bind_eq_ok_iff.mp hbuild'
  obtain ⟨encryptCert, hencrypting, -⟩ := Traversal.bind_eq_ok_iff.mp hbuild'
  obtain ⟨result', hresult, hdescribes, hoptions⟩ :=
    build_of_lookups hconnection hsigning hencrypting
  obtain rfl := Except.ok.inj (hbuild.symm.trans hresult)
  refine ⟨hdescribes, fun options hok => ?_⟩
  obtain ⟨hrequested, rfl, rfl⟩ := hoptions options hok
  exact ⟨hrequested, hsigning, hencrypting⟩

end Build

end ServerOptionBuilder

/-! ## Running the command -/

/-- What becomes of `sestest server`, when `runServer` is what becomes of a
server with the options. -/
structure Program.Starts (platform : ServerPlatform)
    (runServer : ServerOptions → Throws Unit)
    (commandLine : ServerCommandLine) : Prop where
  /-- Copies of a certificate in one store are an internal error. -/
  ambiguous : ¬platform.Unambiguous commandLine →
    runCommand (serve platform runServer commandLine) =
      ResultCodes.internalError
  /-- A command line with problems is refused with all of them. -/
  refused : platform.Unambiguous commandLine →
    (∃ message, platform.Problem commandLine message) →
      runCommand (serve platform runServer commandLine) = ResultCodes.failed ∧
        ∃ errors,
          ServerOptionBuilder.build platform commandLine = .ok (.error errors) ∧
            ∀ message, message ∈ errors.errors ↔
              platform.Problem commandLine message
  started : platform.Unambiguous commandLine →
    (∀ message, ¬platform.Problem commandLine message) →
      ∃ options,
        ServerOptionBuilder.build platform commandLine = .ok (.ok options) ∧
          platform.AsRequested commandLine options ∧
            runCommand (serve platform runServer commandLine) =
              if runServer options = .ok () then ResultCodes.success
              else ResultCodes.internalError

theorem Program.starts (platform : ServerPlatform)
    (runServer : ServerOptions → Throws Unit)
    (commandLine : ServerCommandLine) :
    Program.Starts platform runServer commandLine := by
  refine ⟨fun hambiguous => ?_, fun hsingle ⟨message, hproblem⟩ => ?_,
    fun hsingle hnone => ?_⟩
  · cases hbuild : ServerOptionBuilder.build platform commandLine with
    | ok result =>
        exact absurd (ServerOptionBuilder.build_returns_iff.mp ⟨result, hbuild⟩)
          hambiguous
    | error exception =>
        simp [serve, hbuild, runCommand, bind, Except.bind]
  · obtain ⟨result, hbuild⟩ :=
      ServerOptionBuilder.build_returns_iff.mpr hsingle
    obtain ⟨hdescribes, -⟩ := ServerOptionBuilder.build_describes hbuild
    obtain ⟨errors, rfl, -⟩ := (hdescribes.reports_iff message).mpr hproblem
    refine ⟨by simp [serve, hbuild, runCommand, bind, Except.bind, pure,
      Except.pure], errors, hbuild, fun message => ?_⟩
    rw [← hdescribes.reports_iff]
    simp [Result.Reports]
  · obtain ⟨result, hbuild⟩ :=
      ServerOptionBuilder.build_returns_iff.mpr hsingle
    obtain ⟨hdescribes, hrequested⟩ :=
      ServerOptionBuilder.build_describes hbuild
    obtain ⟨options, rfl⟩ := hdescribes.ok_iff.mpr hnone
    refine ⟨options, hbuild, (hrequested options rfl).1, ?_⟩
    cases hrun : runServer options <;>
      simp [serve, hbuild, hrun, runCommand, bind, Except.bind, pure,
        Except.pure]

end SoftwareEntitlement
