import SoftwareEntitlement.NativeResponses
import SoftwareEntitlement.RetryLoops
import SoftwareEntitlement.TracedOutcomes

/-!
# The native client

`GetEntitlement` checks the URL and makes attempts until one succeeds or fails
for a reason other than a timeout.  An attempt posts the token, examines the
certificate chain which the server has presented, and reads the response.
-/

namespace SoftwareEntitlement

open TracedOutcome

/-! ## The URL checks -/

/-- `text.find(c, pos)`, where `none` is `npos`. -/
def findChar (text : String) (c : Char) (pos : ℕ) : Option ℕ :=
  ((text.toList.drop pos).findIdx? (· == c)).map (· + pos)

/-- `pos < bound`, where `npos` is larger than any bound. -/
def precedes (pos : Option ℕ) (bound : ℕ) : Bool :=
  match pos with
  | none => false
  | some pos => pos < bound

/-- The checks at the start of `GetEntitlement`, and the URL they leave. -/
def checkUrl (url : String) : Native String :=
  if ¬"https://".toList <+: url.toList then
    .error (.exception "Invalid input URL: must start with \"https://\"")
  else if url.toList.contains '?' then
    .error (.exception
      "Invalid input URL: must not contain any query params")
  else do
    let pos := findChar url '/' 8
    let pos ←
      if precedes pos (url.length - 1) then
        let pos := findChar url '/' (pos.getD 0 + 1)
        if precedes pos (url.length - 1) then
          throw (.exception ("Invalid input URL: should not include more than " ++
            "one slash after the hostname (excluding trailing slash)."))
        else
          pure pos
      else
        pure pos
    if pos.isNone then
      return url ++ "/"
    else
      return url

example : checkUrl "https://contoso.batch.azure.com" =
    .ok "https://contoso.batch.azure.com/" := by decide

/-! ## One attempt -/

structure CurlReply (α : Type) where
  code : ℕ
  value : α

/-- What libcurl, OpenSSL, Windows and the server do in one attempt. -/
structure Exchange where
  initialised : Bool
  /-- The codes with which the options of the constructor are set. -/
  options : List ℕ
  setUrl : ℕ
  headersAllocated : Bool
  setHeaders : ℕ
  setBody : ℕ
  /-- `curl_easy_perform` sends the body of the request. -/
  sendsBody : Bool
  performed : ℕ
  errorBuffer : String
  certInfo : CurlReply (List (Option X509))
  responseCode : CurlReply ℕ
  response : String
  /-- What `EnsureRootCertsArePopulated` does, if it is called. -/
  rootCerts : Native Unit

inductive ClientEvent where
  | bodySent (url : String) (body : Json)
  /-- The certificate chain of the connection has passed the search. -/
  | chainVerified

/-- What native code does and how it ends. -/
abbrev NativeTraced := Traced NativeException ClientEvent

/-- The body of the request, with its names in order. -/
def requestBody (entitlementToken requestedEntitlement : String) : Json :=
  .object [("applicationId", .string requestedEntitlement),
    ("token", .string entitlementToken)]

namespace Curl

variable (exchange : Exchange)

def throwIfCurlError (res : ℕ) : NativeTraced Unit :=
  if res = 0 then
    pure ()
  else
    .lift (.error (.curlException res
      ("libcurl_error " ++ toString res ++ ": " ++ exchange.errorBuffer)))

def initialise : NativeTraced Unit := do
  if !exchange.initialised then
    .lift (.error (.exception "curl_easy_init failed."))
  exchange.options.forM (throwIfCurlError exchange)

def post (url entitlementToken requestedEntitlement : String) :
    NativeTraced Unit := do
  throwIfCurlError exchange exchange.setUrl
  if !exchange.headersAllocated then
    .lift (.error (.exception "Failed to allocate Content-Type header"))
  throwIfCurlError exchange exchange.setHeaders
  throwIfCurlError exchange exchange.setBody
  if exchange.sendsBody then
    .record (.bodySent (cString url)
      (requestBody entitlementToken requestedEntitlement))
  throwIfCurlError exchange exchange.performed

/-- `VerifyIntermediateCertificate`, from the call to libcurl on. -/
def verifyChain (sslCerts : List CertInfo) (url : String) : NativeTraced Unit := do
  throwIfCurlError exchange exchange.certInfo.code
  .lift (verifyIntermediateCertificate url sslCerts exchange.certInfo.value)
  .record .chainVerified

def readEntitlement (json : JsonLibraries) : NativeTraced Entitlement := do
  throwIfCurlError exchange exchange.responseCode.code
  .lift (interpretResponse json exchange.responseCode.value exchange.response)

/-- The static function `GetEntitlement`. -/
def getEntitlement (json : JsonLibraries) (sslCerts : List CertInfo)
    (url entitlementToken requestedEntitlement : String) :
    NativeTraced Entitlement := do
  initialise exchange
  post exchange (url ++ "softwareEntitlements?api-version=2017-05-01.5.0")
    entitlementToken requestedEntitlement
  verifyChain exchange sslCerts url
  readEntitlement exchange json

end Curl

/-! ## Retries -/

def operationTimedOut : ℕ := 28

def sslCaCert : ℕ := 60

/-- A call of `GetEntitlement`. -/
structure ClientCall where
  json : JsonLibraries
  /-- The client has been built for Windows. -/
  windows : Bool
  sslCerts : List CertInfo
  url : String
  entitlementToken : String
  requestedEntitlement : String
  retries : UInt32

namespace ClientCall

variable (call : ClientCall)

def attempt (url : String) (exchange : Exchange) : NativeTraced Entitlement :=
  Curl.getEntitlement exchange call.json call.sslCerts url
    call.entitlementToken call.requestedEntitlement

/-- The result with which an attempt leaves the loop; none if it is retried. -/
def inLoop (url : String) (exchange : Exchange) :
    Option (Native Entitlement) :=
  match (call.attempt url exchange).outcome with
  | .ok entitlement => some (.ok entitlement)
  | .error (.curlException code message) =>
      if code = operationTimedOut then
        none
      else if call.windows ∧ code = sslCaCert then
        match exchange.rootCerts with
        | .ok () => none
        | .error exception => some (.error exception)
      else
        some (.error (.curlException code message))
  | .error exception => some (.error exception)

/-- The loop of the call, and the attempt after it. -/
def loop (url : String) (exchanges : ℕ → Exchange) (n : ℕ) :
    RetryLoop.Progress (Native Entitlement) :=
  RetryLoop.progress call.retries (call.inLoop url)
    (fun exchange => (call.attempt url exchange).outcome) exchanges n

def progress (exchanges : ℕ → Exchange) (n : ℕ) :
    RetryLoop.Progress (Native Entitlement) :=
  match checkUrl call.url with
  | .error exception => .finished (.error exception)
  | .ok url => call.loop url exchanges n

/-- The events of attempt number `n`, if it is made. -/
def eventsOf (exchanges : ℕ → Exchange) (n : ℕ) : List ClientEvent :=
  match checkUrl call.url with
  | .error _ => []
  | .ok url =>
      if (call.loop url exchanges n).Unfinished then
        (call.attempt url (exchanges n)).events
      else
        []

end ClientCall

end SoftwareEntitlement
