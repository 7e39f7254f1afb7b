import SoftwareEntitlement.Authorization

/-!
# The expiry which an approval promises

`ApproveV2RequestHandler` sends the expiry of the token, and the lifetime of
the token is validated with a tolerance of a minute.  A token is declined from
the end of that minute on, and not before.
-/

namespace SoftwareEntitlement

open Interleaving

inductive TokenRequest where
  | approveV1 (remoteIpAddress : IPAddress) (body : Option ApproveRequestBody)
  | approveV2 (remoteIpAddress : IPAddress) (body : Option ApproveRequestBody)
  | acquire (remoteIpAddress : IPAddress) (body : Option AcquireRequestBody)

def TokenRequest.token : TokenRequest → Option String
  | .approveV1 _ body => body.bind fun body => body.token
  | .approveV2 _ body => body.bind fun body => body.token
  | .acquire _ body => body.bind fun body => body.token

def TokenRequest.handle (services : Services) :
    TokenRequest → Handling Response
  | .approveV1 remoteIpAddress body =>
      ApproveV1RequestHandler.handle services remoteIpAddress body
  | .approveV2 remoteIpAddress body =>
      ApproveV2RequestHandler.handle services remoteIpAddress body
  | .acquire remoteIpAddress body =>
      AcquireRequestHandler.handle services remoteIpAddress body

/-- A request is declined: if it is answered, then with 400 or 403. -/
def Declined (outcome : Throws Response) : Prop :=
  ∀ response, outcome = .ok response →
    response.statusCode = 400 ∨ response.statusCode = 403

section Decisions

variable {services : Services} {now : DateTimeOffset}
  {remoteIpAddress : IPAddress} {body : Option IVerificationRequestBody}
  {token : String}

theorem extractVerificationRequest_token
    {verification : TokenVerificationRequest} {extracted : String}
    (hextracted : extractVerificationRequest body remoteIpAddress =
      .ok (verification, extracted))
    (htoken : (body.bind fun body => body.token) = some token) :
    extracted = token := by
  cases body with
  | none => cases htoken
  | some body =>
      have hsome : body.token = some token := htoken
      simp only [extractVerificationRequest] at hextracted
      split at hextracted
      · cases hextracted
      · split at hextracted
        · cases hextracted
        · obtain ⟨-, rfl⟩ := Prod.mk.inj (Except.ok.inj hextracted)
          simp [hsome]

theorem declined_decideToken {errors : ErrorSet}
    {success : EntitlementTokenProperties → Throws Response}
    (htoken : (body.bind fun body => body.token) = some token)
    (hparse : services.tokenPropertyParser now token = .ok (.error errors)) :
    Declined (decideToken services now remoteIpAddress body success) := by
  intro response hresponse
  unfold decideToken at hresponse
  rcases hextracted : extractVerificationRequest body remoteIpAddress with
    invalid | ⟨verification, extracted⟩
  · rw [hextracted] at hresponse
    obtain rfl := Except.ok.inj hresponse
    exact .inl rfl
  · obtain rfl := extractVerificationRequest_token hextracted htoken
    have hverify : TokenVerifier.verify services.runtime
        services.tokenPropertyParser now verification extracted =
          .ok (.error errors) := by
      rw [TokenVerifier.verify_eq, hparse]
    simp only [hextracted, hverify] at hresponse
    obtain rfl := Except.ok.inj hresponse
    exact .inr rfl

theorem declined_decideDuration {duration : Option (Option String)}
    {success : TimeSpan → Throws Response}
    (hsuccess : ∀ timeSpan, Declined (success timeSpan)) :
    Declined (decideDuration services duration success) := by
  intro response hresponse
  cases duration with
  | none => cases hresponse
  | some duration =>
      simp only [decideDuration] at hresponse
      rcases hparsed : parseDuration services.runtime duration with
        exception | (errors | timeSpan)
      · simp only [hparsed] at hresponse
        cases hresponse
      · simp only [hparsed] at hresponse
        obtain rfl := Except.ok.inj hresponse
        exact .inl rfl
      · simp only [hparsed] at hresponse
        exact hsuccess timeSpan response hresponse

theorem TokenRequest.declined_of_parse {request : TokenRequest}
    {answer : (access : Access) → Reply access} {errors : ErrorSet}
    (htoken : request.token = some token)
    (hparse : services.tokenPropertyParser (answer .validationTime) token =
      .ok (.error errors)) :
    Declined ((request.handle services).outcome answer) := by
  cases request with
  | approveV1 remoteIpAddress body =>
      rw [TokenRequest.handle, ApproveV1RequestHandler.outcome_handle,
        tokenDecision]
      exact declined_decideToken (by cases body <;> exact htoken) hparse
  | approveV2 remoteIpAddress body =>
      rw [TokenRequest.handle, ApproveV2RequestHandler.outcome_handle,
        tokenDecision]
      exact declined_decideToken (by cases body <;> exact htoken) hparse
  | acquire remoteIpAddress body =>
      rw [TokenRequest.handle, AcquireRequestHandler.outcome_eq]
      exact declined_decideDuration fun timeSpan =>
        declined_decideToken (by cases body <;> exact htoken) hparse

theorem granted_of_decideToken {success : EntitlementTokenProperties → Response}
    {response : Response}
    (hdecision : tokenDecision services now remoteIpAddress body success =
      .ok response) (hstatus : response.statusCode = 200) :
    ∃ verification extracted tokenProperties,
      extractVerificationRequest body remoteIpAddress =
          .ok (verification, extracted) ∧
        TokenVerifier.verify services.runtime services.tokenPropertyParser now
          verification extracted = .ok (.ok tokenProperties) ∧
        success tokenProperties = response := by
  unfold tokenDecision decideToken at hdecision
  rcases hextracted : extractVerificationRequest body remoteIpAddress with
    invalid | ⟨verification, extracted⟩
  · rw [hextracted] at hdecision
    obtain rfl := Except.ok.inj hdecision
    cases hstatus
  · simp only [hextracted] at hdecision
    rcases hverify : TokenVerifier.verify services.runtime
        services.tokenPropertyParser now verification extracted with
      exception | (errors | tokenProperties)
    · simp only [hverify] at hdecision
      cases hdecision
    · simp only [hverify] at hdecision
      obtain rfl := Except.ok.inj hdecision
      cases hstatus
    · simp only [hverify] at hdecision
      exact ⟨verification, extracted, tokenProperties, rfl, hverify,
        Except.ok.inj hdecision⟩

theorem ApproveV2RequestHandler.approves
    {answer : (access : Access) → Reply access} {body : ApproveRequestBody}
    {verification : TokenVerificationRequest} {extracted : String}
    {tokenProperties : EntitlementTokenProperties}
    (hextracted : extractVerificationRequest
      (some body.toIVerificationRequestBody) remoteIpAddress =
        .ok (verification, extracted))
    (hverify : TokenVerifier.verify services.runtime
      services.tokenPropertyParser (answer .validationTime) verification
        extracted = .ok (.ok tokenProperties)) :
    (ApproveV2RequestHandler.handle services remoteIpAddress
        (some body)).outcome answer =
      .ok (.createSuccess (.approveV2Success
        ("entitlement-" ++ (answer .newGuid).toString)
        tokenProperties.notAfter)) := by
  rw [ApproveV2RequestHandler.outcome_handle]
  simp [tokenDecision, decideToken, hextracted, hverify]

end Decisions

/-! ## The lifetime of a token -/

section Lifetimes

variable {runtime : Runtime} {library : JwtLibrary} {parser : JwtPropertyParser}
  {now later : DateTimeOffset} {token : String}
  {tokenProperties : EntitlementTokenProperties}

/-- A parsed token expires when its properties say, and is parsed with the
same result at every moment which its lifetime admits. -/
theorem parse_later (hlibrary : library.Reads)
    (hlifetimes : library.ChecksLifetimes)
    (hparse : parser.parse runtime library now token = .ok (.ok tokenProperties))
    (horder : now ≤ later) :
    if later.ticks ≤ tokenProperties.notAfter.ticks + 60 * ticksPerSecond then
      parser.parse runtime library later token = .ok (.ok tokenProperties)
    else
      ∃ errors, parser.parse runtime library later token =
        .ok (.error errors) := by
  obtain ⟨principal, jwt, hvalidated⟩ :=
    JwtPropertyParser.validated_of_parse hparse
  have hnotAfter : tokenProperties.notAfter.ticks = jwt.validTo.ticks := by
    by_cases hreadable :
        (⟨principal, jwt⟩ : JwtPropertyProvider).Readable runtime
    · rw [parse_of_readable hlibrary hvalidated hreadable] at hparse
      obtain rfl := Except.ok.inj (Except.ok.inj hparse)
      rfl
    · obtain ⟨errors, herrors⟩ :=
        parse_of_not_readable hlibrary hvalidated hreadable
      rw [herrors] at hparse
      cases hparse
  have hadmits := hlifetimes.admits _ _ _ _ _ hvalidated rfl
  split
  next hinForce =>
    have hstarted : jwt.validFrom.ticks ≤
        later.ticks + parser.validationParameters.clockSkew :=
      hadmits.1.trans (Nat.add_le_add_right horder _)
    have hlater := hlifetimes.accepts now later _ _ _ _ hvalidated
      ⟨hstarted, hnotAfter ▸ hinForce⟩
    rw [JwtPropertyParser.parse_of_validated hlater,
      ← JwtPropertyParser.parse_of_validated hvalidated, hparse]
  next hexpired =>
    refine JwtPropertyParser.parse_of_not_validated runtime
      fun principal' jwt' hlater => hexpired ?_
    have hsame := hlifetimes.same _ _ _ _ _ _ hvalidated hlater
    obtain rfl := SecurityToken.jwt.inj (Prod.mk.inj hsame).2
    rw [hnotAfter]
    exact (hlifetimes.admits _ _ _ _ _ hlater rfl).2

/-- An approved token is declined at a later moment exactly when that moment
is more than the clock skew after the expiry which was sent. -/
theorem declined_iff (hlibrary : library.Reads)
    (hlifetimes : library.ChecksLifetimes)
    {first second : (access : Access) → Reply access}
    {remoteIpAddress : IPAddress} {body : ApproveRequestBody}
    {entitlementId : String} {expiry : DateTimeOffset}
    (htoken : body.token = some token)
    (happroved : (ApproveV2RequestHandler.handle
        (parser.services runtime library) remoteIpAddress
        (some body)).outcome first =
      .ok (.createSuccess (.approveV2Success entitlementId expiry)))
    (horder : first .validationTime ≤ second .validationTime) :
    (∀ request : TokenRequest, request.token = some token →
        Declined ((request.handle (parser.services runtime library)).outcome
          second)) ↔
      expiry.ticks + 60 * ticksPerSecond <
        (second .validationTime : DateTimeOffset).ticks := by
  rw [ApproveV2RequestHandler.outcome_handle] at happroved
  obtain ⟨verification, extracted, tokenProperties, hextracted, hverify,
    hsuccess⟩ := granted_of_decideToken happroved rfl
  obtain rfl := extractVerificationRequest_token hextracted htoken
  obtain ⟨hparse, hgrants⟩ :=
    (TokenVerifier.verify_eq_ok_iff _).mp hverify
  have hexpiry : tokenProperties.notAfter = expiry := by
    injection hsuccess with _ hvalue
    injection Option.some.inj hvalue
  have hlater := parse_later hlibrary hlifetimes hparse horder
  rw [hexpiry] at hlater
  constructor
  · intro hdeclined
    by_contra hwithin
    rw [if_pos (not_lt.mp hwithin)] at hlater
    have hverify' : TokenVerifier.verify runtime
        (parser.services runtime library).tokenPropertyParser
        (second .validationTime) verification extracted =
          .ok (.ok tokenProperties) :=
      (TokenVerifier.verify_eq_ok_iff runtime).mpr ⟨hlater, hgrants⟩
    have hagain := ApproveV2RequestHandler.approves hextracted hverify'
    rcases hdeclined (.approveV2 remoteIpAddress (some body)) htoken _ hagain
      with hstatus | hstatus <;> cases hstatus
  · intro hexpired request hrequest
    rw [if_neg (not_le.mpr hexpired)] at hlater
    obtain ⟨errors, herrors⟩ := hlater
    exact TokenRequest.declined_of_parse hrequest herrors

end Lifetimes

/-! ## A token in the last minute -/

namespace LastMinute

/-- A token which expires when 1000 seconds have passed. -/
def content : JwtReference.Content where
  claims := [⟨"id", "1"⟩, ⟨"app", "contosoapp"⟩, ⟨"ip", "4xxxxx"⟩]
  notBefore := 0
  expires := 1000
  issuedAt := 0
  issuer := some defaultIssuer
  audience := some defaultAudience
  signedWith := none
  encryptedFor := none

def parser : JwtPropertyParser :=
  ⟨some defaultAudience, some defaultIssuer, none, none⟩

def body : ApproveRequestBody :=
  ⟨⟨some content.serialize, some "contosoapp"⟩⟩

/-- The replies which a request is given when `seconds` have passed. -/
def answerAt (seconds : ℕ) : (access : Access) → Reply access
  | .utcNow => (JwtReference.timeOfSeconds seconds).toInstant
  | .validationTime => (JwtReference.timeOfSeconds seconds).toInstant
  | access => firstAnswers access

theorem serialize_ne_empty (content : JwtReference.Content) :
    content.serialize ≠ "" := by
  intro hempty
  have hparts := JwtReference.tokenParts_serialize content
  rw [hempty] at hparts
  cases hkey : content.encryptedFor <;> simp [hkey, tokenParts] at hparts

theorem approved {seconds : ℕ}
    (hpasses : content.Passes (answerAt seconds .validationTime)
      parser.validationParameters) :
    (ApproveV2RequestHandler.handle (parser.services .reference .reference)
        (.v4 5) (some body)).outcome (answerAt seconds) =
      .ok (.createSuccess (.approveV2Success
        ("entitlement-" ++ (firstAnswers .newGuid : Guid).toString)
        (JwtReference.timeOfSeconds 1000).toInstant)) := by
  have hextracted : extractVerificationRequest
      (some body.toIVerificationRequestBody) (.v4 5) =
        .ok (⟨"contosoapp", .v4 5⟩, content.serialize) := by
    have hne := serialize_ne_empty content
    simp [extractVerificationRequest, body, isNullOrEmpty, hne]
  have hreadable : (⟨content.principal, content.jwt⟩ :
      JwtPropertyProvider).Readable .reference :=
    ⟨⟨_, rfl⟩, rfl, rfl, by decide, by decide⟩
  have hparse := parse_of_readable JwtReference.reads
    (JwtReference.validateToken_serialize hpasses) hreadable
  have hverify : TokenVerifier.verify .reference
      (parser.services .reference .reference).tokenPropertyParser
      (answerAt seconds .validationTime) ⟨"contosoapp", .v4 5⟩
      content.serialize = .ok (.ok _) :=
    (TokenVerifier.verify_eq_ok_iff _).mpr ⟨hparse, rfl, rfl⟩
  exact ApproveV2RequestHandler.approves hextracted hverify

theorem declined_iff_lastMinute :
    (∀ request : TokenRequest, request.token = some content.serialize →
        Declined ((request.handle
          (parser.services .reference .reference)).outcome (answerAt 1061))) ↔
      (JwtReference.timeOfSeconds 1000).toInstant.ticks + 60 * ticksPerSecond <
        (answerAt 1061 .validationTime : DateTimeOffset).ticks := by
  have htoken : body.token = some content.serialize := rfl
  have hpasses : content.Passes (answerAt 999 .validationTime)
      parser.validationParameters := by decide
  exact declined_iff JwtReference.reads JwtReference.checksLifetimes htoken
    (approved hpasses) (by decide)

/-- Thirty seconds after the expiry which the first approval has sent, the
same request is approved again. -/
theorem not_declined_lastMinute :
    (ApproveV2RequestHandler.handle (parser.services .reference .reference)
          (.v4 5) (some body)).outcome (answerAt 999) =
        .ok (.createSuccess (.approveV2Success
          ("entitlement-" ++ (firstAnswers .newGuid : Guid).toString)
          (JwtReference.timeOfSeconds 1000).toInstant)) ∧
      (JwtReference.timeOfSeconds 1000).toInstant <
        (answerAt 1030 .validationTime : DateTimeOffset) ∧
      ¬Declined ((ApproveV2RequestHandler.handle
        (parser.services .reference .reference) (.v4 5) (some body)).outcome
          (answerAt 1030)) := by
  refine ⟨approved (by decide), by decide, fun hdeclined => ?_⟩
  rcases hdeclined _ (approved (by decide)) with hstatus | hstatus <;>
    cases hstatus

end LastMinute

end SoftwareEntitlement
