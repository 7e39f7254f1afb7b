import SoftwareEntitlement.NativeClient

/-!
# What one attempt does

An attempt fails before the transfer, or it comes to the transfer and sends
the body if libcurl does.  Its result carries the code of the first libcurl
call which fails, unless a failure of another kind comes first.
-/

namespace SoftwareEntitlement

open SearchLoop TracedOutcome

/-- The first code which is an error. -/
def firstError (codes : List ℕ) : Option ℕ :=
  codes.find? (· ≠ 0)

theorem firstError_eq_none_iff {codes : List ℕ} :
    firstError codes = none ↔ ∀ res ∈ codes, res = 0 := by
  simp [firstError, List.find?_eq_none]

def NativeException.curlCode : NativeException → Option ℕ
  | .curlException code _ => some code
  | _ => none

def curlCode {α : Type} : Native α → Option ℕ
  | .ok _ => none
  | .error exception => exception.curlCode

theorem curlCode_bind {α β : Type} {first : Native α} {next : α → Native β}
    (hfirst : curlCode first = none) (hnext : ∀ a, curlCode (next a) = none) :
    curlCode (first >>= next) = none := by
  cases first with
  | ok a => exact hnext a
  | error exception => exact hfirst

theorem curlCode_extractValue (json : JsonLibraries) (response key : String) :
    curlCode (extractValue json response key) = none := by
  refine curlCode_bind ?_ fun j => curlCode_bind ?_ fun value => ?_
  · unfold parseResponse
    split <;> rfl
  · unfold Json.atKey
    repeat' split
    all_goals rfl
  · unfold Json.toStdString
    split <;> rfl

theorem curlCode_interpretResponse (json : JsonLibraries) (code : ℕ)
    (response : String) :
    curlCode (interpretResponse json code response) = none := by
  unfold interpretResponse
  split
  · exact curlCode_bind (curlCode_extractValue json response "id") fun id =>
      curlCode_bind (curlCode_extractValue json response "vmid") fun _ => rfl
  · rfl

theorem curlCode_commonName (cert : X509) : curlCode cert.commonName = none := by
  unfold X509.commonName
  split <;> rfl

theorem curlCode_matchesThumbprint (cert : X509) (thumb : SHA256Thumbprint) :
    curlCode (cert.matchesThumbprint thumb) = none := by
  refine curlCode_bind ?_ fun myThumb => ?_
  · unfold X509.thumbprint
    split
    · exact curlCode_bind (curlCode_commonName cert) fun _ => rfl
    · rfl
  · split <;> rfl

theorem curlCode_judgePin {url : String} {cert : Option X509}
    {pin : CertInfo} {exception : NativeException}
    (hjudge : judgePin url cert pin = .abort exception) :
    exception.curlCode = none := by
  cases cert with
  | none => cases hjudge
  | some cert =>
      have hmatches := curlCode_matchesThumbprint cert pin.thumbprint
      have hname := curlCode_commonName cert
      unfold judgePin at hjudge
      rcases hmatched : cert.matchesThumbprint pin.thumbprint with
        failure | (_ | _)
      · rw [hmatched] at hmatches
        simp only [hmatched, Verdict.abort.injEq] at hjudge
        subst hjudge
        exact hmatches
      · simp [hmatched] at hjudge
      · cases hnamed : cert.commonName with
        | error failure =>
            rw [hnamed] at hname
            simp only [hmatched, hnamed, Verdict.abort.injEq] at hjudge
            subst hjudge
            exact hname
        | ok certName =>
            simp only [hmatched, hnamed] at hjudge
            repeat' split at hjudge
            all_goals cases hjudge
            rfl

theorem curlCode_verifyIntermediateCertificate (url : String)
    (sslCerts : List CertInfo) (chain : List (Option X509)) :
    curlCode (verifyIntermediateCertificate url sslCerts chain) = none := by
  unfold verifyIntermediateCertificate
  cases hscan : scan (fun cert => scan (judgePin url cert) sslCerts) chain with
  | accept => rfl
  | proceed => rfl
  | abort exception =>
      obtain ⟨cert, -, hcert⟩ := exists_of_scan_eq_abort hscan
      obtain ⟨pin, -, hpin⟩ := exists_of_scan_eq_abort hcert
      exact curlCode_judgePin hpin

namespace Exchange

variable (exchange : Exchange)

/-- libcurl is set up, so the attempt comes to the transfer. -/
structure Transfers : Prop where
  initialised : exchange.initialised = true
  options : ∀ res ∈ exchange.options, res = 0
  setUrl : exchange.setUrl = 0
  headersAllocated : exchange.headersAllocated = true
  setHeaders : exchange.setHeaders = 0
  setBody : exchange.setBody = 0

/-- The attempt comes to the transfer, and the body is sent. -/
structure SendsRequest : Prop extends exchange.Transfers where
  sent : exchange.sendsBody = true

/-- The libcurl code of a failure before the transfer. -/
def setupCode : Option ℕ :=
  if exchange.initialised then
    firstError exchange.options <|> firstError [exchange.setUrl] <|>
      if exchange.headersAllocated then
        firstError [exchange.setHeaders, exchange.setBody]
      else
        none
  else
    none

/-- The libcurl code of a failure in the transfer or after it. -/
def transferCode (sslCerts : List CertInfo) (url : String) : Option ℕ :=
  firstError [exchange.performed, exchange.certInfo.code] <|>
    if verifyIntermediateCertificate url sslCerts exchange.certInfo.value =
        .ok () then
      firstError [exchange.responseCode.code]
    else
      none

def FailsWith (sslCerts : List CertInfo) (url : String) (code : ℕ) : Prop :=
  (exchange.Transfers ∧ exchange.transferCode sslCerts url = some code) ∨
    (¬exchange.Transfers ∧ exchange.setupCode = some code)

end Exchange

namespace Curl

variable {exchange : Exchange} {json : JsonLibraries}
  {sslCerts : List CertInfo} {url entitlementToken requestedEntitlement : String}

@[simp] theorem throwIfCurlError_zero :
    throwIfCurlError exchange 0 = pure () := rfl

theorem throwIfCurlError_of_ne {res : ℕ} (hres : res ≠ 0) :
    throwIfCurlError exchange res = .lift (.error (.curlException res
      ("libcurl_error " ++ toString res ++ ": " ++ exchange.errorBuffer))) :=
  if_neg hres

theorem forM_throwIfCurlError (codes : List ℕ) :
    codes.forM (throwIfCurlError exchange) =
      match firstError codes with
      | none => pure ()
      | some res => throwIfCurlError exchange res := by
  induction codes with
  | nil => rfl
  | cons res codes ih =>
      by_cases hres : res = 0
      · subst hres
        simpa [firstError] using ih
      · simp [firstError, hres, throwIfCurlError_of_ne hres]

/-- An attempt which does not come to the transfer has no events. -/
theorem getEntitlement_of_not_transfers (htransfers : ¬exchange.Transfers) :
    ∃ exception,
      getEntitlement exchange json sslCerts url entitlementToken
          requestedEntitlement = .lift (.error exception) ∧
        exception.curlCode = exchange.setupCode := by
  unfold getEntitlement initialise post Exchange.setupCode
  rw [forM_throwIfCurlError]
  cases hinitialised : exchange.initialised with
  | false => exact ⟨_, rfl, rfl⟩
  | true =>
      cases hoptions : firstError exchange.options with
      | some res =>
          have hres : res ≠ 0 := by simpa using List.find?_some hoptions
          simp only [throwIfCurlError_of_ne hres]
          exact ⟨_, rfl, rfl⟩
      | none =>
          by_cases hsetUrl : exchange.setUrl = 0
          · cases hallocated : exchange.headersAllocated with
            | false =>
                simp only [hsetUrl]
                exact ⟨_, rfl, rfl⟩
            | true =>
                by_cases hsetHeaders : exchange.setHeaders = 0
                · by_cases hsetBody : exchange.setBody = 0
                  · exact absurd ⟨hinitialised,
                      firstError_eq_none_iff.mp hoptions, hsetUrl, hallocated,
                      hsetHeaders, hsetBody⟩ htransfers
                  · simp only [throwIfCurlError_of_ne hsetBody, hsetUrl,
                      hsetHeaders]
                    refine ⟨_, rfl, ?_⟩
                    simp [firstError, hsetBody, NativeException.curlCode]
                · simp only [throwIfCurlError_of_ne hsetHeaders, hsetUrl]
                  refine ⟨_, rfl, ?_⟩
                  simp [firstError, hsetHeaders, NativeException.curlCode]
          · simp only [throwIfCurlError_of_ne hsetUrl]
            refine ⟨_, rfl, ?_⟩
            simp [firstError, hsetUrl, NativeException.curlCode]

/-- An attempt from the return of `curl_easy_perform` on. -/
def afterTransfer (exchange : Exchange) (json : JsonLibraries)
    (sslCerts : List CertInfo) (url : String) : NativeTraced Entitlement := do
  throwIfCurlError exchange exchange.performed
  verifyChain exchange sslCerts url
  readEntitlement exchange json

theorem getEntitlement_of_transfers (htransfers : exchange.Transfers) :
    getEntitlement exchange json sslCerts url entitlementToken
        requestedEntitlement =
      (do
        if exchange.sendsBody then
          Traced.record (.bodySent
            (cString (url ++ "softwareEntitlements?api-version=2017-05-01.5.0"))
            (requestBody entitlementToken requestedEntitlement))
        afterTransfer exchange json sslCerts url) := by
  unfold getEntitlement initialise post
  rw [forM_throwIfCurlError, firstError_eq_none_iff.mpr htransfers.options]
  simp only [htransfers.initialised, htransfers.setUrl,
    htransfers.headersAllocated, htransfers.setHeaders, htransfers.setBody,
    throwIfCurlError_zero, Traced.pure_bind]
  cases exchange.sendsBody with
  | true => simp [Traced.bind_assoc, afterTransfer]
  | false => rfl

/-- After the transfer the only event is the acceptance of the chain. -/
theorem afterTransfer_spec :
    (∀ event ∈ (afterTransfer exchange json sslCerts url).events,
      event = .chainVerified) ∧
    curlCode (afterTransfer exchange json sslCerts url).outcome =
      exchange.transferCode sslCerts url := by
  unfold afterTransfer verifyChain readEntitlement
  by_cases hperformed : exchange.performed = 0
  · by_cases hcertInfo : exchange.certInfo.code = 0
    · simp only [hperformed, hcertInfo, throwIfCurlError_zero,
        Traced.pure_bind, Traced.bind_assoc]
      cases hverify : verifyIntermediateCertificate url sslCerts
          exchange.certInfo.value with
      | error exception =>
          have hcode : exception.curlCode = none := by
            simpa [hverify, curlCode] using
              curlCode_verifyIntermediateCertificate url sslCerts
                exchange.certInfo.value
          have htransfer : exchange.transferCode sslCerts url = none := by
            simp [Exchange.transferCode, firstError, hperformed, hcertInfo,
              hverify]
          rw [htransfer]
          exact ⟨fun event hevent => absurd hevent List.not_mem_nil, hcode⟩
      | ok accepted =>
          by_cases hresponse : exchange.responseCode.code = 0
          · have htransfer : exchange.transferCode sslCerts url = none := by
              simp [Exchange.transferCode, firstError, hperformed, hcertInfo,
                hresponse]
            rw [htransfer, hresponse]
            exact ⟨fun event hevent => List.mem_singleton.mp hevent,
              curlCode_interpretResponse json exchange.responseCode.value
                exchange.response⟩
          · have htransfer : exchange.transferCode sslCerts url =
                some exchange.responseCode.code := by
              simp [Exchange.transferCode, firstError, hperformed, hcertInfo,
                hverify, hresponse]
            rw [htransfer, throwIfCurlError_of_ne hresponse]
            exact ⟨fun event hevent => List.mem_singleton.mp hevent, rfl⟩
    · have htransfer : exchange.transferCode sslCerts url =
          some exchange.certInfo.code := by
        simp [Exchange.transferCode, firstError, hperformed, hcertInfo]
      rw [htransfer, hperformed, throwIfCurlError_of_ne hcertInfo]
      exact ⟨fun event hevent => absurd hevent List.not_mem_nil, rfl⟩
  · have htransfer : exchange.transferCode sslCerts url =
        some exchange.performed := by
      simp [Exchange.transferCode, firstError, hperformed]
    rw [htransfer, throwIfCurlError_of_ne hperformed]
    exact ⟨fun event hevent => absurd hevent List.not_mem_nil, rfl⟩

theorem outcome_of_transfers (htransfers : exchange.Transfers) :
    (getEntitlement exchange json sslCerts url entitlementToken
        requestedEntitlement).outcome =
      (afterTransfer exchange json sslCerts url).outcome := by
  rw [getEntitlement_of_transfers htransfers]
  cases exchange.sendsBody with
  | true => rfl
  | false => rfl

theorem curlCode_getEntitlement {code : ℕ} :
    curlCode (getEntitlement exchange json sslCerts url entitlementToken
        requestedEntitlement).outcome = some code ↔
      exchange.FailsWith sslCerts url code := by
  by_cases htransfers : exchange.Transfers
  · rw [outcome_of_transfers htransfers, afterTransfer_spec.2]
    simp [Exchange.FailsWith, htransfers]
  · obtain ⟨exception, hattempt, hcode⟩ :=
      getEntitlement_of_not_transfers htransfers
    rw [hattempt]
    simp [Exchange.FailsWith, htransfers, Traced.lift, curlCode, hcode]

/-- A body which is sent is sent first, and once. -/
theorem events_of_sendsRequest (hsends : exchange.SendsRequest) :
    ∃ examined,
      (getEntitlement exchange json sslCerts url entitlementToken
          requestedEntitlement).events =
        .bodySent
          (cString (url ++ "softwareEntitlements?api-version=2017-05-01.5.0"))
          (requestBody entitlementToken requestedEntitlement) :: examined ∧
      ∀ event ∈ examined, event = .chainVerified := by
  rw [getEntitlement_of_transfers hsends.toTransfers, hsends.sent]
  exact ⟨_, rfl, afterTransfer_spec.1⟩

/-- Without a request body, the only event is the acceptance of the chain. -/
theorem events_of_not_sendsRequest (hsends : ¬exchange.SendsRequest) :
    ∀ event ∈ (getEntitlement exchange json sslCerts url entitlementToken
        requestedEntitlement).events,
      event = .chainVerified := by
  by_cases htransfers : exchange.Transfers
  · have hnot : exchange.sendsBody = false := by
      cases hsent : exchange.sendsBody with
      | true => exact absurd ⟨htransfers, hsent⟩ hsends
      | false => rfl
    rw [getEntitlement_of_transfers htransfers, hnot]
    exact afterTransfer_spec.1
  · obtain ⟨exception, hattempt, -⟩ :=
      getEntitlement_of_not_transfers htransfers
    rw [hattempt]
    exact fun event hevent => absurd hevent List.not_mem_nil

end Curl

end SoftwareEntitlement
