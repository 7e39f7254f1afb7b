import SoftwareEntitlement.AttemptOutcomes

/-!
# To whom the native client discloses the token

An attempt examines the certificate chain after libcurl has performed the
request, so a body which is sent goes to a server which has not been examined.
-/

namespace SoftwareEntitlement

open RetryLoop

namespace ClientCall

variable {call : ClientCall} {url : String} {exchange : Exchange}
  {exchanges : ℕ → Exchange} {n : ℕ}

/-! ## The attempts which a call makes -/

/-- The attempt times out; or, on Windows, the certificate of the server is not
accepted and the root certificates can be populated. -/
def Retries (call : ClientCall) (url : String) (exchange : Exchange) : Prop :=
  exchange.FailsWith call.sslCerts url operationTimedOut ∨
    (call.windows = true ∧ exchange.FailsWith call.sslCerts url sslCaCert ∧
      exchange.rootCerts = .ok ())

/-- The call makes its attempt number `n`: the earlier attempts are retried, and
the number of retries permits it. -/
def Makes (call : ClientCall) (url : String) (exchanges : ℕ → Exchange)
    (n : ℕ) : Prop :=
  (∀ k < n, call.Retries url (exchanges k)) ∧ Permits call.retries n

theorem inLoop_eq_none_iff :
    call.inLoop url exchange = none ↔ call.Retries url exchange := by
  have hcode (code : ℕ) :
      curlCode (call.attempt url exchange).outcome = some code ↔
        exchange.FailsWith call.sslCerts url code :=
    Curl.curlCode_getEntitlement
  unfold inLoop Retries
  rw [← hcode, ← hcode]
  rcases (call.attempt url exchange).outcome with
    (message | ⟨code, message⟩ | message | code) | entitlement
  case error.curlException =>
    by_cases htimeout : code = operationTimedOut
    · simp [curlCode, NativeException.curlCode, htimeout]
    · by_cases hcaCert : call.windows = true ∧ code = sslCaCert
      · cases hpopulate : exchange.rootCerts <;>
          simp [curlCode, NativeException.curlCode, hcaCert]
      · simpa [curlCode, NativeException.curlCode, htimeout, hcaCert] using
          fun hwindows hcode _ => hcaCert ⟨hwindows, hcode⟩
  all_goals simp [curlCode, NativeException.curlCode]

theorem unfinished_loop_iff :
    (call.loop url exchanges n).Unfinished ↔ call.Makes url exchanges n := by
  rw [loop, unfinished_iff]
  simp only [Makes, inLoop_eq_none_iff]

theorem eventsOf_of_makes (hchecked : checkUrl call.url = .ok url)
    (hmakes : call.Makes url exchanges n) :
    call.eventsOf exchanges n = (call.attempt url (exchanges n)).events := by
  simp only [eventsOf, hchecked, if_pos (unfinished_loop_iff.mpr hmakes)]

theorem makes_of_mem_eventsOf {event : ClientEvent}
    (hevent : event ∈ call.eventsOf exchanges n) :
    ∃ url, checkUrl call.url = .ok url ∧ call.Makes url exchanges n := by
  unfold eventsOf at hevent
  cases hchecked : checkUrl call.url with
  | error exception => simp [hchecked] at hevent
  | ok url =>
      refine ⟨url, rfl, unfinished_loop_iff.mp ?_⟩
      by_contra hfinished
      simp [hchecked, hfinished] at hevent

/-! ## Disclosure -/

/-- In every attempt, the body is sent after the chain has been accepted. -/
def DisclosesOnlyToPinned (call : ClientCall) (exchanges : ℕ → Exchange) :
    Prop :=
  ∀ n before url body after,
    call.eventsOf exchanges n = before ++ .bodySent url body :: after →
      .chainVerified ∈ before

def SendsNothing (call : ClientCall) (exchanges : ℕ → Exchange) : Prop :=
  ∀ url, checkUrl call.url = .ok url →
    ∀ n, call.Makes url exchanges n → ¬(exchanges n).SendsRequest

end ClientCall

theorem disclosesOnlyToPinned_iff (call : ClientCall)
    (exchanges : ℕ → Exchange) :
    call.DisclosesOnlyToPinned exchanges ↔ call.SendsNothing exchanges := by
  constructor
  · intro hdiscloses url hchecked n hmakes hsends
    obtain ⟨examined, hevents, -⟩ := Curl.events_of_sendsRequest hsends
    have hverified := hdiscloses n [] _ _ examined
      ((ClientCall.eventsOf_of_makes hchecked hmakes).trans hevents)
    cases hverified
  · intro hnothing n before url body after hevents
    have hsent : .bodySent url body ∈ call.eventsOf exchanges n := by
      simp [hevents]
    obtain ⟨normalised, hchecked, hmakes⟩ :=
      ClientCall.makes_of_mem_eventsOf hsent
    rw [ClientCall.eventsOf_of_makes hchecked hmakes] at hsent
    cases Curl.events_of_not_sendsRequest
      (hnothing normalised hchecked n hmakes) _ hsent

/-- The body reaches a server whose certificate is not pinned. -/
theorem not_disclosesOnlyToPinned_otherCertificate :
    ¬ClientCall.DisclosesOnlyToPinned
      ⟨.reference, false, sslCertsAfter [.init],
        "https://contoso.batch.azure.com", "token", "app", 0⟩
      fun _ =>
        { initialised := true
          options := [0, 0, 0, 0, 0, 0, 0, 0]
          setUrl := 0
          headersAllocated := true
          setHeaders := 0
          setBody := 0
          sendsBody := true
          performed := 0
          errorBuffer := ""
          certInfo := ⟨0, [some ⟨some (List.replicate 20 0), some "Other CA"⟩]⟩
          responseCode := ⟨0, 403⟩
          response := ""
          rootCerts := .ok () } := by
  intro hdiscloses
  have hverified := hdiscloses 0 [] _ _ _ rfl
  cases hverified

end SoftwareEntitlement
