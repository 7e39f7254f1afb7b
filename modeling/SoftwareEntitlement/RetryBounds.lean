import SoftwareEntitlement.TokenDisclosure

/-!
# How many attempts the native client makes

The counter of the loop and its bound are of the same type.  Where the bound is
the largest value of this type, the counter never exceeds it.
-/

namespace SoftwareEntitlement

open RetryLoop

namespace ClientCall

variable {call : ClientCall} {url : String} {exchanges : ℕ → Exchange}

def TimesOut (call : ClientCall) (url : String) (exchange : Exchange) : Prop :=
  ∃ message, (call.attempt url exchange).outcome =
    .error (.curlException operationTimedOut message)

/-- The call ends after at most `retries + 1` attempts: with the outcome of the
first one which does not time out, or with the last of so many timeouts. -/
structure StaysInBound (call : ClientCall) (exchanges : ℕ → Exchange)
    (url : String) : Prop where
  ends : ∃ n ≤ call.retries.toNat + 1, ∃ outcome,
    call.progress exchanges n = .finished outcome
  decided : ∀ n ≤ call.retries.toNat,
    (∀ k < n, call.TimesOut url (exchanges k)) →
      ¬call.TimesOut url (exchanges n) →
        (call.progress exchanges n).Unfinished ∧
          call.progress exchanges (n + 1) =
            .finished (call.attempt url (exchanges n)).outcome
  exhausted : (∀ n ≤ call.retries.toNat, call.TimesOut url (exchanges n)) →
    (call.progress exchanges call.retries.toNat).Unfinished ∧
      call.progress exchanges (call.retries.toNat + 1) =
        .finished (call.attempt url (exchanges call.retries.toNat)).outcome

/-- Without the root certificates of Windows, an attempt is retried if it times
out, and leaves the loop with its own outcome otherwise. -/
theorem inLoop_cases (hplatform : call.windows = false) (url : String)
    (exchange : Exchange) :
    (call.TimesOut url exchange ∧ call.inLoop url exchange = none) ∨
      (¬call.TimesOut url exchange ∧
        call.inLoop url exchange = some (call.attempt url exchange).outcome) := by
  unfold TimesOut inLoop
  rcases (call.attempt url exchange).outcome with
    (message | ⟨code, message⟩ | message | code) | entitlement
  case error.curlException =>
    by_cases htimeout : code = operationTimedOut
    · exact .inl ⟨⟨message, by rw [htimeout]⟩, if_pos htimeout⟩
    · refine .inr ⟨?_, ?_⟩
      · rintro ⟨other, hother⟩
        injection hother with hexception
        injection hexception with hcode
        exact htimeout hcode
      · simp [htimeout, hplatform]
  all_goals simp

theorem inLoop_of_timesOut (hplatform : call.windows = false)
    {exchange : Exchange} (htimesOut : call.TimesOut url exchange) :
    call.inLoop url exchange = none := by
  rcases inLoop_cases hplatform url exchange with
    ⟨-, hretried⟩ | ⟨hdecided, -⟩
  · exact hretried
  · exact absurd htimesOut hdecided

theorem inLoop_of_not_timesOut (hplatform : call.windows = false)
    {exchange : Exchange} (hdecided : ¬call.TimesOut url exchange) :
    call.inLoop url exchange = some (call.attempt url exchange).outcome := by
  rcases inLoop_cases hplatform url exchange with
    ⟨htimesOut, -⟩ | ⟨-, houtcome⟩
  · exact absurd htimesOut hdecided
  · exact houtcome

section Progress

variable (hplatform : call.windows = false)
  (hchecked : checkUrl call.url = .ok url)

include hchecked

theorem progress_eq_loop (exchanges : ℕ → Exchange) (n : ℕ) :
    call.progress exchanges n = call.loop url exchanges n := by
  simp only [progress, hchecked]

include hplatform

theorem unfinished_of_timesOut {n : ℕ}
    (htimesOut : ∀ k < n, call.TimesOut url (exchanges k))
    (hpermits : Permits call.retries n) :
    (call.progress exchanges n).Unfinished := by
  rw [progress_eq_loop hchecked]
  exact unfinished_iff.mpr ⟨fun k hk =>
    inLoop_of_timesOut hplatform (htimesOut k hk), hpermits⟩

/-- Within the bound, the first attempt which does not time out ends the
call. -/
theorem progress_of_not_timesOut {n : ℕ} (hn : n ≤ call.retries.toNat)
    (htimesOut : ∀ k < n, call.TimesOut url (exchanges k))
    (hdecided : ¬call.TimesOut url (exchanges n)) :
    (call.progress exchanges n).Unfinished ∧
      call.progress exchanges (n + 1) =
        .finished (call.attempt url (exchanges n)).outcome := by
  refine ⟨unfinished_of_timesOut hplatform hchecked htimesOut (.inl hn), ?_⟩
  rw [progress_eq_loop hchecked]
  exact progress_succ_of_decided
    (fun k hk => inLoop_of_timesOut hplatform (htimesOut k hk)) (.inl hn)
    (inLoop_of_not_timesOut hplatform hdecided)

/-- Where the counter can exceed the bound, the last of the timeouts ends the
call. -/
theorem progress_of_timesOut (hbound : call.retries.toNat ≠ 2 ^ 32 - 1)
    (htimesOut : ∀ n ≤ call.retries.toNat, call.TimesOut url (exchanges n)) :
    (call.progress exchanges call.retries.toNat).Unfinished ∧
      call.progress exchanges (call.retries.toNat + 1) =
        .finished (call.attempt url (exchanges call.retries.toNat)).outcome := by
  refine ⟨unfinished_of_timesOut hplatform hchecked
    (fun k hk => htimesOut k hk.le) (.inl le_rfl), ?_⟩
  rw [progress_eq_loop hchecked]
  exact progress_succ_of_bound
    (fun k hk => inLoop_of_timesOut hplatform (htimesOut k hk.le)) hbound

theorem exists_finished
    (hcondition : call.retries.toNat ≠ 2 ^ 32 - 1 ∨
      ∃ n ≤ call.retries.toNat, ¬call.TimesOut url (exchanges n)) :
    ∃ n ≤ call.retries.toNat + 1, ∃ outcome,
      call.progress exchanges n = .finished outcome := by
  by_cases hsome : ∃ n, n ≤ call.retries.toNat ∧
      ¬call.TimesOut url (exchanges n)
  · -- the first attempt which does not time out
    classical
    obtain ⟨hn, hdecided⟩ := Nat.find_spec hsome
    have htimesOut : ∀ k < Nat.find hsome, call.TimesOut url (exchanges k) := by
      intro k hk
      by_contra hk'
      exact Nat.find_min hsome hk ⟨hk.le.trans hn, hk'⟩
    have hfinished := progress_of_not_timesOut hplatform hchecked hn htimesOut
      hdecided
    exact ⟨_, Nat.succ_le_succ hn, _, hfinished.2⟩
  · have hbound := hcondition.resolve_right hsome
    push Not at hsome
    exact ⟨_, le_rfl, _,
      (progress_of_timesOut hplatform hchecked hbound hsome).2⟩

end Progress

/-- The bound holds unless it is the largest value of its type, and as many
attempts as this time out. -/
theorem staysInBound_iff (hplatform : call.windows = false)
    (hchecked : checkUrl call.url = .ok url) :
    call.StaysInBound exchanges url ↔
      call.retries.toNat ≠ 2 ^ 32 - 1 ∨
        ∃ n ≤ call.retries.toNat, ¬call.TimesOut url (exchanges n) := by
  constructor
  · intro hbound
    by_contra hfails
    push Not at hfails
    obtain ⟨hmax, htimesOut⟩ := hfails
    have hnext : (call.progress exchanges
        (call.retries.toNat + 1)).Unfinished :=
      unfinished_of_timesOut hplatform hchecked
        (fun k hk => htimesOut k (Nat.lt_succ_iff.mp hk)) (.inr hmax)
    rw [(hbound.exhausted htimesOut).2] at hnext
    exact hnext
  · intro hcondition
    refine ⟨exists_finished hplatform hchecked hcondition, ?_, ?_⟩
    · intro n hn htimesOut hdecided
      exact progress_of_not_timesOut hplatform hchecked hn htimesOut hdecided
    · intro htimesOut
      have hbound := hcondition.resolve_right
        fun ⟨n, hn, hdecided⟩ => hdecided (htimesOut n hn)
      exact progress_of_timesOut hplatform hchecked hbound htimesOut

end ClientCall

/-! ## A server which does not answer -/

/-- An exchange whose transfer times out. -/
def silentExchange : Exchange where
  initialised := true
  options := []
  setUrl := 0
  headersAllocated := true
  setHeaders := 0
  setBody := 0
  sendsBody := false
  performed := operationTimedOut
  errorBuffer := ""
  certInfo := ⟨0, []⟩
  responseCode := ⟨0, 0⟩
  response := ""
  rootCerts := .ok ()

def patientCall (retries : UInt32) : ClientCall :=
  ⟨.reference, false, [], "https://contoso.batch.azure.com", "token", "app",
    retries⟩

theorem timesOut_silentExchange (retries : UInt32) (url : String) :
    (patientCall retries).TimesOut url silentExchange :=
  ⟨_, rfl⟩

theorem staysInBound_onceRetried :
    (patientCall 1).StaysInBound (fun _ => silentExchange)
        "https://contoso.batch.azure.com/" ↔
      (patientCall 1).retries.toNat ≠ 2 ^ 32 - 1 ∨
        ∃ n ≤ (patientCall 1).retries.toNat, ¬(patientCall 1).TimesOut
          "https://contoso.batch.azure.com/" silentExchange :=
  ClientCall.staysInBound_iff rfl (by decide)

/-- With the largest bound, the call never returns. -/
theorem not_staysInBound_alwaysRetried :
    ¬(patientCall 4294967295).StaysInBound (fun _ => silentExchange)
      "https://contoso.batch.azure.com/" := by
  rintro ⟨⟨n, -, outcome, hfinished⟩, -, -⟩
  have hchecked : checkUrl "https://contoso.batch.azure.com" =
      .ok "https://contoso.batch.azure.com/" := by decide
  have hunfinished : ((patientCall 4294967295).loop
      "https://contoso.batch.azure.com/" (fun _ => silentExchange) n).Unfinished :=
    unfinished_iff.mpr ⟨fun k _ => ClientCall.inLoop_of_timesOut rfl
      (timesOut_silentExchange _ _), .inr (by decide)⟩
  have hprogress : (patientCall 4294967295).loop
      "https://contoso.batch.azure.com/" (fun _ => silentExchange) n =
        .finished outcome := by
    have hcall := hfinished
    simp only [ClientCall.progress, patientCall, hchecked] at hcall
    exact hcall
  rw [hprogress] at hunfinished
  exact hunfinished

end SoftwareEntitlement
