import SoftwareEntitlement.AcknowledgedUpdates
import SoftwareEntitlement.StoreHistory
import SoftwareEntitlement.Traversals

/-!
# How long a lease lasts

Acquire and Renew add the duration which the request states to the time they
have read, tell the client the sum, and store the time.  XML durations may be
zero or negative, and nothing checks their sign: the lease ends later than it
begins exactly when the duration is positive.
-/

namespace SoftwareEntitlement

open Interleaving

variable {ι : Type}

/-! ## What a query has done when it answers -/

section Answers

variable {α β : Type} (thread : ι)

/-- An outcome which ends the handler is not an answer 200; otherwise `mid`
holds of the value and of the trace. -/
def Continues (mid : α → List (Event ι) → Prop)
    (outcome : Throws (Result α Response)) (trace : List (Event ι)) : Prop :=
  (∀ response, outcome = .ok (.error response) → response.statusCode ≠ 200) ∧
    ∀ value, outcome = .ok (.ok value) → mid value trace

def Query.Answers (query : Query α) (mid : α → List (Event ι) → Prop)
    (trace : List (Event ι)) : Prop :=
  Handling.Obeys thread (fun _ _ => True) query.run (Continues mid) trace

variable {thread} {trace : List (Event ι)}

theorem Continues.exception {mid : α → List (Event ι) → Prop}
    (exception : ClrException) : Continues mid (.error exception) trace := by
  constructor
  · rintro _ ⟨⟩
  · rintro _ ⟨⟩

theorem Continues.refused {mid : α → List (Event ι) → Prop} {response : Response}
    (hstatus : response.statusCode ≠ 200) :
    Continues mid (.ok (.error response)) trace := by
  constructor
  · rintro _ ⟨⟩
    exact hstatus
  · rintro _ ⟨⟩

theorem Continues.value {mid : α → List (Event ι) → Prop} {value : α}
    (hmid : mid value trace) : Continues mid (.ok (.ok value)) trace := by
  constructor
  · rintro _ ⟨⟩
  · rintro _ ⟨⟩
    exact hmid

theorem Query.Answers.bind {query : Query α} {f : α → Query β}
    {mid : α → List (Event ι) → Prop} {post : β → List (Event ι) → Prop}
    (hquery : query.Answers thread mid trace)
    (hnext : ∀ value trace', mid value trace' →
      (f value).Answers thread post trace') :
    (query >>= f).Answers thread post trace := by
  refine Program.Obeys.bind hquery fun outcome trace' houtcome => ?_
  obtain ⟨hends, hvalue⟩ := houtcome
  rcases outcome with exception | (response | value)
  · exact Continues.exception exception
  · exact Continues.refused (hends response rfl)
  · exact hnext value trace' (hvalue value rfl)

theorem Query.Answers.mono {query : Query α}
    {mid mid' : α → List (Event ι) → Prop}
    (hquery : query.Answers thread mid trace)
    (hmid : ∀ value trace', mid value trace' → mid' value trace') :
    query.Answers thread mid' trace :=
  Program.Obeys.mono hquery fun _ trace' houtcome =>
    ⟨houtcome.1, fun value heq => hmid value trace' (houtcome.2 value heq)⟩

theorem Query.pure_answers {value : α} {mid : α → List (Event ι) → Prop}
    (hmid : mid value trace) :
    (Pure.pure value : Query α).Answers thread mid trace :=
  Continues.value hmid

theorem Query.ofOutcome_answers {outcome : Throws (Result α Response)}
    (hends : ∀ response, outcome = .ok (.error response) →
      response.statusCode ≠ 200) :
    (Query.ofOutcome outcome).Answers thread
      (fun value trace' => trace' = trace ∧ outcome = .ok (.ok value)) trace :=
  ⟨hends, fun _ heq => ⟨rfl, heq⟩⟩

theorem Query.lift_answers {program : Handling α}
    {mid : α → List (Event ι) → Prop}
    (hprogram : program.Obeys thread (fun _ _ => True)
      (fun outcome trace' => ∀ value, outcome = .ok value → mid value trace')
      trace) :
    (liftM program : Query α).Answers thread mid trace := by
  refine Program.Obeys.exceptMap (Program.Obeys.mono hprogram ?_)
  rintro (exception | value) trace' houtcome
  · exact Continues.exception exception
  · exact Continues.value (houtcome value rfl)

theorem Query.request_answers (access : Access) :
    (liftM (request access) : Query (Reply access)).Answers thread
      (fun reply trace' => trace' = ⟨thread, access, reply⟩ :: trace) trace := by
  refine Query.lift_answers ⟨trivial, fun reply => ?_⟩
  rintro _ ⟨⟩
  rfl

/-- What a handler has done when it answers 200. -/
theorem Query.Answers.merge {query : Query Response}
    {post : Response → List (Event ι) → Prop}
    (hquery : query.Answers thread post trace) :
    query.merge.Obeys thread (fun _ _ => True)
      (fun outcome trace' => ∀ response, outcome = .ok response →
        response.statusCode = 200 → post response trace') trace := by
  refine Program.Obeys.exceptMap (Program.Obeys.mono hquery ?_)
  rintro (exception | (response | response)) trace' ⟨hends, hvalue⟩ _ heq h200
  · cases heq
  · cases heq
    exact absurd h200 (hends response rfl)
  · cases heq
    exact hvalue response rfl

end Answers

/-! ## The clauses of the handlers -/

section Handlers

variable {thread : ι} {trace : List (Event ι)} {services : Services}

theorem Response.Refuses.status_ne {response : Response}
    (hrefuses : response.Refuses) : response.statusCode ≠ 200 := by
  have hstatus := hrefuses.status
  simp only [List.mem_cons, List.not_mem_nil, or_false] at hstatus
  omega

theorem parseDuration_eq_ok {runtime : Runtime} {duration : Option String}
    {timeSpan : TimeSpan}
    (hparse : parseDuration runtime duration = .ok (.ok timeSpan)) :
    ∃ text, duration = some text ∧ runtime.toTimeSpan text = .ok timeSpan := by
  rcases parseDuration_cases runtime duration with
    ⟨text, parsed, hduration, -, htext, hparsed⟩ |
    ⟨text, -, -, -, hoverflow⟩ | ⟨errors, herrors, -⟩
  · obtain rfl : parsed = timeSpan :=
      Except.ok.inj (Except.ok.inj (hparsed.symm.trans hparse))
    exact ⟨text, hduration, htext⟩
  · rw [hoverflow] at hparse
    cases hparse
  · rw [herrors] at hparse
    cases hparse

theorem parseDurationClause_answers (duration : Option (Option String)) :
    (parseDurationClause services duration).Answers thread
      (fun timeSpan trace' => trace' = trace ∧ ∃ text,
        duration = some (some text) ∧
          services.runtime.toTimeSpan text = .ok timeSpan) trace := by
  cases duration with
  | none =>
      refine (Query.ofOutcome_answers ?_).mono ?_
      · rintro response heq
        cases heq
      · rintro timeSpan trace' ⟨-, heq⟩
        cases heq
  | some duration =>
      refine (Query.ofOutcome_answers ?_).mono ?_
      · intro response heq
        obtain ⟨parsed, hparsed, heq⟩ := Traversal.bind_eq_ok_iff.mp heq
        cases parsed with
        | ok timeSpan => cases heq
        | error errors =>
            cases heq
            exact (createBadRequestResponse_refuses errors).status_ne
      · rintro timeSpan trace' ⟨htrace, heq⟩
        obtain ⟨parsed, hparsed, heq⟩ := Traversal.bind_eq_ok_iff.mp heq
        cases parsed with
        | error errors => cases heq
        | ok parsed =>
            cases heq
            obtain ⟨text, rfl, htext⟩ := parseDuration_eq_ok hparsed
            exact ⟨htrace, text, rfl, htext⟩

theorem extractVerificationRequestClause_answers
    (body : Option IVerificationRequestBody) (remoteIpAddress : IPAddress) :
    (extractVerificationRequestClause body remoteIpAddress).Answers thread
      (fun _ trace' => trace' = trace) trace := by
  refine (Query.ofOutcome_answers ?_).mono fun _ _ h => h.1
  intro response heq
  cases hextract : extractVerificationRequest body remoteIpAddress with
  | ok extracted =>
      rw [hextract] at heq
      cases heq
  | error errors =>
      rw [hextract] at heq
      cases heq
      exact (createBadRequestResponse_refuses errors).status_ne

theorem verifyClause_answers (verification : TokenVerificationRequest)
    (token : String) :
    (verifyClause services verification token).Answers thread
      (fun _ trace' => ∃ now,
        trace' = ⟨thread, .validationTime, now⟩ :: trace) trace := by
  refine (Query.request_answers .validationTime).bind fun now trace' htrace => ?_
  refine (Query.ofOutcome_answers ?_).mono fun _ _ h => ⟨now, h.1.trans htrace⟩
  intro response heq
  obtain ⟨verified, -, heq⟩ := Traversal.bind_eq_ok_iff.mp heq
  cases verified with
  | ok properties => cases heq
  | error errors =>
      cases heq
      exact (createDeniedResponse_refuses errors _).status_ne

theorem addClause_answers (instant : DateTimeOffset) (duration : TimeSpan) :
    (addClause instant duration).Answers thread
      (fun expiry trace' => trace' = trace ∧
        instant.add duration = .ok expiry) trace := by
  refine (Query.ofOutcome_answers ?_).mono ?_
  · intro response heq
    cases hadd : instant.add duration with
    | error exception =>
        rw [hadd] at heq
        cases heq
    | ok expiry =>
        rw [hadd] at heq
        cases heq
  · rintro expiry trace' ⟨htrace, heq⟩
    cases hadd : instant.add duration with
    | error exception =>
        rw [hadd] at heq
        cases heq
    | ok sum =>
        rw [hadd] at heq
        cases heq
        exact ⟨htrace, rfl⟩

def readings : List (Event ι) → List DateTimeOffset
  | [] => []
  | ⟨_, .utcNow, now⟩ :: earlier => now :: readings earlier
  | _ :: earlier => readings earlier

theorem mem_readings {time : DateTimeOffset}
    (hmem : (⟨thread, .utcNow, time⟩ : Event ι) ∈ trace) :
    time ∈ readings trace := by
  induction trace with
  | nil => cases hmem
  | cons event earlier ih =>
      rcases List.mem_cons.mp hmem with rfl | hearlier
      · exact List.mem_cons_self
      · obtain ⟨i, access, reply⟩ := event
        cases access with
        | utcNow => exact List.mem_cons_of_mem _ (ih hearlier)
        | _ => exact ih hearlier

theorem findEntitlementClause_answers (entitlementId : String) :
    (findEntitlementClause entitlementId).Answers thread
      (fun _ trace' => readings trace' = readings trace) trace := by
  refine ⟨trivial, fun found => ?_⟩
  cases found with
  | none => exact Continues.refused (by simp [createNotFoundResponse])
  | some entitlementProperties => exact Continues.value rfl

theorem notReleasedClause_answers (properties : EntitlementProperties) :
    (notReleasedClause properties).Answers thread
      (fun _ trace' => trace' = trace) trace := by
  refine (Query.ofOutcome_answers ?_).mono fun _ _ h => h.1
  intro response heq
  cases hreleased : properties.isReleased with
  | false =>
      rw [hreleased] at heq
      cases heq
  | true =>
      rw [hreleased] at heq
      cases heq
      exact (createAlreadyReleasedResponse_refuses _).status_ne

/-- `RenewEntitlement`, whose failure is an internal error. -/
theorem renewEntitlement_answers (entitlementId : String)
    (renewalTime : DateTimeOffset) :
    Query.Answers thread
      (ExceptT.mk do
        let renewed ←
          EntitlementStore.renewEntitlement entitlementId renewalTime
        return renewed.onError createInternalErrorResponse)
      (fun _ trace' => readings trace' = readings trace) trace := by
  refine ⟨trivial, fun found => ?_⟩
  cases found with
  | none =>
      exact Continues.refused (createInternalErrorResponse_refuses _).status_ne
  | some current =>
      refine ⟨trivial, fun updated => ⟨trivial, fun swapped => ?_⟩⟩
      cases swapped with
      | false =>
          exact Continues.refused (createInternalErrorResponse_refuses _).status_ne
      | true => exact Continues.value rfl

/-! ## The handlers -/

/-- The answer to a request for a lease which states a duration: the time
which was read, and the sum of the two. -/
def LeaseTold (runtime : Runtime) (duration : Option (Option String))
    (success : DateTimeOffset → Response → Prop) (response : Response)
    (trace : List (Event ι)) : Prop :=
  ∃ text timeSpan time expiry, duration = some (some text) ∧
    runtime.toTimeSpan text = .ok timeSpan ∧ time.add timeSpan = .ok expiry ∧
    success expiry response ∧ readings trace = [time]

theorem AcquireRequestHandler.handle_tells (remoteIpAddress : IPAddress)
    (body : Option AcquireRequestBody) :
    (AcquireRequestHandler.handle services remoteIpAddress body).Obeys thread
      (fun _ _ => True)
      (fun outcome trace => ∀ response, outcome = .ok response →
        response.statusCode = 200 →
          LeaseTold services.runtime (body.map AcquireRequestBody.duration)
            (fun expiry response => ∃ id, response =
              .createSuccess (.acquireSuccess id
                (services.runtime.formatRoundtrip expiry)))
            response trace) [] := by
  refine Query.Answers.merge ?_
  refine (parseDurationClause_answers _).bind fun timeSpan trace₁ h₁ => ?_
  obtain ⟨rfl, text, hbody, htext⟩ := h₁
  refine (extractVerificationRequestClause_answers _ _).bind
    fun (verification, token) trace₂ h₂ => ?_
  subst h₂
  refine (verifyClause_answers verification token).bind
    fun tokenProperties trace₃ h₃ => ?_
  obtain ⟨now, rfl⟩ := h₃
  refine (Query.request_answers .newGuid).bind fun guid trace₄ h₄ => ?_
  refine (Query.request_answers .utcNow).bind fun time trace₅ h₅ => ?_
  refine (addClause_answers time timeSpan).bind fun expiry trace₆ h₆ => ?_
  obtain ⟨h₆, hexpiry⟩ := h₆
  have hreadings : readings trace₆ = [time] := by
    rw [h₆, h₅, h₄]
    rfl
  have hstore : (EntitlementStore.storeEntitlement guid.toStringN
      tokenProperties time).Obeys thread (fun _ _ => True)
        (fun outcome trace' => ∀ record, outcome = .ok record →
          readings trace' = [time]) trace₆ :=
    ⟨trivial, fun _ => ⟨trivial, fun _ _ _ => hreadings⟩⟩
  refine (Query.lift_answers hstore).bind fun stored trace₇ h₇ => ?_
  exact Query.pure_answers ⟨text, timeSpan, time, expiry, hbody, htext, hexpiry,
    ⟨_, rfl⟩, h₇⟩

theorem RenewRequestHandler.handle_tells (body : Option RenewRequestBody)
    (entitlementId : String) :
    (RenewRequestHandler.handle services body entitlementId).Obeys thread
      (fun _ _ => True)
      (fun outcome trace => ∀ response, outcome = .ok response →
        response.statusCode = 200 →
          LeaseTold services.runtime (body.map RenewRequestBody.duration)
            (fun expiry response => response = .createSuccess (.renewSuccess
              (services.runtime.formatRoundtrip expiry)))
            response trace) [] := by
  refine Query.Answers.merge ?_
  refine (parseDurationClause_answers _).bind fun timeSpan trace₁ h₁ => ?_
  obtain ⟨rfl, text, hbody, htext⟩ := h₁
  refine (findEntitlementClause_answers entitlementId).bind
    fun found trace₂ h₂ => ?_
  refine (notReleasedClause_answers found).bind fun _ trace₃ h₃ => ?_
  refine (Query.request_answers .utcNow).bind fun time trace₄ h₄ => ?_
  refine (addClause_answers time timeSpan).bind fun expiry trace₅ h₅ => ?_
  obtain ⟨h₅, hexpiry⟩ := h₅
  have hreadings : readings trace₅ = [time] := by
    rw [h₅, h₄, h₃]
    exact congrArg (time :: ·) h₂
  refine (renewEntitlement_answers entitlementId time).bind
    fun renewed trace₆ h₆ => ?_
  exact Query.pure_answers ⟨text, timeSpan, time, expiry, hbody, htext, hexpiry,
    rfl, h₆.trans hreadings⟩

end Handlers

/-! ## Leases in a run -/

/-- The duration which the body of a request states, if it has a body. -/
def Request.duration : Request → Option (Option String)
  | .acquire _ body => body.map AcquireRequestBody.duration
  | .renew body _ => body.map RenewRequestBody.duration
  | .release _ => none

/-- The response to the request tells this expiry. -/
def Request.Tells (request : Request) (runtime : Runtime)
    (expiry : DateTimeOffset) (response : Response) : Prop :=
  match request with
  | .acquire _ _ => ∃ id, response =
      .createSuccess (.acquireSuccess id (runtime.formatRoundtrip expiry))
  | .renew _ _ => response =
      .createSuccess (.renewSuccess (runtime.formatRoundtrip expiry))
  | .release _ => False

section Runs

variable [DecidableEq ι] {services : Services} {requests : ι → Request}
  {pool : ServerPool ι} {thread : ι}

/-- The request has recorded this time in the store: as the acquisition time
of a new record, or as a renewal time. -/
def Records (requests : ι → Request) (pool : ServerPool ι) (thread : ι)
    (time : DateTimeOffset) : Prop :=
  match requests thread with
  | .acquire _ _ => ∃ id tokenProperties record,
      (⟨thread, .stored id tokenProperties time⟩ : Commit ι) ∈
          committed requests pool ∧
        pool.shared.record id = some record ∧
        record.acquisitionEventTime = time
  | .renew _ id => ∃ record,
      (⟨thread, .renewed id time⟩ : Commit ι) ∈ committed requests pool ∧
        pool.shared.record id = some record ∧
        time ∈ record.renewalEventTimes
  | .release _ => False

omit [DecidableEq ι] in
theorem obeys_trivial {α : Type} (program : Program Access Reply α)
    (trace : List (Event ι)) :
    program.Obeys (Event.mk thread) (fun _ _ => True) (fun _ _ => True)
      trace := by
  induction program generalizing trace with
  | done result => trivial
  | access request next ih => exact ⟨trivial, fun reply => ih reply _⟩

omit [DecidableEq ι] in
theorem Request.handle_tells (request : Request) :
    (request.handle services).Obeys thread (fun _ _ => True)
      (fun outcome trace => ∀ response, outcome = .ok response →
        response.statusCode = 200 → (∀ id, request ≠ .release id) →
          LeaseTold services.runtime request.duration
            (request.Tells services.runtime) response trace) [] := by
  cases request with
  | acquire remoteIpAddress body =>
      exact Program.Obeys.mono
        (AcquireRequestHandler.handle_tells remoteIpAddress body)
        fun _ _ htells response heq h200 _ => htells response heq h200
  | renew body id =>
      exact Program.Obeys.mono (RenewRequestHandler.handle_tells body id)
        fun _ _ htells response heq h200 _ => htells response heq h200
  | release id =>
      exact Program.Obeys.mono (obeys_trivial _ [])
        fun _ _ _ _ _ _ hlease => absurd rfl (hlease id)

theorem leaseTold_of_done
    (hreachable :
      ServerPool.Reachable services (Request.clients requests) pool)
    {response : Response}
    (hdone : pool.threads thread = .done (.ok (.response response)))
    (h200 : response.statusCode = 200)
    (hlease : ∀ id, requests thread ≠ .release id) :
    LeaseTold services.runtime (requests thread).duration
      ((requests thread).Tells services.runtime) response
      (ownEvents thread pool.shared.past) := by
  have hobedient : serverLog.Obedient (fun _ _ _ => True)
      (fun i outcome trace => ∀ response, outcome = .ok (.response response) →
        response.statusCode = 200 → (∀ id, requests i ≠ .release id) →
          LeaseTold services.runtime (requests i).duration
            ((requests i).Tells services.runtime) response trace) pool := by
    refine Log.Obedient.reaches (fun i => ?_) hreachable
    refine Program.Obeys.exceptMap
      (Program.Obeys.mono (Request.handle_tells (requests i)) ?_)
    rintro (exception | response) trace htells _ heq
    · cases heq
    · cases heq
      exact htells response rfl
  exact hobedient.post_of_done hdone response rfl h200 hlease

theorem mem_renewalTimes {id : String} {time : DateTimeOffset}
    {updates : List Update} (hmem : .renewed id time ∈ updates) :
    time ∈ renewalTimes id updates := by
  induction updates with
  | nil => cases hmem
  | cons update earlier ih =>
      rcases List.mem_cons.mp hmem with rfl | hearlier
      · simp [renewalTimes]
      · have htime := ih hearlier
        cases update <;> simp [renewalTimes, htime]

/-- The time which an answered request has read is the time it has recorded. -/
theorem records_of_readings
    (hreachable :
      ServerPool.Reachable services (Request.clients requests) pool)
    {response : Response} {time : DateTimeOffset}
    (hdone : pool.threads thread = .done (.ok (.response response)))
    (h200 : response.statusCode = 200)
    (hlease : ∀ id, requests thread ≠ .release id)
    (hreadings : readings (ownEvents thread pool.shared.past) = [time]) :
    Records requests pool thread time := by
  have hread : ∀ reading,
      (⟨thread, .utcNow, reading⟩ : Event ι) ∈ pool.shared.past →
        reading = time := by
    intro reading hmem
    have hown := mem_readings (mem_ownEvents.mpr hmem)
    rw [hreadings] at hown
    exact List.mem_singleton.mp hown
  have hacknowledges : (Request.clients requests thread).acknowledges
      (.ok (.response response)) = true := by
    unfold Request.clients
    cases hrequest : requests thread with
    | acquire remoteIpAddress body => simp [Client.acknowledges, h200]
    | renew body id => simp [Client.acknowledges, h200]
    | release id => exact absurd hrequest (hlease id)
  obtain ⟨update, hcommit, hperforms⟩ :=
    performs_of_acknowledges hreachable hdone hacknowledges
  unfold Records
  cases hrequest : requests thread with
  | acquire remoteIpAddress body =>
      rw [hrequest] at hperforms
      cases update with
      | stored id tokenProperties stored =>
          obtain rfl := hread stored hperforms.2
          have hfirst := firstStored_of_commit hreachable hcommit rfl
          have hrecord : pool.shared.record id =
              ledgerRecord id ((committed requests pool).map Commit.update) :=
            record_eq_ledgerRecord hreachable id
          rw [ledgerRecord, hfirst, Option.map_some] at hrecord
          exact ⟨id, tokenProperties, _, hcommit, hrecord, rfl⟩
      | renewed id renewed =>
          obtain ⟨⟨body', heq⟩, -⟩ := hperforms
          cases heq
      | released id released => cases hperforms.1
  | renew body id =>
      rw [hrequest] at hperforms
      obtain ⟨renewed, rfl⟩ := hperforms.of_renew
      obtain rfl := hread renewed hperforms.2
      obtain ⟨record, hrecord⟩ := Option.isSome_iff_exists.mp
        (record_isSome_of_commit hreachable hcommit)
      have htimes : record.renewalEventTimes =
          renewalTimes id ((committed requests pool).map Commit.update) := by
        rw [record_eq_ledgerRecord hreachable] at hrecord
        obtain ⟨stored, -, rfl⟩ := Option.map_eq_some_iff.mp hrecord
        rfl
      refine ⟨record, hcommit, hrecord, ?_⟩
      rw [htimes]
      exact mem_renewalTimes (List.mem_map_of_mem hcommit)
  | release id => exact absurd hrequest (hlease id)

/-- A lease lasts exactly as long as the request has stated: its end, which the
client is told, is later than the time which the request has recorded exactly
when the stated duration is positive. -/
theorem leaseLasts_of_reachable
    (hreachable :
      ServerPool.Reachable services (Request.clients requests) pool)
    {response : Response}
    (hdone : pool.threads thread = .done (.ok (.response response)))
    (h200 : response.statusCode = 200)
    (hlease : ∀ id, requests thread ≠ .release id) :
    ∃ text duration time expiry,
      (requests thread).duration = some (some text) ∧
      services.runtime.toTimeSpan text = .ok duration ∧
      Records requests pool thread time ∧
      (requests thread).Tells services.runtime expiry response ∧
      (expiry.ticks : ℤ) = time.ticks + duration.ticks ∧
      (time < expiry ↔ 0 < duration.ticks) := by
  obtain ⟨text, duration, time, expiry, hstated, htext, hadd, htells,
    hreadings⟩ := leaseTold_of_done hreachable hdone h200 hlease
  have hticks := DateTimeOffset.ticks_of_add hadd
  have hlater : time < expiry ↔ time.ticks < expiry.ticks := Iff.rfl
  refine ⟨text, duration, time, expiry, hstated, htext,
    records_of_readings hreachable hdone h200 hlease hreadings, htells, hticks,
    ?_⟩
  rw [hlater]
  omega

end Runs

/-! ## Two runs -/

theorem leaseLasts_acquiredPool :
    ∃ text duration time expiry,
      (threeRequests .acquirer).duration = some (some text) ∧
      trustingServices.runtime.toTimeSpan text = .ok duration ∧
      Records threeRequests acquiredPool .acquirer time ∧
      (threeRequests .acquirer).Tells trustingServices.runtime expiry
        (.createSuccess (.acquireSuccess "guid" "36000000002")) ∧
      (expiry.ticks : ℤ) = time.ticks + duration.ticks ∧
      (time < expiry ↔ 0 < duration.ticks) :=
  leaseLasts_of_reachable acquiredPool_reachable rfl rfl
    (fun _ heq => by cases heq)

/-- The same server on a platform which understands a duration of zero. -/
def zeroServices : Services where
  runtime := { Runtime.reference with
    toTimeSpan := fun text =>
      if text == "PT0S" then .ok ⟨0, by decide, by decide⟩
      else Runtime.reference.toTimeSpan text }
  tokenPropertyParser _ _ := .ok (.ok trustedProperties)

def zeroRequest (_ : Unit) : Request :=
  .acquire (.v4 5)
    (some {
      token := some "token"
      applicationId := some "app"
      duration := some "PT0S" })

def zeroSchedule : List (Unit × Environment) :=
  [((), at' 1), ((), at' 1), ((), at' 2), ((), at' 2), ((), at' 2)]

def zeroPool : ServerPool Unit :=
  (Pool.run perform zeroSchedule
    (ServerPool.start zeroServices (Request.clients zeroRequest))).getD
      (ServerPool.start zeroServices (Request.clients zeroRequest))

/-- A lease of no length is granted: the answer is 200, and its expiry is the
acquisition time. -/
theorem not_positive_zeroPool :
    ServerPool.Reachable zeroServices (Request.clients zeroRequest) zeroPool ∧
      ∃ response, zeroPool.threads () = .done (.ok (.response response)) ∧
        response.statusCode = 200 ∧
        ¬∃ time expiry, Records zeroRequest zeroPool () time ∧
          (zeroRequest ()).Tells zeroServices.runtime expiry response ∧
          time < expiry := by
  refine ⟨Pool.Reaches.run_getD _ _,
    .createSuccess (.acquireSuccess "guid" "2"), rfl, rfl, ?_⟩
  rintro ⟨time, expiry, ⟨id, tokenProperties, record, hcommit, -, -⟩,
    ⟨id', htells⟩, hlater⟩
  have hcommitted : committed zeroRequest zeroPool =
      [⟨(), .stored "guid" trustedProperties ⟨2, by decide⟩⟩] := rfl
  rw [hcommitted, List.mem_singleton] at hcommit
  cases hcommit
  have hformat : "2" = Nat.repr expiry.ticks := by
    simp only [Response.createSuccess, Response.mk.injEq, Option.some.injEq,
      IResponseValue.acquireSuccess.injEq, true_and] at htells
    exact htells.2
  have hexpiry : expiry.ticks = 2 := by
    rw [← Nat.ofDigitChars_ten_toDigits (n := expiry.ticks),
      ← Nat.toList_repr, ← hformat]
    rfl
  have hlt : 2 < expiry.ticks := hlater
  omega

end SoftwareEntitlement
