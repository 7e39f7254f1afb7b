import SoftwareEntitlement.AtomicStore
import SoftwareEntitlement.UninterruptedRuns
import SoftwareEntitlement.EntitlementIsolation

/-!
# Requests which are served alone

A handler which runs while no other request does is followed clause by clause
from one state of the store to another.  Its answer depends on the store only
through the lease on the entitlement which it is about: whether the entitlement
is unknown, active or released.  On the environment it depends only through
what it has read: the time of validation, the time of day and an identifier.
-/

namespace SoftwareEntitlement

open Interleaving SoftwareEntitlementsController

/-! ## Readings -/

/-- Something which a request cannot know before it asks for it. -/
inductive Reading where
  | validationTime (time : DateTimeOffset)
  | utcNow (time : DateTimeOffset)
  | newGuid (guid : Guid)

def Event.reading {ι : Type} : Event ι → Option Reading
  | ⟨_, .validationTime, time⟩ => some (.validationTime time)
  | ⟨_, .utcNow, time⟩ => some (.utcNow time)
  | ⟨_, .newGuid, guid⟩ => some (.newGuid guid)
  | _ => none

/-- The readings of a thread, newest first. -/
def readingsOf {ι : Type} [DecidableEq ι] (thread : ι)
    (past : List (Event ι)) : List Reading :=
  (ownEvents thread past).filterMap Event.reading

/-- What the clock and the generator of identifiers return to a request. -/
structure Circumstances where
  validationTime : DateTimeOffset
  now : DateTimeOffset
  guid : Guid
  deriving Inhabited

def Circumstances.Yields (circumstances : Circumstances) : Reading → Prop
  | .validationTime time => time = circumstances.validationTime
  | .utcNow time => time = circumstances.now
  | .newGuid guid => guid = circumstances.guid

/-- The readings are possible in the circumstances. -/
def Circumstances.Fit (circumstances : Circumstances)
    (readings : List Reading) : Prop :=
  ∀ reading ∈ readings, circumstances.Yields reading

@[simp] theorem Circumstances.fit_nil (circumstances : Circumstances) :
    circumstances.Fit [] :=
  fun _ hmem => absurd hmem List.not_mem_nil

@[simp] theorem Circumstances.fit_cons {circumstances : Circumstances}
    {reading : Reading} {readings : List Reading} :
    circumstances.Fit (reading :: readings) ↔
      circumstances.Yields reading ∧ circumstances.Fit readings :=
  List.forall_mem_cons

/-! ## Leases -/

inductive Lease where
  | unknown
  | active
  | released
  deriving DecidableEq

/-- What the answer to a request makes of the lease on an entitlement. -/
def HandlerRequest.lease (request : HandlerRequest) (result : HttpResult)
    (entitlementId : String) (lease : Lease) : Lease :=
  match request with
  | .acquire _ _ =>
      if result.granted = some entitlementId then .active else lease
  | .release released =>
      if released = entitlementId ∧ result = .actionResult (.statusCode 204) then
        .released
      else
        lease
  | _ => lease

/-- The answer to a request, when it is known which entitlements are active,
and in which circumstances it is served. -/
def HandlerRequest.answer (services : Services) (lease : String → Lease)
    (circumstances : Circumstances) : HandlerRequest → Throws Response
  | .approveV1 remoteIpAddress body =>
      tokenDecision services circumstances.validationTime remoteIpAddress
        (body.map ApproveRequestBody.toIVerificationRequestBody)
        fun tokenProperties => .createSuccess (.approveV1Success
          ("entitlement-" ++ circumstances.guid.toString)
          tokenProperties.virtualMachineId)
  | .approveV2 remoteIpAddress body =>
      tokenDecision services circumstances.validationTime remoteIpAddress
        (body.map ApproveRequestBody.toIVerificationRequestBody)
        fun tokenProperties => .createSuccess (.approveV2Success
          ("entitlement-" ++ circumstances.guid.toString)
          tokenProperties.notAfter)
  | .acquire remoteIpAddress body =>
      decideDuration services (body.map AcquireRequestBody.duration)
        fun duration => decideToken services circumstances.validationTime
          remoteIpAddress
          (body.map AcquireRequestBody.toIVerificationRequestBody)
          fun _ => circumstances.now.add duration >>= fun expiry =>
            .ok (.createSuccess (.acquireSuccess circumstances.guid.toStringN
              (services.runtime.formatRoundtrip expiry)))
  | .renew body entitlementId =>
      decideDuration services (body.map RenewRequestBody.duration)
        fun duration =>
          match lease entitlementId with
          | .unknown => .ok (createNotFoundResponse entitlementId)
          | .released => .ok (createAlreadyReleasedResponse entitlementId)
          | .active => circumstances.now.add duration >>= fun expiry =>
              .ok (.createSuccess (.renewSuccess
                (services.runtime.formatRoundtrip expiry)))
  | .release entitlementId =>
      match lease entitlementId with
      | .unknown => .ok (createNotFoundResponse entitlementId)
      | _ => .ok ⟨204, none⟩

/-- The outcome is the answer in all circumstances which the readings leave
possible, and they leave some. -/
structure HandlerRequest.Answers (services : Services)
    (lease : String → Lease) (readings : List Reading)
    (request : HandlerRequest) (outcome : Throws Response) : Prop where
  possible : ∃ circumstances : Circumstances, circumstances.Fit readings
  answer : ∀ circumstances : Circumstances, circumstances.Fit readings →
    outcome = request.answer services lease circumstances

def Lease.ofRecord : Option EntitlementProperties → Lease
  | none => .unknown
  | some record => if record.isReleased then .released else .active

/-- The records are under their identifiers, which were drawn for them. -/
structure ServerState.Tidy {ι : Type} (s : ServerState ι) : Prop where
  live : s.EntriesLive
  named : ∀ id record, s.record id = some record → record.entitlementId = id
  drawn : ∀ id, (s.record id).isSome →
    ∃ guid ∈ (issuedGuids s.past).map Prod.snd, id = guid.toStringN

/-- What the handler of a request does between two states of the store. -/
structure HandlerRequest.Serves {ι : Type} [DecidableEq ι]
    (services : Services) (thread : ι) (request : HandlerRequest)
    (s : ServerState ι) (outcome : Throws Response) (u : ServerState ι) :
    Prop where
  tidy : u.Tidy
  answers : ∃ readings,
    readingsOf thread u.past = readings ++ readingsOf thread s.past ∧
      request.Answers services (fun id => .ofRecord (s.record id)) readings
        outcome
  fresh : ∀ response id, request.IsAcquire → outcome = .ok response →
    response.granted = some id → s.record id = none
  leases : ∀ id, Lease.ofRecord (u.record id) =
    request.lease (.ofOutcome outcome) id (.ofRecord (s.record id))

/-! ## Following a handler -/

section Clauses

variable {ι : Type} {services : Services} {thread : ι} {s t u : ServerState ι}
  {α β : Type}

def Query.Executes (thread : ι) (query : Query α) (s : ServerState ι)
    (mid : Throws (Result α Response)) (t : ServerState ι) : Prop :=
  query.run.run.Executes (perform thread) s mid t

def Handling.Executes (thread : ι) (handling : Handling α) (s : ServerState ι)
    (outcome : Throws α) (u : ServerState ι) : Prop :=
  handling.run.Executes (perform thread) s outcome u

/-- A handler runs through its first clause, and ends there unless the clause
has a value. -/
theorem Query.executes_merge_bind {query : Query α} {f : α → Query Response}
    {outcome : Throws Response}
    (hexecutes : (query >>= f).merge.Executes thread s outcome u) :
    ∃ mid t, query.Executes thread s mid t ∧
      match mid with
      | .error exception => outcome = .error exception ∧ u = t
      | .ok (.error response) => outcome = .ok response ∧ u = t
      | .ok (.ok value) => (f value).merge.Executes thread t outcome u := by
  obtain ⟨merged, t', hbind, hlast⟩ := Program.Executes.of_bind hexecutes
  obtain ⟨mid, t, hquery, hrest⟩ := Program.Executes.of_bind hbind
  refine ⟨mid, t, hquery, ?_⟩
  rcases mid with exception | (response | value)
  · obtain ⟨rfl, rfl⟩ := hrest.of_done
    exact hlast.of_done
  · obtain ⟨rfl, rfl⟩ := hrest.of_done
    exact hlast.of_done
  · exact Program.Executes.bind hrest hlast

theorem ofOutcome_executes {outcome : Throws (Result α Response)}
    {mid : Throws (Result α Response)}
    (hexecutes : (Query.ofOutcome outcome).Executes thread s mid t) :
    mid = outcome ∧ t = s :=
  hexecutes.of_done

theorem request_executes {access : Access}
    {mid : Throws (Result (Reply access) Response)}
    (hexecutes : Query.Executes thread (liftM (request access)) s mid t) :
    ∃ environment reply, mid = .ok (.ok reply) ∧
      perform thread access environment s = some (reply, t) := by
  obtain ⟨environment, reply, t', hperform, hrest⟩ := hexecutes.of_access
  obtain ⟨rfl, rfl⟩ := hrest.of_done
  exact ⟨environment, reply, rfl, hperform⟩

/-- A handler which reads a duration first: it ends with the duration, or goes
on with the time span. -/
theorem duration_executes {duration : Option (Option String)}
    {f : TimeSpan → Query Response} {outcome : Throws Response}
    (hexecutes :
      (parseDurationClause services duration >>= f).merge.Executes thread s
        outcome u) :
    (u = s ∧ (HttpResult.ofOutcome outcome).granted = none ∧
      ∀ success, outcome = decideDuration services duration success) ∨
    ∃ timeSpan,
      (∀ success, decideDuration services duration success =
        success timeSpan) ∧
      (f timeSpan).merge.Executes thread s outcome u := by
  obtain ⟨mid, t, hclause, hrest⟩ := Query.executes_merge_bind hexecutes
  obtain ⟨hmid, rfl⟩ := ofOutcome_executes hclause
  cases duration with
  | none =>
      subst hmid
      obtain ⟨rfl, rfl⟩ := hrest
      exact .inl ⟨rfl, rfl, fun _ => rfl⟩
  | some duration =>
      simp only [decideDuration]
      rcases hparsed : parseDuration services.runtime duration with
        exception | (errors | timeSpan) <;>
        simp only [hparsed] at hmid <;> subst hmid
      · obtain ⟨rfl, rfl⟩ := hrest
        exact .inl ⟨rfl, rfl, fun _ => rfl⟩
      · obtain ⟨rfl, rfl⟩ := hrest
        exact .inl ⟨rfl, rfl, fun _ => rfl⟩
      · exact .inr ⟨timeSpan, fun _ => rfl, hrest⟩

/-- A handler which adds a duration to the time of day: it ends because the sum
is out of range, or goes on with it. -/
theorem expiry_executes {duration : TimeSpan}
    {rest : DateTimeOffset → DateTimeOffset → Query Response}
    {outcome : Throws Response}
    (hexecutes : Handling.Executes thread (Query.merge do
      let now ← request .utcNow
      let expiry ← addClause now duration
      rest now expiry) s outcome u) :
    ∃ environment now t,
      perform thread .utcNow environment s = some (now, t) ∧
        ((∃ exception, now.add duration = .error exception ∧
            outcome = .error exception ∧ u = t) ∨
          ∃ expiry, now.add duration = .ok expiry ∧
            (rest now expiry).merge.Executes thread t outcome u) := by
  obtain ⟨mid, t, hclause, hrest⟩ := Query.executes_merge_bind hexecutes
  obtain ⟨environment, now, rfl, hnow⟩ := request_executes hclause
  obtain ⟨mid, t', hclause, hrest⟩ := Query.executes_merge_bind hrest
  obtain ⟨hmid, rfl⟩ := ofOutcome_executes hclause
  refine ⟨environment, now, _, hnow, ?_⟩
  cases hadd : now.add duration with
  | error exception =>
      simp only [hadd] at hmid
      subst hmid
      obtain ⟨rfl, rfl⟩ := hrest
      exact .inl ⟨exception, rfl, rfl, rfl⟩
  | ok expiry =>
      simp only [hadd] at hmid
      subst hmid
      exact .inr ⟨expiry, rfl, hrest⟩

theorem issuedGuids_subset {access : Access} {environment : Environment}
    {reply : Reply access}
    (hperform : perform thread access environment s = some (reply, t)) :
    (issuedGuids s.past).map Prod.snd ⊆ (issuedGuids t.past).map Prod.snd := by
  rw [perform_past hperform]
  cases access with
  | newGuid => exact List.subset_cons_self _ _
  | _ => exact List.Subset.refl _

theorem ServerState.Tidy.of_update {id : String} {stored : Reference}
    (htidy : s.Tidy) (hgrows : s.Grows t) (hstored : stored.Live t)
    (hentries : t.entries = Function.update s.entries id (some stored))
    (hissued : (issuedGuids s.past).map Prod.snd ⊆
      (issuedGuids t.past).map Prod.snd)
    (hnamed : stored.value.entitlementId = id)
    (hdrawn : ∃ guid ∈ (issuedGuids t.past).map Prod.snd,
      id = guid.toStringN) : t.Tidy := by
  have hrecord := record_of_entries hentries
  refine ⟨htidy.live.of_update hgrows hstored hentries, ?_, ?_⟩
  · intro id' record hsome
    by_cases heq : id' = id
    · subst heq
      rw [hrecord, Function.update_self] at hsome
      obtain rfl := Option.some.inj hsome
      exact hnamed
    · rw [hrecord, Function.update_of_ne heq] at hsome
      exact htidy.named id' record hsome
  · intro id' hsome
    by_cases heq : id' = id
    · exact heq ▸ hdrawn
    · rw [hrecord, Function.update_of_ne heq] at hsome
      obtain ⟨guid, hguid, hid⟩ := htidy.drawn id' hsome
      exact ⟨guid, hissued hguid, hid⟩

variable [DecidableEq ι]

/-- The thread has made these readings, and the records are as before. -/
structure ServerState.Keeps (thread : ι) (readings : List Reading)
    (s t : ServerState ι) : Prop where
  record : t.record = s.record
  tidy : s.Tidy → t.Tidy
  readings : readingsOf thread t.past = readings ++ readingsOf thread s.past

theorem ServerState.Keeps.refl (s : ServerState ι) : s.Keeps thread [] s :=
  ⟨rfl, id, rfl⟩

theorem ServerState.Keeps.trans {earlier later : List Reading}
    (hst : s.Keeps thread earlier t) (htu : t.Keeps thread later u) :
    s.Keeps thread (later ++ earlier) u where
  record := htu.record.trans hst.record
  tidy htidy := htu.tidy (hst.tidy htidy)
  readings := by rw [htu.readings, hst.readings, List.append_assoc]

theorem readingsOf_perform {access : Access} {environment : Environment}
    {reply : Reply access}
    (hperform : perform thread access environment s = some (reply, t)) :
    readingsOf thread t.past =
      (Event.reading ⟨thread, access, reply⟩).toList ++
        readingsOf thread s.past := by
  rw [perform_past hperform, readingsOf, ownEvents_cons_self,
    List.filterMap_cons]
  cases Event.reading ⟨thread, access, reply⟩ <;> rfl

theorem keeps_of_quiet {access : Access} {environment : Environment}
    {reply : Reply access} (hquiet : access.isQuiet = true)
    (hperform : perform thread access environment s = some (reply, t)) :
    s.Keeps thread (Event.reading ⟨thread, access, reply⟩).toList t := by
  have hentries := perform_entries_of_quiet hquiet hperform
  have hrecord : t.record = s.record := by
    funext id
    simp [ServerState.record, hentries]
  refine ⟨hrecord, fun htidy => ⟨?_, ?_, ?_⟩, readingsOf_perform hperform⟩
  · exact htidy.live.of_entries (perform_grows hperform) hentries
  · rw [hrecord]
    exact htidy.named
  · intro id hsome
    rw [hrecord] at hsome
    obtain ⟨guid, hguid, hid⟩ := htidy.drawn id hsome
    exact ⟨guid, issuedGuids_subset hperform hguid, hid⟩

theorem verifyClause_executes {verification : TokenVerificationRequest}
    {token : String} {mid : Throws (Result EntitlementTokenProperties Response)}
    (hexecutes : (verifyClause services verification token).Executes thread s
      mid t) :
    ∃ now, mid = (do
        let verified ← TokenVerifier.verify services.runtime
          services.tokenPropertyParser now verification token
        return verified.onError fun errors =>
          createDeniedResponse errors verification.applicationId) ∧
      s.Keeps thread [.validationTime now] t := by
  obtain ⟨environment, now, t', hperform, hrest⟩ := hexecutes.of_access
  obtain ⟨rfl, rfl⟩ := hrest.of_done
  exact ⟨now, rfl, keeps_of_quiet rfl hperform⟩

theorem findEntitlementClause_executes {id : String}
    {mid : Throws (Result EntitlementProperties Response)}
    (hexecutes : (findEntitlementClause id).Executes thread s mid t) :
    s.Keeps thread [] t ∧ mid = .ok
      (match s.record id with
        | none => .error (createNotFoundResponse id)
        | some record => .ok record) := by
  obtain ⟨environment, found, t', hperform, hrest⟩ := hexecutes.of_access
  have hkeeps := keeps_of_quiet rfl hperform
  have hrecord : s.record id = found.map Reference.value := by
    simp [ServerState.record, entries_of_lookup hperform]
  rw [hrecord]
  cases found with
  | none =>
      obtain ⟨rfl, rfl⟩ := hrest.of_done
      exact ⟨hkeeps, rfl⟩
  | some reference =>
      obtain ⟨rfl, rfl⟩ := hrest.of_done
      exact ⟨hkeeps, rfl⟩

/-- Alone, an update of a stored entitlement succeeds. -/
theorem updateClause_executes {id errorMessage : String}
    {updater : EntitlementProperties → EntitlementProperties}
    {record : EntitlementProperties}
    {mid : Throws (Result EntitlementProperties Response)}
    (htidy : s.Tidy) (hrecord : s.record id = some record)
    (hnamed : (updater record).entitlementId = record.entitlementId)
    (hexecutes : Query.Executes thread (ExceptT.mk do
      let result ← EntitlementStore.tryUpdate id updater errorMessage
      return result.onError createInternalErrorResponse) s mid t) :
    mid = .ok (.ok (updater record)) ∧
      t.record = Function.update s.record id (some (updater record)) ∧
        t.Tidy ∧ readingsOf thread t.past = readingsOf thread s.past := by
  obtain ⟨_, found, t₁, hlookup, hrest⟩ := hexecutes.of_access
  have hkeeps₁ := keeps_of_quiet rfl hlookup
  have hentry := entries_of_lookup hlookup
  cases found with
  | none => simp [ServerState.record, hentry] at hrecord
  | some current =>
      have hcurrent : current.value = record := by
        simpa [ServerState.record, hentry] using hrecord
      obtain ⟨_, updated, t₂, hallocate, hrest⟩ := hrest.of_access
      obtain ⟨hvalue, hlive⟩ := perform_allocate hallocate
      have hkeeps := hkeeps₁.trans (keeps_of_quiet rfl hallocate)
      have hsame : t₂.entries = s.entries := by
        rw [perform_entries_of_quiet rfl hallocate,
          perform_entries_of_quiet rfl hlookup]
      obtain ⟨_, swapped, t₃, hswap, hrest⟩ := hrest.of_access
      have hgrows := perform_grows hswap
      have hissued := issuedGuids_subset hswap
      have hreadings := (readingsOf_perform hswap).trans hkeeps.readings
      simp only [perform, hsame, hentry, BEq.rfl, if_true, Option.some.injEq,
        Prod.mk.injEq] at hswap
      obtain ⟨rfl, hafter⟩ := hswap
      obtain ⟨rfl, rfl⟩ := hrest.of_done
      have hentries : t.entries =
          Function.update t₂.entries id (some updated) := by
        rw [← hafter, hsame]
      refine ⟨by rw [hvalue, hcurrent]; rfl, ?_, ?_, hreadings⟩
      · rw [record_of_entries hentries, hkeeps.record, hvalue, hcurrent]
      · refine (hkeeps.tidy htidy).of_update hgrows (hlive.mono hgrows)
          hentries hissued ?_ ?_
        · rw [hvalue, hcurrent, hnamed]
          exact htidy.named id record hrecord
        · obtain ⟨guid, hguid, hid⟩ :=
            (hkeeps.tidy htidy).drawn id (by simp [hkeeps.record, hrecord])
          exact ⟨guid, hissued hguid, hid⟩

theorem storeClause_executes {id : String}
    {tokenProperties : EntitlementTokenProperties} {time : DateTimeOffset}
    {mid : Throws (Result EntitlementProperties Response)}
    (htidy : s.Tidy) (habsent : s.record id = none)
    (hdrawn : ∃ guid ∈ (issuedGuids s.past).map Prod.snd, id = guid.toStringN)
    (hexecutes : Query.Executes thread
      (liftM (EntitlementStore.storeEntitlement id tokenProperties time)) s
      mid t) :
    (∃ stored, mid = .ok (.ok stored)) ∧
      t.record = Function.update s.record id
        (some (.createNew id tokenProperties time)) ∧ t.Tidy ∧
        readingsOf thread t.past = readingsOf thread s.past := by
  obtain ⟨_, added, t₁, hallocate, hrest⟩ := hexecutes.of_access
  obtain ⟨hvalue, hlive⟩ := perform_allocate hallocate
  have hkeeps := keeps_of_quiet rfl hallocate
  obtain ⟨_, stored, t₂, hstore, hrest⟩ := hrest.of_access
  obtain ⟨rfl, rfl⟩ := hrest.of_done
  have hgrows := perform_grows hstore
  have hissued := issuedGuids_subset hstore
  have hreadings := (readingsOf_perform hstore).trans hkeeps.readings
  have hnone : t₁.entries id = none := by
    have hrecord := congrFun hkeeps.record id
    rw [habsent] at hrecord
    simpa [ServerState.record] using hrecord
  simp only [perform, hnone, Option.some.injEq, Prod.mk.injEq] at hstore
  obtain ⟨rfl, hafter⟩ := hstore
  have hentries : t.entries = Function.update t₁.entries id (some added) := by
    rw [← hafter]
  refine ⟨⟨_, rfl⟩, ?_, ?_, hreadings⟩
  · rw [record_of_entries hentries, hkeeps.record, hvalue]
  · refine (hkeeps.tidy htidy).of_update hgrows (hlive.mono hgrows) hentries
      hissued (by rw [hvalue]; rfl) ?_
    obtain ⟨guid, hguid, hid⟩ := hdrawn
    exact ⟨guid, hissued (issuedGuids_subset hallocate hguid), hid⟩

/-- A handler which verifies a token: it ends with the decision on the token,
or goes on with its properties. -/
theorem token_executes {body : Option IVerificationRequestBody}
    {remoteIpAddress : IPAddress}
    {rest : EntitlementTokenProperties → Query Response}
    {outcome : Throws Response}
    (hexecutes : Handling.Executes thread (Query.merge do
      let (verification, token) ←
        extractVerificationRequestClause body remoteIpAddress
      let tokenProperties ← verifyClause services verification token
      rest tokenProperties) s outcome u) :
    (∃ readings, s.Keeps thread readings u ∧
      (HttpResult.ofOutcome outcome).granted = none ∧
        (∃ circumstances : Circumstances, circumstances.Fit readings) ∧
          ∀ circumstances : Circumstances, circumstances.Fit readings →
            ∀ success, outcome = decideToken services
              circumstances.validationTime remoteIpAddress body success) ∨
    ∃ validationTime tokenProperties t,
      (∀ success, decideToken services validationTime remoteIpAddress body
        success = success tokenProperties) ∧
      s.Keeps thread [.validationTime validationTime] t ∧
      (rest tokenProperties).merge.Executes thread t outcome u := by
  obtain ⟨mid, t, hclause, hrest⟩ := Query.executes_merge_bind hexecutes
  obtain ⟨hmid, rfl⟩ := ofOutcome_executes hclause
  unfold decideToken
  rcases hextracted : extractVerificationRequest body remoteIpAddress with
    errors | ⟨verification, token⟩ <;>
    simp only [hextracted] at hmid <;> subst hmid
  · obtain ⟨rfl, rfl⟩ := hrest
    exact .inl ⟨[], .refl _, rfl, ⟨default, by simp⟩, fun _ _ _ => rfl⟩
  · obtain ⟨mid, t₂, hverify, hrest⟩ := Query.executes_merge_bind hrest
    obtain ⟨validationTime, hmid, hkeeps⟩ := verifyClause_executes hverify
    have hpossible : ∃ circumstances : Circumstances,
        circumstances.Fit [.validationTime validationTime] :=
      ⟨⟨validationTime, default, default⟩, by simp [Circumstances.Yields]⟩
    have hunique : ∀ circumstances : Circumstances,
        circumstances.Fit [.validationTime validationTime] →
          circumstances.validationTime = validationTime := by
      intro circumstances hfit
      exact (Circumstances.fit_cons.mp hfit).1.symm
    rcases hverified : TokenVerifier.verify services.runtime
        services.tokenPropertyParser validationTime verification token with
      exception | (errors | tokenProperties) <;>
      simp only [hverified] at hmid <;> subst hmid
    · obtain ⟨rfl, rfl⟩ := hrest
      exact .inl ⟨_, hkeeps, rfl, hpossible, fun _ hfit _ => by
        simp only [hunique _ hfit, hverified]⟩
    · obtain ⟨rfl, rfl⟩ := hrest
      exact .inl ⟨_, hkeeps, rfl, hpossible, fun _ hfit _ => by
        simp only [hunique _ hfit, hverified]⟩
    · exact .inr ⟨validationTime, tokenProperties, t₂,
        fun _ => by simp only [hverified], hkeeps, hrest⟩

end Clauses

/-! ## The handlers -/

section Handlers

variable {ι : Type} {services : Services} {thread : ι} {s u : ServerState ι}
  {outcome : Throws Response}

theorem HttpResult.ofOutcome_eq_noContent :
    HttpResult.ofOutcome outcome = .actionResult (.statusCode 204) ↔
      outcome = .ok ⟨204, none⟩ := by
  rcases outcome with exception | ⟨statusCode, - | value⟩ <;>
    simp [HttpResult.ofOutcome, createActionResult]

theorem absent_of_newGuid {environment : Environment} {guid : Guid}
    {t : ServerState ι} (htidy : s.Tidy)
    (hperform : perform thread .newGuid environment s = some (guid, t)) :
    s.record guid.toStringN = none := by
  by_contra hsome
  obtain ⟨other, hother, hdigits⟩ :=
    htidy.drawn _ (Option.isSome_iff_ne_none.mpr hsome)
  have hsame : guid = other := Guid.eq_of_digits (congrArg String.toList hdigits)
  simp only [perform, Option.ite_none_left_eq_some, Option.some.injEq,
    Prod.mk.injEq] at hperform
  obtain ⟨hissued, heq, -⟩ := hperform
  exact hissued (heq ▸ hsame ▸ hother)

theorem ofRecord_update {id : String} {record : EntitlementProperties}
    (hrecord : u.record = Function.update s.record id (some record))
    (other : String) :
    Lease.ofRecord (u.record other) =
      if id = other then .ofRecord (some record)
      else .ofRecord (s.record other) := by
  rw [hrecord]
  by_cases heq : id = other
  · subst heq
    rw [Function.update_self, if_pos rfl]
  · rw [Function.update_of_ne (Ne.symm heq), if_neg heq]

variable [DecidableEq ι]

/-- An answer which leaves the records as they are. -/
theorem HandlerRequest.Serves.of_keeps {request : HandlerRequest}
    {readings : List Reading} (htidy : s.Tidy)
    (hkeeps : s.Keeps thread readings u)
    (hanswers : request.Answers services (fun id => .ofRecord (s.record id))
      readings outcome)
    (hgranted : request.IsAcquire →
      (HttpResult.ofOutcome outcome).granted = none)
    (hreleased : ∀ id, request = .release id → outcome ≠ .ok ⟨204, none⟩) :
    request.Serves services thread s outcome u := by
  refine ⟨hkeeps.tidy htidy, ⟨readings, hkeeps.readings, hanswers⟩, ?_,
    fun id => ?_⟩
  · rintro response id hacquire rfl hid
    have hnone := hgranted hacquire
    rw [HttpResult.granted_ofOutcome, hid] at hnone
    cases hnone
  · rw [hkeeps.record]
    cases request with
    | acquire remoteIpAddress body =>
        have hnone := hgranted ⟨_, _, rfl⟩
        simp [HandlerRequest.lease, hnone]
    | release released =>
        have hne := hreleased released rfl
        simp [HandlerRequest.lease, HttpResult.ofOutcome_eq_noContent, hne]
    | _ => rfl

theorem approve_serves {request : HandlerRequest}
    {remoteIpAddress : IPAddress} {body : Option IVerificationRequestBody}
    {success : EntitlementTokenProperties → Guid → Response} (htidy : s.Tidy)
    (hrequest : ¬request.IsAcquire ∧ request.target = none)
    (hanswer : ∀ lease (circumstances : Circumstances),
      request.answer services lease circumstances =
        tokenDecision services circumstances.validationTime remoteIpAddress
          body fun tokenProperties =>
            success tokenProperties circumstances.guid)
    (hexecutes : Handling.Executes thread (Query.merge do
      let (verification, token) ←
        extractVerificationRequestClause body remoteIpAddress
      let tokenProperties ← verifyClause services verification token
      let guid ← SoftwareEntitlement.request .newGuid
      return success tokenProperties guid) s outcome u) :
    request.Serves services thread s outcome u := by
  have hserves : ∀ readings, s.Keeps thread readings u →
      (∃ circumstances : Circumstances, circumstances.Fit readings) →
      (∀ circumstances : Circumstances, circumstances.Fit readings →
        outcome = decideToken services circumstances.validationTime
          remoteIpAddress body fun tokenProperties =>
            .ok (success tokenProperties circumstances.guid)) →
      request.Serves services thread s outcome u := by
    intro readings hkeeps hpossible houtcome
    refine .of_keeps htidy hkeeps ⟨hpossible, fun circumstances hfit => ?_⟩
      (fun hacquire => absurd hacquire hrequest.1) ?_
    · rw [hanswer, tokenDecision, houtcome circumstances hfit]
    · rintro id rfl
      cases hrequest.2
  rcases token_executes hexecutes with
    ⟨readings, hkeeps, -, hpossible, houtcome⟩ |
      ⟨validationTime, tokenProperties, t, hdecide, hkeeps, hrest⟩
  · exact hserves readings hkeeps hpossible
      fun circumstances hfit => houtcome circumstances hfit _
  · obtain ⟨mid, t₂, hclause, hrest⟩ := Query.executes_merge_bind hrest
    obtain ⟨environment, guid, rfl, hperform⟩ := request_executes hclause
    obtain ⟨rfl, rfl⟩ := hrest.of_done
    refine hserves [.newGuid guid, .validationTime validationTime]
      (hkeeps.trans (keeps_of_quiet rfl hperform)) ?_ fun circumstances hfit => ?_
    · exact ⟨⟨validationTime, default, guid⟩, by simp [Circumstances.Yields]⟩
    · simp only [Circumstances.fit_cons] at hfit
      obtain ⟨rfl, rfl, -⟩ := hfit
      rw [hdecide]
      rfl

theorem HandlerRequest.Answers.of_forall {lease : String → Lease}
    {request : HandlerRequest}
    (houtcome : ∀ circumstances : Circumstances,
      outcome = request.answer services lease circumstances) :
    request.Answers services lease [] outcome :=
  ⟨⟨default, Circumstances.fit_nil _⟩,
    fun circumstances _ => houtcome circumstances⟩

theorem HandlerRequest.Answers.of_now {lease : String → Lease}
    {request : HandlerRequest} {now : DateTimeOffset}
    (houtcome : ∀ circumstances : Circumstances, now = circumstances.now →
      outcome = request.answer services lease circumstances) :
    request.Answers services lease [.utcNow now] outcome :=
  ⟨⟨⟨default, now, default⟩, by simp [Circumstances.Yields]⟩,
    fun circumstances hfit =>
      houtcome circumstances (Circumstances.fit_cons.mp hfit).1⟩

theorem acquire_serves {remoteIpAddress : IPAddress}
    {body : Option AcquireRequestBody} (htidy : s.Tidy)
    (hexecutes :
      (AcquireRequestHandler.handle services remoteIpAddress body).Executes
        thread s outcome u) :
    (HandlerRequest.acquire remoteIpAddress body).Serves services thread s
      outcome u := by
  have hrelease : ∀ id, HandlerRequest.acquire remoteIpAddress body =
      .release id → outcome ≠ .ok ⟨204, none⟩ := by
    intro id heq
    cases heq
  rcases duration_executes hexecutes with ⟨rfl, hgranted, houtcome⟩ |
    ⟨duration, hduration, hexecutes⟩
  · exact .of_keeps htidy (.refl _) (.of_forall fun _ => houtcome _)
      (fun _ => hgranted) hrelease
  · rcases token_executes hexecutes with
      ⟨readings, hkeeps, hgranted, hpossible, houtcome⟩ |
        ⟨validationTime, tokenProperties, t₁, hdecide, hkeeps₁, hrest⟩
    · refine .of_keeps htidy hkeeps
        ⟨hpossible, fun circumstances hfit => ?_⟩ (fun _ => hgranted) hrelease
      simp only [HandlerRequest.answer, hduration]
      exact houtcome circumstances hfit _
    · obtain ⟨mid, t₂, hclause, hrest⟩ := Query.executes_merge_bind hrest
      obtain ⟨_, guid, rfl, hguid⟩ := request_executes hclause
      obtain ⟨_, now, t₃, hnow, hexpiry⟩ := expiry_executes hrest
      have hkeeps : s.Keeps thread
          [.utcNow now, .newGuid guid, .validationTime validationTime] t₃ :=
        (hkeeps₁.trans (keeps_of_quiet rfl hguid)).trans
          (keeps_of_quiet rfl hnow)
      have hanswers : (outcome = now.add duration >>= fun expiry =>
            .ok (.createSuccess (.acquireSuccess guid.toStringN
              (services.runtime.formatRoundtrip expiry)))) →
          (HandlerRequest.acquire remoteIpAddress body).Answers services
            (fun id => .ofRecord (s.record id))
            [.utcNow now, .newGuid guid, .validationTime validationTime]
            outcome := by
        intro houtcome
        refine ⟨⟨⟨validationTime, now, guid⟩, by simp [Circumstances.Yields]⟩,
          fun circumstances hfit => ?_⟩
        simp only [Circumstances.fit_cons] at hfit
        obtain ⟨rfl, rfl, rfl, -⟩ := hfit
        rw [houtcome]
        simp only [HandlerRequest.answer, hduration, hdecide]
      rcases hexpiry with ⟨exception, hadd, rfl, rfl⟩ | ⟨expiry, hadd, hrest⟩
      · refine .of_keeps htidy hkeeps (hanswers ?_) (fun _ => rfl) hrelease
        rw [hadd]
        rfl
      · -- every identifier in use was drawn before, and this one is new
        have habsent := absent_of_newGuid (hkeeps₁.tidy htidy) hguid
        rw [hkeeps₁.record] at habsent
        have hdrawn : ∃ other ∈ (issuedGuids t₃.past).map Prod.snd,
            guid.toStringN = other.toStringN := by
          refine ⟨guid, issuedGuids_subset hnow ?_, rfl⟩
          rw [perform_past hguid]
          exact List.mem_cons_self
        obtain ⟨mid, t₅, hstore, hrest⟩ := Query.executes_merge_bind hrest
        obtain ⟨⟨stored, rfl⟩, hrecord, htidy', hreadings⟩ :=
          storeClause_executes (hkeeps.tidy htidy)
            (by rw [hkeeps.record]; exact habsent) hdrawn hstore
        obtain ⟨rfl, rfl⟩ := hrest.of_done
        refine ⟨htidy',
          ⟨_, hreadings.trans hkeeps.readings, hanswers ?_⟩, ?_, fun id => ?_⟩
        · rw [hadd]
          rfl
        · rintro response id - heq hgranted
          obtain rfl := Except.ok.inj heq
          obtain rfl := Option.some.inj hgranted
          exact habsent
        · rw [hkeeps.record] at hrecord
          rw [ofRecord_update hrecord id]
          change _ = if some guid.toStringN = some id then Lease.active
            else .ofRecord (s.record id)
          by_cases heq : guid.toStringN = id
          · rw [if_pos heq, if_pos (congrArg some heq)]
            rfl
          · rw [if_neg heq, if_neg (mt Option.some.inj heq)]

theorem renew_serves {body : Option RenewRequestBody} {id : String}
    (htidy : s.Tidy)
    (hexecutes : (RenewRequestHandler.handle services body id).Executes
      thread s outcome u) :
    (HandlerRequest.renew body id).Serves services thread s outcome u := by
  have hacquire : ¬(HandlerRequest.renew body id).IsAcquire := by
    rintro ⟨_, _, heq⟩
    cases heq
  have hrelease : ∀ other, HandlerRequest.renew body id = .release other →
      outcome ≠ .ok ⟨204, none⟩ := by
    intro other heq
    cases heq
  rcases duration_executes hexecutes with ⟨rfl, -, houtcome⟩ |
    ⟨duration, hduration, hexecutes⟩
  · exact .of_keeps htidy (.refl _) (.of_forall fun _ => houtcome _)
      (fun h => absurd h hacquire) hrelease
  · obtain ⟨mid, t₁, hclause, hrest⟩ := Query.executes_merge_bind hexecutes
    obtain ⟨hkeeps₁, hmid⟩ := findEntitlementClause_executes hclause
    cases hrecord : s.record id with
    | none =>
        simp only [hrecord] at hmid
        subst hmid
        obtain ⟨rfl, rfl⟩ := hrest
        refine .of_keeps htidy hkeeps₁ (.of_forall fun _ => ?_)
          (fun h => absurd h hacquire) hrelease
        simp only [HandlerRequest.answer, hduration, hrecord, Lease.ofRecord]
    | some record =>
        simp only [hrecord] at hmid
        subst hmid
        have hid := htidy.named id record hrecord
        obtain ⟨mid, t₂, hclause, hrest⟩ := Query.executes_merge_bind hrest
        obtain ⟨hmid, rfl⟩ := ofOutcome_executes hclause
        cases hreleased : record.isReleased with
        | true =>
            simp only [asPredicateFailure, hreleased, if_true] at hmid
            subst hmid
            obtain ⟨rfl, rfl⟩ := hrest
            refine .of_keeps htidy hkeeps₁ (.of_forall fun _ => ?_)
              (fun h => absurd h hacquire) hrelease
            simp [HandlerRequest.answer, hduration, hrecord,
              Lease.ofRecord, hreleased, hid]
        | false =>
            simp only [asPredicateFailure, hreleased, Bool.false_eq_true,
              if_false] at hmid
            subst hmid
            obtain ⟨_, now, t₃, hnow, hexpiry⟩ := expiry_executes hrest
            have hkeeps : s.Keeps thread [.utcNow now] t₃ :=
              hkeeps₁.trans (keeps_of_quiet rfl hnow)
            have hanswers : (outcome = now.add duration >>= fun expiry =>
                  .ok (.createSuccess (.renewSuccess
                    (services.runtime.formatRoundtrip expiry)))) →
                (HandlerRequest.renew body id).Answers services
                  (fun id => .ofRecord (s.record id)) [.utcNow now]
                  outcome := by
              refine fun houtcome => .of_now fun circumstances hsame => ?_
              rw [houtcome, hsame]
              simp only [HandlerRequest.answer, hduration, hrecord,
                Lease.ofRecord, hreleased, Bool.false_eq_true, if_false]
            rcases hexpiry with ⟨exception, hadd, rfl, rfl⟩ |
              ⟨expiry, hadd, hrest⟩
            · refine .of_keeps htidy hkeeps (hanswers ?_)
                (fun h => absurd h hacquire) hrelease
              rw [hadd]
              rfl
            · obtain ⟨mid, t₅, hclause, hrest⟩ :=
                Query.executes_merge_bind hrest
              -- nothing has changed since the entitlement was found active
              obtain ⟨rfl, hafter, htidy', hreadings⟩ := updateClause_executes
                (hkeeps.tidy htidy) (by rw [hkeeps.record, hrecord]) rfl
                hclause
              obtain ⟨rfl, rfl⟩ := hrest.of_done
              rw [hkeeps.record] at hafter
              refine ⟨htidy',
                ⟨_, hreadings.trans hkeeps.readings, hanswers ?_⟩,
                fun _ _ h => absurd h hacquire, fun other => ?_⟩
              · rw [hadd]
                rfl
              · rw [ofRecord_update hafter other]
                change _ = Lease.ofRecord (s.record other)
                by_cases heq : id = other
                · subst heq
                  rw [if_pos rfl, hrecord]
                  rfl
                · rw [if_neg heq]

theorem release_serves {id : String} (htidy : s.Tidy)
    (hexecutes : (ReleaseRequestHandler.handle id).Executes thread s
      outcome u) :
    (HandlerRequest.release id).Serves services thread s outcome u := by
  have hacquire : ¬(HandlerRequest.release id).IsAcquire := by
    rintro ⟨_, _, heq⟩
    cases heq
  obtain ⟨mid, t₁, hclause, hrest⟩ := Query.executes_merge_bind hexecutes
  obtain ⟨hkeeps₁, hmid⟩ := findEntitlementClause_executes hclause
  cases hrecord : s.record id with
  | none =>
      simp only [hrecord] at hmid
      subst hmid
      obtain ⟨rfl, rfl⟩ := hrest
      refine .of_keeps htidy hkeeps₁ (.of_forall fun _ => ?_)
        (fun h => absurd h hacquire) fun _ _ heq => by cases heq
      simp only [HandlerRequest.answer, hrecord, Lease.ofRecord]
  | some record =>
      simp only [hrecord] at hmid
      subst hmid
      obtain ⟨mid, t₂, hclause, hrest⟩ := Query.executes_merge_bind hrest
      obtain ⟨_, now, rfl, hnow⟩ := request_executes hclause
      have hkeeps : s.Keeps thread [.utcNow now] t₂ :=
        hkeeps₁.trans (keeps_of_quiet rfl hnow)
      obtain ⟨mid, t₃, hclause, hrest⟩ := Query.executes_merge_bind hrest
      obtain ⟨rfl, hafter, htidy', hreadings⟩ := updateClause_executes
        (hkeeps.tidy htidy) (by rw [hkeeps.record, hrecord]) rfl hclause
      obtain ⟨rfl, rfl⟩ := hrest.of_done
      rw [hkeeps.record] at hafter
      refine ⟨htidy', ⟨_, hreadings.trans hkeeps.readings,
        .of_now fun circumstances _ => ?_⟩,
        fun _ _ h => absurd h hacquire, fun other => ?_⟩
      · simp only [HandlerRequest.answer, hrecord, Lease.ofRecord]
        cases record.isReleased <;> rfl
      · rw [ofRecord_update hafter other]
        by_cases heq : id = other
        · simp [HandlerRequest.lease, heq, HttpResult.ofOutcome_eq_noContent]
          rfl
        · simp [HandlerRequest.lease, heq]

theorem HandlerRequest.serves (request : HandlerRequest) (htidy : s.Tidy)
    (hexecutes : (request.handle services).Executes thread s outcome u) :
    request.Serves services thread s outcome u := by
  cases request with
  | approveV1 remoteIpAddress body =>
      exact approve_serves htidy ⟨nofun, rfl⟩ (fun _ _ => rfl) hexecutes
  | approveV2 remoteIpAddress body =>
      exact approve_serves htidy ⟨nofun, rfl⟩ (fun _ _ => rfl) hexecutes
  | acquire remoteIpAddress body => exact acquire_serves htidy hexecutes
  | renew body id => exact renew_serves htidy hexecutes
  | release id => exact release_serves htidy hexecutes

end Handlers

end SoftwareEntitlement
