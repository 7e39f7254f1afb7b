import SoftwareEntitlement.StoreInvariants

/-!
# Acknowledged updates

For any set of Acquire, Renew and Release requests the store is a function of
the commits, every request commits at most once, and a request commits exactly
when it is told so.
-/

namespace SoftwareEntitlement

open Interleaving

variable {ι : Type} [DecidableEq ι] {services : Services}
  {requests : ι → Request} {pool : ServerPool ι}

abbrev Request.clients (requests : ι → Request) (thread : ι) : Client :=
  .request (requests thread)

def committed (requests : ι → Request) (pool : ServerPool ι) :
    List (Commit ι) :=
  commits (Request.clients requests) pool.shared.past

theorem committed_threads_nodup
    (hreachable :
      ServerPool.Reachable services (Request.clients requests) pool) :
    ((committed requests pool).map Commit.thread).Nodup := by
  refine List.nodup_iff_count_le_one.mpr fun thread => ?_
  have honce := hreachable.consistent.once thread
  rw [commits_ownEvents, ← List.countP_eq_length_filter] at honce
  rw [List.count, List.countP_map]
  exact honce

omit [DecidableEq ι] in
theorem mem_issuedGuids {thread : ι} {guid : Guid} {past : List (Event ι)} :
    (thread, guid) ∈ issuedGuids past ↔
      (⟨thread, .newGuid, guid⟩ : Event ι) ∈ past := by
  induction past with
  | nil => simp [issuedGuids]
  | cons event earlier ih =>
      obtain ⟨i, access, reply⟩ := event
      cases access <;> simp [issuedGuids, ih]

/-- Two Acquire requests never store under one identifier, since identifiers
are fresh. -/
theorem stored_thread_unique
    (hreachable :
      ServerPool.Reachable services (Request.clients requests) pool)
    {id : String} {first second : Commit ι}
    (hfirst : first ∈ committed requests pool)
    (hsecond : second ∈ committed requests pool)
    (hfirstAcquire : (Request.clients requests first.thread).IsAcquire)
    (hsecondAcquire : (Request.clients requests second.thread).IsAcquire)
    (hfirstId : first.update.id = id) (hsecondId : second.update.id = id) :
    first.thread = second.thread := by
  have hinv := hreachable.consistent
  obtain ⟨guid, hguid, hid⟩ := hinv.fresh first hfirst hfirstAcquire
  obtain ⟨guid', hguid', hid'⟩ := hinv.fresh second hsecond hsecondAcquire
  have hsame : guid = guid' := by
    have hdigits : guid.toStringN = guid'.toStringN := by
      rw [← hid, ← hid', hfirstId, hsecondId]
    cases guid
    cases guid'
    simpa [Guid.toStringN] using hdigits
  subst hsame
  have hsame := List.inj_on_of_nodup_map hinv.distinct
    (mem_issuedGuids.mpr hguid) (mem_issuedGuids.mpr hguid') rfl
  exact congrArg Prod.fst hsame

/-- The store of a server agrees with the requests which have committed, and
with what the finished ones were told. -/
structure AgreesWithAcknowledged (requests : ι → Request)
    (pool : ServerPool ι) : Prop where
  /-- A commit is of the kind its request performs, on the entitlement the
  request names, and at the time the request has read. -/
  performs : ∀ commit ∈ committed requests pool,
    (requests commit.thread).Performs commit.thread pool.shared.past
      commit.update
  once : ((committed requests pool).map Commit.thread).Nodup
  entry_iff : ∀ id, (pool.shared.record id).isSome ↔
    ∃ commit ∈ committed requests pool, ∃ tokenProperties time,
      commit.update = .stored id tokenProperties time
  acquired : ∀ commit ∈ committed requests pool,
    ∀ id tokenProperties time,
      commit.update = .stored id tokenProperties time →
        ∃ record, pool.shared.record id = some record ∧
          record.tokenProperties = tokenProperties ∧
          record.acquisitionEventTime = time
  renewals : ∀ id record, pool.shared.record id = some record →
    record.renewalEventTimes =
      renewalTimes id ((committed requests pool).map Commit.update)
  release : ∀ id record, pool.shared.record id = some record →
    record.releaseEventTime =
      lastRelease id ((committed requests pool).map Commit.update)
  /-- Acquire and Renew answer 200, and Release answers 204, exactly when they
  have committed; any other answer, or an exception, leaves no trace. -/
  acknowledged : ∀ thread outcome, pool.threads thread = .done outcome →
    ((∃ commit ∈ committed requests pool, commit.thread = thread) ↔
      (Request.clients requests thread).acknowledges outcome = true)
  returned : ∀ thread id expiry, pool.threads thread =
      .done (.ok (.response (.createSuccess (.acquireSuccess id expiry)))) →
    ∃ tokenProperties time, (⟨thread, .stored id tokenProperties time⟩ :
      Commit ι) ∈ committed requests pool

theorem firstStored_of_commit
    (hreachable :
      ServerPool.Reachable services (Request.clients requests) pool)
    {commit : Commit ι} (hcommit : commit ∈ committed requests pool)
    {id : String} {tokenProperties : EntitlementTokenProperties}
    {time : DateTimeOffset}
    (hupdate : commit.update = .stored id tokenProperties time) :
    firstStored id ((committed requests pool).map Commit.update) =
      some (tokenProperties, time) := by
  have hmem : (.stored id tokenProperties time : Update) ∈
      (committed requests pool).map Commit.update :=
    List.mem_map.mpr ⟨commit, hcommit, hupdate⟩
  obtain ⟨first, hfirst⟩ := Option.isSome_iff_exists.mp
    ((firstStored_isSome_iff _ _).mpr ⟨tokenProperties, time, hmem⟩)
  obtain ⟨other, hother, hotherUpdate⟩ :=
    List.mem_map.mp (mem_of_firstStored hfirst)
  have hacquire : ∀ commit ∈ committed requests pool,
      ∀ tokenProperties time, commit.update = .stored id tokenProperties time →
        (Request.clients requests commit.thread).IsAcquire := by
    intro commit hcommit tokenProperties time hupdate
    have hperforms := performs_of_commit hcommit
    rw [hupdate] at hperforms
    obtain ⟨⟨remoteIpAddress, body, hrequest⟩, -⟩ := hperforms
    exact ⟨remoteIpAddress, body, congrArg Client.request hrequest⟩
  have hid : commit.update.id = id := by rw [hupdate, Update.id]
  have hotherId : other.update.id = id := by rw [hotherUpdate, Update.id]
  have hthread : commit.thread = other.thread :=
    stored_thread_unique hreachable hcommit hother
      (hacquire _ hcommit _ _ hupdate) (hacquire _ hother _ _ hotherUpdate)
      hid hotherId
  have hsame : commit = other :=
    List.inj_on_of_nodup_map (committed_threads_nodup hreachable) hcommit
      hother hthread
  subst hsame
  rw [hupdate, Update.stored.injEq] at hotherUpdate
  obtain ⟨-, rfl, rfl⟩ := hotherUpdate
  exact hfirst

theorem releaseEventTime_eq_lastRelease
    (hreachable :
      ServerPool.Reachable services (Request.clients requests) pool)
    {id : String} {record : EntitlementProperties}
    (hrecord : pool.shared.record id = some record) :
    record.releaseEventTime =
      lastRelease id ((committed requests pool).map Commit.update) := by
  rw [record_eq_ledgerRecord hreachable] at hrecord
  obtain ⟨stored, -, rfl⟩ := Option.map_eq_some_iff.mp hrecord
  rfl

theorem exists_commit_iff_acknowledges
    (hreachable :
      ServerPool.Reachable services (Request.clients requests) pool)
    {thread : ι} {outcome : Throws Answer}
    (hdone : pool.threads thread = .done outcome) :
    (∃ commit ∈ committed requests pool, commit.thread = thread) ↔
      (Request.clients requests thread).acknowledges outcome = true := by
  rw [← (hreachable.settles hdone).acknowledged, commits_ownEvents]
  simp [committed]

/-- An acknowledged request has committed an update of its own kind. -/
theorem performs_of_acknowledges
    (hreachable :
      ServerPool.Reachable services (Request.clients requests) pool)
    {thread : ι} {outcome : Throws Answer}
    (hdone : pool.threads thread = .done outcome)
    (hacknowledges :
      (Request.clients requests thread).acknowledges outcome = true) :
    ∃ update, (⟨thread, update⟩ : Commit ι) ∈ committed requests pool ∧
      (requests thread).Performs thread pool.shared.past update := by
  obtain ⟨⟨committer, update⟩, hcommit, hthread⟩ :=
    (exists_commit_iff_acknowledges hreachable hdone).mpr hacknowledges
  obtain rfl : committer = thread := hthread
  exact ⟨update, hcommit, performs_of_commit hcommit⟩

theorem record_isSome_of_commit
    (hreachable :
      ServerPool.Reachable services (Request.clients requests) pool)
    {commit : Commit ι} (hcommit : commit ∈ committed requests pool) :
    (pool.shared.record commit.update.id).isSome := by
  by_contra habsent
  rw [Option.not_isSome_iff_eq_none] at habsent
  exact ledger_of_absent hreachable.consistent.contents habsent _
    (List.mem_map_of_mem hcommit) rfl

theorem agreesWithAcknowledged_of_reachable
    (hreachable :
      ServerPool.Reachable services (Request.clients requests) pool) :
    AgreesWithAcknowledged requests pool := by
  have hrecord : ∀ id, pool.shared.record id =
      ledgerRecord id ((committed requests pool).map Commit.update) :=
    record_eq_ledgerRecord hreachable
  refine ⟨fun _ hcommit => performs_of_commit hcommit,
    committed_threads_nodup hreachable, fun id => ?_, ?_, ?_, ?_, ?_, ?_⟩
  · rw [hrecord, ledgerRecord, Option.isSome_map, firstStored_isSome_iff]
    constructor
    · rintro ⟨tokenProperties, time, hmem⟩
      obtain ⟨commit, hcommit, hupdate⟩ := List.mem_map.mp hmem
      exact ⟨commit, hcommit, tokenProperties, time, hupdate⟩
    · rintro ⟨commit, hcommit, tokenProperties, time, hupdate⟩
      exact ⟨tokenProperties, time,
        List.mem_map.mpr ⟨commit, hcommit, hupdate⟩⟩
  · intro commit hcommit id tokenProperties time hupdate
    have hfirst := firstStored_of_commit hreachable hcommit hupdate
    have hledger := hrecord id
    rw [ledgerRecord, hfirst, Option.map_some] at hledger
    exact ⟨_, hledger, rfl, rfl⟩
  · intro id record hstored
    rw [hrecord] at hstored
    obtain ⟨stored, -, rfl⟩ := Option.map_eq_some_iff.mp hstored
    rfl
  · intro id record hstored
    exact releaseEventTime_eq_lastRelease hreachable hstored
  · intro thread outcome hdone
    exact exists_commit_iff_acknowledges hreachable hdone
  · intro thread id expiry hdone
    obtain ⟨tokenProperties, time, hcommit⟩ :=
      (hreachable.settles hdone).acquired id expiry rfl
    rw [commits_ownEvents] at hcommit
    exact ⟨tokenProperties, time, List.mem_of_mem_filter hcommit⟩

/-- One request of each kind, all of which have been acknowledged. -/
theorem agreesWithAcknowledged_sequentialPool :
    (∃ record, sequentialPool.shared.record "guid" = some record ∧
        record.renewalEventTimes.length = 1 ∧ record.isReleased = true) ∧
      AgreesWithAcknowledged threeRequests sequentialPool :=
  ⟨⟨_, rfl, rfl, rfl⟩, agreesWithAcknowledged_of_reachable
    (Pool.Reaches.run_getD sequentialSchedule
      (ServerPool.start trustingServices threeClients))⟩

end SoftwareEntitlement
