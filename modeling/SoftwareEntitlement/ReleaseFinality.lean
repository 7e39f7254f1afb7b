import SoftwareEntitlement.AcknowledgedUpdates
import SoftwareEntitlement.StoreHistory

/-!
# When a release is final

`RenewRequestHandler` checks that the entitlement is not released on one
lookup, and `TryUpdate` renews what it finds by another.  A release which
commits between the two is overlooked; the results here say that this is the
only way in which a renewal can follow a release.
-/

namespace SoftwareEntitlement

open Interleaving

variable {ι : Type} [DecidableEq ι] {services : Services}
  {requests : ι → Request} {pool next later : ServerPool ι}

/-- Once a Release has committed, no Renew commits. -/
structure ReleaseIsFinal (requests : ι → Request) (pool : ServerPool ι) :
    Prop where
  commits : (committed requests pool).Pairwise fun later earlier =>
    ∀ id releaseTime renewalTime, earlier.update = .released id releaseTime →
      later.update ≠ .renewed id renewalTime
  /-- A Renew which answers 200 has committed, and before any Release. -/
  answers : ∀ thread body id response,
    requests thread = .renew body id →
      pool.threads thread = .done (.ok (.response response)) →
        response.statusCode = 200 →
          ∃ newer renewalTime earlier,
            committed requests pool =
                newer ++ ⟨thread, .renewed id renewalTime⟩ :: earlier ∧
              ∀ commit ∈ earlier, ∀ releaseTime,
                commit.update ≠ .released id releaseTime

/-- The thread is a Renew request about to perform the lookup of `TryUpdate`,
and would find a released record. -/
def rereadsReleased (requests : ι → Request) (pool : ServerPool ι)
    (thread : ι) : Bool :=
  match requests thread, pool.threads thread with
  | .renew _ _, .access (.tryGetValue key) _ =>
      !(lookups thread pool.shared.past).isEmpty &&
        (pool.shared.record key).any EntitlementProperties.isReleased
  | _, _ => false

abbrev UnreleasedStep (requests : ι → Request) :
    ServerPool ι → ι → ServerPool ι → Prop :=
  ServerPool.Unguarded (rereadsReleased requests)

theorem UnreleasedStep.not_readReleased {mover : ι}
    (hstep : UnreleasedStep requests pool mover next) {thread : ι}
    (hrenew : ∃ body id, requests thread = .renew body id)
    (hbefore : ¬ReadReleased thread pool.shared.past) :
    ¬ReadReleased thread next.shared.past := by
  obtain ⟨environment, hmove, hguard⟩ := hstep
  obtain ⟨access, rest, reply, shared, hthread, hperform, rfl⟩ :=
    Pool.step_eq_some hmove
  rintro ⟨reference, hmem, hreleased⟩
  rw [perform_past hperform] at hmem
  cases access with
  | tryGetValue key =>
      by_cases heq : mover = thread
      · subst heq
        simp only [lookups, if_true] at hmem
        by_cases hfirst : lookups mover pool.shared.past = []
        · simp [hfirst] at hmem
        · rw [List.dropLast_cons_of_ne_nil hfirst] at hmem
          rcases List.mem_cons.mp hmem with hfound | hearlier
          · simp only [perform, Option.some.injEq, Prod.mk.injEq] at hperform
            obtain ⟨rfl, rfl⟩ := hperform
            obtain ⟨body, id, hrequest⟩ := hrenew
            simp [rereadsReleased, hrequest, hthread, hfirst,
              ServerState.record, ← hfound, hreleased] at hguard
          · exact hbefore ⟨reference, hearlier, hreleased⟩
      · simp only [lookups, heq, if_false] at hmem
        exact hbefore ⟨reference, hmem, hreleased⟩
  | _ => exact hbefore ⟨reference, hmem, hreleased⟩

theorem not_readReleased_of_run
    (hrun : ServerPool.Run (UnreleasedStep requests)
      (ServerPool.start services (Request.clients requests)) pool)
    {thread : ι} (hrenew : ∃ body id, requests thread = .renew body id) :
    ¬ReadReleased thread pool.shared.past := by
  induction hrun with
  | refl =>
      rintro ⟨reference, hmem, -⟩
      cases hmem
  | tail _ hlast ih =>
      obtain ⟨mover, hmove⟩ := hlast
      exact hmove.not_readReleased hrenew ih

theorem renew_of_renewed {commit : Commit ι}
    (hcommit : commit ∈ committed requests pool) {id : String}
    {time : DateTimeOffset} (hupdate : commit.update = .renewed id time) :
    ∃ body, requests commit.thread = .renew body id := by
  have hperforms := performs_of_commit hcommit
  rw [hupdate] at hperforms
  exact hperforms.1

/-- In a run without overlooked releases, renewals are committed before
releases. -/
theorem committed_pairwise
    (hrun : ServerPool.Run (UnreleasedStep requests)
      (ServerPool.start services (Request.clients requests)) pool) :
    (committed requests pool).Pairwise fun later earlier =>
      ∀ id releaseTime renewalTime, earlier.update = .released id releaseTime →
        later.update ≠ .renewed id renewalTime := by
  have hreachable : ServerPool.Reachable services (Request.clients requests)
      pool := hrun.reaches ServerPool.Unguarded.move
  refine List.Pairwise.imp_of_mem ?_ hreachable.consistent.late
  intro later earlier hlater _ hlate id releaseTime renewalTime hreleased
    hrenewed
  obtain ⟨body, hrequest⟩ := renew_of_renewed hlater hrenewed
  exact not_readReleased_of_run hrun ⟨body, id, hrequest⟩
    (hlate id releaseTime renewalTime hreleased hrenewed
      ⟨body, id, congrArg Client.request hrequest⟩)

theorem renewed_of_answer
    (hreachable :
      ServerPool.Reachable services (Request.clients requests) pool)
    {thread : ι} {body : Option RenewRequestBody} {id : String}
    {response : Response} (hrequest : requests thread = .renew body id)
    (hdone : pool.threads thread = .done (.ok (.response response)))
    (hstatus : response.statusCode = 200) :
    ∃ time, (⟨thread, .renewed id time⟩ : Commit ι) ∈
      committed requests pool := by
  obtain ⟨update, hcommit, hperforms⟩ := performs_of_acknowledges hreachable
    hdone (by simp [Request.clients, hrequest, Client.acknowledges, hstatus])
  rw [hrequest] at hperforms
  obtain ⟨time, rfl⟩ := hperforms.of_renew
  exact ⟨time, hcommit⟩

/-- Once a record is released, its renewals stay as they are. -/
theorem renewalEventTimes_eq_of_released
    (hrun : ServerPool.Run (UnreleasedStep requests)
      (ServerPool.start services (Request.clients requests)) pool)
    (hlater : ServerPool.Run (UnreleasedStep requests) pool later)
    {id : String} {record record' : EntitlementProperties}
    (hrecord : pool.shared.record id = some record)
    (hreleased : record.isReleased = true)
    (hrecord' : later.shared.record id = some record') :
    record'.renewalEventTimes = record.renewalEventTimes := by
  have hreachable : ServerPool.Reachable services (Request.clients requests)
      pool := hrun.reaches ServerPool.Unguarded.move
  have hreaches := hlater.reaches ServerPool.Unguarded.move
  obtain ⟨newer, hnewer⟩ := commits_suffix (Request.clients requests)
    (grows_of_reaches hreaches).past
  have hpairwise := committed_pairwise (hrun.trans hlater)
  rw [committed, ← hnewer, List.pairwise_append] at hpairwise
  rw [record_eq_ledgerRecord hreachable] at hrecord
  rw [record_eq_ledgerRecord (hreachable.trans hreaches), ← hnewer,
    List.map_append] at hrecord'
  obtain ⟨stored, -, rfl⟩ := Option.map_eq_some_iff.mp hrecord
  obtain ⟨stored', -, rfl⟩ := Option.map_eq_some_iff.mp hrecord'
  obtain ⟨releaseTime, hrelease⟩ := (lastRelease_isSome_iff _ _).mp hreleased
  obtain ⟨release, hreleaseCommit, hreleaseUpdate⟩ := List.mem_map.mp hrelease
  have hnone : renewalTimes id (newer.map Commit.update) = [] := by
    refine (renewalTimes_eq_nil_iff _ _).mpr fun time hmem => ?_
    obtain ⟨renewal, hrenewal, hupdate⟩ := List.mem_map.mp hmem
    exact hpairwise.2.2 renewal hrenewal release hreleaseCommit id releaseTime
      time hreleaseUpdate hupdate
  simp [renewalTimes_append, hnone]

/-- In a run in which no Renew request overlooks a release, a release is
final: for the commits, for the answers, and for the records. -/
theorem releaseIsFinal_of_unreleasedSteps
    (hrun : ServerPool.Run (UnreleasedStep requests)
      (ServerPool.start services (Request.clients requests)) pool) :
    ReleaseIsFinal requests pool ∧
      ∀ later, ServerPool.Run (UnreleasedStep requests) pool later →
        ∀ id record record', pool.shared.record id = some record →
          record.isReleased = true →
            later.shared.record id = some record' →
              record'.renewalEventTimes = record.renewalEventTimes := by
  have hreachable : ServerPool.Reachable services (Request.clients requests)
      pool := hrun.reaches ServerPool.Unguarded.move
  have hpairwise := committed_pairwise hrun
  refine ⟨⟨hpairwise, ?_⟩, fun later hlater id record record' hrecord hreleased
    hrecord' => renewalEventTimes_eq_of_released hrun hlater hrecord hreleased
      hrecord'⟩
  intro thread body id response hrequest hdone hstatus
  obtain ⟨time, hcommit⟩ :=
    renewed_of_answer hreachable hrequest hdone hstatus
  obtain ⟨newer, earlier, hsplit⟩ := List.append_of_mem hcommit
  refine ⟨newer, time, earlier, hsplit, fun release hrelease releaseTime
    hupdate => ?_⟩
  rw [hsplit, List.pairwise_append, List.pairwise_cons] at hpairwise
  exact hpairwise.2.1.1 release hrelease id releaseTime time hupdate rfl

/-! ## Two schedules -/

def releasedFirstPool : ServerPool Requester :=
  (ServerPool.start trustingServices threeClients).runUnguarded
    (rereadsReleased threeRequests)
    (acquireSchedule ++ [(.releaser, at' 3), (.releaser, at' 3),
      (.releaser, at' 4), (.releaser, at' 4), (.releaser, at' 4),
      (.renewer, at' 5)])

theorem releaseIsFinal_releasedFirstPool :
    (∃ record, releasedFirstPool.shared.record "guid" = some record ∧
        record.isReleased = true) ∧
      releasedFirstPool.threads .renewer = .done (.ok (.response
        (createAlreadyReleasedResponse "guid"))) ∧
      ReleaseIsFinal threeRequests releasedFirstPool :=
  ⟨⟨_, rfl, rfl⟩, rfl, (releaseIsFinal_of_unreleasedSteps
    (ServerPool.run_runUnguarded _ _
      (ServerPool.start trustingServices threeClients))).1⟩

/-- The Release commits between the check of the Renew and its update. -/
def racingPool : ServerPool Requester :=
  (Pool.run perform
    (acquireSchedule ++ [(.renewer, at' 3), (.releaser, at' 3),
      (.releaser, at' 4), (.releaser, at' 4), (.releaser, at' 4),
      (.releaser, at' 4), (.renewer, at' 5), (.renewer, at' 5),
      (.renewer, at' 5), (.renewer, at' 5)])
    (ServerPool.start trustingServices threeClients)).getD
      (ServerPool.start trustingServices threeClients)

theorem not_releaseIsFinal_racingPool :
    ServerPool.Reachable trustingServices (Request.clients threeRequests)
        racingPool ∧
      (∃ record, racingPool.shared.record "guid" = some record ∧
        record.releaseEventTime = some (at' 4).now ∧
        record.renewalEventTimes = [(at' 5).now]) ∧
      (∃ response, racingPool.threads .renewer = .done (.ok (.response response)) ∧
        response.statusCode = 200) ∧
      ¬ReleaseIsFinal threeRequests racingPool := by
  refine ⟨Pool.Reaches.run_getD _ _, ⟨_, rfl, rfl, rfl⟩, ⟨_, rfl, rfl⟩,
    fun hfinal => ?_⟩
  have hcommitted : committed threeRequests racingPool =
      [⟨.renewer, .renewed "guid" (at' 5).now⟩,
        ⟨.releaser, .released "guid" (at' 4).now⟩,
        ⟨.acquirer, .stored "guid" trustedProperties (at' 2).now⟩] := rfl
  have hpairwise := hfinal.commits
  rw [hcommitted] at hpairwise
  simp at hpairwise

end SoftwareEntitlement
