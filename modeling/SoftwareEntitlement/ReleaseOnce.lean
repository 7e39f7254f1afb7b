import SoftwareEntitlement.StoreHistory
import SoftwareEntitlement.AcknowledgedUpdates

/-!
# When a release is recorded once

`RenewRequestHandler` refuses an entitlement which is released already, and
`ReleaseRequestHandler` does not: a second Release replaces the release time.
The results here say that this is the only way in which a recorded release
time can change.
-/

namespace SoftwareEntitlement

open Interleaving

variable {ι : Type} [DecidableEq ι] {services : Services}
  {requests : ι → Request} {pool next later : ServerPool ι}

def ReleasedAt (pool : ServerPool ι) (id : String)
    (releaseTime : DateTimeOffset) : Prop :=
  ∃ record, pool.shared.record id = some record ∧
    record.releaseEventTime = some releaseTime

/-- After a Release has answered 204 the release time stays as it is,
throughout every continuation by the given moves, and no move of a Release of
the same entitlement changes its record. -/
def RecordsReleaseOnce (requests : ι → Request)
    (moves : ServerPool ι → ι → ServerPool ι → Prop)
    (pool : ServerPool ι) : Prop :=
  ∀ releaser id response, requests releaser = .release id →
    pool.threads releaser = .done (.ok (.response response)) →
      response.statusCode = 204 →
        ∃ releaseTime, ∀ later, ServerPool.Run moves pool later →
          ReleasedAt later id releaseTime ∧
            ∀ thread next, requests thread = .release id →
              moves later thread next →
                next.shared.record id = later.shared.record id

/-- The thread is a Release request about to perform the lookup of
`TryUpdate`, and would find a released record. -/
def rereleases (requests : ι → Request) (pool : ServerPool ι) (thread : ι) :
    Bool :=
  match requests thread, pool.threads thread with
  | .release _, .access (.tryGetValue key) _ =>
      !(lookups thread pool.shared.past).isEmpty &&
        (pool.shared.record key).any EntitlementProperties.isReleased
  | _, _ => false

abbrev FirstRelease (requests : ι → Request) :
    ServerPool ι → ι → ServerPool ι → Prop :=
  ServerPool.Unguarded (rereleases requests)

theorem releasedAt_of_answer
    (hreachable :
      ServerPool.Reachable services (Request.clients requests) pool)
    {releaser : ι} {id : String} {response : Response}
    (hrequest : requests releaser = .release id)
    (hdone : pool.threads releaser = .done (.ok (.response response)))
    (hstatus : response.statusCode = 204) :
    ∃ releaseTime, ReleasedAt pool id releaseTime := by
  obtain ⟨update, hcommit, hperforms⟩ := performs_of_acknowledges hreachable
    hdone (by simp [Request.clients, hrequest, Client.acknowledges, hstatus])
  rw [hrequest] at hperforms
  obtain ⟨time, rfl⟩ := hperforms.of_release
  obtain ⟨record, hrecord⟩ := Option.isSome_iff_exists.mp
    (record_isSome_of_commit hreachable hcommit)
  have hreleased : (lastRelease id
      ((committed requests pool).map Commit.update)).isSome :=
    (lastRelease_isSome_iff _ _).mpr ⟨time, List.mem_map_of_mem hcommit⟩
  obtain ⟨releaseTime, hlast⟩ := Option.isSome_iff_exists.mp hreleased
  exact ⟨releaseTime, record, hrecord,
    (releaseEventTime_eq_lastRelease hreachable hrecord).trans hlast⟩

/-- In such a run, `ReleaseEntitlement` replaces a record only if it was not
released when it was found. -/
theorem not_isReleased_of_release
    (hrun : ServerPool.Run (FirstRelease requests)
      (ServerPool.start services (Request.clients requests)) pool)
    {thread : ι} {id key : String} {comparisonValue newValue : Reference}
    {record : EntitlementProperties} {earlier : List (Event ι)}
    (hrequest : requests thread = .release id)
    (htrace : ownEvents thread pool.shared.past =
      ⟨thread, .allocate record, newValue⟩ ::
        ⟨thread, .tryGetValue key, some comparisonValue⟩ :: earlier)
    (hlookups : lookups thread earlier ≠ []) :
    comparisonValue.value.isReleased = false := by
  rw [← List.singleton_append] at htrace
  obtain ⟨before, after, environment, -, hown, ⟨rest, hthread⟩, hperform,
    ⟨-, -, hguard⟩, -⟩ :=
    exists_moment ServerPool.Unguarded.move hrun rfl htrace
  rw [← hown, lookups_ownEvents] at hlookups
  simpa [rereleases, hrequest, hthread, hlookups, ServerState.record,
    entries_of_lookup hperform] using hguard

theorem FirstRelease.keeps
    (hrun : ServerPool.Run (FirstRelease requests)
      (ServerPool.start services (Request.clients requests)) pool)
    {thread : ι} (hmove : FirstRelease requests pool thread next)
    {id : String} {releaseTime : DateTimeOffset}
    (hreleased : ReleasedAt pool id releaseTime) :
    ReleasedAt next id releaseTime ∧
      (requests thread = .release id →
        next.shared.record id = pool.shared.record id) := by
  have hreachable : ServerPool.Reachable services (Request.clients requests)
      pool := hrun.reaches ServerPool.Unguarded.move
  obtain ⟨environment, hstep, -⟩ := hmove
  obtain ⟨record, hrecord, htime⟩ := hreleased
  cases entryStep_of_step hreachable hstep id with
  | kept hentry =>
      have hsame : next.shared.record id = pool.shared.record id := by
        simp [ServerState.record, hentry]
      exact ⟨⟨record, hsame.trans hrecord, htime⟩, fun _ => hsame⟩
  | created record' added earlier htrace hcreates habsent hrecord' =>
      rw [habsent] at hrecord
      cases hrecord
  | revised comparisonValue newValue revision earlier htrace hrevises hevent
      hcurrent hrecord' =>
      rw [hcurrent] at hrecord
      cases hrecord
      obtain ⟨time, found, rfl, hrenew | hrelease⟩ :=
        Request.cases_of_revises hrevises
      · obtain ⟨⟨body, hrequest⟩, rfl⟩ := hrenew
        refine ⟨⟨_, hrecord', htime⟩, fun h => ?_⟩
        rw [hrequest] at h
        cases h
      · have hnot := not_isReleased_of_release hrun hrelease.1 htrace
          (by simp [lookups])
        simp [EntitlementProperties.isReleased, htime] at hnot

theorem releasedAt_of_run
    (hrun : ServerPool.Run (FirstRelease requests)
      (ServerPool.start services (Request.clients requests)) pool)
    (hlater : ServerPool.Run (FirstRelease requests) pool later)
    {id : String} {releaseTime : DateTimeOffset}
    (hreleased : ReleasedAt pool id releaseTime) :
    ReleasedAt later id releaseTime := by
  induction hlater with
  | refl => exact hreleased
  | tail hbefore hlast ih =>
      obtain ⟨thread, hmove⟩ := hlast
      exact (FirstRelease.keeps (hrun.trans hbefore) hmove ih).1

/-- In a run in which no Release finds a released record when it comes to
update it, every release time is recorded once. -/
theorem recordsReleaseOnce_of_run
    (hrun : ServerPool.Run (FirstRelease requests)
      (ServerPool.start services (Request.clients requests)) pool) :
    RecordsReleaseOnce requests (FirstRelease requests) pool := by
  intro releaser id response hrequest hdone hstatus
  obtain ⟨releaseTime, hreleased⟩ := releasedAt_of_answer
    (hrun.reaches ServerPool.Unguarded.move) hrequest hdone hstatus
  refine ⟨releaseTime, fun later hlater => ?_⟩
  have hlaterReleased := releasedAt_of_run hrun hlater hreleased
  exact ⟨hlaterReleased, fun thread next hthread hmove =>
    (FirstRelease.keeps (hrun.trans hlater) hmove hlaterReleased).2 hthread⟩

/-! ## Two Releases of one entitlement -/

def twoReleases : Requester → Request
  | .acquirer => threeRequests .acquirer
  | .renewer => .release "guid"
  | .releaser => .release "guid"

def releasedPool : ServerPool Requester :=
  (ServerPool.start trustingServices (Request.clients twoReleases)).runUnguarded
    (rereleases twoReleases)
    (acquireSchedule ++ [(.releaser, at' 3), (.releaser, at' 4),
      (.releaser, at' 4), (.releaser, at' 4), (.releaser, at' 4)])

theorem recordsReleaseOnce_releasedPool :
    releasedPool.threads .releaser = .done (.ok (.response ⟨204, none⟩)) ∧
      RecordsReleaseOnce twoReleases (FirstRelease twoReleases) releasedPool :=
  ⟨rfl, recordsReleaseOnce_of_run (ServerPool.run_runUnguarded _ _
    (ServerPool.start trustingServices (Request.clients twoReleases)))⟩

/-- The same server when the other Release has been acknowledged as well. -/
def rereleasedPool : ServerPool Requester :=
  (Pool.run perform
    [(.renewer, at' 5), (.renewer, at' 6), (.renewer, at' 6),
      (.renewer, at' 6), (.renewer, at' 6)] releasedPool).getD releasedPool

theorem not_recordsReleaseOnce_releasedPool :
    ServerPool.Reachable trustingServices (Request.clients twoReleases)
        releasedPool ∧
      ReleasedAt releasedPool "guid" (at' 4).now ∧
      ReleasedAt rereleasedPool "guid" (at' 6).now ∧
      ¬RecordsReleaseOnce twoReleases ServerPool.Move releasedPool := by
  have hreachable : ServerPool.Reachable trustingServices
      (Request.clients twoReleases) releasedPool :=
    (ServerPool.run_runUnguarded (rereleases twoReleases) _ _).reaches
      ServerPool.Unguarded.move
  refine ⟨hreachable, ⟨_, rfl, rfl⟩, ⟨_, rfl, rfl⟩, fun honce => ?_⟩
  obtain ⟨releaseTime, hkept⟩ :=
    honce .releaser "guid" ⟨204, none⟩ rfl rfl rfl
  obtain ⟨⟨record, hrecord, htime⟩, -⟩ := hkept releasedPool .refl
  obtain ⟨⟨record', hrecord', htime'⟩, -⟩ := hkept rereleasedPool
    (Pool.Reaches.run_getD _ _)
  have hfirst : releaseTime = (at' 4).now := by
    cases hrecord
    exact (Option.some.inj htime).symm
  have hsecond : releaseTime = (at' 6).now := by
    cases hrecord'
    exact (Option.some.inj htime').symm
  exact absurd (hfirst.symm.trans hsecond) (by decide)

end SoftwareEntitlement
