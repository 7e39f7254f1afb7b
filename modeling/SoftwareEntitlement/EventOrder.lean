import SoftwareEntitlement.StoreHistory
import SoftwareEntitlement.AcknowledgedUpdates

/-!
# The order of recorded events

A request reads the clock before its update looks the record up, so that the
order in which events are recorded is not the order of their times.  On a
clock which never goes back, the acquisition comes first in any case, and the
whole history of an entitlement is chronological when no request finds an
event which overtook its own.
-/

namespace SoftwareEntitlement

open Interleaving

variable {ι : Type} [DecidableEq ι] {services : Services}
  {requests : ι → Request} {pool next : ServerPool ι}

/-- Every reading of the clock, newest first. -/
def clockReadings : List (Event ι) → List DateTimeOffset
  | [] => []
  | ⟨_, .utcNow, now⟩ :: earlier => now :: clockReadings earlier
  | ⟨_, .validationTime, now⟩ :: earlier => now :: clockReadings earlier
  | _ :: earlier => clockReadings earlier

def ClockNeverGoesBack (past : List (Event ι)) : Prop :=
  (clockReadings past).Pairwise fun later earlier => earlier ≤ later

namespace EntitlementProperties

/-- The times of all events but the acquisition. -/
def laterEventTimes (record : EntitlementProperties) : List DateTimeOffset :=
  record.renewalEventTimes ++ record.releaseEventTime.toList

/-- The acquisition, then the renewals in order, then the release if there is
one. -/
def Chronological (record : EntitlementProperties) : Prop :=
  (record.acquisitionEventTime :: record.laterEventTimes).Pairwise (· ≤ ·)

theorem mem_laterEventTimes_withRenewal {record : EntitlementProperties}
    {renewalTime time : DateTimeOffset} :
    time ∈ (record.withRenewal renewalTime).laterEventTimes ↔
      time ∈ record.laterEventTimes ∨ time = renewalTime := by
  simp only [laterEventTimes, withRenewal, List.mem_append, List.mem_singleton]
  tauto

theorem mem_laterEventTimes_withRelease {record : EntitlementProperties}
    {releaseTime time : DateTimeOffset}
    (hmem : time ∈ (record.withRelease releaseTime).laterEventTimes) :
    time ∈ record.laterEventTimes ∨ time = releaseTime := by
  simp only [laterEventTimes, withRelease, List.mem_append,
    Option.mem_toList, Option.some.injEq] at hmem ⊢
  tauto

theorem Chronological.createNew (id : String)
    (tokenProperties : EntitlementTokenProperties) (time : DateTimeOffset) :
    (EntitlementProperties.createNew id tokenProperties time).Chronological := by
  simp [Chronological, laterEventTimes, EntitlementProperties.createNew]

theorem Chronological.withRenewal {record : EntitlementProperties}
    {time : DateTimeOffset} (hrecord : record.Chronological)
    (hacquisition : record.acquisitionEventTime ≤ time)
    (hrenewals : ∀ renewalTime ∈ record.renewalEventTimes, renewalTime ≤ time)
    (hrelease : ∀ releaseTime, record.releaseEventTime = some releaseTime →
      time ≤ releaseTime) :
    (record.withRenewal time).Chronological := by
  unfold Chronological laterEventTimes at hrecord ⊢
  simp only [EntitlementProperties.withRenewal, List.pairwise_cons,
    List.pairwise_append, List.mem_append, Option.mem_toList,
    List.mem_singleton] at hrecord ⊢
  grind

theorem Chronological.withRelease {record : EntitlementProperties}
    {time : DateTimeOffset} (hrecord : record.Chronological)
    (hacquisition : record.acquisitionEventTime ≤ time)
    (hrenewals : ∀ renewalTime ∈ record.renewalEventTimes,
      renewalTime ≤ time) :
    (record.withRelease time).Chronological := by
  unfold Chronological laterEventTimes at hrecord ⊢
  simp only [EntitlementProperties.withRelease, List.pairwise_cons,
    List.pairwise_append, List.mem_append, Option.mem_toList,
    Option.some.injEq] at hrecord ⊢
  grind

end EntitlementProperties

/-! ## The clock and the acquisition -/

omit [DecidableEq ι] in
theorem clockReadings_sublist {earlier later : List (Event ι)}
    (hsuffix : earlier <:+ later) :
    (clockReadings earlier).Sublist (clockReadings later) := by
  obtain ⟨newer, rfl⟩ := hsuffix
  induction newer with
  | nil => exact List.Sublist.refl _
  | cons event newer ih =>
      obtain ⟨i, access, reply⟩ := event
      cases access with
      | utcNow => exact ih.trans (List.sublist_cons_self _ _)
      | validationTime => exact ih.trans (List.sublist_cons_self _ _)
      | _ => exact ih

omit [DecidableEq ι] in
theorem ClockNeverGoesBack.of_grows {s t : ServerState ι}
    (hclock : ClockNeverGoesBack t.past) (hgrows : s.Grows t) :
    ClockNeverGoesBack s.past :=
  List.Pairwise.sublist (clockReadings_sublist hgrows.past) hclock

omit [DecidableEq ι] in
theorem mem_clockReadings {thread : ι} {time : DateTimeOffset}
    {past : List (Event ι)}
    (hmem : (⟨thread, .utcNow, time⟩ : Event ι) ∈ past) :
    time ∈ clockReadings past := by
  obtain ⟨newer, earlier, rfl⟩ := List.append_of_mem hmem
  have hsuffix : (⟨thread, .utcNow, time⟩ : Event ι) :: earlier <:+
      newer ++ ⟨thread, .utcNow, time⟩ :: earlier := List.suffix_append _ _
  exact (clockReadings_sublist hsuffix).subset List.mem_cons_self

/-- The acquisition time of a stored record has been read from the clock. -/
theorem acquisitionEventTime_mem
    (hreachable :
      ServerPool.Reachable services (Request.clients requests) pool)
    {id : String} {record : EntitlementProperties}
    (hrecord : pool.shared.record id = some record) :
    record.acquisitionEventTime ∈ clockReadings pool.shared.past := by
  obtain ⟨-, hfirst⟩ := wellStored_of_record hreachable hrecord
  obtain ⟨⟨thread, update⟩, hcommit, hupdate⟩ :=
    List.mem_map.mp (mem_of_firstStored hfirst)
  obtain rfl : update = _ := hupdate
  exact mem_clockReadings (performs_of_commit hcommit).2

/-! ## What holds of every record -/

/-- No event of an entitlement is recorded as earlier than its acquisition. -/
def AcquiredFirst (pool : ServerPool ι) : Prop :=
  ∀ id record, pool.shared.record id = some record →
    ∀ time ∈ record.laterEventTimes, record.acquisitionEventTime ≤ time

def EventsInOrder (pool : ServerPool ι) : Prop :=
  ∀ id record, pool.shared.record id = some record → record.Chronological

def Request.isRenew : Request → Bool
  | .renew _ _ => true
  | _ => false

/-- The thread has read the clock and is about to perform the lookup of
`TryUpdate`, and would find a later renewal than its own event or, if it is a
Renew, an earlier release. -/
def overtaken (requests : ι → Request) (pool : ServerPool ι) (thread : ι) :
    Bool :=
  match pool.threads thread, clockReading thread pool.shared.past with
  | .access (.tryGetValue key) _, some time =>
      (pool.shared.record key).any fun record =>
        record.renewalEventTimes.any (fun renewalTime => time < renewalTime) ||
          ((requests thread).isRenew &&
            record.releaseEventTime.any fun releaseTime => releaseTime < time)
  | _, _ => false

abbrev InTime (requests : ι → Request) :
    ServerPool ι → ι → ServerPool ι → Prop :=
  ServerPool.Unguarded (overtaken requests)

section Revisions

variable {moves : ServerPool ι → ι → ServerPool ι → Prop} {thread : ι}
  {key : String} {record : EntitlementProperties} {time : DateTimeOffset}
  {comparisonValue newValue found : Reference}
  (htrace : ownEvents thread pool.shared.past =
    [⟨thread, .allocate record, newValue⟩,
      ⟨thread, .tryGetValue key, some comparisonValue⟩,
      ⟨thread, .utcNow, time⟩, ⟨thread, .tryGetValue key, some found⟩])

include htrace

/-- A request which has found the entitlement reads a time which is not before
the acquisition. -/
theorem acquisition_le_reading
    (hreachable :
      ServerPool.Reachable services (Request.clients requests) pool)
    (hclock : ClockNeverGoesBack pool.shared.past)
    (hcurrent : pool.shared.record key = some comparisonValue.value) :
    comparisonValue.value.acquisitionEventTime ≤ time := by
  have hreading : ownEvents thread pool.shared.past =
      [⟨thread, .allocate record, newValue⟩,
        ⟨thread, .tryGetValue key, some comparisonValue⟩] ++
        ⟨thread, .utcNow, time⟩ ::
          [⟨thread, .tryGetValue key, some found⟩] := htrace
  obtain ⟨before, after, environment, hbefore, hown, -, hperform, hmove,
    hafter⟩ := exists_moment (fun h => h) hreachable rfl hreading
  rw [← List.nil_append [_]] at hown
  obtain ⟨first, second, environment', hfirst, -, -, hperform', hmove',
    hsecond⟩ := exists_moment (fun h => h) hbefore rfl hown
  have hreaches : Pool.Reaches perform first before :=
    hsecond.head ⟨thread, hmove'⟩
  have hreaches' : Pool.Reaches perform before pool :=
    hafter.head ⟨thread, hmove⟩
  have hfound : first.shared.record key = some found.value := by
    simp [ServerState.record, entries_of_lookup hperform']
  obtain ⟨record', hrecord', hevolves⟩ :=
    record_evolves hfirst (hreaches.trans hreaches') hfound
  obtain rfl : comparisonValue.value = record' := by
    simpa [hcurrent] using hrecord'
  rw [hevolves.acquisitionEventTime]
  have hmem := (clockReadings_sublist (grows_of_reaches hreaches).past).subset
    (acquisitionEventTime_mem hfirst hfound)
  have hsorted := hclock.of_grows (grows_of_reaches hafter)
  unfold ClockNeverGoesBack at hsorted
  rw [perform_past hperform] at hsorted
  exact (List.pairwise_cons.mp hsorted).1 _ hmem

theorem not_overtaken
    (hrun : ServerPool.Run (InTime requests)
      (ServerPool.start services (Request.clients requests)) pool) :
    (∀ renewalTime ∈ comparisonValue.value.renewalEventTimes,
      renewalTime ≤ time) ∧
      ((requests thread).isRenew = true →
        ∀ releaseTime, comparisonValue.value.releaseEventTime =
          some releaseTime → time ≤ releaseTime) := by
  rw [← List.singleton_append] at htrace
  obtain ⟨before, after, environment, -, hown, ⟨rest, hthread⟩, hperform,
    ⟨-, -, hguard⟩, -⟩ :=
    exists_moment ServerPool.Unguarded.move hrun rfl htrace
  have hreading : clockReading thread before.shared.past = some time := by
    rw [← clockReading_ownEvents, hown]
    simp [clockReading]
  have hfound : before.shared.record key = some comparisonValue.value := by
    simp [ServerState.record, entries_of_lookup hperform]
  simp only [overtaken, hthread, hreading, hfound, Option.any_some,
    Bool.or_eq_false_iff, List.any_eq_false, Bool.and_eq_false_iff,
    decide_eq_true_eq, not_lt] at hguard
  refine ⟨hguard.1, fun hrenew releaseTime hrelease => ?_⟩
  rcases hguard.2 with hnot | hnone
  · simp [hrenew] at hnot
  · simpa [hrelease] using hnone

end Revisions

section Steps

variable {environment : Environment} {thread : ι}

theorem AcquiredFirst.step
    (hreachable :
      ServerPool.Reachable services (Request.clients requests) pool)
    (hclock : ClockNeverGoesBack pool.shared.past)
    (hstep : pool.step perform thread environment = some next)
    (hpool : AcquiredFirst pool) : AcquiredFirst next := by
  intro id record hrecord time htime
  cases entryStep_of_step hreachable hstep id with
  | kept hentry =>
      rw [ServerState.record, hentry] at hrecord
      exact hpool id record hrecord time htime
  | created record' added earlier htrace hcreates habsent hrecord' =>
      obtain rfl : record = record' := by simpa [hrecord] using hrecord'
      obtain ⟨tokenProperties, acquisitionTime, rfl⟩ := hcreates.eq_createNew
      cases htime
  | revised comparisonValue newValue revision earlier htrace hrevises hevent
      hcurrent hrecord' =>
      obtain rfl : record = revision comparisonValue.value := by
        simpa [hrecord] using hrecord'
      obtain ⟨reading, found, rfl, ⟨-, rfl⟩ | ⟨-, rfl⟩⟩ :=
        Request.cases_of_revises hrevises
      all_goals
        have hreading :=
          acquisition_le_reading htrace hreachable hclock hcurrent
        have hbefore := hpool id _ hcurrent time
      · rcases EntitlementProperties.mem_laterEventTimes_withRenewal.mp htime
          with hearlier | rfl
        · exact hbefore hearlier
        · exact hreading
      · rcases EntitlementProperties.mem_laterEventTimes_withRelease htime
          with hearlier | rfl
        · exact hbefore hearlier
        · exact hreading

theorem EventsInOrder.step
    (hrun : ServerPool.Run (InTime requests)
      (ServerPool.start services (Request.clients requests)) pool)
    (hclock : ClockNeverGoesBack pool.shared.past)
    (hstep : pool.step perform thread environment = some next)
    (hpool : EventsInOrder pool) : EventsInOrder next := by
  have hreachable : ServerPool.Reachable services (Request.clients requests)
      pool := hrun.reaches ServerPool.Unguarded.move
  intro id record hrecord
  cases entryStep_of_step hreachable hstep id with
  | kept hentry =>
      rw [ServerState.record, hentry] at hrecord
      exact hpool id record hrecord
  | created record' added earlier htrace hcreates habsent hrecord' =>
      obtain rfl : record = record' := by simpa [hrecord] using hrecord'
      obtain ⟨tokenProperties, acquisitionTime, rfl⟩ := hcreates.eq_createNew
      exact .createNew id tokenProperties acquisitionTime
  | revised comparisonValue newValue revision earlier htrace hrevises hevent
      hcurrent hrecord' =>
      obtain rfl : record = revision comparisonValue.value := by
        simpa [hrecord] using hrecord'
      obtain ⟨reading, found, rfl, hupdate⟩ :=
        Request.cases_of_revises hrevises
      have hbefore := hpool id _ hcurrent
      have hacquisition :=
        acquisition_le_reading htrace hreachable hclock hcurrent
      obtain ⟨hrenewals, hrelease⟩ := not_overtaken htrace hrun
      rcases hupdate with ⟨⟨body, hrequest⟩, rfl⟩ | ⟨-, rfl⟩
      · exact hbefore.withRenewal hacquisition hrenewals
          (hrelease (by simp [hrequest, Request.isRenew]))
      · exact hbefore.withRelease hacquisition hrenewals

end Steps

theorem acquiredFirst_of_reachable
    (hreachable :
      ServerPool.Reachable services (Request.clients requests) pool)
    (hclock : ClockNeverGoesBack pool.shared.past) : AcquiredFirst pool := by
  induction hreachable with
  | refl =>
      intro id record hrecord
      cases hrecord
  | tail hbefore hlast ih =>
      have hgrows := grows_of_reaches (.single hlast)
      obtain ⟨thread, environment, hstep⟩ := hlast
      have hclock' := hclock.of_grows hgrows
      exact (ih hclock').step hbefore hclock' hstep

theorem eventsInOrder_of_run
    (hrun : ServerPool.Run (InTime requests)
      (ServerPool.start services (Request.clients requests)) pool)
    (hclock : ClockNeverGoesBack pool.shared.past) : EventsInOrder pool := by
  induction hrun with
  | refl =>
      intro id record hrecord
      cases hrecord
  | tail hbefore hlast ih =>
      obtain ⟨thread, hmove⟩ := hlast
      obtain ⟨environment, hstep⟩ := hmove.move
      have hgrows := grows_of_reaches (.single ⟨thread, environment, hstep⟩)
      have hclock' := hclock.of_grows hgrows
      exact (ih hclock').step hbefore hclock' hstep

/-- On a clock which never goes back, the acquisition is the first event of
every record; and the records are chronological in every run in which no
request is overtaken between its clock reading and its lookup. -/
theorem eventOrder_of_reachable
    (hreachable :
      ServerPool.Reachable services (Request.clients requests) pool)
    (hclock : ClockNeverGoesBack pool.shared.past) :
    AcquiredFirst pool ∧
      (ServerPool.Run (InTime requests)
          (ServerPool.start services (Request.clients requests)) pool →
        EventsInOrder pool) :=
  ⟨acquiredFirst_of_reachable hreachable hclock,
    fun hrun => eventsInOrder_of_run hrun hclock⟩

/-! ## Two schedules -/

def inTimePool : ServerPool Requester :=
  (ServerPool.start trustingServices (Request.clients threeRequests)).runUnguarded
    (overtaken threeRequests) sequentialSchedule

theorem eventOrder_inTimePool :
    (∃ record, inTimePool.shared.record "guid" = some record ∧
        record.laterEventTimes = [(at' 3).now, (at' 4).now]) ∧
      AcquiredFirst inTimePool ∧ EventsInOrder inTimePool := by
  have hrun : ServerPool.Run (InTime threeRequests)
      (ServerPool.start trustingServices (Request.clients threeRequests))
      inTimePool := ServerPool.run_runUnguarded _ _ _
  have hclock : ClockNeverGoesBack inTimePool.shared.past := by
    have hreadings : clockReadings inTimePool.shared.past =
        [(at' 4).now, (at' 3).now, (at' 2).now, (at' 1).now] := rfl
    rw [ClockNeverGoesBack, hreadings]
    decide
  have horder := eventOrder_of_reachable
    (hrun.reaches ServerPool.Unguarded.move) hclock
  exact ⟨⟨_, rfl, rfl⟩, horder.1, horder.2 hrun⟩

/-- The Release has read the clock before the Renew, and updates the record
after it. -/
def overtakenPool : ServerPool Requester :=
  (Pool.run perform
    (acquireSchedule ++ [(.releaser, at' 3), (.releaser, at' 3),
      (.renewer, at' 4), (.renewer, at' 4), (.renewer, at' 4),
      (.renewer, at' 4), (.renewer, at' 4), (.releaser, at' 5),
      (.releaser, at' 5), (.releaser, at' 5)])
    (ServerPool.start trustingServices (Request.clients threeRequests))).getD
      (ServerPool.start trustingServices (Request.clients threeRequests))

theorem not_eventsInOrder_overtakenPool :
    ServerPool.Reachable trustingServices (Request.clients threeRequests)
        overtakenPool ∧
      ClockNeverGoesBack overtakenPool.shared.past ∧
      (∃ record, overtakenPool.shared.record "guid" = some record ∧
        record.renewalEventTimes = [(at' 4).now] ∧
        record.releaseEventTime = some (at' 3).now) ∧
      ¬EventsInOrder overtakenPool := by
  have hreadings : clockReadings overtakenPool.shared.past =
      [(at' 4).now, (at' 3).now, (at' 2).now, (at' 1).now] := rfl
  refine ⟨Pool.Reaches.run_getD _ _, ?_, ⟨_, rfl, rfl, rfl⟩, fun horder => ?_⟩
  · rw [ClockNeverGoesBack, hreadings]
    decide
  · have hchronological := horder "guid" _ rfl
    have htimes : ((at' 4).now ≤ (at' 3).now) :=
      (List.pairwise_cons.mp (List.pairwise_cons.mp hchronological).2).1 _
        List.mem_cons_self
    exact absurd htimes (by decide)

end SoftwareEntitlement
