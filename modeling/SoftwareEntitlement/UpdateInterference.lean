import SoftwareEntitlement.StoreHistory

/-!
# Why an update of the store fails

`TryUpdate` replaces a record only if it is still the record of its lookup.
The comparison never fails without a cause: until another update of the same
entitlement takes effect, no step changes the entry, and a `StoreEntitlement`
which comes too late puts the existing record back.  An update which fails has
therefore been overtaken by one which does not, and an update which runs alone
succeeds.
-/

namespace SoftwareEntitlement

open Interleaving

variable {ι : Type} [DecidableEq ι] {services : Services}
  {calls : ι → StoreCall} {origin pool next : ServerPool ι} {thread : ι}
  {id : String}

abbrev StoreCall.clients (calls : ι → StoreCall) (thread : ι) : Client :=
  .call (calls thread)

def StoreCall.target : StoreCall → Option String
  | .renew entitlementId _ => some entitlementId
  | .release entitlementId _ => some entitlementId
  | .store _ _ _ => none
  | .find _ => none

/-- An update of `id` which has begun, at a moment when `id` was stored. -/
structure StartedStored (services : Services) (calls : ι → StoreCall)
    (pool : ServerPool ι) (id : String) (thread : ι) : Prop where
  target : (calls thread).target = some id
  started : ownEvents thread pool.shared.past ≠ []
  stored : ∃ origin,
    ServerPool.Reachable services (StoreCall.clients calls) origin ∧
      ownEvents thread origin.shared.past = [] ∧
      (origin.shared.entries id).isSome ∧ Pool.Reaches perform origin pool

/-- The thread updates `id`, and one of the events makes its update take
effect. -/
def Commits (calls : ι → StoreCall) (id : String) (events : List (Event ι))
    (thread : ι) : Prop :=
  (calls thread).target = some id ∧ ∃ newValue comparisonValue,
    (⟨thread, .tryUpdate id newValue comparisonValue, true⟩ : Event ι) ∈ events

/-- Another update of `id` has taken effect between the `TryGetValue` and the
failing `TryUpdate` of the thread. -/
def Overtaken (calls : ι → StoreCall) (id : String) (past : List (Event ι))
    (thread : ι) : Prop :=
  ∃ later between earlier newValue comparisonValue,
    past =
        later ++ ⟨thread, .tryUpdate id newValue comparisonValue, false⟩ ::
          (between ++
            ⟨thread, .tryGetValue id, some comparisonValue⟩ :: earlier) ∧
      ∃ other, other ≠ thread ∧ Commits calls id between other

def ServerPool.Succeeded (pool : ServerPool ι) (thread : ι) : Prop :=
  ∃ record, pool.threads thread = .done (.ok (.result (.ok record)))

/-! ## The discipline of an update -/

omit [DecidableEq ι] in
theorem StoreCall.target_of_revises {call : StoreCall}
    {earlier : List (Event ι)} {key : String}
    {revision : EntitlementProperties → EntitlementProperties}
    (hrevises : (Client.call call).Revises thread earlier key revision) :
    call.target = some key ∧ earlier = [] := by
  cases call with
  | renew id time => exact ⟨congrArg some hrevises.1, hrevises.2.1⟩
  | release id time => exact ⟨congrArg some hrevises.1, hrevises.2.1⟩
  | store id tokenProperties time => exact hrevises.elim
  | find id => exact hrevises.elim

theorem StoreCall.cases_of_target {call : StoreCall}
    (htarget : call.target = some id) :
    (∃ time, call = .renew id time) ∨ ∃ time, call = .release id time := by
  cases call with
  | renew id' time =>
      cases htarget
      exact .inl ⟨time, rfl⟩
  | release id' time =>
      cases htarget
      exact .inr ⟨time, rfl⟩
  | store id' tokenProperties time => cases htarget
  | find id' => cases htarget

omit [DecidableEq ι] in
theorem StoreCall.updateTrace_of_finishes {call : StoreCall}
    {outcome : Throws Answer} {trace : List (Event ι)}
    (htarget : call.target = some id)
    (hfinishes : (Client.call call).Finishes thread outcome trace) :
    ∃ result, outcome = .ok (.result result) ∧
      UpdateTrace thread id [] result trace := by
  rcases StoreCall.cases_of_target htarget with ⟨time, rfl⟩ | ⟨time, rfl⟩
  · exact hfinishes
  · exact hfinishes

theorem updateTrace_of_done
    (hreachable :
      ServerPool.Reachable services (StoreCall.clients calls) pool)
    (htarget : (calls thread).target = some id) {outcome : Throws Answer}
    (hdone : pool.threads thread = .done outcome) :
    ∃ result, outcome = .ok (.result result) ∧
      UpdateTrace thread id [] result (ownEvents thread pool.shared.past) :=
  StoreCall.updateTrace_of_finishes htarget
    (hreachable.obedient.post_of_done hdone)

/-! ## An entry stays until an update takes effect -/

omit [DecidableEq ι] in
theorem Commits.mono {events later : List (Event ι)}
    (hcommits : Commits calls id events thread) (hsubset : events ⊆ later) :
    Commits calls id later thread := by
  obtain ⟨htarget, newValue, comparisonValue, hmem⟩ := hcommits
  exact ⟨htarget, newValue, comparisonValue, hsubset hmem⟩

theorem entry_kept_or_committed
    (hreachable :
      ServerPool.Reachable services (StoreCall.clients calls) pool)
    (hmove : pool.Move thread next) (id : String) :
    ∃ event, next.shared.past = event :: pool.shared.past ∧
      ∀ reference, pool.shared.entries id = some reference →
        next.shared.entries id = some reference ∨
          Commits calls id [event] thread := by
  obtain ⟨environment, hstep⟩ := hmove
  have hcases := entryStep_of_step hreachable hstep id
  obtain ⟨access, rest, reply, shared, -, hperform, rfl⟩ :=
    Pool.step_eq_some hstep
  refine ⟨_, perform_past hperform, fun reference hentry => ?_⟩
  cases hcases with
  | kept hsame => exact .inl (hsame.trans hentry)
  | created record added earlier htrace hcreates habsent hrecord =>
      simp [ServerState.record, hentry] at habsent
  | revised comparisonValue newValue revision earlier htrace hrevises hevent
      hcurrent hrecord =>
      have htarget := (StoreCall.target_of_revises hrevises).1
      have hsame := (perform_past hperform).symm.trans hevent
      rw [(List.cons.inj hsame).1]
      exact .inr ⟨htarget, newValue, comparisonValue,
        List.mem_singleton_self _⟩

/-- The entry of a stored entitlement is the same record until an update of
the entitlement takes effect. -/
theorem entry_kept_or_committed_since
    (horigin :
      ServerPool.Reachable services (StoreCall.clients calls) origin)
    (hreaches : Pool.Reaches perform origin pool) {reference : Reference}
    (hentry : origin.shared.entries id = some reference) :
    ∃ since, pool.shared.past = since ++ origin.shared.past ∧
      (pool.shared.entries id = some reference ∨
        ∃ other, Commits calls id since other) := by
  induction hreaches with
  | refl => exact ⟨[], rfl, .inl hentry⟩
  | tail hbefore hlast ih =>
      obtain ⟨thread, hmove⟩ := hlast
      obtain ⟨since, hsince, hcases⟩ := ih
      obtain ⟨event, hevent, hstep⟩ :=
        entry_kept_or_committed (horigin.trans hbefore) hmove id
      refine ⟨event :: since, by rw [hevent, hsince, List.cons_append], ?_⟩
      rcases hcases with hkept | ⟨other, hcommits⟩
      · rcases hstep reference hkept with hkept' | hcommits
        · exact .inl hkept'
        · exact .inr ⟨thread, hcommits.mono (by simp)⟩
      · exact .inr ⟨other, hcommits.mono (List.subset_cons_self _ _)⟩

/-! ## An update which fails -/

/-- An update which has begun has found the entitlement if it was stored when
it began. -/
theorem lookup_isSome
    (hreaches : Pool.Reaches perform origin pool)
    (hidle : ownEvents thread origin.shared.past = [])
    (hstored : (origin.shared.entries id).isSome)
    {found : Option Reference} {front back : List (Event ι)}
    (hown : ownEvents thread pool.shared.past =
      front ++ ⟨thread, .tryGetValue id, found⟩ :: back) : found.isSome := by
  obtain ⟨before, after, environment, hbefore, -, -, hperform, -, -⟩ :=
    exists_moment (fun h => h) hreaches hidle hown
  rw [← entries_of_lookup hperform]
  exact (grows_of_reaches hbefore).entries id hstored

theorem overtaken_of_trace
    (hreachable :
      ServerPool.Reachable services (StoreCall.clients calls) pool)
    {updated : EntitlementProperties} {newValue comparisonValue : Reference}
    (htrace : ownEvents thread pool.shared.past =
      [⟨thread, .tryUpdate id newValue comparisonValue, false⟩,
        ⟨thread, .allocate updated, newValue⟩,
        ⟨thread, .tryGetValue id, some comparisonValue⟩]) :
    Overtaken calls id pool.shared.past thread := by
  rw [← List.nil_append [_, _, _]] at htrace
  obtain ⟨second, third, environment, hsecond, hown, -, hswap, hmove,
    hafter⟩ := exists_moment (fun h => h) hreachable rfl htrace
  rw [← List.singleton_append] at hown
  obtain ⟨before, first, environment', hbefore, -, -, hlookup, hmove',
    hbetween⟩ := exists_moment (fun h => h) hsecond rfl hown
  have hfirst : ServerPool.Reachable services (StoreCall.clients calls) first :=
    hbefore.tail ⟨thread, hmove'⟩
  have hentry : first.shared.entries id = some comparisonValue := by
    rw [perform_entries_of_quiet rfl hlookup, entries_of_lookup hlookup]
  obtain ⟨since, hsince, hkept | ⟨other, hcommits⟩⟩ :=
    entry_kept_or_committed_since hfirst hbetween hentry
  · simp [perform, hkept] at hswap
  · obtain ⟨later, hlater⟩ := (grows_of_reaches hafter).past
    refine ⟨later, since, before.shared.past, newValue, comparisonValue, ?_,
      other, ?_, hcommits⟩
    · rw [← hlater, perform_past hswap, hsince, perform_past hlookup]
    · rintro rfl
      obtain ⟨-, newValue', comparisonValue', hmem⟩ := hcommits
      have hmem' : (⟨other, .tryUpdate id newValue' comparisonValue', true⟩ :
          Event ι) ∈ second.shared.past :=
        hsince ▸ List.mem_append_left _ hmem
      rw [← mem_ownEvents, hown] at hmem'
      simp at hmem'

/-- An update of a stored entitlement returns its record, or was overtaken. -/
theorem succeeded_or_overtaken
    (hreachable :
      ServerPool.Reachable services (StoreCall.clients calls) pool)
    (hstarted : StartedStored services calls pool id thread)
    {outcome : Throws Answer} (hdone : pool.threads thread = .done outcome) :
    pool.Succeeded thread ∨ Overtaken calls id pool.shared.past thread := by
  obtain ⟨result, rfl, htrace⟩ :=
    updateTrace_of_done hreachable hstarted.target hdone
  cases result with
  | ok record => exact .inl ⟨record, hdone⟩
  | error errors =>
      rcases htrace with hnone | ⟨updated, newValue, comparisonValue, htrace⟩
      · obtain ⟨origin, -, hidle, hstored, hreaches⟩ := hstarted.stored
        rw [← List.nil_append [_]] at hnone
        cases lookup_isSome hreaches hidle hstored hnone
      · exact .inr (overtaken_of_trace hreachable htrace)

/-! ## An update which takes effect -/

theorem Commits.startedStored
    (hreachable :
      ServerPool.Reachable services (StoreCall.clients calls) pool)
    (hcommits : Commits calls id pool.shared.past thread) :
    StartedStored services calls pool id thread := by
  obtain ⟨htarget, newValue, comparisonValue, hmem⟩ := hcommits
  have hown := mem_ownEvents.mpr hmem
  refine ⟨htarget, List.ne_nil_of_mem hown, ?_⟩
  obtain ⟨front, back, hsplit⟩ := List.append_of_mem hown
  obtain ⟨second, third, environment, hsecond, -, ⟨rest, hthread⟩, -, hmove,
    hafter⟩ := exists_moment (fun h => h) hreachable rfl hsplit
  have hobedient := ServerPool.Reachable.obedient hsecond
  obtain ⟨revision, earlier, htrace, hrevises⟩ :=
    hobedient.permits_of_access hthread
  obtain ⟨-, rfl⟩ := StoreCall.target_of_revises hrevises
  rw [← List.singleton_append] at htrace
  obtain ⟨before, first, environment', hbefore, hidle, -, hlookup, hmove',
    hbetween⟩ := exists_moment (fun h => h) hsecond rfl htrace
  have hreaches : Pool.Reaches perform second pool :=
    hafter.head ⟨thread, hmove⟩
  refine ⟨before, hbefore, hidle, ?_,
    Relation.ReflTransGen.trans (hbetween.head ⟨thread, hmove'⟩) hreaches⟩
  rw [entries_of_lookup hlookup]
  rfl

theorem Commits.succeeded
    (hreachable :
      ServerPool.Reachable services (StoreCall.clients calls) pool)
    (hcommits : Commits calls id pool.shared.past thread)
    {outcome : Throws Answer} (hdone : pool.threads thread = .done outcome) :
    pool.Succeeded thread := by
  obtain ⟨htarget, newValue, comparisonValue, hmem⟩ := hcommits
  have hown := mem_ownEvents.mpr hmem
  obtain ⟨result, rfl, htrace⟩ :=
    updateTrace_of_done hreachable htarget hdone
  cases result with
  | ok record => exact ⟨record, hdone⟩
  | error errors =>
      rcases htrace with htrace | ⟨updated, newValue', comparisonValue', htrace⟩
      · simp [htrace] at hown
      · simp [htrace] at hown

/-- When all updates of a stored entitlement have returned, one of them has
succeeded. -/
theorem exists_succeeded
    (hreachable :
      ServerPool.Reachable services (StoreCall.clients calls) pool)
    (hstarted : StartedStored services calls pool id thread)
    (hdone : ∀ other, StartedStored services calls pool id other →
      ∃ outcome, pool.threads other = .done outcome) :
    ∃ other, StartedStored services calls pool id other ∧
      pool.Succeeded other := by
  obtain ⟨outcome, hthread⟩ := hdone thread hstarted
  rcases succeeded_or_overtaken hreachable hstarted hthread with
    hsucceeded | ⟨later, between, earlier, newValue, comparisonValue, hpast,
      other, -, hcommits⟩
  · exact ⟨thread, hstarted, hsucceeded⟩
  · have hcommits' : Commits calls id pool.shared.past other :=
      hcommits.mono fun event hmem => by simp [hpast, hmem]
    have hother := hcommits'.startedStored hreachable
    obtain ⟨outcome', hreturned⟩ := hdone other hother
    exact ⟨other, hother, hcommits'.succeeded hreachable hreturned⟩

/-! ## An update which runs alone -/

theorem StoreCall.handle_of_target {call : StoreCall}
    (htarget : call.target = some id) :
    ∃ updater errorMessage, call.handle =
      .result <$> EntitlementStore.tryUpdate id updater errorMessage := by
  rcases StoreCall.cases_of_target htarget with ⟨time, rfl⟩ | ⟨time, rfl⟩
  · exact ⟨_, _, rfl⟩
  · exact ⟨_, _, rfl⟩

/-- An update of a stored entitlement which is not interrupted takes three
steps, whatever the environment offers to them, and succeeds. -/
theorem succeeds_alone
    (hreachable :
      ServerPool.Reachable services (StoreCall.clients calls) pool)
    (htarget : (calls thread).target = some id)
    (hidle : ownEvents thread pool.shared.past = [])
    (hstored : (pool.shared.entries id).isSome)
    (first second third : Environment) :
    ∃ final, Pool.run perform
        [(thread, first), (thread, second), (thread, third)] pool =
        some final ∧ ServerPool.Succeeded final thread := by
  obtain ⟨updater, errorMessage, hhandle⟩ :=
    StoreCall.handle_of_target htarget
  obtain ⟨current, hentry⟩ := Option.isSome_iff_exists.mp hstored
  have hthread : pool.threads thread = ((calls thread).handle).run :=
    threads_of_idle hreachable hidle
  rw [hhandle] at hthread
  obtain ⟨s, hlookup, hs⟩ : ∃ s, perform thread (.tryGetValue id) first
      pool.shared = some (some current, s) ∧
        s.entries id = some current := by
    simp [perform, hentry]
  obtain ⟨newValue, t, hallocate, ht⟩ : ∃ newValue t, perform thread
      (.allocate (updater current.value)) second s = some (newValue, t) ∧
        t.entries id = some current :=
    ⟨_, _, rfl, hs⟩
  obtain ⟨u, hswap⟩ : ∃ u, perform thread
      (.tryUpdate id newValue current) third t = some (true, u) := by
    simp [perform, ht]
  refine Pool.exists_run_cons hthread hlookup ?_
  refine Pool.exists_run_cons (Function.update_self thread _ _) hallocate ?_
  refine Pool.exists_run_cons (Function.update_self thread _ _) hswap ?_
  exact ⟨_, rfl, newValue.value, Function.update_self thread _ _⟩

/-! ## The promise of the store -/

/-- Updates fail because of interference only, one of several succeeds, and
one alone succeeds. -/
structure FailsByInterferenceOnly (services : Services) (calls : ι → StoreCall)
    (pool : ServerPool ι) : Prop where
  overtaken : ∀ id thread outcome, StartedStored services calls pool id thread →
    pool.threads thread = .done outcome → ¬pool.Succeeded thread →
      Overtaken calls id pool.shared.past thread
  progress : ∀ id thread, StartedStored services calls pool id thread →
    (∀ other, StartedStored services calls pool id other →
      ∃ outcome, pool.threads other = .done outcome) →
      ∃ other, StartedStored services calls pool id other ∧
        pool.Succeeded other
  alone : ∀ id thread, (calls thread).target = some id →
    ownEvents thread pool.shared.past = [] →
      (pool.shared.entries id).isSome → ∀ first second third,
        ∃ final, Pool.run perform
            [(thread, first), (thread, second), (thread, third)] pool =
            some final ∧ ServerPool.Succeeded final thread

theorem failsByInterferenceOnly_of_reachable
    (hreachable :
      ServerPool.Reachable services (StoreCall.clients calls) pool) :
    FailsByInterferenceOnly services calls pool where
  overtaken _ _ _ hstarted hdone hfailed :=
    (succeeded_or_overtaken hreachable hstarted hdone).resolve_left hfailed
  progress _ _ hstarted hdone := exists_succeeded hreachable hstarted hdone
  alone _ _ htarget hidle hstored :=
    succeeds_alone hreachable htarget hidle hstored

def contendingCalls : Requester → StoreCall
  | .acquirer => .store "guid" trustedProperties (at' 1).now
  | .renewer => .renew "guid" (at' 2).now
  | .releaser => .release "guid" (at' 3).now

def storedPool : ServerPool Requester :=
  (Pool.run perform [(.acquirer, at' 1), (.acquirer, at' 1)]
    (ServerPool.start trustingServices
      (StoreCall.clients contendingCalls))).getD
        (ServerPool.start trustingServices (StoreCall.clients contendingCalls))

/-- The Release has found and replaced the record between the lookup and the
update of the Renew. -/
def contendedPool : ServerPool Requester :=
  (Pool.run perform
    [(.renewer, at' 2), (.renewer, at' 2), (.releaser, at' 3),
      (.releaser, at' 3), (.releaser, at' 3), (.renewer, at' 4)]
    storedPool).getD storedPool

theorem failsByInterferenceOnly_contendedPool :
    StartedStored trustingServices contendingCalls contendedPool "guid"
        .renewer ∧
      (∃ errors, contendedPool.threads .renewer =
        .done (.ok (.result (.error errors)))) ∧
      contendedPool.Succeeded .releaser ∧
      FailsByInterferenceOnly trustingServices contendingCalls
        contendedPool := by
  have hstored : ServerPool.Reachable trustingServices
      (StoreCall.clients contendingCalls) storedPool :=
    Pool.Reaches.run_getD _ _
  have hreaches : Pool.Reaches perform storedPool contendedPool :=
    Pool.Reaches.run_getD _ _
  refine ⟨⟨rfl, ?_, storedPool, hstored, rfl, rfl, hreaches⟩, ⟨_, rfl⟩,
    ⟨_, rfl⟩, failsByInterferenceOnly_of_reachable (hstored.trans hreaches)⟩
  exact List.cons_ne_nil _ _

end SoftwareEntitlement
