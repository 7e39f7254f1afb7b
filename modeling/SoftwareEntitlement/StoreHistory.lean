import SoftwareEntitlement.HandlerTraces

/-!
# The history of the store

The history of the server tells what each thread has done, and marks the
moments of the run.  A step changes the record of an entitlement in two ways
only: it stores a new record where there was none, or it replaces the record
which its thread has found by the revision of that record.
-/

namespace SoftwareEntitlement

open Interleaving

variable {ι : Type} [DecidableEq ι]

def serverLog : Log (perform (ι := ι)) (Event ι) where
  entries := ServerState.past
  owner := Event.thread
  label := Event.mk
  owner_label _ _ _ := rfl
  entries_eq := perform_past

omit [DecidableEq ι] in
theorem entries_of_lookup {thread : ι} {key : String}
    {environment : Environment} {s u : ServerState ι}
    {found : Option Reference}
    (hperform : perform thread (.tryGetValue key) environment s =
      some (found, u)) : s.entries key = found := by
  simp only [perform, Option.some.injEq, Prod.mk.injEq] at hperform
  exact hperform.1

/-! ## Runs -/

def ServerPool.Move (pool : ServerPool ι) (thread : ι) (next : ServerPool ι) :
    Prop :=
  ∃ environment, pool.step perform thread environment = some next

/-- The moves which a guard does not hold back. -/
def ServerPool.Unguarded (guard : ServerPool ι → ι → Bool)
    (pool : ServerPool ι) (thread : ι) (next : ServerPool ι) : Prop :=
  ∃ environment, pool.step perform thread environment = some next ∧
    guard pool thread = false

/-- A run all of whose steps are among the given moves. -/
def ServerPool.Run (moves : ServerPool ι → ι → ServerPool ι → Prop) :
    ServerPool ι → ServerPool ι → Prop :=
  Relation.ReflTransGen fun pool next => ∃ thread, moves pool thread next

section Runs

variable {services : Services} {clients : ι → Client}
  {moves : ServerPool ι → ι → ServerPool ι → Prop} {pool next : ServerPool ι}

theorem ServerPool.Unguarded.move {guard : ServerPool ι → ι → Bool}
    {thread : ι} (hmove : pool.Unguarded guard thread next) :
    pool.Move thread next := by
  obtain ⟨environment, hstep, -⟩ := hmove
  exact ⟨environment, hstep⟩

/-- Execute a schedule up to the first move which the guard holds back. -/
def ServerPool.runUnguarded (guard : ServerPool ι → ι → Bool) :
    List (ι × Environment) → ServerPool ι → ServerPool ι
  | [], pool => pool
  | (thread, environment) :: schedule, pool =>
      match pool.step perform thread environment with
      | none => pool
      | some next =>
          if guard pool thread then pool
          else ServerPool.runUnguarded guard schedule next

theorem ServerPool.run_runUnguarded (guard : ServerPool ι → ι → Bool)
    (schedule : List (ι × Environment)) (pool : ServerPool ι) :
    ServerPool.Run (ServerPool.Unguarded guard) pool
      (pool.runUnguarded guard schedule) := by
  induction schedule generalizing pool with
  | nil => exact .refl
  | cons move schedule ih =>
      obtain ⟨thread, environment⟩ := move
      simp only [ServerPool.runUnguarded]
      split
      next => exact .refl
      next next hstep =>
        split
        next => exact .refl
        next hguard =>
          exact .head ⟨thread, environment, hstep, by simpa using hguard⟩
            (ih next)

theorem ServerPool.Run.reaches
    (hmoves : ∀ {p q : ServerPool ι} {thread}, moves p thread q →
      p.Move thread q)
    (hrun : ServerPool.Run moves pool next) :
    Pool.Reaches perform pool next :=
  hrun.lift id fun _ _ ⟨thread, hmove⟩ => ⟨thread, hmoves hmove⟩

/-- Every event of a thread marks the moment at which the thread made it, in a
run from any pool in which the thread has not moved. -/
theorem exists_moment {origin : ServerPool ι}
    (hmoves : ∀ {p q : ServerPool ι} {thread}, moves p thread q →
      p.Move thread q)
    (hrun : ServerPool.Run moves origin pool) {thread : ι}
    (hidle : ownEvents thread origin.shared.past = [])
    {access : Access} {reply : Reply access} {front back : List (Event ι)}
    (hown : ownEvents thread pool.shared.past =
      front ++ ⟨thread, access, reply⟩ :: back) :
    ∃ before after environment,
      ServerPool.Run moves origin before ∧
      ownEvents thread before.shared.past = back ∧
      (∃ rest, before.threads thread = .access access rest) ∧
      perform thread access environment before.shared =
        some (reply, after.shared) ∧
      moves before thread after ∧ ServerPool.Run moves after pool := by
  obtain ⟨before, after, hbefore, hback, hmove, hafter, hrest⟩ :=
    serverLog.exists_move_of_own hmoves hrun hidle hown
  obtain ⟨environment, hstep⟩ := hmoves hmove
  obtain ⟨access', rest, reply', shared, hthread, hperform, rfl⟩ :=
    Pool.step_eq_some hstep
  have hevent := (perform_past hperform).symm.trans hafter
  obtain ⟨heq, -⟩ := List.cons.inj hevent
  cases heq
  exact ⟨before, _, environment, hbefore, hback, ⟨rest, hthread⟩, hperform,
    hmove, hrest⟩

end Runs

/-! ## What a step does to an entry -/

section Steps

variable {services : Services} {clients : ι → Client} {pool next : ServerPool ι}
  (hreachable : ServerPool.Reachable services clients pool)

include hreachable

theorem ServerPool.Reachable.obedient :
    serverLog.Obedient (fun i => (clients i).Permits i)
      (fun i => (clients i).Finishes i) pool := by
  refine Log.Obedient.reaches (fun i => ?_) hreachable
  exact Client.handle_obeys (clients i)

theorem exists_moment_of_mem {thread : ι} {access : Access}
    {reply : Reply access}
    (hmem : (⟨thread, access, reply⟩ : Event ι) ∈ pool.shared.past) :
    ∃ before after environment, ServerPool.Reachable services clients before ∧
      perform thread access environment before.shared =
        some (reply, after.shared) ∧
      Pool.Reaches perform after pool := by
  obtain ⟨front, back, hsplit⟩ :=
    List.append_of_mem (mem_ownEvents.mpr hmem)
  obtain ⟨before, after, environment, hbefore, -, -, hperform, -, hafter⟩ :=
    exists_moment (fun h => h) hreachable rfl hsplit
  exact ⟨before, after, environment, hbefore, hperform, hafter⟩

theorem found_live {thread : ι} {key : String} {reference : Reference}
    (hmem : (⟨thread, .tryGetValue key, some reference⟩ : Event ι) ∈
      pool.shared.past) : reference.Live pool.shared := by
  obtain ⟨before, after, environment, hbefore, hperform, hafter⟩ :=
    exists_moment_of_mem hreachable hmem
  have hlive := hbefore.consistent.live key reference
    (entries_of_lookup hperform)
  exact (hlive.mono (perform_grows hperform)).mono (grows_of_reaches hafter)

theorem allocated_value {thread : ι} {record : EntitlementProperties}
    {reference : Reference}
    (hmem : (⟨thread, .allocate record, reference⟩ : Event ι) ∈
      pool.shared.past) : reference.value = record := by
  obtain ⟨before, after, environment, -, hperform, -⟩ :=
    exists_moment_of_mem hreachable hmem
  simp only [perform, Option.some.injEq, Prod.mk.injEq] at hperform
  rw [← hperform.1]

omit hreachable in
/-- What a step of `thread` does to the entry under `key`. -/
inductive EntryStep (clients : ι → Client) (pool : ServerPool ι) (thread : ι)
    (key : String) (next : ServerPool ι) : Prop
  | kept (hentry : next.shared.entries key = pool.shared.entries key)
  | created (record : EntitlementProperties) (added : Reference)
      (earlier : List (Event ι))
      (htrace : ownEvents thread pool.shared.past =
        ⟨thread, .allocate record, added⟩ :: earlier)
      (hcreates : (clients thread).Creates thread earlier key record)
      (habsent : pool.shared.record key = none)
      (hrecord : next.shared.record key = some record)
  | revised (comparisonValue newValue : Reference)
      (revision : EntitlementProperties → EntitlementProperties)
      (earlier : List (Event ι))
      (htrace : ownEvents thread pool.shared.past =
        ⟨thread, .allocate (revision comparisonValue.value), newValue⟩ ::
          ⟨thread, .tryGetValue key, some comparisonValue⟩ :: earlier)
      (hrevises : (clients thread).Revises thread earlier key revision)
      (hevent : next.shared.past =
        ⟨thread, .tryUpdate key newValue comparisonValue, true⟩ ::
          pool.shared.past)
      (hcurrent : pool.shared.record key = some comparisonValue.value)
      (hrecord : next.shared.record key =
        some (revision comparisonValue.value))

theorem entryStep_of_step {thread : ι} {environment : Environment}
    (hstep : pool.step perform thread environment = some next) (key : String) :
    EntryStep clients pool thread key next := by
  obtain ⟨access, rest, reply, shared, hthread, hperform, rfl⟩ :=
    Pool.step_eq_some hstep
  have hpermits : (clients thread).Permits thread
      (ownEvents thread pool.shared.past) access :=
    hreachable.obedient.permits_of_access hthread
  cases access with
  | addOrUpdate key' added updateValueFactory =>
      obtain ⟨rfl, record, earlier, htrace, hcreates⟩ := hpermits
      have hvalue : added.value = record := allocated_value hreachable
        (mem_ownEvents.mp (htrace ▸ List.mem_cons_self))
      simp only [perform, Option.some.injEq, Prod.mk.injEq] at hperform
      obtain ⟨-, rfl⟩ := hperform
      by_cases heq : key = key'
      · subst heq
        cases hentry : pool.shared.entries key with
        | none =>
            exact .created record added earlier htrace hcreates
              (by simp [ServerState.record, hentry])
              (by simp [ServerState.record, hvalue])
        | some existing => exact .kept (by simp [hentry])
      · exact .kept (by simp [heq])
  | tryUpdate key' newValue comparisonValue =>
      obtain ⟨revision, earlier, htrace, hrevises⟩ := hpermits
      cases reply with
      | false => exact .kept (by rw [perform_tryUpdate_failed hperform])
      | true =>
          obtain ⟨⟨current, hentry, haddress⟩, hentries⟩ :=
            perform_tryUpdate_swapped hperform
          by_cases heq : key = key'
          · subst heq
            have hfound := found_live hreachable (mem_ownEvents.mp
              (htrace ▸ List.mem_cons_of_mem _ List.mem_cons_self))
            have hlive := hreachable.consistent.live key current hentry
            have hcurrent := hlive.value_eq hfound haddress
            have hnew := allocated_value hreachable
              (mem_ownEvents.mp (htrace ▸ List.mem_cons_self))
            exact .revised comparisonValue newValue revision earlier htrace
              hrevises (perform_past hperform)
              (by simp [ServerState.record, hentry, hcurrent])
              (by simp [ServerState.record, hentries, hnew])
          · exact .kept (by simp [hentries, heq])
  | _ => exact .kept (by rw [perform_entries_of_quiet rfl hperform])

end Steps

end SoftwareEntitlement
