import SoftwareEntitlement.ServerRuns
import SoftwareEntitlement.ReferenceRuntime

/-!
# Invariants of the store over whole runs

The store is used by any mixture of direct calls and requests.  A record keeps
the identifier under which it is stored, the data of the call which stored it
first, and every event recorded so far.
-/

namespace SoftwareEntitlement

open Interleaving

variable {ι : Type} [DecidableEq ι] {services : Services}
  {clients : ι → Client} {pool later : ServerPool ι}

/-- What holds of one stored record: its identifier, and the data of the first
`StoreEntitlement` that took effect. -/
structure WellStored (clients : ι → Client) (past : List (Event ι))
    (id : String) (record : EntitlementProperties) : Prop where
  entitlementId : record.entitlementId = id
  firstStored : firstStored id ((commits clients past).map Commit.update) =
    some (record.tokenProperties, record.acquisitionEventTime)

theorem wellStored_of_record
    (hreachable : ServerPool.Reachable services clients pool) {id : String}
    {record : EntitlementProperties}
    (hrecord : pool.shared.record id = some record) :
    WellStored clients pool.shared.past id record := by
  rw [record_eq_ledgerRecord hreachable] at hrecord
  obtain ⟨stored, hfirst, rfl⟩ := Option.map_eq_some_iff.mp hrecord
  exact ⟨rfl, hfirst⟩

theorem record_evolves
    (hreachable : ServerPool.Reachable services clients pool)
    (hreaches : Pool.Reaches perform pool later) {id : String}
    {record : EntitlementProperties}
    (hrecord : pool.shared.record id = some record) :
    ∃ record', later.shared.record id = some record' ∧
      record.Evolves record' := by
  obtain ⟨newer, hnewer⟩ := commits_suffix clients
    (grows_of_reaches hreaches).past
  rw [record_eq_ledgerRecord hreachable] at hrecord
  rw [record_eq_ledgerRecord (hreachable.trans hreaches), ← hnewer,
    List.map_append]
  exact ledgerRecord_evolves hrecord _

theorem acquired_entry_isSome
    (hreachable : ServerPool.Reachable services clients pool) {thread : ι}
    {id expiry : String}
    (hdone : pool.threads thread =
      .done (.ok (.response (.createSuccess (.acquireSuccess id expiry))))) :
    (pool.shared.entries id).isSome := by
  obtain ⟨tokenProperties, time, hcommit⟩ :=
    (hreachable.settles hdone).acquired id expiry rfl
  rw [commits_ownEvents] at hcommit
  have hstored : (firstStored id
      ((commits clients pool.shared.past).map Commit.update)).isSome := by
    refine (firstStored_isSome_iff _ _).mpr ⟨tokenProperties, time, ?_⟩
    exact List.mem_map.mpr ⟨_, List.mem_of_mem_filter hcommit, rfl⟩
  have hrecord : (pool.shared.record id).isSome := by
    rw [record_eq_ledgerRecord hreachable, ledgerRecord, Option.isSome_map]
    exact hstored
  simpa [ServerState.record] using hrecord

theorem threads_of_idle
    (hreachable : ServerPool.Reachable services clients pool) {thread : ι}
    (hidle : ownEvents thread pool.shared.past = []) :
    pool.threads thread = ((clients thread).handle services).run := by
  induction hreachable with
  | refl => rfl
  | tail _ hlast ih =>
      obtain ⟨i, input, hstep⟩ := hlast
      obtain ⟨access, rest, reply, shared, -, hperform, rfl⟩ :=
        Pool.step_eq_some hstep
      simp only [perform_past hperform] at hidle
      by_cases heq : thread = i
      · subst heq
        simp at hidle
      · rw [ownEvents_cons_of_ne (Ne.symm heq)] at hidle
        simpa [Function.update_of_ne heq] using ih hidle

/-- A client which starts when its target is stored does not miss it. -/
theorem target_found (hreachable : ServerPool.Reachable services clients pool)
    {thread : ι} {id : String} (htarget : (clients thread).target = some id)
    (hidle : ownEvents thread pool.shared.past = [])
    (hentry : (pool.shared.entries id).isSome)
    (hreaches : Pool.Reaches perform pool later) {response : Response}
    (hdone : later.threads thread = .done (.ok (.response response))) :
    response.statusCode ≠ 404 := by
  have hcompliant := hreachable.compliant
  have hpool : pool.Compliant perform (Consistent clients) contract
      (fun i => Settles clients (i = thread) i) := by
    refine ⟨hcompliant.shared, fun i => ?_⟩
    by_cases heq : i = thread
    · subst heq
      rw [threads_of_idle hreachable hidle]
      refine Client.handle_ensures hcompliant.shared hidle
        fun _ id' htarget' => ?_
      obtain rfl : id = id' := by simpa [htarget] using htarget'
      exact hentry
    · exact (hcompliant.threads i).mono fun outcome t hsettles =>
        ⟨hsettles.acknowledged, fun h => absurd h heq, hsettles.acquired⟩
  exact ((hpool.reaches contract_compatible hreaches).post_of_done hdone).found
    rfl response rfl

/-- The representation invariant of the store at one moment of a run, towards
every later moment. -/
structure StoreInvariant (clients : ι → Client) (pool : ServerPool ι) :
    Prop where
  wellStored : ∀ id record, pool.shared.record id = some record →
    WellStored clients pool.shared.past id record
  evolves : ∀ later, Pool.Reaches perform pool later →
    ∀ id record, pool.shared.record id = some record →
      ∃ record', later.shared.record id = some record' ∧
        record.Evolves record'
  /-- A Renew or Release that begins after an Acquire has returned its
  identifier does not answer 404. -/
  found : ∀ later, Pool.Reaches perform pool later →
    ∀ acquirer id expiry, pool.threads acquirer =
        .done (.ok (.response (.createSuccess (.acquireSuccess id expiry)))) →
      ∀ thread, (clients thread).target = some id →
        ownEvents thread pool.shared.past = [] →
        ∀ response, later.threads thread = .done (.ok (.response response)) →
          response.statusCode ≠ 404

theorem storeInvariant_of_reachable
    (hreachable : ServerPool.Reachable services clients pool) :
    StoreInvariant clients pool where
  wellStored _ _ hrecord := wellStored_of_record hreachable hrecord
  evolves _ hreaches _ _ hrecord :=
    record_evolves hreachable hreaches hrecord
  found _ hreaches _ _ _ hacquired _ htarget hidle _ hdone :=
    target_found hreachable htarget hidle
      (acquired_entry_isSome hreachable hacquired) hreaches hdone

/-! ## A concrete server -/

section Concrete

def trustedProperties : EntitlementTokenProperties :=
  { (EntitlementTokenProperties.new : EntitlementTokenProperties) with
    applications := .createRange ["app"]
    ipAddresses := .createRange [.v4 5] }

/-- Services whose parser accepts every token. -/
def trustingServices : Services where
  runtime := .reference
  tokenPropertyParser _ _ := .ok (.ok trustedProperties)

inductive Requester where
  | acquirer
  | renewer
  | releaser
  deriving DecidableEq

/-- An Acquire, and a Renew and a Release of the identifier it is given. -/
def threeRequests : Requester → Request
  | .acquirer => .acquire (.v4 5)
      (some {
        token := some "token"
        applicationId := some "app"
        duration := some "PT1H" })
  | .renewer => .renew (some ⟨some "PT1H"⟩) "guid"
  | .releaser => .release "guid"

def threeClients (requester : Requester) : Client :=
  .request (threeRequests requester)

/-- A moment at which the environment offers `ticks` on the clock. -/
def at' (ticks : ℕ) : Environment :=
  ⟨⟨min ticks maxTicks, Nat.min_le_right ticks maxTicks⟩, ⟨"guid"⟩⟩

def acquireSchedule : List (Requester × Environment) :=
  [(.acquirer, at' 1), (.acquirer, at' 1), (.acquirer, at' 2),
    (.acquirer, at' 2), (.acquirer, at' 2)]

/-- The server when the Acquire has returned and nothing else has begun. -/
def acquiredPool : ServerPool Requester :=
  (Pool.run perform acquireSchedule
    (ServerPool.start trustingServices threeClients)).getD
      (ServerPool.start trustingServices threeClients)

/-- All accesses of the Renew, then all accesses of the Release. -/
def sequentialSchedule : List (Requester × Environment) :=
  acquireSchedule ++
    [(.renewer, at' 3), (.renewer, at' 3), (.renewer, at' 3),
      (.renewer, at' 3), (.renewer, at' 3), (.releaser, at' 4),
      (.releaser, at' 4), (.releaser, at' 4), (.releaser, at' 4),
      (.releaser, at' 4)]

def sequentialPool : ServerPool Requester :=
  (Pool.run perform sequentialSchedule
    (ServerPool.start trustingServices threeClients)).getD
      (ServerPool.start trustingServices threeClients)

theorem acquiredPool_reachable :
    ServerPool.Reachable trustingServices threeClients acquiredPool :=
  Pool.Reaches.run_getD _ _

/-- The Acquire has returned, the Renew has not begun, and the entitlement is
in the store. -/
theorem storeInvariant_acquiredPool :
    (∃ expiry, acquiredPool.threads .acquirer = .done (.ok (.response
        (.createSuccess (.acquireSuccess "guid" expiry))))) ∧
      ownEvents .renewer acquiredPool.shared.past = [] ∧
      (acquiredPool.shared.record "guid").isSome = true ∧
      StoreInvariant threeClients acquiredPool :=
  ⟨⟨_, rfl⟩, rfl, rfl, storeInvariant_of_reachable acquiredPool_reachable⟩

end Concrete

end SoftwareEntitlement
