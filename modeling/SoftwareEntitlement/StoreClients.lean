import SoftwareEntitlement.RequestHandlers
import SoftwareEntitlement.EntitlementLedger

/-!
# Clients of the store and what they commit

A client is a direct call of a store method or a request to a handler; the
server is a pool of such clients over one store.  The commits are read off the
events of a run: a client commits when its dictionary update takes effect, at
the time which it passes to the store.
-/

namespace SoftwareEntitlement

open Interleaving

/-! ## Clients -/

inductive StoreCall where
  | store (entitlementId : String) (tokenProperties : EntitlementTokenProperties)
      (acquisitionTime : DateTimeOffset)
  | find (entitlementId : String)
  | renew (entitlementId : String) (renewalTime : DateTimeOffset)
  | release (entitlementId : String) (releaseTime : DateTimeOffset)

/-- The requests whose handlers use the store. -/
inductive Request where
  | acquire (remoteIpAddress : IPAddress) (body : Option AcquireRequestBody)
  | renew (body : Option RenewRequestBody) (entitlementId : String)
  | release (entitlementId : String)

inductive Client where
  | call (call : StoreCall)
  | request (request : Request)

inductive Answer where
  | stored (properties : EntitlementProperties)
  | result (result : Result EntitlementProperties ErrorSet)
  | response (response : Response)

section Programs

variable (services : Services)

def StoreCall.handle : StoreCall → Handling Answer
  | .store entitlementId tokenProperties acquisitionTime =>
      .stored <$> EntitlementStore.storeEntitlement entitlementId
        tokenProperties acquisitionTime
  | .find entitlementId =>
      .result <$> EntitlementStore.findEntitlement entitlementId
  | .renew entitlementId renewalTime =>
      .result <$> EntitlementStore.renewEntitlement entitlementId renewalTime
  | .release entitlementId releaseTime =>
      .result <$> EntitlementStore.releaseEntitlement entitlementId releaseTime

def Request.handle : Request → Handling Response
  | .acquire remoteIpAddress body =>
      AcquireRequestHandler.handle services remoteIpAddress body
  | .renew body entitlementId =>
      RenewRequestHandler.handle services body entitlementId
  | .release entitlementId => ReleaseRequestHandler.handle entitlementId

def Client.handle : Client → Handling Answer
  | .call storeCall => storeCall.handle
  | .request httpRequest => .response <$> httpRequest.handle services

abbrev ServerPool (ι : Type) :=
  Pool ι Access Reply (ServerState ι) (Throws Answer)

variable {ι : Type}

def ServerPool.start (clients : ι → Client) : ServerPool ι :=
  ⟨fun i => ((clients i).handle services).run, .empty⟩

/-- The pool can be reached from the start of the server. -/
def ServerPool.Reachable [DecidableEq ι] (clients : ι → Client)
    (pool : ServerPool ι) : Prop :=
  Pool.Reaches perform (ServerPool.start services clients) pool

end Programs

/-! ## Commits -/

section Commits

variable {ι : Type} [DecidableEq ι]

/-- The last value of the clock which a thread has read. -/
def clockReading (thread : ι) : List (Event ι) → Option DateTimeOffset
  | [] => none
  | ⟨i, .utcNow, now⟩ :: earlier =>
      if i = thread then some now else clockReading thread earlier
  | _ :: earlier => clockReading thread earlier

/-- The results of the lookups of a thread, newest first. -/
def lookups (thread : ι) : List (Event ι) → List (Option Reference)
  | [] => []
  | ⟨i, .tryGetValue _, found⟩ :: earlier =>
      if i = thread then found :: lookups thread earlier
      else lookups thread earlier
  | _ :: earlier => lookups thread earlier

/-- The update which a client has asked for, and which takes effect with this
access.  A request passes the time it has read from the clock. -/
def Client.update (client : Client) (clock : Option DateTimeOffset) :
    (access : Access) → Reply access → Option Update
  | .addOrUpdate key added _, _ =>
      match client with
      | .call (.store id tokenProperties time) =>
          some (.stored id tokenProperties time)
      | .request (.acquire _ _) =>
          clock.map (.stored key added.value.tokenProperties)
      | _ => none
  | .tryUpdate _ _ _, true =>
      match client with
      | .call (.renew id time) => some (.renewed id time)
      | .request (.renew _ id) => clock.map (.renewed id)
      | .call (.release id time) => some (.released id time)
      | .request (.release id) => clock.map (.released id)
      | _ => none
  | _, _ => none

structure Commit (ι : Type) where
  thread : ι
  update : Update

/-- The commits of a run, newest first. -/
def commits (clients : ι → Client) : List (Event ι) → List (Commit ι)
  | [] => []
  | ⟨i, access, reply⟩ :: earlier =>
      match (clients i).update (clockReading i earlier) access reply with
      | none => commits clients earlier
      | some update => ⟨i, update⟩ :: commits clients earlier

def ownEvents (thread : ι) (past : List (Event ι)) : List (Event ι) :=
  past.filter fun event => event.thread = thread

@[simp] theorem ownEvents_cons_self (thread : ι) (access : Access)
    (reply : Reply access) (past : List (Event ι)) :
    ownEvents thread (⟨thread, access, reply⟩ :: past) =
      ⟨thread, access, reply⟩ :: ownEvents thread past := by
  simp [ownEvents]

theorem ownEvents_cons_of_ne {event : Event ι} {thread : ι}
    (hne : event.thread ≠ thread) (past : List (Event ι)) :
    ownEvents thread (event :: past) = ownEvents thread past := by
  simp [ownEvents, hne]

theorem mem_ownEvents {thread : ι} {access : Access} {reply : Reply access}
    {past : List (Event ι)} :
    (⟨thread, access, reply⟩ : Event ι) ∈ ownEvents thread past ↔
      (⟨thread, access, reply⟩ : Event ι) ∈ past := by
  simp [ownEvents]

/-- Induction over a trace, by whether an event is the thread's own. -/
theorem events_induction (thread : ι) {motive : List (Event ι) → Prop}
    (nil : motive [])
    (own : ∀ access (reply : Reply access) earlier, motive earlier →
      motive (⟨thread, access, reply⟩ :: earlier))
    (other : ∀ event earlier, event.thread ≠ thread → motive earlier →
      motive (event :: earlier))
    (past : List (Event ι)) : motive past := by
  induction past with
  | nil => exact nil
  | cons event earlier ih =>
      obtain ⟨i, access, reply⟩ := event
      by_cases heq : i = thread
      · subst heq
        exact own access reply earlier ih
      · exact other _ earlier heq ih

theorem clockReading_ownEvents (thread : ι) (past : List (Event ι)) :
    clockReading thread (ownEvents thread past) = clockReading thread past := by
  induction past using events_induction thread with
  | nil => rfl
  | own access reply earlier ih =>
      rw [ownEvents_cons_self]
      cases access <;> simp [clockReading, ih]
  | other event earlier hne ih =>
      rw [ownEvents_cons_of_ne hne, ih]
      obtain ⟨i, access, reply⟩ := event
      cases access <;> simp [clockReading, hne]

theorem lookups_ownEvents (thread : ι) (past : List (Event ι)) :
    lookups thread (ownEvents thread past) = lookups thread past := by
  induction past using events_induction thread with
  | nil => rfl
  | own access reply earlier ih =>
      rw [ownEvents_cons_self]
      cases access <;> simp [lookups, ih]
  | other event earlier hne ih =>
      rw [ownEvents_cons_of_ne hne, ih]
      obtain ⟨i, access, reply⟩ := event
      cases access <;> simp [lookups, hne]

theorem commits_ownEvents (clients : ι → Client) (thread : ι)
    (past : List (Event ι)) :
    commits clients (ownEvents thread past) =
      (commits clients past).filter fun commit => commit.thread = thread := by
  induction past using events_induction thread with
  | nil => rfl
  | own access reply earlier ih =>
      rw [ownEvents_cons_self]
      simp only [commits, clockReading_ownEvents]
      cases (clients thread).update (clockReading thread earlier) access
        reply <;> simp [ih]
  | other event earlier hne ih =>
      rw [ownEvents_cons_of_ne hne, ih]
      obtain ⟨i, access, reply⟩ := event
      simp only [commits]
      cases (clients i).update (clockReading i earlier) access reply <;>
        simp [hne]

theorem commits_suffix (clients : ι → Client) {earlier later : List (Event ι)}
    (hsuffix : earlier <:+ later) :
    commits clients earlier <:+ commits clients later := by
  obtain ⟨newer, rfl⟩ := hsuffix
  induction newer with
  | nil => exact List.suffix_rfl
  | cons event newer ih =>
      obtain ⟨i, access, reply⟩ := event
      simp only [List.cons_append, commits]
      cases (clients i).update (clockReading i (newer ++ earlier)) access reply with
      | none => exact ih
      | some update => exact ih.trans (List.suffix_cons _ _)

/-- The update is of the kind which the request performs, on the entitlement
it names, and at the time it has read from the clock. -/
def Request.Performs (request : Request) (thread : ι) (past : List (Event ι)) :
    Update → Prop
  | .stored _ _ time =>
      (∃ remoteIpAddress body, request = .acquire remoteIpAddress body) ∧
        (⟨thread, .utcNow, time⟩ : Event ι) ∈ past
  | .renewed id time =>
      (∃ body, request = .renew body id) ∧
        (⟨thread, .utcNow, time⟩ : Event ι) ∈ past
  | .released id time =>
      request = .release id ∧ (⟨thread, .utcNow, time⟩ : Event ι) ∈ past

theorem mem_of_clockReading {thread : ι} {past : List (Event ι)}
    {time : DateTimeOffset} (hclock : clockReading thread past = some time) :
    (⟨thread, .utcNow, time⟩ : Event ι) ∈ past := by
  induction past with
  | nil => cases hclock
  | cons event earlier ih =>
      obtain ⟨i, access, reply⟩ := event
      cases access with
      | utcNow =>
          by_cases heq : i = thread
          · subst heq
            simp only [clockReading, if_true, Option.some.injEq] at hclock
            exact hclock ▸ List.mem_cons_self
          · simp only [clockReading, heq, if_false] at hclock
            exact List.mem_cons_of_mem _ (ih hclock)
      | _ => exact List.mem_cons_of_mem _ (ih hclock)

theorem Request.performs_of_update {request : Request} {thread : ι}
    {past : List (Event ι)} {access : Access} {reply : Reply access}
    {update : Update}
    (hupdate : (Client.request request).update (clockReading thread past)
      access reply = some update) :
    request.Performs thread past update := by
  cases access with
  | addOrUpdate key added factory =>
      cases request with
      | acquire remoteIpAddress body =>
          obtain ⟨time, hclock, rfl⟩ := Option.map_eq_some_iff.mp hupdate
          exact ⟨⟨_, _, rfl⟩, mem_of_clockReading hclock⟩
      | renew body id => cases hupdate
      | release id => cases hupdate
  | tryUpdate key newValue comparisonValue =>
      cases reply with
      | false => cases hupdate
      | true =>
          cases request with
          | acquire remoteIpAddress body => cases hupdate
          | renew body id =>
              obtain ⟨time, hclock, rfl⟩ := Option.map_eq_some_iff.mp hupdate
              exact ⟨⟨_, rfl⟩, mem_of_clockReading hclock⟩
          | release id =>
              obtain ⟨time, hclock, rfl⟩ := Option.map_eq_some_iff.mp hupdate
              exact ⟨rfl, mem_of_clockReading hclock⟩
  | _ => cases hupdate

omit [DecidableEq ι] in
theorem Request.Performs.of_renew {body : Option RenewRequestBody}
    {id : String} {thread : ι} {past : List (Event ι)} {update : Update}
    (hperforms : (Request.renew body id).Performs thread past update) :
    ∃ time, update = .renewed id time := by
  cases update with
  | stored id' tokenProperties time =>
      obtain ⟨⟨_, _, h⟩, -⟩ := hperforms
      cases h
  | renewed id' time =>
      obtain ⟨⟨_, h⟩, -⟩ := hperforms
      cases h
      exact ⟨time, rfl⟩
  | released id' time => cases hperforms.1

omit [DecidableEq ι] in
theorem Request.Performs.of_release {id : String} {thread : ι}
    {past : List (Event ι)} {update : Update}
    (hperforms : (Request.release id).Performs thread past update) :
    ∃ time, update = .released id time := by
  cases update with
  | stored id' tokenProperties time =>
      obtain ⟨⟨_, _, h⟩, -⟩ := hperforms
      cases h
  | renewed id' time =>
      obtain ⟨⟨_, h⟩, -⟩ := hperforms
      cases h
  | released id' time =>
      cases hperforms.1
      exact ⟨time, rfl⟩

omit [DecidableEq ι] in
theorem Request.Performs.mono {request : Request} {thread : ι}
    {past later : List (Event ι)} {update : Update}
    (hperforms : request.Performs thread past update)
    (hsubset : past ⊆ later) : request.Performs thread later update := by
  cases update <;> exact ⟨hperforms.1, hsubset hperforms.2⟩

theorem performs_of_commit {requests : ι → Request} {past : List (Event ι)}
    {commit : Commit ι}
    (hcommit : commit ∈ commits (fun i => .request (requests i)) past) :
    (requests commit.thread).Performs commit.thread past commit.update := by
  induction past with
  | nil => cases hcommit
  | cons event earlier ih =>
      obtain ⟨i, access, reply⟩ := event
      have hsubset : earlier ⊆ ⟨i, access, reply⟩ :: earlier :=
        List.subset_cons_self _ _
      cases hupdate : (Client.request (requests i)).update
          (clockReading i earlier) access reply with
      | none =>
          simp only [commits, hupdate] at hcommit
          exact (ih hcommit).mono hsubset
      | some update =>
          simp only [commits, hupdate, List.mem_cons] at hcommit
          rcases hcommit with rfl | hcommit
          · exact (Request.performs_of_update hupdate).mono hsubset
          · exact (ih hcommit).mono hsubset

end Commits

/-- A client is told that its update took effect. -/
def Client.acknowledges : Client → Throws Answer → Bool
  | .call (.store _ _ _), .ok (.stored _) => true
  | .call (.renew _ _), .ok (.result (.ok _)) => true
  | .call (.release _ _), .ok (.result (.ok _)) => true
  | .request (.acquire _ _), .ok (.response response) =>
      response.statusCode == 200
  | .request (.renew _ _), .ok (.response response) =>
      response.statusCode == 200
  | .request (.release _), .ok (.response response) =>
      response.statusCode == 204
  | _, _ => false

end SoftwareEntitlement
