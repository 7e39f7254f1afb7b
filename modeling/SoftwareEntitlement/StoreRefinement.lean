import SoftwareEntitlement.StoreClients

/-!
# The store refines the ledger

Whatever the interleaving, the records in the dictionary are those of the
abstract store after the updates committed so far.  A compare-and-swap which
succeeds has compared addresses; since records are immutable and addresses
are never reused, the record it replaces is the one from which its new record
was made.
-/

namespace SoftwareEntitlement

open Interleaving

variable {ι : Type}

/-! ## What every access does -/

/-- Nothing that has happened is undone, no record is freed, and no entry is
removed. -/
structure ServerState.Grows (s t : ServerState ι) : Prop where
  past : s.past <:+ t.past
  heap : s.heap <+: t.heap
  entries : ∀ id, (s.entries id).isSome → (t.entries id).isSome

theorem ServerState.Grows.refl (s : ServerState ι) : s.Grows s :=
  ⟨List.suffix_rfl, List.prefix_rfl, fun _ h => h⟩

theorem ServerState.Grows.trans {s t u : ServerState ι} (hst : s.Grows t)
    (htu : t.Grows u) : s.Grows u :=
  ⟨hst.past.trans htu.past, hst.heap.trans htu.heap,
    fun id h => htu.entries id (hst.entries id h)⟩

theorem perform_past {thread : ι} {access : Access} {environment : Environment}
    {s u : ServerState ι} {reply : Reply access}
    (hperform : perform thread access environment s = some (reply, u)) :
    u.past = ⟨thread, access, reply⟩ :: s.past := by
  cases access with
  | newGuid =>
      simp only [perform, Option.ite_none_left_eq_some, Option.some.injEq,
        Prod.mk.injEq] at hperform
      obtain ⟨-, rfl, rfl⟩ := hperform
      rfl
  | _ =>
      simp only [perform, Option.some.injEq, Prod.mk.injEq] at hperform
      obtain ⟨rfl, rfl⟩ := hperform
      rfl

theorem perform_grows {thread : ι} {access : Access} {environment : Environment}
    {s u : ServerState ι} {reply : Reply access}
    (hperform : perform thread access environment s = some (reply, u)) :
    s.Grows u := by
  refine ⟨?_, ?_, ?_⟩
  · rw [perform_past hperform]
    exact List.suffix_cons _ _
  all_goals
    cases access with
    | newGuid =>
        simp only [perform, Option.ite_none_left_eq_some, Option.some.injEq,
          Prod.mk.injEq] at hperform
        obtain ⟨-, rfl, rfl⟩ := hperform
        simp
    | addOrUpdate key addValue updateValueFactory =>
        simp only [perform, Option.some.injEq, Prod.mk.injEq] at hperform
        obtain ⟨rfl, rfl⟩ := hperform
        grind [Function.update_apply]
    | tryUpdate key newValue comparisonValue =>
        simp only [perform, Option.some.injEq, Prod.mk.injEq] at hperform
        obtain ⟨rfl, rfl⟩ := hperform
        grind [Function.update_apply]
    | _ =>
        simp only [perform, Option.some.injEq, Prod.mk.injEq] at hperform
        obtain ⟨rfl, rfl⟩ := hperform
        simp

def Reference.Live (reference : Reference) (s : ServerState ι) : Prop :=
  s.heap[reference.address]? = some reference.value

theorem Reference.Live.mono {reference : Reference} {s t : ServerState ι}
    (hlive : reference.Live s) (hgrows : s.Grows t) : reference.Live t := by
  obtain ⟨rest, hrest⟩ := hgrows.heap
  unfold Reference.Live at hlive ⊢
  obtain ⟨hbound, -⟩ := List.getElem?_eq_some_iff.mp hlive
  rw [← hrest, List.getElem?_append_left hbound]
  exact hlive

theorem Reference.Live.value_eq {first second : Reference} {s : ServerState ι}
    (hfirst : first.Live s) (hsecond : second.Live s)
    (haddress : first.address = second.address) :
    first.value = second.value := by
  unfold Reference.Live at hfirst hsecond
  rw [haddress, hsecond] at hfirst
  exact (Option.some.inj hfirst).symm

variable [DecidableEq ι]

/-- The contract of a client: the others leave its events alone. -/
def contract (thread : ι) : Contract (ServerState ι) where
  rely s t := ownEvents thread t.past = ownEvents thread s.past ∧ s.Grows t
  guarantee s t :=
    (∀ other, other ≠ thread →
      ownEvents other t.past = ownEvents other s.past) ∧ s.Grows t
  rely_refl s := ⟨rfl, .refl s⟩
  rely_trans hst htu := ⟨htu.1.trans hst.1, hst.2.trans htu.2⟩

theorem contract_compatible : Pool.Compatible (contract (ι := ι)) :=
  fun _ _ _ _ hne hguarantee => ⟨hguarantee.1 _ hne.symm, hguarantee.2⟩

theorem perform_guarantee {thread : ι} {access : Access}
    {environment : Environment} {s u : ServerState ι} {reply : Reply access}
    (hperform : perform thread access environment s = some (reply, u)) :
    (contract thread).guarantee s u := by
  refine ⟨fun other hne => ?_, perform_grows hperform⟩
  rw [perform_past hperform]
  exact ownEvents_cons_of_ne (Ne.symm hne) _

/-! ## The invariant -/

/-- The thread has found a released record by a lookup other than its first. -/
def ReadReleased (thread : ι) (past : List (Event ι)) : Prop :=
  ∃ reference, some reference ∈ (lookups thread past).dropLast ∧
    reference.value.isReleased = true

def Client.IsAcquire (client : Client) : Prop :=
  ∃ remoteIpAddress body, client = .request (.acquire remoteIpAddress body)

def Client.IsRenew (client : Client) : Prop :=
  ∃ body id, client = .request (.renew body id)

/-- A commit of a Renew request finds its release in the past only if the
request has itself read the released record. -/
def LateRenewal (clients : ι → Client) (past : List (Event ι))
    (later earlier : Commit ι) : Prop :=
  ∀ id releaseTime renewalTime,
    earlier.update = .released id releaseTime →
      later.update = .renewed id renewalTime →
        (clients later.thread).IsRenew → ReadReleased later.thread past

structure Consistent (clients : ι → Client) (s : ServerState ι) : Prop where
  live : ∀ id reference, s.entries id = some reference → reference.Live s
  contents :
    replay ((commits clients s.past).map Commit.update) = some s.record
  once : ∀ i, (commits clients (ownEvents i s.past)).length ≤ 1
  distinct : ((issuedGuids s.past).map Prod.snd).Nodup
  fresh : ∀ commit ∈ commits clients s.past,
    (clients commit.thread).IsAcquire →
      ∃ guid, (⟨commit.thread, .newGuid, guid⟩ : Event ι) ∈ s.past ∧
        commit.update.id = guid.toStringN
  late : (commits clients s.past).Pairwise (LateRenewal clients s.past)

theorem ReadReleased.cons {thread : ι} {past : List (Event ι)}
    (hread : ReadReleased thread past) (event : Event ι) :
    ReadReleased thread (event :: past) := by
  obtain ⟨reference, hmem, hreleased⟩ := hread
  refine ⟨reference, ?_, hreleased⟩
  have hne : lookups thread past ≠ [] := by
    rintro hnil
    simp [hnil] at hmem
  obtain ⟨i, access, reply⟩ := event
  cases access with
  | tryGetValue key =>
      by_cases heq : i = thread
      · simp only [lookups, heq, if_true]
        rw [List.dropLast_cons_of_ne_nil hne]
        exact List.mem_cons_of_mem _ hmem
      · simpa [lookups, heq] using hmem
  | _ => exact hmem

theorem Consistent.empty (clients : ι → Client) :
    Consistent clients ServerState.empty where
  live := by simp [ServerState.empty]
  contents := rfl
  once := by simp [ServerState.empty, ownEvents, commits]
  distinct := List.nodup_nil
  fresh := by simp [ServerState.empty, commits]
  late := List.Pairwise.nil

section Preservation

variable {clients : ι → Client} {thread : ι} {access : Access}
  {environment : Environment} {s u : ServerState ι} {reply : Reply access}

theorem Consistent.distinct_of_perform (hs : Consistent clients s)
    (hperform : perform thread access environment s = some (reply, u)) :
    ((issuedGuids u.past).map Prod.snd).Nodup := by
  rw [perform_past hperform]
  cases access with
  | newGuid =>
      simp only [perform, Option.ite_none_left_eq_some, Option.some.injEq,
        Prod.mk.injEq] at hperform
      obtain ⟨hissued, rfl, -⟩ := hperform
      exact List.nodup_cons.mpr ⟨hissued, hs.distinct⟩
  | _ => exact hs.distinct

theorem Consistent.quiet (hs : Consistent clients s)
    (hperform : perform thread access environment s = some (reply, u))
    (hentries : u.entries = s.entries)
    (hupdate : (clients thread).update (clockReading thread s.past) access
      reply = none) : Consistent clients u := by
  have hpast := perform_past hperform
  have hcommits : commits clients u.past = commits clients s.past := by
    simp [hpast, commits, hupdate]
  refine ⟨?_, ?_, fun i => ?_, hs.distinct_of_perform hperform, ?_, ?_⟩
  · intro id reference hentry
    rw [hentries] at hentry
    exact (hs.live id reference hentry).mono (perform_grows hperform)
  · rw [hcommits, hs.contents]
    simp [ServerState.record, hentries, funext_iff]
  · rw [commits_ownEvents, hcommits, ← commits_ownEvents]
    exact hs.once i
  · intro commit hcommit hacquire
    rw [hcommits] at hcommit
    obtain ⟨guid, hguid, hid⟩ := hs.fresh commit hcommit hacquire
    exact ⟨guid, hpast ▸ List.mem_cons_of_mem _ hguid, hid⟩
  · rw [hcommits]
    refine hs.late.imp fun {later earlier} hlate => ?_
    intro id releaseTime renewalTime hreleased hrenewed hrenew
    rw [hpast]
    exact (hlate id releaseTime renewalTime hreleased hrenewed hrenew).cons _

/-- The first commit of a thread: the entries change as the abstract store
does. -/
theorem Consistent.commit {update : Update} (hs : Consistent clients s)
    (hperform : perform thread access environment s = some (reply, u))
    (hupdate : (clients thread).update (clockReading thread s.past) access
      reply = some update)
    (hnone : commits clients (ownEvents thread s.past) = [])
    (hlive : ∀ id reference, u.entries id = some reference → reference.Live u)
    (happly : update.apply s.record = some u.record)
    (hfresh : (clients thread).IsAcquire →
      ∃ guid, (⟨thread, .newGuid, guid⟩ : Event ι) ∈ s.past ∧
        update.id = guid.toStringN)
    (hlate : ∀ commit ∈ commits clients s.past,
      LateRenewal clients s.past ⟨thread, update⟩ commit) :
    Consistent clients u := by
  have hpast := perform_past hperform
  have hcommits : commits clients u.past =
      ⟨thread, update⟩ :: commits clients s.past := by
    simp [hpast, commits, hupdate]
  refine ⟨hlive, ?_, fun i => ?_, hs.distinct_of_perform hperform, ?_, ?_⟩
  · rw [hcommits, List.map_cons, replay, hs.contents]
    exact happly
  · rw [commits_ownEvents, hcommits]
    by_cases heq : thread = i
    · subst heq
      simp [← commits_ownEvents, hnone]
    · simpa [heq, ← commits_ownEvents] using hs.once i
  · intro commit hcommit hacquire
    rw [hcommits] at hcommit
    rcases List.mem_cons.mp hcommit with rfl | hearlier
    · obtain ⟨guid, hguid, hid⟩ := hfresh hacquire
      exact ⟨guid, hpast ▸ List.mem_cons_of_mem _ hguid, hid⟩
    · obtain ⟨guid, hguid, hid⟩ := hs.fresh commit hearlier hacquire
      exact ⟨guid, hpast ▸ List.mem_cons_of_mem _ hguid, hid⟩
  · have hmono : ∀ later earlier, LateRenewal clients s.past later earlier →
        LateRenewal clients u.past later earlier := by
      intro later earlier h id releaseTime renewalTime hreleased hrenewed hrenew
      rw [hpast]
      exact (h id releaseTime renewalTime hreleased hrenewed hrenew).cons _
    rw [hcommits]
    exact List.pairwise_cons.mpr
      ⟨fun commit hcommit => hmono _ _ (hlate commit hcommit),
        hs.late.imp fun {later earlier} h => hmono later earlier h⟩

end Preservation

end SoftwareEntitlement
