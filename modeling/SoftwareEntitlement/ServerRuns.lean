import SoftwareEntitlement.HandlerContracts

/-!
# Runs of the server

Every client meets its contract, so the invariant holds in every state which
any interleaving reaches, and every client that has finished has been told
whether it committed.
-/

namespace SoftwareEntitlement

open Interleaving

variable {ι : Type} [DecidableEq ι]

def Client.target : Client → Option String
  | .request (.renew _ id) => some id
  | .request (.release id) => some id
  | _ => none

/-- What is known when a client has finished; `known` says that its target was
in the store before it began. -/
structure Settles (clients : ι → Client) (known : Prop) (thread : ι)
    (outcome : Throws Answer) (s : ServerState ι) : Prop where
  acknowledged : commits clients (ownEvents thread s.past) ≠ [] ↔
    (clients thread).acknowledges outcome = true
  found : known → ∀ response, outcome = .ok (.response response) →
    response.statusCode ≠ 404
  acquired : ∀ id expiry,
    outcome =
        .ok (.response (.createSuccess (.acquireSuccess id expiry))) →
      ∃ tokenProperties time, (⟨thread, .stored id tokenProperties time⟩ :
        Commit ι) ∈ commits clients (ownEvents thread s.past)

section Contracts

variable {clients : ι → Client} {thread : ι} {known : Prop}
  {s : ServerState ι} {services : Services}

theorem StoreCall.handle_ensures {call : StoreCall}
    (hclient : clients thread = .call call) (hinv : Consistent clients s)
    (hown : ownEvents thread s.past = []) :
    call.handle.Ensures clients thread (Settles clients known thread) s := by
  have hnotAcquire : ¬(clients thread).IsAcquire := by
    rintro ⟨remoteIpAddress, body, heq⟩
    simp [hclient] at heq
  have hnotRenew : ¬(clients thread).IsRenew := by
    rintro ⟨body, id, heq⟩
    simp [hclient] at heq
  cases call with
  | store id tokenProperties time =>
      refine Program.Meets.exceptMap hinv (Program.Meets.mono
        (storeEntitlement_returns hinv hown rfl ?_ fun h => absurd h hnotAcquire)
        ?_)
      · intro added reply hadded
        simp [hclient, Client.update]
      · rintro outcome t ⟨record, rfl, hcommits⟩
        refine ⟨by simp [hcommits, hclient, Client.acknowledges, Except.map],
          ?_, ?_⟩ <;> simp [Except.map]
  | find id =>
      refine Program.Meets.exceptMap hinv (Program.Meets.mono
        (findEntitlement_returns hinv hown) ?_)
      rintro outcome t ⟨result, rfl, ⟨found, hown'⟩, -⟩
      refine ⟨by simp [hown', commits, Client.update, hclient,
        Client.acknowledges, Except.map], ?_, ?_⟩ <;> simp [Except.map]
  | renew id time =>
      refine Program.Meets.exceptMap hinv (Program.Meets.mono
        (renewEntitlement_returns hinv hown rfl ?_ fun h => absurd h hnotRenew)
        ?_)
      · intro newValue comparisonValue
        simp [hclient, Client.update]
      · rintro outcome t ⟨result, rfl, hcommits⟩
        refine ⟨?_, by simp [Except.map], by simp [Except.map]⟩
        cases result <;>
          simp [hcommits, hclient, Client.acknowledges, Except.map]
  | release id time =>
      refine Program.Meets.exceptMap hinv (Program.Meets.mono
        (releaseEntitlement_returns hinv hown rfl ?_ hnotRenew) ?_)
      · intro newValue comparisonValue
        simp [hclient, Client.update]
      · rintro outcome t ⟨result, rfl, hcommits⟩
        refine ⟨?_, by simp [Except.map], by simp [Except.map]⟩
        cases result <;>
          simp [hcommits, hclient, Client.acknowledges, Except.map]

theorem Concludes.settles {success : ℕ} {outcome : Throws Response}
    (hacknowledges : ∀ outcome : Throws Response,
      (clients thread).acknowledges (outcome.map .response) = true ↔
        ∃ response, outcome = .ok response ∧ response.statusCode = success)
    (hconcludes : Concludes clients thread success known outcome s) :
    Settles clients known thread (outcome.map .response) s := by
  refine ⟨hconcludes.acknowledged.trans (hacknowledges outcome).symm, ?_, ?_⟩
  · rintro hknown response heq
    cases outcome with
    | error exception => cases heq
    | ok value =>
        obtain rfl : value = response := by simpa [Except.map] using heq
        exact hconcludes.found hknown value rfl
  · rintro id expiry heq
    cases outcome with
    | error exception => cases heq
    | ok value =>
        obtain rfl : value = _ := by simpa [Except.map] using heq
        exact hconcludes.acquired id expiry rfl

theorem Client.handle_ensures (hinv : Consistent clients s)
    (hown : ownEvents thread s.past = [])
    (hknown : known → ∀ id, (clients thread).target = some id →
      (s.entries id).isSome) :
    ((clients thread).handle services).Ensures clients thread
      (Settles clients known thread) s := by
  cases hclient : clients thread with
  | call call => exact StoreCall.handle_ensures hclient hinv hown
  | request request =>
      cases request with
      | acquire remoteIpAddress body =>
          refine Program.Meets.exceptMap hinv (Program.Meets.mono
            (AcquireRequestHandler.handle_ensures hclient hinv hown)
            fun outcome t h => h.settles fun outcome => ?_)
          cases outcome <;> simp [hclient, Client.acknowledges, Except.map]
      | renew body id =>
          refine Program.Meets.exceptMap hinv (Program.Meets.mono
            (RenewRequestHandler.handle_ensures hclient hinv hown ?_)
            fun outcome t h => h.settles fun outcome => ?_)
          · exact fun h => hknown h id (by rw [hclient]; rfl)
          · cases outcome <;> simp [hclient, Client.acknowledges, Except.map]
      | release id =>
          refine Program.Meets.exceptMap hinv (Program.Meets.mono
            (ReleaseRequestHandler.handle_ensures hclient hinv hown ?_)
            fun outcome t h => h.settles fun outcome => ?_)
          · exact fun h => hknown h id (by rw [hclient]; rfl)
          · cases outcome <;> simp [hclient, Client.acknowledges, Except.map]

end Contracts

/-! ## Reachable states -/

namespace ServerPool.Reachable

variable {services : Services} {clients : ι → Client}
  {pool next : ServerPool ι}

theorem compliant (hreachable : ServerPool.Reachable services clients pool) :
    pool.Compliant perform (Consistent clients) contract
      (Settles clients False) := by
  refine Pool.Compliant.reaches contract_compatible ⟨Consistent.empty clients,
    fun i => ?_⟩ hreachable
  exact Client.handle_ensures (Consistent.empty clients) rfl False.elim

theorem consistent (hreachable : ServerPool.Reachable services clients pool) :
    Consistent clients pool.shared :=
  hreachable.compliant.shared

theorem settles (hreachable : ServerPool.Reachable services clients pool)
    {thread : ι} {outcome : Throws Answer}
    (hdone : pool.threads thread = .done outcome) :
    Settles clients False thread outcome pool.shared :=
  hreachable.compliant.post_of_done hdone

theorem trans (hreachable : ServerPool.Reachable services clients pool)
    (hreaches : Pool.Reaches perform pool next) :
    ServerPool.Reachable services clients next :=
  Relation.ReflTransGen.trans hreachable hreaches

end ServerPool.Reachable

theorem grows_of_reaches {pool next : ServerPool ι}
    (hreaches : Pool.Reaches perform pool next) :
    pool.shared.Grows next.shared := by
  induction hreaches with
  | refl => exact .refl _
  | tail _ hlast ih =>
      obtain ⟨i, input, hstep⟩ := hlast
      obtain ⟨access, rest, reply, shared, -, hperform, rfl⟩ :=
        Pool.step_eq_some hstep
      exact ih.trans (perform_grows hperform)

/-- The record of every entitlement, as the ledger of commits has it. -/
theorem record_eq_ledgerRecord {services : Services} {clients : ι → Client}
    {pool : ServerPool ι}
    (hreachable : ServerPool.Reachable services clients pool) (id : String) :
    pool.shared.record id =
      ledgerRecord id
        ((commits clients pool.shared.past).map Commit.update) :=
  replay_eq_ledgerRecord hreachable.consistent.contents id

end SoftwareEntitlement
