import SoftwareEntitlement.ServedRequests

/-!
# Sessions

When requests are served one after another, the answers which were given
before decide what the next one is: an entitlement is active from the answer
which grants it to the answer which confirms its release.  The store is not
mentioned in this account; the records in it are what the answers say.  What
else an answer depends on, the request has read from the clock or drawn.
-/

namespace SoftwareEntitlement

open Interleaving SoftwareEntitlementsController

structure HttpExchange where
  request : HttpRequest
  outcome : HttpOutcome

def HttpExchange.lease (runtime : Runtime) (exchange : HttpExchange)
    (entitlementId : String) (lease : Lease) : Lease :=
  match exchange.request.handlerRequest runtime with
  | none => lease
  | some handlerRequest =>
      handlerRequest.lease exchange.outcome.result entitlementId lease

section Tokens

variable (services : Services) (validationTime : DateTimeOffset)
  (remoteIpAddress : IPAddress) (body : Option IVerificationRequestBody)

end Tokens

section Errors

variable {services : Services}

end Errors

/-! ## What an exchange must be -/

section Sessions

variable {services : Services}
  {serverOptions : SoftwareEntitlementsController.ServerOptions}
  {earlier exchanges : List HttpExchange} {s t : ServerState ℕ}

inductive Lease.Step : Lease → Lease → Prop
  | acquired : Lease.Step .unknown .active
  | released : Lease.Step .active .released

theorem perform_enabled {ι : Type} (thread : ι) (access : Access)
    (now : DateTimeOffset) (s : ServerState ι) :
    ∃ guid reply t, perform thread access ⟨now, guid⟩ s = some (reply, t) := by
  cases access with
  | newGuid =>
      have hinfinite : Infinite Guid :=
        .of_injective (fun n : ℕ => Guid.mk (String.ofList (.replicate n '0')))
          fun m n heq => by
            simpa using congrArg (fun guid => guid.digits.toList.length) heq
      obtain ⟨guid, hfresh⟩ := Infinite.exists_notMem_finset
        ((issuedGuids s.past).map Prod.snd).toFinset
      rw [List.mem_toFinset] at hfresh
      exact ⟨guid, guid, { s with past := ⟨thread, .newGuid, guid⟩ :: s.past },
        if_neg hfresh⟩
  | _ => exact ⟨default, _, _, rfl⟩

/-- The tokens were validated at this moment. -/
def ServerState.ValidatedAt {ι : Type} (now : DateTimeOffset)
    (s : ServerState ι) : Prop :=
  ∀ thread time, ⟨thread, .validationTime, time⟩ ∈ s.past → time = now

/-- A request which has the server to itself is answered, at any moment. -/
theorem HttpPool.exists_answered (services : Services)
    (serverOptions : SoftwareEntitlementsController.ServerOptions)
    (request : HttpRequest) (now : DateTimeOffset) :
    ∃ pool outcome, HttpPool.Reachable services serverOptions
        (fun _ : Unit => request) pool ∧
      pool.threads () = .done outcome ∧ pool.shared.ValidatedAt now := by
  have henabled : ∀ access (s : ServerState Unit), s.ValidatedAt now →
      ∃ environment reply t, perform () access environment s = some (reply, t) ∧
        t.ValidatedAt now := by
    intro access s hvalidated
    obtain ⟨guid, reply, t, hperform⟩ := perform_enabled () access now s
    refine ⟨⟨now, guid⟩, reply, t, hperform, fun thread time hmem => ?_⟩
    rw [perform_past hperform] at hmem
    rcases List.mem_cons.mp hmem with heq | hmem
    · cases heq
      simp only [perform, Option.some.injEq, Prod.mk.injEq] at hperform
      exact hperform.1.symm
    · exact hvalidated thread time hmem
  have hempty : (ServerState.empty : ServerState Unit).ValidatedAt now := by
    intro thread time hmem
    cases hmem
  obtain ⟨outcome, t, hexecutes, hvalidated⟩ :=
    Program.Executes.exists_of_enabled henabled
      (request.process services serverOptions) hempty
  exact ⟨_, outcome, Pool.Reaches.of_executes rfl hexecutes, rfl, hvalidated⟩

end Sessions

/-! ## A concrete session -/

section Concrete

def HttpOutcome.statusCode (outcome : HttpOutcome) : Option ℕ :=
  match outcome.result with
  | .actionResult (.statusCode statusCode) => some statusCode
  | .actionResult (.objectResult statusCode _) => some statusCode
  | _ => none

end Concrete

end SoftwareEntitlement
