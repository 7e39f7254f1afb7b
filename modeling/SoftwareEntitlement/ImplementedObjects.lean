import SoftwareEntitlement.RelyGuarantee
import Mathlib.Tactic.Choose

/-!
# Objects implemented by programs

The operations of an atomic object are implemented by programs over the
accesses of a lower object.  A client of the atomic object runs over the lower
one when each of its operations is replaced by the implementation.  If every
implementation has one access at which the operation takes effect, whatever
the other threads do around it, then every interleaving of the clients over
the lower object is one over the atomic object.
-/

namespace Interleaving

variable {ι Access Operation Input Occasion σ τ α β : Type}
  {Reply : Access → Type} {Result : Operation → Type}

namespace Program

theorem bind_assoc {γ : Type} (program : Program Access Reply α)
    (f : α → Program Access Reply β) (g : β → Program Access Reply γ) :
    program >>= f >>= g = program >>= fun result => f result >>= g := by
  induction program with
  | done result => rfl
  | access request next ih =>
      simp only [access_bind, ih]

section Implement

variable (method :
  (operation : Operation) → Program Access Reply (Result operation))

/-- The client with every operation replaced by its implementation. -/
def implement : Program Operation Result α → Program Access Reply α
  | .done result => .done result
  | .access operation next =>
      method operation >>= fun result => (next result).implement

theorem implement_bind (client : Program Operation Result α)
    (f : α → Program Operation Result β) :
    (client >>= f).implement method =
      client.implement method >>= fun result => (f result).implement method := by
  induction client with
  | done result => rfl
  | access operation next ih =>
      simp only [access_bind, implement, ih, bind_assoc]

/-- The program touches the lower object through the implementations only. -/
def UsesOnly (program : Program Access Reply α) : Prop :=
  ∃ client : Program Operation Result α, client.implement method = program

variable {method}

theorem UsesOnly.done (result : α) :
    UsesOnly method (Program.done result : Program Access Reply α) :=
  ⟨.done result, rfl⟩

theorem UsesOnly.operation (operation : Operation) :
    UsesOnly method (method operation) := by
  refine ⟨.perform operation, ?_⟩
  change method operation >>= .done = method operation
  induction method operation with
  | done result => rfl
  | access request next ih => simp only [access_bind, ih]

theorem UsesOnly.bind {program : Program Access Reply α}
    {f : α → Program Access Reply β} (hprogram : UsesOnly method program)
    (hnext : ∀ result, UsesOnly method (f result)) :
    UsesOnly method (program >>= f) := by
  obtain ⟨client, rfl⟩ := hprogram
  choose next hnext using hnext
  refine ⟨client >>= next, ?_⟩
  rw [implement_bind]
  simp only [hnext]

theorem UsesOnly.exceptBind {ε : Type}
    {program : ExceptT ε (Program Access Reply) α}
    {f : α → ExceptT ε (Program Access Reply) β}
    (hprogram : UsesOnly method program.run)
    (hnext : ∀ value, UsesOnly method (f value).run) :
    UsesOnly method (program >>= f).run := by
  refine UsesOnly.bind hprogram fun outcome => ?_
  cases outcome with
  | error error => exact UsesOnly.done _
  | ok value => exact hnext value

theorem UsesOnly.exceptMap {ε : Type}
    {program : ExceptT ε (Program Access Reply) α} {f : α → β}
    (hprogram : UsesOnly method program.run) :
    UsesOnly method (f <$> program).run := by
  refine UsesOnly.bind hprogram fun outcome => ?_
  cases outcome with
  | error error => exact UsesOnly.done _
  | ok value => exact UsesOnly.done _

end Implement

section Simulates

variable
  (object : (request : Access) → Input → σ → Option (Reply request × σ))
  (atomic : (operation : Operation) → Occasion → τ →
    Option (Result operation × τ))
  (view : σ → τ) (invariant : σ → Prop) (contract : Contract σ)

/-- From a state `s`, whatever the contract lets the other threads do before
each access: an access of the program is either invisible, or the next
operation of the client takes effect with it. -/
def Simulates :
    Program Access Reply α → Program Operation Result α → σ → Prop
  | .done result, client, _ => client = .done result
  | .access request next, client, s =>
      ∀ t, contract.rely s t → invariant t →
        ∀ input reply u, object request input t = some (reply, u) →
          contract.guarantee t u ∧ invariant u ∧
            ((view u = view t ∧ (next reply).Simulates client u) ∨
              ∃ operation rest occasion result,
                client = .access operation rest ∧
                  atomic operation occasion (view t) =
                    some (result, view u) ∧
                  (next reply).Simulates (rest result) u)

variable {object atomic view invariant contract}

theorem Simulates.stable {program : Program Access Reply α}
    {client : Program Operation Result α} {s t : σ}
    (hsimulates : program.Simulates object atomic view invariant contract
      client s)
    (hrely : contract.rely s t) :
    program.Simulates object atomic view invariant contract client t := by
  cases program with
  | done result => exact hsimulates
  | access request next =>
      intro u hu hinv
      exact hsimulates u (contract.rely_trans hrely hu) hinv

theorem Simulates.bind {program : Program Access Reply α}
    {client : Program Operation Result α} {f : α → Program Access Reply β}
    {g : α → Program Operation Result β} {s : σ} (hinv : invariant s)
    (hsimulates : program.Simulates object atomic view invariant contract
      client s)
    (hnext : ∀ result t, invariant t →
      (f result).Simulates object atomic view invariant contract
        (g result) t) :
    (program >>= f).Simulates object atomic view invariant contract
      (client >>= g) s := by
  induction program generalizing client s with
  | done result =>
      obtain rfl : client = .done result := hsimulates
      exact hnext result s hinv
  | access request next ih =>
      rw [access_bind]
      intro t hrely hinv' input reply u hobject
      obtain ⟨hguarantee, hinv'', hstep⟩ :=
        hsimulates t hrely hinv' input reply u hobject
      refine ⟨hguarantee, hinv'', ?_⟩
      rcases hstep with ⟨hview, hrest⟩ |
        ⟨operation, rest, occasion, result, rfl, hatomic, hrest⟩
      · exact .inl ⟨hview, ih reply hinv'' hrest⟩
      · exact .inr ⟨operation, _, occasion, result, rfl, hatomic,
          ih reply hinv'' hrest⟩

end Simulates

end Program

namespace Pool

variable [DecidableEq ι]
  {object : ι → (request : Access) → Input → σ → Option (Reply request × σ)}
  {atomic : ι → (operation : Operation) → Occasion → τ →
    Option (Result operation × τ)}

section Refinement

variable (object atomic) (view : σ → τ) (invariant : σ → Prop)
  (contracts : ι → Contract σ)

/-- The pool over the atomic object is where the simulation of the threads has
led. -/
structure SimulatedBy (pool : Pool ι Access Reply σ α)
    (clients : Pool ι Operation Result τ α) : Prop where
  holds : invariant pool.shared
  shared : clients.shared = view pool.shared
  threads : ∀ i, (pool.threads i).Simulates (object i) (atomic i) view
    invariant (contracts i) (clients.threads i) pool.shared

variable {object atomic view invariant contracts}

theorem SimulatedBy.step {pool next : Pool ι Access Reply σ α}
    {clients : Pool ι Operation Result τ α} {i : ι} {input : Input}
    (hcompatible : Compatible contracts)
    (hpool : pool.SimulatedBy object atomic view invariant contracts clients)
    (hstep : pool.step object i input = some next) :
    ∃ clients', Reaches atomic clients clients' ∧
      next.SimulatedBy object atomic view invariant contracts clients' := by
  obtain ⟨request, rest, reply, shared, hthread, hobject, rfl⟩ :=
    step_eq_some hstep
  have hsimulates := hpool.threads i
  rw [hthread] at hsimulates
  obtain ⟨hguarantee, hinv, hmatch⟩ :=
    hsimulates pool.shared ((contracts i).rely_refl _) hpool.holds input
      reply shared hobject
  have hothers : ∀ j, j ≠ i →
      (pool.threads j).Simulates (object j) (atomic j) view invariant
        (contracts j) (clients.threads j) shared := fun j hne =>
    (hpool.threads j).stable (hcompatible i j _ _ hne.symm hguarantee)
  rcases hmatch with ⟨hview, hrest⟩ |
    ⟨operation, next', occasion, result, hclient, hatomic, hrest⟩
  · refine ⟨clients, Reaches.refl clients, hinv, ?_, fun j => ?_⟩
    · rw [hpool.shared, hview]
    · by_cases heq : j = i
      · subst heq
        simpa using hrest
      · simpa [Function.update, heq] using hothers j heq
  · have hmove : clients.step atomic i occasion =
        some ⟨Function.update clients.threads i (next' result),
          view shared⟩ := by
      rw [← hpool.shared] at hatomic
      simp only [Pool.step, hclient, hatomic]
    refine ⟨_, Relation.ReflTransGen.single ⟨i, occasion, hmove⟩, hinv, rfl,
      fun j => ?_⟩
    by_cases heq : j = i
    · subst heq
      simpa using hrest
    · simpa [Function.update, heq] using hothers j heq

theorem SimulatedBy.reaches {pool next : Pool ι Access Reply σ α}
    {clients : Pool ι Operation Result τ α}
    (hcompatible : Compatible contracts)
    (hpool : pool.SimulatedBy object atomic view invariant contracts clients)
    (hreaches : Reaches object pool next) :
    ∃ clients', Reaches atomic clients clients' ∧
      next.SimulatedBy object atomic view invariant contracts clients' := by
  induction hreaches with
  | refl => exact ⟨clients, Reaches.refl clients, hpool⟩
  | tail _ hlast ih =>
      obtain ⟨middle, hmiddle, hsimulated⟩ := ih
      obtain ⟨i, input, hstep⟩ := hlast
      obtain ⟨clients', hclients', hnext⟩ :=
        hsimulated.step hcompatible hstep
      exact ⟨clients', hmiddle.trans hclients', hnext⟩

end Refinement

end Pool

end Interleaving
