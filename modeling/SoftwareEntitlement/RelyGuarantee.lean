import SoftwareEntitlement.InterleavedPrograms

/-!
# Rely-guarantee reasoning for interleaved programs

Every thread has a contract: what it may assume about the steps of the other
threads, and what it promises about its own.  A program meets its contract
when this can be checked along its own tree, with the interference the
contract allows before every access.  The soundness theorem then speaks about
every interleaving of a pool of such threads.
-/

namespace Interleaving

variable {ι Access Input σ α β : Type} {Reply : Access → Type}

/-- What one thread assumes about the others and promises to them. -/
structure Contract (σ : Type) where
  rely : σ → σ → Prop
  guarantee : σ → σ → Prop
  rely_refl : ∀ s, rely s s
  rely_trans : ∀ {s t u}, rely s t → rely t u → rely s u

/-- The assertion holds, and keeps holding under the interference which the
contract allows. -/
def Stably (invariant : σ → Prop) (contract : Contract σ)
    (assertion : σ → Prop) (s : σ) : Prop :=
  ∀ t, contract.rely s t → invariant t → assertion t

theorem Stably.now {invariant : σ → Prop} {contract : Contract σ}
    {assertion : σ → Prop} {s : σ} (hinv : invariant s)
    (hstably : Stably invariant contract assertion s) : assertion s :=
  hstably s (contract.rely_refl s) hinv

theorem Stably.mono {invariant : σ → Prop} {contract : Contract σ}
    {assertion assertion' : σ → Prop} {s : σ}
    (hstably : Stably invariant contract assertion s)
    (hassertion : ∀ t, assertion t → assertion' t) :
    Stably invariant contract assertion' s :=
  fun t hrely hinv => hassertion t (hstably t hrely hinv)

namespace Program

section Meets

variable (object : (request : Access) → Input → σ → Option (Reply request × σ))
  (invariant : σ → Prop) (contract : Contract σ)

/-- From a state `s`, whatever the contract lets the other threads do before
each access: every access of the program keeps the guarantee and the
invariant, and a result satisfies the postcondition for as long as the other
threads keep to the rely condition. -/
def Meets (post : α → σ → Prop) : Program Access Reply α → σ → Prop
  | .done result, s => Stably invariant contract (post result) s
  | .access request next, s =>
      ∀ t, contract.rely s t → invariant t →
        ∀ input reply u, object request input t = some (reply, u) →
          contract.guarantee t u ∧ invariant u ∧ (next reply).Meets post u

variable {object invariant contract}

theorem Meets.stable {post : α → σ → Prop} {program : Program Access Reply α}
    {s t : σ} (hmeets : program.Meets object invariant contract post s)
    (hrely : contract.rely s t) :
    program.Meets object invariant contract post t := by
  cases program with
  | done result =>
      intro u hu hinv
      exact hmeets u (contract.rely_trans hrely hu) hinv
  | access request next =>
      intro u hu hinv
      exact hmeets u (contract.rely_trans hrely hu) hinv

theorem Meets.mono {post post' : α → σ → Prop}
    {program : Program Access Reply α} {s : σ}
    (hmeets : program.Meets object invariant contract post s)
    (hpost : ∀ result t, post result t → post' result t) :
    program.Meets object invariant contract post' s := by
  induction program generalizing s with
  | done result =>
      intro t hrely hinv
      exact hpost result t (hmeets t hrely hinv)
  | access request next ih =>
      intro t hrely hinv input reply u hobject
      obtain ⟨hguarantee, hinv', hnext⟩ :=
        hmeets t hrely hinv input reply u hobject
      exact ⟨hguarantee, hinv', ih reply hnext⟩

theorem Meets.bind {mid : α → σ → Prop} {post : β → σ → Prop}
    {program : Program Access Reply α} {f : α → Program Access Reply β} {s : σ}
    (hinv : invariant s)
    (hmeets : program.Meets object invariant contract mid s)
    (hnext : ∀ result t, invariant t →
      Stably invariant contract (mid result) t →
        (f result).Meets object invariant contract post t) :
    (program >>= f).Meets object invariant contract post s := by
  induction program generalizing s with
  | done result => exact hnext result s hinv hmeets
  | access request next ih =>
      rw [access_bind]
      intro t hrely hinv' input reply u hobject
      obtain ⟨hguarantee, hinv'', hrest⟩ :=
        hmeets t hrely hinv' input reply u hobject
      exact ⟨hguarantee, hinv'', ih reply hinv'' hrest⟩

/-- Sequential composition of programs which may fail: a failure of the first
program is final. -/
theorem Meets.exceptBind {ε : Type} {mid : α → σ → Prop}
    {post : Except ε β → σ → Prop} {program : ExceptT ε (Program Access Reply) α}
    {f : α → ExceptT ε (Program Access Reply) β} {s : σ}
    (hinv : invariant s)
    (hmeets : program.run.Meets object invariant contract
      (fun outcome t =>
        match outcome with
        | .error error => post (.error error) t
        | .ok value => mid value t) s)
    (hnext : ∀ value t, invariant t →
      Stably invariant contract (mid value) t →
        (f value).run.Meets object invariant contract post t) :
    (program >>= f).run.Meets object invariant contract post s := by
  refine Meets.bind hinv hmeets fun outcome t hinv' houtcome => ?_
  cases outcome with
  | error error => exact houtcome
  | ok value => exact hnext value t hinv' houtcome

theorem Meets.exceptMap {ε : Type} {post : Except ε β → σ → Prop}
    {program : ExceptT ε (Program Access Reply) α} {f : α → β} {s : σ}
    (hinv : invariant s)
    (hmeets : program.run.Meets object invariant contract
      (fun outcome => post (outcome.map f)) s) :
    (f <$> program).run.Meets object invariant contract post s := by
  refine Meets.bind hinv hmeets fun outcome t _ houtcome => ?_
  cases outcome with
  | error error => exact houtcome
  | ok value => exact houtcome

end Meets

end Program

namespace Pool

variable [DecidableEq ι]

section Soundness

variable (object : ι → (request : Access) → Input → σ → Option (Reply request × σ))
  (invariant : σ → Prop) (contracts : ι → Contract σ)
  (post : ι → α → σ → Prop)

/-- The shared state satisfies the invariant and every thread meets its
contract from here on. -/
structure Compliant (pool : Pool ι Access Reply σ α) : Prop where
  shared : invariant pool.shared
  threads : ∀ i, (pool.threads i).Meets (object i) invariant (contracts i)
    (post i) pool.shared

/-- What one thread promises is what every other thread relies on. -/
def Compatible (contracts : ι → Contract σ) : Prop :=
  ∀ i j s t, i ≠ j → (contracts i).guarantee s t → (contracts j).rely s t

variable {object invariant contracts post}

theorem Compliant.step {pool next : Pool ι Access Reply σ α} {i : ι}
    {input : Input} (hcompatible : Compatible contracts)
    (hpool : pool.Compliant object invariant contracts post)
    (hstep : pool.step object i input = some next) :
    next.Compliant object invariant contracts post ∧
      (contracts i).guarantee pool.shared next.shared := by
  obtain ⟨request, rest, reply, shared, hthread, hobject, rfl⟩ :=
    step_eq_some hstep
  have hmeets := hpool.threads i
  rw [hthread] at hmeets
  obtain ⟨hguarantee, hinv, hrest⟩ :=
    hmeets pool.shared ((contracts i).rely_refl _) hpool.shared input reply
      shared hobject
  refine ⟨⟨hinv, fun j => ?_⟩, hguarantee⟩
  by_cases heq : j = i
  · subst heq
    simpa using hrest
  · have hrely : (contracts j).rely pool.shared shared :=
      hcompatible i j _ _ (Ne.symm heq) hguarantee
    simpa [Function.update, heq] using (hpool.threads j).stable hrely

/-- Soundness: compliance holds throughout every interleaving. -/
theorem Compliant.reaches {pool next : Pool ι Access Reply σ α}
    (hcompatible : Compatible contracts)
    (hpool : pool.Compliant object invariant contracts post)
    (hreaches : Reaches object pool next) :
    next.Compliant object invariant contracts post := by
  induction hreaches with
  | refl => exact hpool
  | tail _ hlast ih =>
      obtain ⟨i, input, hstep⟩ := hlast
      exact (ih.step hcompatible hstep).1

omit [DecidableEq ι] in
theorem Compliant.post_of_done {pool : Pool ι Access Reply σ α} {i : ι}
    {result : α} (hpool : pool.Compliant object invariant contracts post)
    (hdone : pool.threads i = .done result) :
    post i result pool.shared := by
  have hmeets := hpool.threads i
  rw [hdone] at hmeets
  exact hmeets _ ((contracts i).rely_refl _) hpool.shared

end Soundness

end Pool

end Interleaving
