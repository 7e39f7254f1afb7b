import SoftwareEntitlement.InterleavedPrograms

/-!
# Uninterrupted runs

A program which is run while the other threads wait: its accesses follow each
other on the shared object.  Such a run is one of the interleavings of the
pool, and what it does is found by following the program.
-/

namespace Interleaving

variable {ι Access Input σ α β : Type} {Reply : Access → Type}

namespace Program

section Executes

variable
  (object : (request : Access) → Input → σ → Option (Reply request × σ))

/-- From a state the program runs to its end, with a result, into a state. -/
inductive Executes : Program Access Reply α → σ → α → σ → Prop
  | done (result : α) (s : σ) : Executes (.done result) s result s
  | access {request : Access} {next : Reply request → Program Access Reply α}
      {input : Input} {s t u : σ} {reply : Reply request} {result : α}
      (hobject : object request input s = some (reply, t))
      (hrest : Executes (next reply) t result u) :
      Executes (.access request next) s result u

variable {object} {s u : σ} {result : α}

theorem Executes.of_done {value : α}
    (hexecutes : (Program.done value).Executes object s result u) :
    result = value ∧ u = s := by
  cases hexecutes
  exact ⟨rfl, rfl⟩

theorem Executes.of_access {request : Access}
    {next : Reply request → Program Access Reply α}
    (hexecutes : (Program.access request next).Executes object s result u) :
    ∃ input reply t, object request input s = some (reply, t) ∧
      (next reply).Executes object t result u := by
  cases hexecutes with
  | access hobject hrest => exact ⟨_, _, _, hobject, hrest⟩

theorem Executes.bind {program : Program Access Reply α}
    {f : α → Program Access Reply β} {t : σ} {final : β}
    (hfirst : program.Executes object s result t)
    (hlast : (f result).Executes object t final u) :
    (program >>= f).Executes object s final u := by
  induction hfirst with
  | done result s => exact hlast
  | access hobject hrest ih => exact .access hobject (ih hlast)

theorem Executes.of_bind {program : Program Access Reply α}
    {f : α → Program Access Reply β} {final : β}
    (hexecutes : (program >>= f).Executes object s final u) :
    ∃ value t, program.Executes object s value t ∧
      (f value).Executes object t final u := by
  induction program generalizing s with
  | done value => exact ⟨value, s, .done value s, hexecutes⟩
  | access request next ih =>
      rw [access_bind] at hexecutes
      obtain ⟨input, reply, t, hobject, hrest⟩ := hexecutes.of_access
      obtain ⟨value, middle, hfirst, hlast⟩ := ih reply hrest
      exact ⟨value, middle, .access hobject hfirst, hlast⟩

/-- Where every access can be answered in such a way that an invariant is kept,
every program runs to its end and keeps it. -/
theorem Executes.exists_of_enabled {invariant : σ → Prop}
    (henabled : ∀ request s, invariant s → ∃ input reply t,
      object request input s = some (reply, t) ∧ invariant t)
    (program : Program Access Reply α) (hinv : invariant s) :
    ∃ result t, program.Executes object s result t ∧ invariant t := by
  induction program generalizing s with
  | done value => exact ⟨value, s, .done value s, hinv⟩
  | access request next ih =>
      obtain ⟨input, reply, t, hobject, hinv'⟩ := henabled request s hinv
      obtain ⟨result, u, hrest, hinv''⟩ := ih reply hinv'
      exact ⟨result, u, .access hobject hrest, hinv''⟩

variable (object) in
def execute : List Input → Program Access Reply α → σ → Option (α × σ)
  | [], .done result, s => some (result, s)
  | input :: inputs, .access request next, s =>
      match object request input s with
      | none => none
      | some (reply, t) => execute inputs (next reply) t
  | _, _, _ => none

end Executes

end Program

/-- A thread which runs to its end while the others wait. -/
theorem Pool.Reaches.of_executes [DecidableEq ι]
    {object : ι → (request : Access) → Input → σ → Option (Reply request × σ)}
    {pool : Pool ι Access Reply σ α} {i : ι} {result : α} {u : σ}
    {program : Program Access Reply α} (hthread : pool.threads i = program)
    (hexecutes : program.Executes (object i) pool.shared result u) :
    Pool.Reaches object pool
      ⟨Function.update pool.threads i (.done result), u⟩ := by
  generalize hshared : pool.shared = s at hexecutes
  induction hexecutes generalizing pool with
  | done result s =>
      have hpool : (⟨Function.update pool.threads i (.done result), s⟩ :
          Pool ι Access Reply σ α) = pool := by
        rw [← hthread, ← hshared, Function.update_eq_self]
      rw [hpool]
      exact Pool.Reaches.refl pool
  | @access request next input s t u reply result hobject hrest ih =>
      have hstep : pool.step object i input =
          some ⟨Function.update pool.threads i (next reply), t⟩ := by
        rw [← hshared] at hobject
        simp only [Pool.step, hthread, hobject]
      have hlast := @ih ⟨Function.update pool.threads i (next reply), t⟩
        (Function.update_self _ _ _) rfl
      rw [Function.update_idem] at hlast
      exact Relation.ReflTransGen.head ⟨i, input, hstep⟩ hlast

end Interleaving
