import Mathlib.Logic.Relation
import Mathlib.Logic.Function.Basic

/-!
# Interleaved programs over one shared object

A program is a finite tree of atomic accesses: it performs one access, is
given the reply, and continues.  The same tree can be evaluated alone or
placed in a pool of threads whose accesses to one shared object interleave in
any order.  Nothing here depends on what the accesses are.
-/

namespace Interleaving

/-- A sequential program whose only effects are atomic accesses. -/
inductive Program (Access : Type) (Reply : Access → Type) (α : Type) where
  | done (result : α)
  | access (request : Access) (next : Reply request → Program Access Reply α)

namespace Program

variable {Access : Type} {Reply : Access → Type} {α β : Type}

def bind : Program Access Reply α → (α → Program Access Reply β) →
    Program Access Reply β
  | .done result, f => f result
  | .access request next, f => .access request fun reply => (next reply).bind f

instance : Monad (Program Access Reply) where
  pure := .done
  bind := bind

def perform (request : Access) : Program Access Reply (Reply request) :=
  .access request .done

@[simp] theorem access_bind (request : Access)
    (next : Reply request → Program Access Reply α)
    (f : α → Program Access Reply β) :
    (Program.access request next >>= f) =
      .access request fun reply => next reply >>= f := rfl

/-- The result of running a program alone when every access `request` is
answered by `answer request`. -/
def eval (answer : (request : Access) → Reply request) :
    Program Access Reply α → α
  | .done result => result
  | .access request next => (next (answer request)).eval answer

theorem eval_bind (answer : (request : Access) → Reply request)
    (program : Program Access Reply α) (f : α → Program Access Reply β) :
    (program >>= f).eval answer = (f (program.eval answer)).eval answer := by
  induction program with
  | done result => rfl
  | access request next ih => exact ih (answer request)

end Program

/-- Threads with their residual programs, and the object they share. -/
structure Pool (ι : Type) (Access : Type) (Reply : Access → Type)
    (σ α : Type) where
  threads : ι → Program Access Reply α
  shared : σ

namespace Pool

variable {ι Access Input σ α : Type} {Reply : Access → Type} [DecidableEq ι]

section Steps

/-! The shared object answers an access of thread `i` in state `s`, given one
input of the environment; `none` means that the access is not enabled. -/

variable (object : ι → (request : Access) → Input → σ → Option (Reply request × σ))

def step (pool : Pool ι Access Reply σ α) (i : ι) (input : Input) :
    Option (Pool ι Access Reply σ α) :=
  match pool.threads i with
  | .done _ => none
  | .access request next =>
      match object i request input pool.shared with
      | none => none
      | some (reply, shared) =>
          some ⟨Function.update pool.threads i (next reply), shared⟩

def Step (pool next : Pool ι Access Reply σ α) : Prop :=
  ∃ i input, pool.step object i input = some next

/-- `Reaches pool next`: some interleaving leads from `pool` to `next`. -/
def Reaches : Pool ι Access Reply σ α → Pool ι Access Reply σ α → Prop :=
  Relation.ReflTransGen (Step object)

/-- Execute a schedule, given as the threads which move and the inputs they
are offered. -/
def run : List (ι × Input) → Pool ι Access Reply σ α →
    Option (Pool ι Access Reply σ α)
  | [], pool => some pool
  | (i, input) :: schedule, pool =>
      match pool.step object i input with
      | none => none
      | some next => run schedule next

variable {object}

theorem step_eq_some {pool next : Pool ι Access Reply σ α} {i : ι}
    {input : Input} (hstep : pool.step object i input = some next) :
    ∃ request rest reply shared,
      pool.threads i = .access request rest ∧
      object i request input pool.shared = some (reply, shared) ∧
      next = ⟨Function.update pool.threads i (rest reply), shared⟩ := by
  unfold step at hstep
  cases hthread : pool.threads i with
  | done result =>
      simp [hthread] at hstep
  | access request rest =>
      cases hobject : object i request input pool.shared with
      | none =>
          simp [hthread, hobject] at hstep
      | some outcome =>
          simp only [hthread, hobject, Option.some.injEq] at hstep
          exact ⟨request, rest, outcome.1, outcome.2, rfl, hobject, hstep.symm⟩

/-- The first step of a schedule, when the thread is about to perform an
access which is enabled. -/
theorem exists_run_cons {pool : Pool ι Access Reply σ α} {i : ι}
    {input : Input} {schedule : List (ι × Input)} {request : Access}
    {rest : Reply request → Program Access Reply α} {reply : Reply request}
    {shared : σ} {post : Pool ι Access Reply σ α → Prop}
    (hthread : pool.threads i = .access request rest)
    (hobject : object i request input pool.shared = some (reply, shared))
    (hrest : ∃ final, run object schedule
      ⟨Function.update pool.threads i (rest reply), shared⟩ = some final ∧
        post final) :
    ∃ final, run object ((i, input) :: schedule) pool = some final ∧
      post final := by
  have hstep : pool.step object i input =
      some ⟨Function.update pool.threads i (rest reply), shared⟩ := by
    simp only [step, hthread, hobject]
  simpa only [run, hstep] using hrest

theorem Reaches.refl (pool : Pool ι Access Reply σ α) :
    Reaches object pool pool :=
  Relation.ReflTransGen.refl

theorem Reaches.of_run {schedule : List (ι × Input)}
    {pool final : Pool ι Access Reply σ α}
    (hrun : run object schedule pool = some final) :
    Reaches object pool final := by
  induction schedule generalizing pool with
  | nil =>
      simp only [run, Option.some.injEq] at hrun
      subst final
      exact Reaches.refl pool
  | cons move schedule ih =>
      obtain ⟨i, input⟩ := move
      cases hstep : pool.step object i input with
      | none =>
          simp [run, hstep] at hrun
      | some next =>
          simp only [run, hstep] at hrun
          exact Relation.ReflTransGen.head ⟨i, input, hstep⟩ (ih hrun)

theorem Reaches.run_getD (schedule : List (ι × Input))
    (pool : Pool ι Access Reply σ α) :
    Reaches object pool ((run object schedule pool).getD pool) := by
  cases hrun : run object schedule pool with
  | none => exact Reaches.refl pool
  | some final => exact Reaches.of_run hrun

end Steps

end Pool

end Interleaving
