import SoftwareEntitlement.InterleavedPrograms
import Mathlib.Data.List.Basic

/-!
# Local traces of interleaved programs

What a program does next depends on its own accesses and their replies, and on
nothing else.  A discipline says which access a trace permits; whether a
program obeys it can be checked along its tree, whatever the replies.  When
the shared object keeps a log, every entry of the log was permitted, in every
interleaving, and every entry marks a moment of the run.  Traces and logs are
written newest first.
-/

namespace Interleaving

variable {ι Access Input σ τ α β : Type} {Reply : Access → Type}

namespace Program

section Obeys

variable (label : (request : Access) → Reply request → τ)
  (permits : List τ → Access → Prop)

/-- Every access is permitted by the trace before it, and a result satisfies
the postcondition of the trace which led to it. -/
def Obeys (post : α → List τ → Prop) :
    Program Access Reply α → List τ → Prop
  | .done result, trace => post result trace
  | .access request next, trace =>
      permits trace request ∧
        ∀ reply, (next reply).Obeys post (label request reply :: trace)

variable {label permits}

theorem Obeys.mono {post post' : α → List τ → Prop}
    {program : Program Access Reply α} {trace : List τ}
    (hobeys : program.Obeys label permits post trace)
    (hpost : ∀ result trace', post result trace' → post' result trace') :
    program.Obeys label permits post' trace := by
  induction program generalizing trace with
  | done result => exact hpost result trace hobeys
  | access request next ih =>
      exact ⟨hobeys.1, fun reply => ih reply (hobeys.2 reply)⟩

theorem Obeys.bind {mid : α → List τ → Prop} {post : β → List τ → Prop}
    {program : Program Access Reply α} {f : α → Program Access Reply β}
    {trace : List τ} (hobeys : program.Obeys label permits mid trace)
    (hnext : ∀ result trace', mid result trace' →
      (f result).Obeys label permits post trace') :
    (program >>= f).Obeys label permits post trace := by
  induction program generalizing trace with
  | done result => exact hnext result trace hobeys
  | access request next ih =>
      exact ⟨hobeys.1, fun reply => ih reply (hobeys.2 reply)⟩

/-- A discipline which permits everything is obeyed. -/
theorem Obeys.of_forall {post : α → List τ → Prop}
    (hpost : ∀ result trace, post result trace)
    (program : Program Access Reply α) (trace : List τ) :
    program.Obeys label (fun _ _ => True) post trace := by
  induction program generalizing trace with
  | done result => exact hpost result trace
  | access request next ih => exact ⟨trivial, fun reply => ih reply _⟩

/-- Sequential composition of programs which may fail: a failure of the first
program is final. -/
theorem Obeys.exceptBind {ε : Type} {mid : α → List τ → Prop}
    {post : Except ε β → List τ → Prop}
    {program : ExceptT ε (Program Access Reply) α}
    {f : α → ExceptT ε (Program Access Reply) β} {trace : List τ}
    (hobeys : program.run.Obeys label permits
      (fun outcome trace' =>
        match outcome with
        | .error error => post (.error error) trace'
        | .ok value => mid value trace') trace)
    (hnext : ∀ value trace', mid value trace' →
      (f value).run.Obeys label permits post trace') :
    (program >>= f).run.Obeys label permits post trace := by
  refine Obeys.bind hobeys fun outcome trace' houtcome => ?_
  cases outcome with
  | error error => exact houtcome
  | ok value => exact hnext value trace' houtcome

theorem Obeys.exceptMap {ε : Type} {post : Except ε β → List τ → Prop}
    {program : ExceptT ε (Program Access Reply) α} {f : α → β}
    {trace : List τ}
    (hobeys : program.run.Obeys label permits
      (fun outcome => post (outcome.map f)) trace) :
    (f <$> program).run.Obeys label permits post trace := by
  refine Obeys.bind hobeys fun outcome trace' houtcome => ?_
  cases outcome with
  | error error => exact houtcome
  | ok value => exact houtcome

end Obeys

end Program

/-- How an object logs the accesses made to it. -/
structure Log
    (object : ι → (request : Access) → Input → σ → Option (Reply request × σ))
    (τ : Type) where
  entries : σ → List τ
  owner : τ → ι
  label : ι → (request : Access) → Reply request → τ
  owner_label : ∀ i request reply, owner (label i request reply) = i
  entries_eq : ∀ {i request input s reply u},
    object i request input s = some (reply, u) →
      entries u = label i request reply :: entries s

namespace Log

variable {object :
    ι → (request : Access) → Input → σ → Option (Reply request × σ)}
  (log : Log object τ) [DecidableEq ι]

/-- The part of a log which belongs to one thread. -/
def own (i : ι) (entries : List τ) : List τ :=
  entries.filter fun entry => log.owner entry = i

theorem own_cons_self (i : ι) (request : Access) (reply : Reply request)
    (entries : List τ) :
    log.own i (log.label i request reply :: entries) =
      log.label i request reply :: log.own i entries := by
  simp [own, log.owner_label]

theorem own_cons_of_ne {i j : ι} (hne : i ≠ j) (request : Access)
    (reply : Reply request) (entries : List τ) :
    log.own j (log.label i request reply :: entries) = log.own j entries := by
  simp [own, log.owner_label, hne]

/-- Every thread obeys its discipline from here on. -/
def Obedient (permits : ι → List τ → Access → Prop)
    (post : ι → α → List τ → Prop) (pool : Pool ι Access Reply σ α) : Prop :=
  ∀ i, (pool.threads i).Obeys (log.label i) (permits i) (post i)
    (log.own i (log.entries pool.shared))

variable {log}

variable {permits : ι → List τ → Access → Prop} {post : ι → α → List τ → Prop}
  {pool next : Pool ι Access Reply σ α}

theorem Obedient.step {i : ι} {input : Input}
    (hpool : log.Obedient permits post pool)
    (hstep : pool.step object i input = some next) :
    log.Obedient permits post next := by
  obtain ⟨request, rest, reply, shared, hthread, hobject, rfl⟩ :=
    Pool.step_eq_some hstep
  have hentries := log.entries_eq hobject
  have hobeys := hpool i
  rw [hthread] at hobeys
  intro j
  by_cases heq : j = i
  · subst heq
    rw [hentries, own_cons_self]
    simpa using hobeys.2 reply
  · rw [hentries, own_cons_of_ne log (Ne.symm heq)]
    simpa [Function.update, heq] using hpool j

theorem Obedient.reaches (hpool : log.Obedient permits post pool)
    (hreaches : Pool.Reaches object pool next) :
    log.Obedient permits post next := by
  induction hreaches with
  | refl => exact hpool
  | tail _ hlast ih =>
      obtain ⟨i, input, hstep⟩ := hlast
      exact ih.step hstep

theorem Obedient.permits_of_access (hpool : log.Obedient permits post pool)
    {i : ι} {request : Access} {rest : Reply request → Program Access Reply α}
    (hthread : pool.threads i = .access request rest) :
    permits i (log.own i (log.entries pool.shared)) request := by
  have hobeys := hpool i
  rw [hthread] at hobeys
  exact hobeys.1

theorem Obedient.post_of_done (hpool : log.Obedient permits post pool) {i : ι}
    {result : α} (hdone : pool.threads i = .done result) :
    post i result (log.own i (log.entries pool.shared)) := by
  have hobeys := hpool i
  rw [hdone] at hobeys
  exact hobeys

/-- What a program promises about its own accesses is kept in every
interleaving, whatever the other threads do. -/
theorem post_of_reaches {i : ι} {promise : α → List τ → Prop}
    (hobeys : (pool.threads i).Obeys (log.label i) (fun _ _ => True) promise
      (log.own i (log.entries pool.shared)))
    (hreaches : Pool.Reaches object pool next) {result : α}
    (hdone : next.threads i = .done result) :
    promise result (log.own i (log.entries next.shared)) := by
  have hpool : log.Obedient (fun _ _ _ => True)
      (fun j result trace => j = i → promise result trace) pool := by
    intro j
    by_cases heq : j = i
    · subst heq
      exact hobeys.mono fun _ _ hpost _ => hpost
    · exact Program.Obeys.of_forall (fun _ _ h => absurd h heq) _ _
  exact (hpool.reaches hreaches).post_of_done hdone rfl

/-! ## Moments of a run -/

variable {moves : Pool ι Access Reply σ α → ι → Pool ι Access Reply σ α → Prop}

variable (log) in
/-- In a run from a pool in which a thread has not moved, every entry of the
thread was added by one of its moves; the moves may be fewer than all steps. -/
theorem exists_move_of_own
    (hmoves : ∀ {p i q}, moves p i q →
      ∃ input, Pool.step object p i input = some q)
    (hrun : Relation.ReflTransGen (fun p q => ∃ i, moves p i q) pool next)
    {i : ι} (hidle : log.own i (log.entries pool.shared) = [])
    {front back : List τ} {entry : τ}
    (hown : log.own i (log.entries next.shared) = front ++ entry :: back) :
    ∃ before after,
      Relation.ReflTransGen (fun p q => ∃ i, moves p i q) pool before ∧
      log.own i (log.entries before.shared) = back ∧
      moves before i after ∧
      log.entries after.shared = entry :: log.entries before.shared ∧
      Relation.ReflTransGen (fun p q => ∃ i, moves p i q) after next := by
  induction hrun generalizing front with
  | refl => simp [hidle] at hown
  | @tail middle last hbefore hlast ih =>
      obtain ⟨j, hmove⟩ := hlast
      obtain ⟨input, hstep⟩ := hmoves hmove
      obtain ⟨request, rest, reply, shared, -, hobject, rfl⟩ :=
        Pool.step_eq_some hstep
      have hentries := log.entries_eq hobject
      rw [hentries] at hown
      by_cases heq : j = i
      · subst heq
        rw [own_cons_self] at hown
        cases front with
        | nil =>
            obtain ⟨rfl, hback⟩ := List.cons.inj hown
            exact ⟨middle, _, hbefore, hback, hmove, hentries, .refl⟩
        | cons newest front =>
            obtain ⟨before, after, hreach, hback, hmove', hafter, hrest⟩ :=
              ih (List.cons.inj hown).2
            exact ⟨before, after, hreach, hback, hmove', hafter,
              hrest.tail ⟨j, hmove⟩⟩
      · rw [own_cons_of_ne log heq] at hown
        obtain ⟨before, after, hreach, hback, hmove', hafter, hrest⟩ := ih hown
        exact ⟨before, after, hreach, hback, hmove', hafter,
          hrest.tail ⟨j, hmove⟩⟩

end Log

end Interleaving
