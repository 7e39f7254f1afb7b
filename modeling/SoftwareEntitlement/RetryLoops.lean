import Mathlib.Algebra.Group.Nat.Defs
import Mathlib.Data.Nat.Find
import Mathlib.Order.Basic
import Mathlib.Tactic.Push

/-!
# Bounded retry loops

A loop `for (retry = 1; retry <= retries; ++retry)` over a 32-bit counter makes
attempts until one decides the result, and a last attempt follows it.  The
counter wraps around, so the bound `2^32 - 1` is none.
-/

namespace RetryLoop

/-- Where the loop stands between two attempts. -/
inductive Progress (ρ : Type) where
  | attempting (retry : UInt32)
  | last
  | finished (result : ρ)
  deriving DecidableEq

/-- The next attempt is still to be made. -/
def Progress.Unfinished {ρ : Type} : Progress ρ → Prop
  | .finished _ => False
  | _ => True

instance {ρ : Type} : DecidablePred (@Progress.Unfinished ρ) := fun
  | .attempting _ => isTrue trivial
  | .last => isTrue trivial
  | .finished _ => isFalse id

section Loop

variable {ω ρ : Type} (retries : UInt32)

/-- The test at the head of the loop. -/
def enter (retry : UInt32) : Progress ρ :=
  if retry ≤ retries then .attempting retry else .last

/-- One attempt with its outcome.  `inLoop` is the result with which an outcome
leaves the loop, if it does; `final` is the result of the last attempt. -/
def advance (inLoop : ω → Option ρ) (final : ω → ρ) :
    Progress ρ → ω → Progress ρ
  | .attempting retry, outcome =>
      match inLoop outcome with
      | none => enter retries (retry + 1)
      | some result => .finished result
  | .last, outcome => .finished (final outcome)
  | .finished result, _ => .finished result

/-- After a number of attempts. -/
def progress (inLoop : ω → Option ρ) (final : ω → ρ) (outcomes : ℕ → ω) :
    ℕ → Progress ρ
  | 0 => enter retries 1
  | n + 1 => advance retries inLoop final (progress inLoop final outcomes n)
      (outcomes n)

/-- The loop may make its attempt number `n`, counted from zero, or the last
attempt has this number. -/
def Permits (n : ℕ) : Prop :=
  n ≤ retries.toNat ∨ retries.toNat = 2 ^ 32 - 1

variable {retries} {inLoop : ω → Option ρ} {final : ω → ρ} {outcomes : ℕ → ω}

theorem enter_unfinished (retry : UInt32) :
    (enter retries retry : Progress ρ).Unfinished := by
  unfold enter
  split <;> trivial

theorem enter_eq_attempting {n : ℕ} (hpermits : Permits retries (n + 1)) :
    (enter retries (UInt32.ofNat (n + 1)) : Progress ρ) =
      .attempting (UInt32.ofNat (n + 1)) := by
  have hle : UInt32.ofNat (n + 1) ≤ retries := by
    rw [UInt32.le_iff_toNat_le, UInt32.toNat_ofNat']
    have hmod := Nat.mod_le (n + 1) (2 ^ 32)
    have hlt := Nat.mod_lt (n + 1) (Nat.two_pow_pos 32)
    rcases hpermits with hbound | hmax <;> omega
  exact if_pos hle

/-- The loop ends at its bound, unless the counter wraps around. -/
theorem permits_succ_of_enter_eq {n : ℕ} {retry : UInt32}
    (hpermits : Permits retries n)
    (henter : (enter retries (UInt32.ofNat (n + 1)) : Progress ρ) =
      .attempting retry) :
    Permits retries (n + 1) := by
  by_contra hnot
  have hgt : ¬UInt32.ofNat (n + 1) ≤ retries := by
    rw [UInt32.le_iff_toNat_le, UInt32.toNat_ofNat']
    have hlt := retries.toNat_lt
    unfold Permits at hpermits hnot
    have hsmall : n + 1 < 2 ^ 32 := by omega
    rw [Nat.mod_eq_of_lt hsmall]
    omega
  rw [enter, if_neg hgt] at henter
  cases henter

theorem Permits.of_succ {n : ℕ} (hpermits : Permits retries (n + 1)) :
    Permits retries n :=
  hpermits.imp_left Nat.le_of_succ_le

/-- While every outcome is retried, the counter follows the attempts. -/
theorem progress_eq_enter {n : ℕ}
    (hretried : ∀ k < n, inLoop (outcomes k) = none)
    (hpermits : Permits retries n) :
    progress retries inLoop final outcomes n =
      enter retries (UInt32.ofNat (n + 1)) := by
  induction n with
  | zero => rfl
  | succ n ih =>
      have hbefore := ih (fun k hk => hretried k (Nat.lt_succ_of_lt hk))
        hpermits.of_succ
      have hnext : UInt32.ofNat (n + 1) + 1 = UInt32.ofNat (n + 1 + 1) :=
        (UInt32.ofNat_add (n + 1) 1).symm
      rw [progress, hbefore, enter_eq_attempting hpermits, advance,
        hretried n n.lt_succ_self, hnext]

theorem advance_unfinished {before : Progress ρ} {outcome : ω}
    (hunfinished : (advance retries inLoop final before outcome).Unfinished) :
    (∃ retry, before = .attempting retry) ∧ inLoop outcome = none := by
  cases before with
  | attempting retry =>
      refine ⟨⟨retry, rfl⟩, ?_⟩
      cases hinLoop : inLoop outcome with
      | none => rfl
      | some result =>
          rw [advance, hinLoop] at hunfinished
          exact hunfinished.elim
  | last => exact hunfinished.elim
  | finished result => exact hunfinished.elim

/-- Attempt number `n` is made if all earlier outcomes are retried and the bound
permits it. -/
theorem unfinished_iff {n : ℕ} :
    (progress retries inLoop final outcomes n).Unfinished ↔
      (∀ k < n, inLoop (outcomes k) = none) ∧ Permits retries n := by
  constructor
  · intro hunfinished
    induction n with
    | zero =>
        exact ⟨fun k hk => absurd hk (Nat.not_lt_zero k), .inl (Nat.zero_le _)⟩
    | succ n ih =>
        obtain ⟨⟨retry, hattempting⟩, hlast⟩ := advance_unfinished hunfinished
        have hbefore : (progress retries inLoop final outcomes n).Unfinished := by
          rw [hattempting]
          trivial
        obtain ⟨hretried, hpermits⟩ := ih hbefore
        refine ⟨fun k hk => ?_, ?_⟩
        · rcases Nat.lt_succ_iff_lt_or_eq.mp hk with hk | rfl
          · exact hretried k hk
          · exact hlast
        · exact permits_succ_of_enter_eq hpermits
            ((progress_eq_enter hretried hpermits).symm.trans hattempting)
  · rintro ⟨hretried, hpermits⟩
    rw [progress_eq_enter hretried hpermits]
    exact enter_unfinished _

/-- An attempt which is made and is not retried is the last one. -/
theorem progress_succ_of_decided {n : ℕ}
    (hretried : ∀ k < n, inLoop (outcomes k) = none)
    (hpermits : Permits retries n)
    (hdecided : inLoop (outcomes n) = some (final (outcomes n))) :
    progress retries inLoop final outcomes (n + 1) =
      .finished (final (outcomes n)) := by
  rw [progress, progress_eq_enter hretried hpermits]
  unfold enter
  split
  · rw [advance, hdecided]
  · rfl

/-- Unless the counter wraps around, the attempt which follows `retries` others
is made after the loop. -/
theorem progress_succ_of_bound
    (hretried : ∀ k < retries.toNat, inLoop (outcomes k) = none)
    (hbound : retries.toNat ≠ 2 ^ 32 - 1) :
    progress retries inLoop final outcomes (retries.toNat + 1) =
      .finished (final (outcomes retries.toNat)) := by
  have hlt := retries.toNat_lt
  have hgt : ¬UInt32.ofNat (retries.toNat + 1) ≤ retries := by
    have hsmall : retries.toNat + 1 < 2 ^ 32 := by omega
    rw [UInt32.le_iff_toNat_le, UInt32.toNat_ofNat', Nat.mod_eq_of_lt hsmall]
    omega
  rw [progress, progress_eq_enter hretried (.inl le_rfl), enter, if_neg hgt]
  rfl

theorem progress_eq_finished_of_le {result : ρ} {n m : ℕ} (hle : n ≤ m)
    (hfinished : progress retries inLoop final outcomes n = .finished result) :
    progress retries inLoop final outcomes m = .finished result := by
  induction m, hle using Nat.le_induction with
  | base => exact hfinished
  | succ m _ ih => rw [progress, ih, advance]

/-- Where the counter can exceed the bound, the loop ends with the first outcome
which leaves it, or with the last attempt. -/
theorem finished_iff (hbound : retries.toNat ≠ 2 ^ 32 - 1) {result : ρ} :
    progress retries inLoop final outcomes (retries.toNat + 1) =
        .finished result ↔
      (∃ n < retries.toNat, (∀ k < n, inLoop (outcomes k) = none) ∧
        inLoop (outcomes n) = some result) ∨
      ((∀ k < retries.toNat, inLoop (outcomes k) = none) ∧
        final (outcomes retries.toNat) = result) := by
  have hleft {n : ℕ} {outcome : ρ} (hn : n < retries.toNat)
      (hretried : ∀ k < n, inLoop (outcomes k) = none)
      (hleaves : inLoop (outcomes n) = some outcome) :
      progress retries inLoop final outcomes (retries.toNat + 1) =
        .finished outcome := by
    refine progress_eq_finished_of_le (n := n + 1) (by omega) ?_
    rw [progress, progress_eq_enter hretried (.inl hn.le),
      enter_eq_attempting (.inl hn), advance, hleaves]
  constructor
  · intro hfinished
    by_cases hretried : ∀ k < retries.toNat, inLoop (outcomes k) = none
    · rw [progress_succ_of_bound hretried hbound] at hfinished
      exact .inr ⟨hretried, Progress.finished.inj hfinished⟩
    · classical
      push Not at hretried
      obtain ⟨hn, hleaves⟩ := Nat.find_spec hretried
      obtain ⟨outcome, houtcome⟩ := Option.ne_none_iff_exists'.mp hleaves
      have hbefore : ∀ k < Nat.find hretried, inLoop (outcomes k) = none := by
        intro k hk
        by_contra hk'
        exact Nat.find_min hretried hk ⟨hk.trans hn, hk'⟩
      rw [hleft hn hbefore houtcome] at hfinished
      exact .inl ⟨_, hn, hbefore, Progress.finished.inj hfinished ▸ houtcome⟩
  · rintro (⟨n, hn, hretried, hleaves⟩ | ⟨hretried, rfl⟩)
    · exact hleft hn hretried hleaves
    · exact progress_succ_of_bound hretried hbound

end Loop

end RetryLoop
