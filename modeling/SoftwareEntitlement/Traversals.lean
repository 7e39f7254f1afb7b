import Mathlib.Data.List.Forall2

/-!
# Traversals which may fail

Applying a fallible function to the elements of a list, from the left, ends at
the first error.  It succeeds exactly when the function succeeds on every
element, and then collects the values in order.
-/

namespace Traversal

variable {α β ε : Type} {f : α → Except ε β} {xs : List α} {ys : List β}

theorem bind_eq_ok_iff {computed : Except ε α} {y : β} :
    computed >>= f = .ok y ↔ ∃ x, computed = .ok x ∧ f x = .ok y := by
  cases computed <;> simp [bind, Except.bind]

theorem mapM_eq_ok_iff :
    xs.mapM f = .ok ys ↔ List.Forall₂ (fun x y => f x = .ok y) xs ys := by
  induction xs generalizing ys with
  | nil => simp [pure, Except.pure, eq_comm]
  | cons x xs ih =>
      simp only [List.mapM_cons, bind_eq_ok_iff, ih, pure, Except.pure,
        Except.ok.injEq, List.forall₂_cons_left_iff]
      constructor
      · rintro ⟨y, hhead, rest, htail, rfl⟩
        exact ⟨y, rest, hhead, htail, rfl⟩
      · rintro ⟨y, rest, hhead, htail, rfl⟩
        exact ⟨y, hhead, rest, htail, rfl⟩

theorem exists_mapM_iff :
    (∃ ys, xs.mapM f = .ok ys) ↔ ∀ x ∈ xs, ∃ y, f x = .ok y := by
  simp only [mapM_eq_ok_iff]
  induction xs with
  | nil => simp
  | cons x xs ih =>
      simp only [List.forall₂_cons_left_iff, List.forall_mem_cons, ← ih]
      constructor
      · rintro ⟨_, y, rest, hhead, htail, -⟩
        exact ⟨⟨y, hhead⟩, rest, htail⟩
      · rintro ⟨⟨y, hhead⟩, rest, htail⟩
        exact ⟨y :: rest, y, rest, hhead, htail, rfl⟩

theorem mem_iff_of_mapM (hmapM : xs.mapM f = .ok ys) {y : β} :
    y ∈ ys ↔ ∃ x ∈ xs, f x = .ok y := by
  have hall := mapM_eq_ok_iff.mp hmapM
  clear hmapM
  induction hall with
  | nil => simp
  | cons hhead _ ih =>
      simp only [List.mem_cons, ih, exists_eq_or_imp, hhead, Except.ok.injEq]
      exact or_congr_left eq_comm

end Traversal
