import Mathlib.Data.List.Basic

/-!
# Search loops with early exits

The body of a search loop judges one element: it goes on to the next one, or
leaves the loop successfully, or leaves it with an error.  Nested loops of
this kind are one loop over the pairs they visit, in the order in which they
visit them.
-/

namespace SearchLoop

/-- What the body of the loop decides about one element. -/
inductive Verdict (ε : Type) where
  | proceed
  | accept
  | abort (error : ε)
  deriving DecidableEq

variable {α β ε : Type}

/-- Leave the loop at the first element on which the body decides. -/
def scan (judge : α → Verdict ε) : List α → Verdict ε
  | [] => .proceed
  | a :: rest =>
      match judge a with
      | .proceed => scan judge rest
      | decided => decided

theorem scan_cons_of_proceed {judge : α → Verdict ε} {a : α} (rest : List α)
    (hjudge : judge a = .proceed) :
    scan judge (a :: rest) = scan judge rest := by
  simp [scan, hjudge]

theorem scan_append (judge : α → Verdict ε) (first second : List α) :
    scan judge (first ++ second) =
      match scan judge first with
      | .proceed => scan judge second
      | decided => decided := by
  induction first with
  | nil => rfl
  | cons a rest ih =>
      cases hverdict : judge a with
      | proceed => simpa [scan, hverdict] using ih
      | accept => simp [scan, hverdict]
      | abort error => simp [scan, hverdict]

theorem scan_map (judge : β → Verdict ε) (f : α → β) (items : List α) :
    scan judge (items.map f) = scan (fun a => judge (f a)) items := by
  induction items with
  | nil => rfl
  | cons a rest ih => simp [scan, ih]

theorem scan_flatMap (judge : β → Verdict ε) (f : α → List β)
    (items : List α) :
    scan judge (items.flatMap f) =
      scan (fun a => scan judge (f a)) items := by
  induction items with
  | nil => rfl
  | cons a rest ih =>
      rw [List.flatMap_cons, scan_append, ih]
      rfl

theorem split_of_scan_eq_abort {judge : α → Verdict ε} {items : List α}
    {error : ε} (habort : scan judge items = .abort error) :
    ∃ before a after, items = before ++ a :: after ∧ judge a = .abort error ∧
      ∀ b ∈ before, judge b = .proceed := by
  induction items with
  | nil => cases habort
  | cons a rest ih =>
      cases hverdict : judge a with
      | proceed =>
          rw [scan_cons_of_proceed rest hverdict] at habort
          obtain ⟨before, b, after, rfl, hb, hbefore⟩ := ih habort
          exact ⟨a :: before, b, after, rfl, hb,
            List.forall_mem_cons.mpr ⟨hverdict, hbefore⟩⟩
      | accept => simp [scan, hverdict] at habort
      | abort first =>
          rw [scan, hverdict] at habort
          exact ⟨[], a, rest, rfl, hverdict.trans habort, by simp⟩

theorem exists_of_scan_eq_abort {judge : α → Verdict ε} {items : List α}
    {error : ε} (habort : scan judge items = .abort error) :
    ∃ a ∈ items, judge a = .abort error := by
  obtain ⟨before, a, after, rfl, ha, -⟩ := split_of_scan_eq_abort habort
  exact ⟨a, by simp, ha⟩

theorem proceed_of_scan_eq_proceed {judge : α → Verdict ε} {items : List α}
    (hproceed : scan judge items = .proceed) :
    ∀ a ∈ items, judge a = .proceed := by
  induction items with
  | nil => simp
  | cons a rest ih =>
      cases hverdict : judge a with
      | proceed =>
          rw [scan_cons_of_proceed rest hverdict] at hproceed
          exact List.forall_mem_cons.mpr ⟨hverdict, ih hproceed⟩
      | accept => simp [scan, hverdict] at hproceed
      | abort error => simp [scan, hverdict] at hproceed

/-- The loop succeeds when it reaches an element which is accepted. -/
theorem scan_eq_accept_iff {judge : α → Verdict ε} {items : List α} :
    scan judge items = .accept ↔
      ∃ before a after, items = before ++ a :: after ∧ judge a = .accept ∧
        ∀ b ∈ before, judge b = .proceed := by
  constructor
  · intro haccept
    induction items with
    | nil => cases haccept
    | cons a rest ih =>
        cases hverdict : judge a with
        | proceed =>
            rw [scan_cons_of_proceed rest hverdict] at haccept
            obtain ⟨before, b, after, rfl, hb, hbefore⟩ := ih haccept
            exact ⟨a :: before, b, after, rfl, hb,
              List.forall_mem_cons.mpr ⟨hverdict, hbefore⟩⟩
        | accept =>
            exact ⟨[], a, rest, rfl, hverdict, by simp⟩
        | abort error =>
            simp [scan, hverdict] at haccept
  · rintro ⟨before, a, after, rfl, ha, hbefore⟩
    induction before with
    | nil => simp [scan, ha]
    | cons b before ih =>
        obtain ⟨hb, hbefore⟩ := List.forall_mem_cons.mp hbefore
        rw [List.cons_append, scan_cons_of_proceed _ hb]
        exact ih hbefore

/-- Of two positions in a list, one is before the other or they are the same. -/
theorem mem_or_eq_or_mem_of_append_cons_eq {before after before' after' : List α}
    {a b : α} (happend : before ++ a :: after = before' ++ b :: after') :
    a ∈ before' ∨ a = b ∨ b ∈ before := by
  rcases List.append_eq_append_iff.mp happend with
    ⟨between, rfl, hbetween⟩ | ⟨between, rfl, hbetween⟩
  · cases between with
    | nil => exact .inr (.inl (List.cons.inj hbetween).1)
    | cons first between =>
        obtain ⟨rfl, -⟩ := List.cons.inj hbetween
        exact .inl (by simp)
  · cases between with
    | nil => exact .inr (.inl (List.cons.inj hbetween).1.symm)
    | cons first between =>
        obtain ⟨rfl, -⟩ := List.cons.inj hbetween
        exact .inr (.inr (by simp))

theorem scan_eq_accept_of_no_abort {judge : α → Verdict ε} {before after : List α}
    {a : α} (haccept : judge a = .accept)
    (hbefore : ∀ b ∈ before, ∀ error, judge b ≠ .abort error) :
    scan judge (before ++ a :: after) = .accept := by
  induction before with
  | nil => simp [scan, haccept]
  | cons b before ih =>
      obtain ⟨hb, hbefore⟩ := List.forall_mem_cons.mp hbefore
      cases hverdict : judge b with
      | proceed =>
          rw [List.cons_append, scan_cons_of_proceed _ hverdict]
          exact ih hbefore
      | accept => simp [scan, hverdict]
      | abort error => exact absurd hverdict (hb error)

end SearchLoop
