import SoftwareEntitlement.Results

/-!
# Reducing a list of results

`Reduce` folds a list from the left.  Joining two results for sequences under
concatenation is associative as soon as the errors combine associatively, and
has the empty success as its identity.  A reduction is therefore a product,
and the list may be cut anywhere.
-/

namespace SoftwareEntitlement

namespace Result

variable {α ε : Type} [ICombinable ε]

/-- One step, as the query in the fold writes it. -/
theorem reduceStep_eq_map (result : Result (List α) ε)
    (either : Result α ε) :
    reduceStep result either =
      (result.join either).map fun combined =>
        combined.1 ++ [combined.2] := by
  cases result <;> cases either <;> rfl

/-- Two results for sequences, one after the other. -/
def concat (first second : Result (List α) ε) : Result (List α) ε :=
  first.with' second (· ++ ·)

theorem concat_empty (result : Result (List α) ε) :
    result.concat (.ok []) = result := by
  cases result with
  | ok values => simp [concat, with']
  | error error => rfl

instance associative_concat
    [Std.Associative (ICombinable.combine : ε → ε → ε)] :
    Std.Associative (concat : Result (List α) ε → _ → _) where
  assoc first second third := by
    cases first <;> cases second <;> cases third <;>
      simp [concat, with', Std.Associative.assoc]

theorem reduce_eq_foldl_concat (results : List (Result α ε)) :
    reduce results =
      (results.map fun result => result.map fun value => [value]).foldl
        concat (.ok []) := by
  have hstep : ∀ (result : Result (List α) ε) (either : Result α ε),
      reduceStep result either =
        result.concat (either.map fun value => [value]) := by
    intro result either
    cases result <;> cases either <;> rfl
  rw [reduce, List.foldl_map]
  simp only [← hstep]

theorem reduce_append
    [Std.Associative (ICombinable.combine : ε → ε → ε)]
    (xs ys : List (Result α ε)) :
    reduce (xs ++ ys) = (reduce xs).concat (reduce ys) := by
  rw [reduce_eq_foldl_concat (xs ++ ys), List.map_append, List.foldl_append,
    ← reduce_eq_foldl_concat xs]
  calc
    _ = List.foldl concat ((reduce xs).concat (.ok []))
          (ys.map fun result => result.map fun value => [value]) := by
        rw [concat_empty]
    _ = (reduce xs).concat (reduce ys) := by
        rw [List.foldl_assoc, ← reduce_eq_foldl_concat ys]

/-- The errors of a list are combined from the left, and none is left out. -/
theorem foldl_reduceStep_of_failures {results : List (Result α ε)}
    {first : ε} {rest : List ε} (before : List α)
    (hfailures : failures results = first :: rest) :
    results.foldl reduceStep (.ok before) =
      .error (rest.foldl ICombinable.combine first) := by
  induction results generalizing before with
  | nil => cases hfailures
  | cons either results ih =>
      cases either with
      | ok value => exact ih (before ++ [value]) hfailures
      | error error =>
          -- From the first error on, values are no longer collected.
          obtain ⟨rfl, rfl⟩ := List.cons.inj hfailures
          exact foldl_reduceStep_error results error

theorem exists_reduce_iff {results : List (Result α ε)} :
    (∃ values, reduce results = .ok values) ↔
      ∀ result ∈ results, ∃ value, result = .ok value := by
  constructor
  · rintro ⟨values, hvalues⟩ result hresult
    rw [reduce_eq_ok_iff.mp hvalues] at hresult
    obtain ⟨value, -, hvalue⟩ := List.mem_map.mp hresult
    exact ⟨value, hvalue.symm⟩
  · intro hok
    induction results with
    | nil => exact ⟨[], rfl⟩
    | cons either results ih =>
        obtain ⟨⟨value, rfl⟩, hrest⟩ := List.forall_mem_cons.mp hok
        obtain ⟨values, hvalues⟩ := ih hrest
        refine ⟨value :: values, reduce_eq_ok_iff.mpr ?_⟩
        rw [List.map_cons, ← reduce_eq_ok_iff.mp hvalues]

/-- What becomes of a list: all values in order if every element is OK, and
else the errors of the failing elements, combined from left to right. -/
structure Collects (results : List (Result α ε)) : Prop where
  succeeds : (∃ values, reduce results = .ok values) ↔
    ∀ result ∈ results, ∃ value, result = .ok value
  values : ∀ values, reduce results = .ok values → results = values.map .ok
  errors : ∀ error, reduce results = .error error →
    ∃ first rest, failures results = first :: rest ∧
      error = rest.foldl ICombinable.combine first

theorem collects (results : List (Result α ε)) : Collects results := by
  refine ⟨exists_reduce_iff, fun values => reduce_eq_ok_iff.mp,
    fun error herror => ?_⟩
  cases hfailures : failures results with
  | nil =>
      obtain ⟨values, hvalues⟩ :=
        exists_reduce_iff.mpr (failures_eq_nil_iff.mp hfailures)
      rw [herror] at hvalues
      cases hvalues
  | cons first rest =>
      refine ⟨first, rest, rfl, ?_⟩
      have hreduce := foldl_reduceStep_of_failures [] hfailures
      exact Except.error.inj (herror.symm.trans hreduce)

end Result

/-- `Reduce` collects all values or all errors, and may be taken piece by
piece. -/
theorem reduce_collects {α ε : Type} [ICombinable ε]
    [Std.Associative (ICombinable.combine : ε → ε → ε)] :
    Result.reduce ([] : List (Result α ε)) = .ok [] ∧
      (∀ results : List (Result α ε), Result.Collects results) ∧
      ∀ xs ys : List (Result α ε),
        Result.reduce (xs ++ ys) =
          (Result.reduce xs).with' (Result.reduce ys) (· ++ ·) :=
  ⟨rfl, Result.collects, Result.reduce_append⟩

/-- Two errors on either side of the cut. -/
theorem reduce_collects_errors :
    Result.reduce
        ([.ok 1, .error (.create "first")] ++
          [.error (.create "second"), .ok 2] : List (Result ℕ ErrorSet)) =
      .error ⟨.createRange ["first", "second"]⟩ := by
  rw [reduce_collects.2.2]
  rfl

end SoftwareEntitlement
