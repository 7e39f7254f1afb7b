import SoftwareEntitlement.DotNetValues

/-!
# Results and error sets

`Result<TOk, TError>` is Lean's `Except`, so that a LINQ query over results is
a `do` block: `SelectMany` and `Select` are its bind and map, and `Where` is a
check which fails with the error of its predicate.  The combinators which
collect the errors of both operands are written out here.
-/

namespace SoftwareEntitlement

abbrev Result (TOk TError : Type) := Except TError TOk

/-- Error types whose values can be merged. -/
class ICombinable (T : Type) where
  combine : T → T → T

/-- A set of error messages.  `ErrorSet.Create` refuses an empty message, and
no caller passes one. -/
structure ErrorSet where
  errors : ImmutableHashSet String

namespace ErrorSet

def create (error : String) : ErrorSet :=
  ⟨ImmutableHashSet.createRange [error]⟩

def combine (first second : ErrorSet) : ErrorSet :=
  ⟨first.errors.union second.errors⟩

instance : ICombinable ErrorSet := ⟨combine⟩

instance associative_combine :
    Std.Associative (ICombinable.combine : ErrorSet → ErrorSet → ErrorSet) where
  assoc first second third := by
    simp [ICombinable.combine, combine, ImmutableHashSet.union_assoc]

def joined (errors : ErrorSet) : String :=
  String.intercalate "; " errors.errors.items

end ErrorSet

inductive PredicateResult (TFailure : Type) where
  | success
  | failure (left : TFailure)

/-- `AsPredicateFailure`: a condition which must not hold. -/
def asPredicateFailure {ε : Type} (result : Bool) (whenError : ε) :
    PredicateResult ε :=
  if result then .failure whenError else .success

namespace Result

variable {α β γ ε ε' : Type}

/-- `With`: both values, or the errors of every operand that failed. -/
def with' [ICombinable ε] (result : Result α ε) (otherResult : Result β ε)
    (okCombiner : α → β → γ) : Result γ ε :=
  match result, otherResult with
  | .ok firstOk, .ok secondOk => .ok (okCombiner firstOk secondOk)
  | .ok _, .error secondError => .error secondError
  | .error firstError, .ok _ => .error firstError
  | .error firstError, .error secondError =>
      .error (ICombinable.combine firstError secondError)

/-- `Join ... on true equals true`. -/
def join [ICombinable ε] (outer : Result α ε) (inner : Result β ε) :
    Result (α × β) ε :=
  outer.with' inner Prod.mk

def onError (result : Result α ε) (operation : ε → ε') : Result α ε' :=
  match result with
  | .ok value => .ok value
  | .error error => .error (operation error)

/-- Combine the values when both sides have the same type. -/
def merge (result : Result α α) : α :=
  match result with
  | .ok value => value
  | .error error => error

/-- A result as the source of a query whose later clauses have effects. -/
def toQuery {m : Type → Type} [Monad m] (result : Result α ε) :
    ExceptT ε m α :=
  ExceptT.mk (pure result)

def reduceStep [ICombinable ε] (result : Result (List α) ε)
    (either : Result α ε) : Result (List α) ε :=
  result.with' either fun first second => first ++ [second]

/-- `Reduce`: all the values if every result is OK, else all the errors. -/
def reduce [ICombinable ε] (results : List (Result α ε)) :
    Result (List α) ε :=
  results.foldl reduceStep (.ok [])

def failure : Result α ε → Option ε
  | .ok _ => none
  | .error error => some error

/-- The errors of the results which failed, in order. -/
def failures (results : List (Result α ε)) : List ε :=
  results.filterMap failure

theorem failures_eq_nil_iff {results : List (Result α ε)} :
    failures results = [] ↔
      ∀ result ∈ results, ∃ value, result = .ok value := by
  rw [failures, List.filterMap_eq_nil_iff]
  refine forall₂_congr fun result _ => ?_
  cases result <;> simp [failure]

theorem map_eq_ok_iff {result : Result α ε} {f : α → β} {value : β} :
    result.map f = .ok value ↔ ∃ given, result = .ok given ∧ f given = value := by
  cases result <;> simp [Except.map]

theorem join_eq_ok_iff [ICombinable ε] {outer : Result α ε}
    {inner : Result β ε} {pair : α × β} :
    outer.join inner = .ok pair ↔
      outer = .ok pair.1 ∧ inner = .ok pair.2 := by
  obtain ⟨first, second⟩ := pair
  cases outer <;> cases inner <;> simp [join, with']

@[simp] theorem join_ok [ICombinable ε] (first : α) (second : β) :
    join (ε := ε) (.ok first) (.ok second) = .ok (first, second) := rfl

theorem foldl_reduceStep_error [ICombinable ε]
    (results : List (Result α ε)) (error : ε) :
    results.foldl reduceStep (.error error) =
      .error ((failures results).foldl ICombinable.combine error) := by
  induction results generalizing error with
  | nil => rfl
  | cons either rest ih =>
      cases either with
      | ok value => exact ih error
      | error other => exact ih (ICombinable.combine error other)

theorem foldl_reduceStep_ok [ICombinable ε]
    (results : List (Result α ε)) (before values : List α) :
    results.foldl reduceStep (.ok before) = .ok values ↔
      ∃ rest, values = before ++ rest ∧ results = rest.map .ok := by
  induction results generalizing before with
  | nil =>
      simp only [List.foldl_nil, Except.ok.injEq]
      constructor
      · intro heq
        exact ⟨[], by simp [heq], rfl⟩
      · rintro ⟨rest, hvalues, hrest⟩
        have hnil : rest = [] := List.map_eq_nil_iff.mp hrest.symm
        simp [hvalues, hnil]
  | cons either results ih =>
      cases either with
      | error error =>
          have hstep : reduceStep (.ok before) (.error error) =
              (.error error : Result (List α) ε) := rfl
          rw [List.foldl_cons, hstep, foldl_reduceStep_error]
          constructor
          · intro heq
            cases heq
          · rintro ⟨rest, -, hrest⟩
            cases rest <;> simp at hrest
      | ok value =>
          have hstep : reduceStep (.ok before) (.ok value) =
              (.ok (before ++ [value]) : Result (List α) ε) := rfl
          rw [List.foldl_cons, hstep, ih]
          constructor
          · rintro ⟨rest, hvalues, hrest⟩
            exact ⟨value :: rest, by simp [hvalues], by simp [hrest]⟩
          · rintro ⟨rest, hvalues, hrest⟩
            cases rest with
            | nil => simp at hrest
            | cons first rest =>
                simp only [List.map_cons, List.cons.injEq,
                  Except.ok.injEq] at hrest
                obtain ⟨rfl, hrest⟩ := hrest
                exact ⟨rest, by simp [hvalues], hrest⟩

/-- `Reduce` succeeds exactly when every element does, and then returns the
values in order. -/
theorem reduce_eq_ok_iff [ICombinable ε] {results : List (Result α ε)}
    {values : List α} :
    reduce results = .ok values ↔ results = values.map .ok := by
  unfold reduce
  rw [foldl_reduceStep_ok]
  simp

/-! ## Reported errors -/

/-- The result is an error with this message among others. -/
def Reports (result : Result α ErrorSet) (message : String) : Prop :=
  ∃ errors, result = .error errors ∧ message ∈ errors.errors

section Reports

variable {outer : Result α ErrorSet} {inner : Result β ErrorSet}
  {message : String}

theorem reports_with' {okCombiner : α → β → γ} :
    (outer.with' inner okCombiner).Reports message ↔
      outer.Reports message ∨ inner.Reports message := by
  cases outer with
  | ok first =>
      cases inner with
      | ok second => simp [Reports, with']
      | error errors => simp [Reports, with']
  | error outerErrors =>
      cases inner with
      | ok second => simp [Reports, with']
      | error innerErrors =>
          simp [Reports, with', ICombinable.combine, ErrorSet.combine,
            ImmutableHashSet.mem_union]

theorem reports_join :
    (outer.join inner).Reports message ↔
      outer.Reports message ∨ inner.Reports message :=
  reports_with'

theorem reports_foldl_reduceStep {results : List (Result α ErrorSet)}
    {before : Result (List α) ErrorSet} :
    Reports (results.foldl reduceStep before) message ↔
      before.Reports message ∨ ∃ result ∈ results, result.Reports message := by
  induction results generalizing before with
  | nil => simp
  | cons result results ih =>
      rw [List.foldl_cons, ih, reduceStep, reports_with', or_assoc]
      simp

/-- `Reduce` reports what any of the results reports. -/
theorem reports_reduce {results : List (Result α ErrorSet)} :
    (reduce results).Reports message ↔
      ∃ result ∈ results, result.Reports message := by
  rw [reduce, reports_foldl_reduceStep]
  simp [Reports]

end Reports

end Result

end SoftwareEntitlement
