import SoftwareEntitlement.Traversals
import Mathlib.Logic.Function.Basic

/-!
# Copy-on-write records

A record whose values are never changed is modified by calls which return a
copy.  A call assigns a value to one field, or refuses its argument; whether
it does depends on the argument alone.  The last assignment to a field decides
what a sequence of calls leaves in it, and assignments to different fields
commute.
-/

/-- A record type `σ` with its calls `κ`: what each call assigns, and the
function which performs it. -/
structure CopyOnWrite (σ κ ε : Type) {Field : Type} (Value : Field → Type)
    [DecidableEq Field] where
  get : σ → (field : Field) → Value field
  get_injective : Function.Injective get
  assign : κ → Option ((field : Field) × Value field)
  perform : κ → σ → Except ε σ
  perform_assigned : ∀ {call field value} s,
    assign call = some ⟨field, value⟩ →
      ∃ t, perform call s = .ok t ∧ get t = Function.update (get s) field value
  perform_refused : ∀ {call} s, assign call = none →
    ∃ error, perform call s = .error error

namespace CopyOnWrite

variable {σ κ ε Field : Type} {Value : Field → Type} [DecidableEq Field]
  (record : CopyOnWrite σ κ ε Value)

/-- What a call assigns to the given field. -/
def assigned (field : Field) (call : κ) : Option (Value field) :=
  match record.assign call with
  | none => none
  | some ⟨target, value⟩ =>
      if h : target = field then some (h ▸ value) else none

def lastAssigned (field : Field) : List κ → Option (Value field)
  | [] => none
  | call :: calls =>
      (lastAssigned field calls).or (record.assigned field call)

/-- Perform the calls in order, each on the copy which the one before it has
returned. -/
def performAll (calls : List κ) (s : σ) : Except ε σ :=
  calls.foldlM (fun s call => record.perform call s) s

variable {record} {call other : κ} {s t : σ}

theorem perform_eq_ok_iff :
    record.perform call s = .ok t ↔ ∃ field value,
      record.assign call = some ⟨field, value⟩ ∧
        record.get t = Function.update (record.get s) field value := by
  cases hassign : record.assign call with
  | none =>
      obtain ⟨error, herror⟩ := record.perform_refused s hassign
      simp [herror]
  | some assignment =>
      obtain ⟨field, value⟩ := assignment
      obtain ⟨copy, hcopy, hget⟩ := record.perform_assigned s hassign
      rw [hcopy, Except.ok.injEq]
      constructor
      · rintro rfl
        exact ⟨field, value, rfl, hget⟩
      · rintro ⟨_, _, ⟨⟩, hupdated⟩
        exact record.get_injective (hget.trans hupdated.symm)

theorem get_of_perform (hperform : record.perform call s = .ok t)
    (field : Field) :
    record.get t field =
      (record.assigned field call).getD (record.get s field) := by
  obtain ⟨target, value, hassign, hget⟩ := perform_eq_ok_iff.mp hperform
  rw [hget, assigned, hassign]
  by_cases htarget : target = field
  · subst htarget
    simp
  · simp [htarget, Function.update_of_ne (Ne.symm htarget)]

theorem get_of_performAll {calls : List κ}
    (hperform : record.performAll calls s = .ok t) (field : Field) :
    record.get t field =
      (record.lastAssigned field calls).getD (record.get s field) := by
  induction calls generalizing s with
  | nil =>
      obtain rfl : s = t := Except.ok.inj hperform
      rfl
  | cons call calls ih =>
      obtain ⟨copy, hcopy, hrest⟩ :=
        Traversal.bind_eq_ok_iff.mp ((List.foldlM_cons ..).symm.trans hperform)
      rw [ih hrest, get_of_perform hcopy field, lastAssigned]
      cases record.lastAssigned field calls <;> rfl

theorem exists_performAll_iff {calls : List κ} :
    (∃ t, record.performAll calls s = .ok t) ↔
      ∀ call ∈ calls, (record.assign call).isSome := by
  induction calls generalizing s with
  | nil => exact iff_of_true ⟨s, rfl⟩ (by simp)
  | cons call calls ih =>
      simp only [performAll, List.foldlM_cons, Traversal.bind_eq_ok_iff,
        List.forall_mem_cons]
      constructor
      · rintro ⟨t, copy, hcopy, hrest⟩
        obtain ⟨field, value, hassign, -⟩ := perform_eq_ok_iff.mp hcopy
        exact ⟨by simp [hassign], ih.mp ⟨t, hrest⟩⟩
      · rintro ⟨hassign, hcalls⟩
        obtain ⟨⟨field, value⟩, hassign⟩ := Option.isSome_iff_exists.mp hassign
        obtain ⟨copy, hcopy, -⟩ := record.perform_assigned s hassign
        obtain ⟨t, hrest⟩ := ih.mpr hcalls
        exact ⟨t, copy, hcopy, hrest⟩

/-- Two accepted calls which assign to different fields commute. -/
theorem perform_comm {first second : (field : Field) × Value field}
    (hcall : record.assign call = some first)
    (hother : record.assign other = some second) (hne : first.1 ≠ second.1) :
    record.performAll [call, other] s = record.performAll [other, call] s := by
  have haccepted : ∀ calls : List κ, calls ⊆ [call, other] →
      ∃ t, record.performAll calls s = .ok t := by
    intro calls hsubset
    refine exists_performAll_iff.mpr fun c hc => ?_
    have hmem := hsubset hc
    simp only [List.mem_cons, List.not_mem_nil, or_false] at hmem
    rcases hmem with rfl | rfl
    · simp [hcall]
    · simp [hother]
  obtain ⟨t, ht⟩ := haccepted [call, other] (List.Subset.refl _)
  obtain ⟨u, hu⟩ := haccepted [other, call] (by simp)
  rw [ht, hu, Except.ok.injEq]
  refine record.get_injective (funext fun field => ?_)
  rw [get_of_performAll ht, get_of_performAll hu]
  have hdisjoint : record.assigned field call = none ∨
      record.assigned field other = none := by
    by_cases hfield : first.1 = field
    · right
      have htarget : second.1 ≠ field := fun h => hne (hfield.trans h.symm)
      simp [assigned, hother, htarget]
    · left
      simp [assigned, hcall, hfield]
  simp only [lastAssigned, Option.none_or]
  rcases hdisjoint with hnone | hnone <;> simp [hnone]

/-- A sequence of accepted calls returns, and leaves in each field the value
which the last call for it assigns, or else the original value; accepted calls
for different fields commute. -/
structure LastCallDecides (record : CopyOnWrite σ κ ε Value) : Prop where
  fields : ∀ calls original, (∀ call ∈ calls, (record.assign call).isSome) →
    ∃ result, record.performAll calls original = .ok result ∧
      ∀ field, record.get result field =
        (record.lastAssigned field calls).getD (record.get original field)
  commute : ∀ first second original assignment assignment',
    record.assign first = some assignment →
      record.assign second = some assignment' →
        assignment.1 ≠ assignment'.1 →
          record.performAll [first, second] original =
            record.performAll [second, first] original

theorem lastCallDecides (record : CopyOnWrite σ κ ε Value) :
    record.LastCallDecides := by
  constructor
  · intro calls original haccepted
    obtain ⟨result, hresult⟩ := exists_performAll_iff.mpr haccepted
    exact ⟨result, hresult, get_of_performAll hresult⟩
  · intro first second original assignment assignment' hfirst hsecond hne
    exact perform_comm hfirst hsecond hne

end CopyOnWrite
