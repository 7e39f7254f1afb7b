import SoftwareEntitlement.EntitlementStore
import Mathlib.Data.List.Basic

/-!
# The ledger of committed updates

The abstract store: a sequential machine which performs one update at a time.
The main result gives the record under an identifier in closed form, so that
what an update adds and what later updates keep can be read off the list of
updates.  Lists of updates are written newest first.
-/

namespace SoftwareEntitlement

inductive Update where
  | stored (id : String) (tokenProperties : EntitlementTokenProperties)
      (time : DateTimeOffset)
  | renewed (id : String) (time : DateTimeOffset)
  | released (id : String) (time : DateTimeOffset)

def Update.id : Update → String
  | .stored id _ _ => id
  | .renewed id _ => id
  | .released id _ => id

abbrev Contents := String → Option EntitlementProperties

def Contents.revise (contents : Contents) (id : String)
    (revision : EntitlementProperties → EntitlementProperties) :
    Option Contents :=
  (contents id).map fun record =>
    Function.update contents id (some (revision record))

/-- One update of the abstract store.  A record is stored once, and only a
stored record can be renewed or released. -/
def Update.apply (contents : Contents) : Update → Option Contents
  | .stored id tokenProperties time =>
      some (Function.update contents id
        (some ((contents id).getD (.createNew id tokenProperties time))))
  | .renewed id time => contents.revise id fun record => record.withRenewal time
  | .released id time => contents.revise id fun record => record.withRelease time

/-- The store after a list of updates, `none` if one of them was impossible. -/
def replay : List Update → Option Contents
  | [] => some fun _ => none
  | update :: earlier => (replay earlier).bind update.apply

/-! ## What a ledger says about one identifier -/

def firstStored (id : String) :
    List Update → Option (EntitlementTokenProperties × DateTimeOffset)
  | [] => none
  | .stored id' tokenProperties time :: earlier =>
      (firstStored id earlier).or
        (if id' = id then some (tokenProperties, time) else none)
  | _ :: earlier => firstStored id earlier

def renewalTimes (id : String) : List Update → List DateTimeOffset
  | [] => []
  | .renewed id' time :: earlier =>
      renewalTimes id earlier ++ if id' = id then [time] else []
  | _ :: earlier => renewalTimes id earlier

/-- The time of the last release to commit. -/
def lastRelease (id : String) : List Update → Option DateTimeOffset
  | [] => none
  | .released id' time :: earlier =>
      if id' = id then some time else lastRelease id earlier
  | _ :: earlier => lastRelease id earlier

def ledgerRecord (id : String) (updates : List Update) :
    Option EntitlementProperties :=
  (firstStored id updates).map fun stored => {
    entitlementId := id
    tokenProperties := stored.1
    acquisitionEventTime := stored.2
    renewalEventTimes := renewalTimes id updates
    releaseEventTime := lastRelease id updates }

/-! ## Membership in a ledger -/

theorem firstStored_isSome_iff (id : String) (updates : List Update) :
    (firstStored id updates).isSome ↔
      ∃ tokenProperties time, .stored id tokenProperties time ∈ updates := by
  induction updates with
  | nil => simp [firstStored]
  | cons update earlier ih =>
      cases update with
      | stored id' tokenProperties time =>
          by_cases heq : id' = id
          · subst heq
            simp only [firstStored, if_true, Option.isSome_or, Option.isSome_some,
              Bool.or_true, true_iff]
            exact ⟨tokenProperties, time, List.mem_cons_self⟩
          · simp [firstStored, heq, ih, Ne.symm heq]
      | renewed id' time => simp [firstStored, ih]
      | released id' time => simp [firstStored, ih]

theorem mem_of_firstStored {id : String} {updates : List Update}
    {stored : EntitlementTokenProperties × DateTimeOffset}
    (hfirst : firstStored id updates = some stored) :
    .stored id stored.1 stored.2 ∈ updates := by
  induction updates with
  | nil => cases hfirst
  | cons update earlier ih =>
      cases update with
      | stored id' tokenProperties time =>
          rcases Option.or_eq_some_iff.mp hfirst with hearlier | ⟨-, hself⟩
          · exact List.mem_cons_of_mem _ (ih hearlier)
          · by_cases heq : id' = id
            · subst heq
              simp only [if_true, Option.some.injEq] at hself
              subst hself
              exact List.mem_cons_self
            · simp [heq] at hself
      | renewed id' time => exact List.mem_cons_of_mem _ (ih hfirst)
      | released id' time => exact List.mem_cons_of_mem _ (ih hfirst)

theorem lastRelease_isSome_iff (id : String) (updates : List Update) :
    (lastRelease id updates).isSome ↔ ∃ time, .released id time ∈ updates := by
  induction updates with
  | nil => simp [lastRelease]
  | cons update earlier ih =>
      cases update with
      | released id' time =>
          by_cases heq : id' = id
          · simp [lastRelease, heq]
          · simp [lastRelease, heq, ih, Ne.symm heq]
      | stored id' tokenProperties time => simp [lastRelease, ih]
      | renewed id' time => simp [lastRelease, ih]

theorem renewalTimes_eq_nil_iff (id : String) (updates : List Update) :
    renewalTimes id updates = [] ↔ ∀ time, .renewed id time ∉ updates := by
  induction updates with
  | nil => simp [renewalTimes]
  | cons update earlier ih =>
      cases update with
      | renewed id' time =>
          by_cases heq : id' = id
          · subst heq
            simp only [renewalTimes, if_true, List.append_eq_nil_iff,
              List.cons_ne_self, and_false, false_iff, not_forall, not_not]
            exact ⟨time, List.mem_cons_self⟩
          · simp [renewalTimes, heq, ih, Ne.symm heq]
      | stored id' tokenProperties time => simp [renewalTimes, ih]
      | released id' time => simp [renewalTimes, ih]

/-! ## The abstract store in closed form -/

theorem ledgerRecord_cons_of_ne {update : Update} {id : String}
    (hne : update.id ≠ id) (earlier : List Update) :
    ledgerRecord id (update :: earlier) = ledgerRecord id earlier := by
  cases update <;>
    simp only [Update.id] at hne <;>
    simp [ledgerRecord, firstStored, renewalTimes, lastRelease, hne]

theorem Contents.revise_eq_some {contents after : Contents} {id : String}
    {revision : EntitlementProperties → EntitlementProperties}
    (hrevise : contents.revise id revision = some after) :
    ∃ record, contents id = some record ∧
      after = Function.update contents id (some (revision record)) := by
  obtain ⟨record, hrecord, hafter⟩ := Option.map_eq_some_iff.mp hrevise
  exact ⟨record, hrecord, hafter.symm⟩

/-- Applying an update changes the record under its identifier only, and
leaves one there. -/
theorem Update.apply_eq_update {update : Update} {contents after : Contents}
    (happly : update.apply contents = some after) :
    ∃ record, after = Function.update contents update.id (some record) := by
  cases update with
  | stored id tokenProperties time =>
      exact ⟨_, (Option.some.inj happly).symm⟩
  | renewed id time =>
      obtain ⟨record, -, hafter⟩ := Contents.revise_eq_some happly
      exact ⟨_, hafter⟩
  | released id time =>
      obtain ⟨record, -, hafter⟩ := Contents.revise_eq_some happly
      exact ⟨_, hafter⟩

theorem ledger_of_absent {updates : List Update} {contents : Contents}
    {id : String} (hreplay : replay updates = some contents)
    (habsent : contents id = none) : ∀ update ∈ updates, update.id ≠ id := by
  induction updates generalizing contents with
  | nil => simp
  | cons update earlier ih =>
      obtain ⟨before, hbefore, happly⟩ := Option.bind_eq_some_iff.mp hreplay
      obtain ⟨record, rfl⟩ := Update.apply_eq_update happly
      have hne : update.id ≠ id := by
        rintro rfl
        simp at habsent
      rw [Function.update_of_ne hne.symm] at habsent
      exact List.forall_mem_cons.mpr ⟨hne, ih hbefore habsent⟩

theorem ledgerRecord_cons_self {update : Update} {earlier : List Update}
    {before after : Contents} (hbefore : replay earlier = some before)
    (hearlier : before update.id = ledgerRecord update.id earlier)
    (happly : update.apply before = some after) :
    after update.id = ledgerRecord update.id (update :: earlier) := by
  cases update with
  | stored id tokenProperties time =>
      rw [← Option.some.inj happly]
      simp only [Update.id] at hearlier ⊢
      cases hfirst : firstStored id earlier with
      | none =>
          have habsent : before id = none := by
            simp [hearlier, ledgerRecord, hfirst]
          have hne := ledger_of_absent hbefore habsent
          have hrenewals : renewalTimes id earlier = [] :=
            (renewalTimes_eq_nil_iff id earlier).mpr fun _ h => hne _ h rfl
          have hrelease : lastRelease id earlier = none := by
            by_contra hsome
            obtain ⟨time, h⟩ := (lastRelease_isSome_iff id earlier).mp
              (Option.isSome_iff_ne_none.mpr hsome)
            exact hne _ h rfl
          simp [ledgerRecord, firstStored, hfirst, renewalTimes, lastRelease,
            hrenewals, hrelease, habsent, EntitlementProperties.createNew]
      | some stored =>
          simp [ledgerRecord, firstStored, hfirst, renewalTimes, lastRelease,
            hearlier]
  | renewed id time =>
      obtain ⟨record, hrecord, rfl⟩ := Contents.revise_eq_some happly
      simp only [Update.id] at hearlier
      rw [hearlier] at hrecord
      obtain ⟨stored, hfirst, rfl⟩ := Option.map_eq_some_iff.mp hrecord
      simp [Update.id, ledgerRecord, firstStored, hfirst, renewalTimes,
        lastRelease, EntitlementProperties.withRenewal]
  | released id time =>
      obtain ⟨record, hrecord, rfl⟩ := Contents.revise_eq_some happly
      simp only [Update.id] at hearlier
      rw [hearlier] at hrecord
      obtain ⟨stored, hfirst, rfl⟩ := Option.map_eq_some_iff.mp hrecord
      simp [Update.id, ledgerRecord, firstStored, hfirst, renewalTimes,
        lastRelease, EntitlementProperties.withRelease]

theorem replay_eq_ledgerRecord {updates : List Update} {contents : Contents}
    (hreplay : replay updates = some contents) (id : String) :
    contents id = ledgerRecord id updates := by
  induction updates generalizing contents with
  | nil =>
      rw [← Option.some.inj hreplay]
      rfl
  | cons update earlier ih =>
      obtain ⟨before, hbefore, happly⟩ := Option.bind_eq_some_iff.mp hreplay
      by_cases heq : update.id = id
      · subst heq
        exact ledgerRecord_cons_self hbefore (ih hbefore) happly
      · rw [ledgerRecord_cons_of_ne heq, ← ih hbefore]
        obtain ⟨record, rfl⟩ := Update.apply_eq_update happly
        exact Function.update_of_ne (Ne.symm heq) _ _

/-! ## What later updates keep -/

theorem renewalTimes_append (id : String) (newer earlier : List Update) :
    renewalTimes id (newer ++ earlier) =
      renewalTimes id earlier ++ renewalTimes id newer := by
  induction newer with
  | nil => simp [renewalTimes]
  | cons update newer ih => cases update <;> simp [renewalTimes, ih]

theorem firstStored_append (id : String) (newer earlier : List Update) :
    firstStored id (newer ++ earlier) =
      (firstStored id earlier).or (firstStored id newer) := by
  induction newer with
  | nil => simp [firstStored]
  | cons update newer ih => cases update <;> simp [firstStored, ih, Option.or_assoc]

theorem lastRelease_append (id : String) (newer earlier : List Update) :
    lastRelease id (newer ++ earlier) =
      (lastRelease id newer).or (lastRelease id earlier) := by
  induction newer with
  | nil => simp [lastRelease]
  | cons update newer ih =>
      cases update with
      | released id' time =>
          by_cases heq : id' = id <;> simp [lastRelease, heq, ih]
      | stored id' tokenProperties time => simpa [lastRelease] using ih
      | renewed id' time => simpa [lastRelease] using ih

/-- How the record of one entitlement can differ between an earlier and a
later moment. -/
structure EntitlementProperties.Evolves
    (earlier later : EntitlementProperties) : Prop where
  entitlementId : later.entitlementId = earlier.entitlementId
  tokenProperties : later.tokenProperties = earlier.tokenProperties
  acquisitionEventTime :
    later.acquisitionEventTime = earlier.acquisitionEventTime
  renewalEventTimes : earlier.renewalEventTimes <+: later.renewalEventTimes
  releaseEventTime :
    earlier.releaseEventTime.isSome → later.releaseEventTime.isSome

theorem ledgerRecord_evolves {id : String} {earlier : List Update}
    {record : EntitlementProperties}
    (hrecord : ledgerRecord id earlier = some record) (newer : List Update) :
    ∃ later, ledgerRecord id (newer ++ earlier) = some later ∧
      record.Evolves later := by
  obtain ⟨stored, hfirst, rfl⟩ := Option.map_eq_some_iff.mp hrecord
  have hfirst' : firstStored id (newer ++ earlier) = some stored := by
    rw [firstStored_append, hfirst, Option.some_or]
  have hlater : ledgerRecord id (newer ++ earlier) = some {
      entitlementId := id
      tokenProperties := stored.1
      acquisitionEventTime := stored.2
      renewalEventTimes := renewalTimes id (newer ++ earlier)
      releaseEventTime := lastRelease id (newer ++ earlier) } := by
    rw [ledgerRecord, hfirst', Option.map_some]
  refine ⟨_, hlater, rfl, rfl, rfl, ?_, ?_⟩
  · simp only [renewalTimes_append]
    exact List.prefix_append _ _
  · intro hreleased
    simp only [lastRelease_append]
    cases lastRelease id newer with
    | none => simpa using hreleased
    | some time => rfl

end SoftwareEntitlement
