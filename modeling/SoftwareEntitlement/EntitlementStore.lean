import SoftwareEntitlement.TokenProperties
import SoftwareEntitlement.RelyGuarantee

/-!
# The entitlement store

`EntitlementStore` keeps immutable records in a `ConcurrentDictionary`.  Its
methods are programs over atomic accesses: one per dictionary operation, one
for the allocation of a record, and one for each value the process takes from
its environment (the clock and fresh identifiers).  Records are compared by
reference, so a reference is an address together with the record it denotes.
-/

namespace SoftwareEntitlement

open Interleaving

structure EntitlementProperties where
  entitlementId : String
  tokenProperties : EntitlementTokenProperties
  acquisitionEventTime : DateTimeOffset
  renewalEventTimes : List DateTimeOffset
  releaseEventTime : Option DateTimeOffset

namespace EntitlementProperties

def createNew (entitlementId : String)
    (tokenProperties : EntitlementTokenProperties)
    (acquisitionTime : DateTimeOffset) : EntitlementProperties where
  entitlementId := entitlementId
  tokenProperties := tokenProperties
  acquisitionEventTime := acquisitionTime
  renewalEventTimes := []
  releaseEventTime := none

variable (properties : EntitlementProperties)

def withRenewal (renewalTime : DateTimeOffset) : EntitlementProperties where
  entitlementId := properties.entitlementId
  tokenProperties := properties.tokenProperties
  acquisitionEventTime := properties.acquisitionEventTime
  renewalEventTimes := properties.renewalEventTimes ++ [renewalTime]
  releaseEventTime := properties.releaseEventTime

def withRelease (releaseTime : DateTimeOffset) : EntitlementProperties where
  entitlementId := properties.entitlementId
  tokenProperties := properties.tokenProperties
  acquisitionEventTime := properties.acquisitionEventTime
  renewalEventTimes := properties.renewalEventTimes
  releaseEventTime := some releaseTime

def isReleased : Bool := properties.releaseEventTime.isSome

end EntitlementProperties

/-! ## Accesses -/

/-- A reference to an immutable record on the heap. -/
structure Reference where
  address : ℕ
  value : EntitlementProperties

inductive Access where
  | utcNow
  /-- The clock reading of the JWT library when it validates a lifetime. -/
  | validationTime
  | newGuid
  | allocate (record : EntitlementProperties)
  | tryGetValue (key : String)
  | addOrUpdate (key : String) (addValue : Reference)
      (updateValueFactory : String → Reference → Reference)
  | tryUpdate (key : String) (newValue comparisonValue : Reference)

@[reducible] def Reply : Access → Type
  | .utcNow => DateTimeOffset
  | .validationTime => DateTimeOffset
  | .newGuid => Guid
  | .allocate _ => Reference
  | .tryGetValue _ => Option Reference
  | .addOrUpdate _ _ _ => Reference
  | .tryUpdate _ _ _ => Bool

/-- One access of one thread, with the reply it was given. -/
structure Event (ι : Type) where
  thread : ι
  access : Access
  reply : Reply access

/-- The state of the server process: the dictionary, the records allocated so
far, and everything that has happened, newest event first. -/
structure ServerState (ι : Type) where
  entries : String → Option Reference
  heap : List EntitlementProperties
  past : List (Event ι)

def ServerState.empty {ι : Type} : ServerState ι := ⟨fun _ => none, [], []⟩

/-- What the environment offers to an access: a clock reading, and a random
identifier. -/
structure Environment where
  now : DateTimeOffset
  guid : Guid

/-- The identifiers issued so far, with the threads which drew them. -/
def issuedGuids {ι : Type} : List (Event ι) → List (ι × Guid)
  | [] => []
  | ⟨thread, .newGuid, guid⟩ :: earlier => (thread, guid) :: issuedGuids earlier
  | _ :: earlier => issuedGuids earlier

section Accesses

variable {ι : Type}

/-- Answer an access of a thread.  An identifier is never issued twice; every
other access is always enabled. -/
def perform (thread : ι) (access : Access) (environment : Environment)
    (s : ServerState ι) : Option (Reply access × ServerState ι) :=
  match access with
  | .utcNow =>
      some (environment.now,
        { s with past := ⟨thread, .utcNow, environment.now⟩ :: s.past })
  | .validationTime =>
      some (environment.now,
        { s with past := ⟨thread, .validationTime, environment.now⟩ :: s.past })
  | .newGuid =>
      if environment.guid ∈ (issuedGuids s.past).map Prod.snd then
        none
      else
        some (environment.guid,
          { s with past := ⟨thread, .newGuid, environment.guid⟩ :: s.past })
  | .allocate record =>
      let reference : Reference := ⟨s.heap.length, record⟩
      some (reference,
        { s with
          heap := s.heap ++ [record]
          past := ⟨thread, .allocate record, reference⟩ :: s.past })
  | .tryGetValue key =>
      let found := s.entries key
      some (found,
        { s with past := ⟨thread, .tryGetValue key, found⟩ :: s.past })
  | .addOrUpdate key addValue updateValueFactory =>
      let stored :=
        match s.entries key with
        | none => addValue
        | some existing => updateValueFactory key existing
      some (stored,
        { s with
          entries := Function.update s.entries key (some stored)
          past := ⟨thread, .addOrUpdate key addValue updateValueFactory,
            stored⟩ :: s.past })
  | .tryUpdate key newValue comparisonValue =>
      let updated : Bool :=
        match s.entries key with
        | none => false
        | some current => current.address == comparisonValue.address
      some (updated,
        { s with
          entries :=
            if updated then Function.update s.entries key (some newValue)
            else s.entries
          past := ⟨thread, .tryUpdate key newValue comparisonValue,
            updated⟩ :: s.past })

def ServerState.record (s : ServerState ι) (id : String) :
    Option EntitlementProperties :=
  (s.entries id).map Reference.value

end Accesses

/-! ## The methods of the store -/

abbrev Handling := ExceptT ClrException (Program Access Reply)

def request (access : Access) : Handling (Reply access) :=
  ExceptT.lift (Program.perform access)

namespace EntitlementStore

def storeEntitlement (entitlementId : String)
    (tokenProperties : EntitlementTokenProperties)
    (acquisitionTime : DateTimeOffset) : Handling EntitlementProperties := do
  let addValue ← request (.allocate
    (.createNew entitlementId tokenProperties acquisitionTime))
  let stored ← request (.addOrUpdate entitlementId addValue fun _ props => props)
  return stored.value

def findEntitlement (entitlementId : String) :
    Handling (Result EntitlementProperties ErrorSet) := do
  match ← request (.tryGetValue entitlementId) with
  | none =>
      return .error (.create ("Entitlement " ++ entitlementId ++ " not found."))
  | some entitlementProperties => return .ok entitlementProperties.value

def tryUpdate (entitlementId : String)
    (updater : EntitlementProperties → EntitlementProperties)
    (errorMessage : String) :
    Handling (Result EntitlementProperties ErrorSet) := do
  match ← request (.tryGetValue entitlementId) with
  | none => return .error (.create errorMessage)
  | some currentEntitlementProperties =>
      let updatedEntitlementProperties ←
        request (.allocate (updater currentEntitlementProperties.value))
      if ← request (.tryUpdate entitlementId updatedEntitlementProperties
          currentEntitlementProperties) then
        return .ok updatedEntitlementProperties.value
      else
        return .error (.create errorMessage)

def renewEntitlement (entitlementId : String) (renewalTime : DateTimeOffset) :
    Handling (Result EntitlementProperties ErrorSet) :=
  tryUpdate entitlementId (fun props => props.withRenewal renewalTime)
    ("Unable to store renewal event for " ++ entitlementId)

def releaseEntitlement (entitlementId : String)
    (releaseTime : DateTimeOffset) :
    Handling (Result EntitlementProperties ErrorSet) :=
  tryUpdate entitlementId (fun props => props.withRelease releaseTime)
    ("Unable to store release event for " ++ entitlementId)

end EntitlementStore

end SoftwareEntitlement
