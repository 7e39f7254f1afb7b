import SoftwareEntitlement.Results
import SoftwareEntitlement.Traversals
import Mathlib.Data.List.ReduceOption

/-!
# Properties of a software entitlement token

`EntitlementTokenProperties` is an immutable record which is modified by
cloning.  `build` assembles one from the nine results of a provider: it asks
for every result, and only when all of them are OK does it run the chain of
setters, four of which can throw.  The entries of a list of addresses are a
parameter: they are addresses, or may be null.
-/

namespace SoftwareEntitlement

/-- A value which may or may not be specified, whether or not it is null. -/
abbrev Specifiable (α : Type) := Option α

def Specifiable.orDefault {α : Type} (value : Specifiable α) (other : α) : α :=
  value.getD other

/-- A list which is not null, without nulls among its entries. -/
def nonNull {α : Type} (items : List α) : Option (List (Option α)) :=
  some (items.map some)

theorem reduceOption_map_some {α : Type} (items : List α) :
    (items.map some).reduceOption = items := by
  induction items with
  | nil => rfl
  | cons item items ih => rw [List.map_cons, List.reduceOption_cons_of_some, ih]

structure EntitlementTokenProperties (Address : Type := IPAddress) where
  virtualMachineId : Option String
  issuedAt : DateTimeOffset
  notBefore : DateTimeOffset
  notAfter : DateTimeOffset
  applications : ImmutableHashSet String
  ipAddresses : ImmutableHashSet Address
  identifier : Option String
  audience : Option String
  issuer : Option String

namespace EntitlementTokenProperties

variable {Address : Type}

def new : EntitlementTokenProperties Address where
  virtualMachineId := none
  issuedAt := .minValue
  notBefore := .minValue
  notAfter := .minValue
  applications := .empty
  ipAddresses := .empty
  identifier := none
  audience := none
  issuer := none

instance : Inhabited (EntitlementTokenProperties Address) := ⟨new⟩

structure Changes (Address : Type) where
  issuedAt : Specifiable DateTimeOffset := none
  notBefore : Specifiable DateTimeOffset := none
  notAfter : Specifiable DateTimeOffset := none
  virtualMachineId : Specifiable (Option String) := none
  applications : Option (ImmutableHashSet String) := none
  identifier : Specifiable (Option String) := none
  addresses : Option (ImmutableHashSet Address) := none
  audience : Specifiable (Option String) := none
  issuer : Specifiable (Option String) := none

def clone (original : EntitlementTokenProperties Address)
    (changes : Changes Address) : EntitlementTokenProperties Address where
  issuedAt := changes.issuedAt.orDefault original.issuedAt
  notBefore := changes.notBefore.orDefault original.notBefore
  notAfter := changes.notAfter.orDefault original.notAfter
  virtualMachineId :=
    changes.virtualMachineId.orDefault original.virtualMachineId
  applications := changes.applications.getD original.applications
  identifier := changes.identifier.orDefault original.identifier
  ipAddresses := changes.addresses.getD original.ipAddresses
  audience := changes.audience.orDefault original.audience
  issuer := changes.issuer.orDefault original.issuer

variable (properties : EntitlementTokenProperties Address)

def withVirtualMachineId (virtualMachineId : Option String) :
    EntitlementTokenProperties Address :=
  properties.clone { virtualMachineId := some virtualMachineId }

def withIssuedAt (issuedAt : DateTimeOffset) :
    EntitlementTokenProperties Address :=
  properties.clone { issuedAt := some issuedAt }

def fromInstant (notBefore : DateTimeOffset) :
    EntitlementTokenProperties Address :=
  properties.clone { notBefore := some notBefore }

def untilInstant (notAfter : DateTimeOffset) :
    EntitlementTokenProperties Address :=
  properties.clone { notAfter := some notAfter }

/-- A null among the applications is found when it is to be trimmed. -/
def withApplications (applications : Option (List (Option String))) :
    Throws (EntitlementTokenProperties Address) :=
  match applications with
  | none => .error (.argumentNull "applications")
  | some applications =>
      if applications.any Option.isNone then
        .error .nullReference
      else
        .ok (properties.clone
          { applications :=
              some (.createRange (applications.reduceOption.map trim)) })

theorem withApplications_eq_ok_iff
    {extended : EntitlementTokenProperties Address}
    {applications : Option (List (Option String))} :
    properties.withApplications applications = .ok extended ↔
      (∃ present, applications = some present ∧ none ∉ present) ∧
        extended = properties.clone
          { applications := some
              (.createRange ((applications.getD []).reduceOption.map trim)) } := by
  cases applications with
  | none => simp [withApplications]
  | some applications =>
      have hany : applications.any Option.isNone = true ↔
          none ∈ applications := by simp
      by_cases hnull : none ∈ applications
      · simp only [withApplications, hany.mpr hnull]
        simp [hnull]
      · simp only [withApplications, Bool.eq_false_iff.mpr (mt hany.mp hnull)]
        simp [hnull, eq_comm]

def withIpAddresses [DecidableEq Address]
    (ipAddresses : Option (List Address)) :
    Throws (EntitlementTokenProperties Address) :=
  match ipAddresses with
  | none => .error (.argumentNull "ipAddresses")
  | some ipAddresses =>
      .ok (properties.clone { addresses := some (.createRange ipAddresses) })

theorem withIpAddresses_eq_ok_iff [DecidableEq Address]
    {extended : EntitlementTokenProperties Address}
    {ipAddresses : Option (List Address)} :
    properties.withIpAddresses ipAddresses = .ok extended ↔
      ipAddresses ≠ none ∧ extended = properties.clone
        { addresses := some (.createRange (ipAddresses.getD [])) } := by
  cases ipAddresses with
  | none => simp [withIpAddresses]
  | some ipAddresses => simp [withIpAddresses, eq_comm]

def withIdentifier (identifier : Option String) :
    EntitlementTokenProperties Address :=
  properties.clone { identifier := some identifier }

def withAudience (audience : Option String) :
    Throws (EntitlementTokenProperties Address) :=
  if isNullOrEmpty audience then
    .error (.argument "Expect to have an audience" "audience")
  else
    .ok (properties.clone { audience := some audience })

def withIssuer (issuer : Option String) :
    Throws (EntitlementTokenProperties Address) :=
  if isNullOrEmpty issuer then
    .error (.argument "Expect to have an issuer" "issuer")
  else
    .ok (properties.clone { issuer := some issuer })

end EntitlementTokenProperties

/-- Supplies the property values required to build token properties. -/
structure ITokenPropertyProvider (Address : Type := IPAddress) where
  issuedAt : Throws (Result DateTimeOffset ErrorSet)
  notBefore : Throws (Result DateTimeOffset ErrorSet)
  notAfter : Throws (Result DateTimeOffset ErrorSet)
  audience : Throws (Result (Option String) ErrorSet)
  issuer : Throws (Result (Option String) ErrorSet)
  applicationIds : Throws (Result (Option (List (Option String))) ErrorSet)
  ipAddresses : Throws (Result (Option (List Address)) ErrorSet)
  virtualMachineId : Throws (Result (Option String) ErrorSet)
  tokenId : Throws (Result (Option String) ErrorSet)

structure TokenPropertyValues (Address : Type := IPAddress) where
  issuedAt : DateTimeOffset
  notBefore : DateTimeOffset
  notAfter : DateTimeOffset
  audience : Option String
  issuer : Option String
  applicationIds : Option (List (Option String))
  ipAddresses : Option (List Address)
  virtualMachineId : Option String
  tokenId : Option String

namespace EntitlementTokenProperties

variable {Address : Type} [DecidableEq Address]

def select (values : TokenPropertyValues Address) :
    Throws (EntitlementTokenProperties Address) := do
  let properties := (new.fromInstant values.notBefore).untilInstant values.notAfter
  let properties ←
    (properties.withIssuedAt values.issuedAt).withIssuer values.issuer
  let properties ← properties.withAudience values.audience
  let properties ← properties.withApplications values.applicationIds
  let properties ← properties.withIpAddresses values.ipAddresses
  return (properties.withVirtualMachineId values.virtualMachineId).withIdentifier
    values.tokenId

def build (provider : ITokenPropertyProvider Address) :
    Throws (Result (EntitlementTokenProperties Address) ErrorSet) := do
  let notBefore ← provider.notBefore
  let notAfter ← provider.notAfter
  let issuedAt ← provider.issuedAt
  let issuer ← provider.issuer
  let audience ← provider.audience
  let applicationIds ← provider.applicationIds
  let ipAddresses ← provider.ipAddresses
  let virtualMachineId ← provider.virtualMachineId
  let tokenId ← provider.tokenId
  let joined := notBefore |>.join notAfter |>.join issuedAt |>.join issuer
    |>.join audience |>.join applicationIds |>.join ipAddresses
    |>.join virtualMachineId |>.join tokenId
  match joined with
  | .error errors => return .error errors
  | .ok ((((((((notBefore, notAfter), issuedAt), issuer), audience),
      applicationIds), ipAddresses), virtualMachineId), tokenId) =>
      return .ok (← select {
        issuedAt := issuedAt, notBefore := notBefore, notAfter := notAfter
        audience := audience, issuer := issuer
        applicationIds := applicationIds, ipAddresses := ipAddresses
        virtualMachineId := virtualMachineId, tokenId := tokenId })

end EntitlementTokenProperties

/-! ## What `build` returns -/

section Providers

variable {Address : Type}

/-- The provider answers every request with the given value. -/
structure ITokenPropertyProvider.Supplies
    (provider : ITokenPropertyProvider Address)
    (values : TokenPropertyValues Address) : Prop where
  issuedAt : provider.issuedAt = .ok (.ok values.issuedAt)
  notBefore : provider.notBefore = .ok (.ok values.notBefore)
  notAfter : provider.notAfter = .ok (.ok values.notAfter)
  audience : provider.audience = .ok (.ok values.audience)
  issuer : provider.issuer = .ok (.ok values.issuer)
  applicationIds : provider.applicationIds = .ok (.ok values.applicationIds)
  ipAddresses : provider.ipAddresses = .ok (.ok values.ipAddresses)
  virtualMachineId :
    provider.virtualMachineId = .ok (.ok values.virtualMachineId)
  tokenId : provider.tokenId = .ok (.ok values.tokenId)

/-- No request to the provider throws. -/
structure ITokenPropertyProvider.Total
    (provider : ITokenPropertyProvider Address) : Prop where
  issuedAt : ∃ result, provider.issuedAt = .ok result
  notBefore : ∃ result, provider.notBefore = .ok result
  notAfter : ∃ result, provider.notAfter = .ok result
  audience : ∃ result, provider.audience = .ok result
  issuer : ∃ result, provider.issuer = .ok result
  applicationIds : ∃ result, provider.applicationIds = .ok result
  ipAddresses : ∃ result, provider.ipAddresses = .ok result
  virtualMachineId : ∃ result, provider.virtualMachineId = .ok result
  tokenId : ∃ result, provider.tokenId = .ok result

/-- The answer to a request for a property is an error with this message. -/
def reportsIn {α : Type} (answer : Throws (Result α ErrorSet))
    (message : String) : Prop :=
  ∃ result, answer = .ok result ∧ Result.Reports result message

/-- One of the nine results of the provider is an error with this message. -/
def ITokenPropertyProvider.Reports
    (provider : ITokenPropertyProvider Address) (message : String) : Prop :=
  reportsIn provider.notBefore message ∨ reportsIn provider.notAfter message ∨
    reportsIn provider.issuedAt message ∨ reportsIn provider.issuer message ∨
    reportsIn provider.audience message ∨
    reportsIn provider.applicationIds message ∨
    reportsIn provider.ipAddresses message ∨
    reportsIn provider.virtualMachineId message ∨
    reportsIn provider.tokenId message

/-- Neither list is null, and no application is. -/
structure TokenPropertyValues.ListsPresent
    (values : TokenPropertyValues Address) : Prop where
  applicationIds : ∃ applicationIds,
    values.applicationIds = some applicationIds ∧ none ∉ applicationIds
  ipAddresses : values.ipAddresses ≠ none

end Providers

namespace EntitlementTokenProperties

variable {Address : Type} [DecidableEq Address]

/-- The properties with these values, where the lists are present. -/
def ofValues (values : TokenPropertyValues Address) :
    EntitlementTokenProperties Address where
  virtualMachineId := values.virtualMachineId
  issuedAt := values.issuedAt
  notBefore := values.notBefore
  notAfter := values.notAfter
  applications :=
    .createRange ((values.applicationIds.getD []).reduceOption.map trim)
  ipAddresses := .createRange (values.ipAddresses.getD [])
  identifier := values.tokenId
  audience := values.audience
  issuer := values.issuer

theorem applications_ofValues {values : TokenPropertyValues Address}
    {applicationIds : List String}
    (hgiven : nonNull applicationIds = values.applicationIds) :
    (ofValues values).applications = .createRange (applicationIds.map trim) := by
  simp only [ofValues, ← hgiven, nonNull, Option.getD_some,
    reduceOption_map_some]

theorem ipAddresses_ofValues {values : TokenPropertyValues Address}
    {ipAddresses : List Address} (hgiven : some ipAddresses = values.ipAddresses) :
    (ofValues values).ipAddresses = .createRange ipAddresses := by
  simp only [ofValues, ← hgiven, Option.getD_some]

theorem select_eq_ok_iff {values : TokenPropertyValues Address}
    {properties : EntitlementTokenProperties Address} :
    select values = .ok properties ↔
      isNullOrEmpty values.issuer = false ∧
        isNullOrEmpty values.audience = false ∧ values.ListsPresent ∧
          properties = ofValues values := by
  unfold select
  cases hissuer : isNullOrEmpty values.issuer with
  | true => simp [withIssuer, hissuer, bind, Except.bind]
  | false =>
      cases haudience : isNullOrEmpty values.audience with
      | true =>
          simp [withIssuer, withAudience, hissuer, haudience, bind, Except.bind]
      | false =>
          simp only [withIssuer, withAudience, hissuer, haudience,
            Bool.false_eq_true, if_false, Traversal.bind_eq_ok_iff,
            Except.ok.injEq, exists_eq_left', withApplications_eq_ok_iff,
            withIpAddresses_eq_ok_iff, true_and]
          constructor
          · rintro ⟨_, ⟨happlications, rfl⟩, _, ⟨haddresses, rfl⟩, hselected⟩
            exact ⟨⟨happlications, haddresses⟩, (Except.ok.inj hselected).symm⟩
          · rintro ⟨⟨happlications, haddresses⟩, rfl⟩
            exact ⟨_, ⟨happlications, rfl⟩, _, ⟨haddresses, rfl⟩, rfl⟩

theorem build_of_supplies {provider : ITokenPropertyProvider Address}
    {values : TokenPropertyValues Address} (hsupplies : provider.Supplies values) :
    build provider = Except.ok <$> select values := by
  simp [build, hsupplies.issuedAt, hsupplies.notBefore, hsupplies.notAfter,
    hsupplies.audience, hsupplies.issuer, hsupplies.applicationIds,
    hsupplies.ipAddresses, hsupplies.virtualMachineId, hsupplies.tokenId,
    bind, Except.bind, pure, Except.pure, Functor.map, Except.map]

/-- A provider which does not throw either supplies nine values or makes
`build` return its errors. -/
theorem build_cases {provider : ITokenPropertyProvider Address}
    (htotal : provider.Total) :
    (∃ values, provider.Supplies values) ∨
      ∃ errors, build provider = .ok (.error errors) ∧
        ∀ message, message ∈ errors.errors ↔ provider.Reports message := by
  obtain ⟨⟨issuedAt, hissuedAt⟩, ⟨notBefore, hnotBefore⟩,
    ⟨notAfter, hnotAfter⟩, ⟨audience, haudience⟩, ⟨issuer, hissuer⟩,
    ⟨applicationIds, happlicationIds⟩, ⟨ipAddresses, hipAddresses⟩,
    ⟨virtualMachineId, hvirtualMachineId⟩, ⟨tokenId, htokenId⟩⟩ := htotal
  cases hjoined : notBefore |>.join notAfter |>.join issuedAt |>.join issuer
    |>.join audience |>.join applicationIds |>.join ipAddresses
    |>.join virtualMachineId |>.join tokenId with
  | error errors =>
      right
      have hreports : ∀ message, provider.Reports message ↔
          Result.Reports (notBefore |>.join notAfter |>.join issuedAt
            |>.join issuer |>.join audience |>.join applicationIds
            |>.join ipAddresses |>.join virtualMachineId |>.join tokenId)
            message := by
        intro message
        simp [ITokenPropertyProvider.Reports, reportsIn, Result.reports_join,
          hissuedAt, hnotBefore, hnotAfter, haudience, hissuer,
          happlicationIds, hipAddresses, hvirtualMachineId, htokenId, or_assoc]
      refine ⟨errors, ?_, fun message => ?_⟩
      · simp [build, hissuedAt, hnotBefore, hnotAfter, haudience, hissuer,
          happlicationIds, hipAddresses, hvirtualMachineId, htokenId, hjoined,
          bind, Except.bind, pure, Except.pure]
      · rw [hreports, hjoined]
        simp [Result.Reports]
  | ok joined =>
      left
      simp only [Result.join_eq_ok_iff] at hjoined
      obtain ⟨⟨⟨⟨⟨⟨⟨⟨rfl, rfl⟩, rfl⟩, rfl⟩, rfl⟩, rfl⟩, rfl⟩, rfl⟩, rfl⟩ :=
        hjoined
      exact ⟨⟨_, _, _, _, _, _, _, _, _⟩, ⟨hissuedAt, hnotBefore, hnotAfter,
        haudience, hissuer, happlicationIds, hipAddresses, hvirtualMachineId,
        htokenId⟩⟩

theorem total_of_build {provider : ITokenPropertyProvider Address}
    {result : Result (EntitlementTokenProperties Address) ErrorSet}
    (hbuild : build provider = .ok result) : provider.Total := by
  obtain ⟨notBefore, hnotBefore, hbuild⟩ := Traversal.bind_eq_ok_iff.mp hbuild
  obtain ⟨notAfter, hnotAfter, hbuild⟩ := Traversal.bind_eq_ok_iff.mp hbuild
  obtain ⟨issuedAt, hissuedAt, hbuild⟩ := Traversal.bind_eq_ok_iff.mp hbuild
  obtain ⟨issuer, hissuer, hbuild⟩ := Traversal.bind_eq_ok_iff.mp hbuild
  obtain ⟨audience, haudience, hbuild⟩ := Traversal.bind_eq_ok_iff.mp hbuild
  obtain ⟨applicationIds, happlicationIds, hbuild⟩ :=
    Traversal.bind_eq_ok_iff.mp hbuild
  obtain ⟨ipAddresses, hipAddresses, hbuild⟩ :=
    Traversal.bind_eq_ok_iff.mp hbuild
  obtain ⟨virtualMachineId, hvirtualMachineId, hbuild⟩ :=
    Traversal.bind_eq_ok_iff.mp hbuild
  obtain ⟨tokenId, htokenId, -⟩ := Traversal.bind_eq_ok_iff.mp hbuild
  exact ⟨⟨_, hissuedAt⟩, ⟨_, hnotBefore⟩, ⟨_, hnotAfter⟩, ⟨_, haudience⟩,
    ⟨_, hissuer⟩, ⟨_, happlicationIds⟩, ⟨_, hipAddresses⟩,
    ⟨_, hvirtualMachineId⟩, ⟨_, htokenId⟩⟩

/-- Properties are built from nine values which the provider supplies. -/
theorem supplies_of_build {provider : ITokenPropertyProvider Address}
    {properties : EntitlementTokenProperties Address}
    (hbuild : build provider = .ok (.ok properties)) :
    ∃ values, provider.Supplies values ∧ values.ListsPresent ∧
      properties = ofValues values := by
  rcases build_cases (total_of_build hbuild) with
    ⟨values, hsupplies⟩ | ⟨errors, herrors, -⟩
  · rw [build_of_supplies hsupplies] at hbuild
    cases hselect : select values with
    | error exception =>
        rw [hselect] at hbuild
        cases hbuild
    | ok selected =>
        rw [hselect] at hbuild
        obtain rfl : selected = properties :=
          Except.ok.inj (Except.ok.inj hbuild)
        exact ⟨values, hsupplies, (select_eq_ok_iff.mp hselect).2.2⟩
  · rw [herrors] at hbuild
    cases hbuild

end EntitlementTokenProperties

end SoftwareEntitlement
