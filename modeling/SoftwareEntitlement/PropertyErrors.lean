import SoftwareEntitlement.TokenProperties

/-!
# The errors of building token properties

`Build` joins nine results.  A join keeps the errors of whichever operands
have failed, so nested joins report every message of every failing result,
however many fail and whichever they are.  Nine results which are all OK are
handed to the setters, and these throw where a list or an application is null.
-/

namespace SoftwareEntitlement

variable {Address : Type}

/-- The audience and the issuer which the provider gives are not empty. -/
structure ITokenPropertyProvider.NamesParties
    (provider : ITokenPropertyProvider Address) : Prop where
  audience : ∀ audience, provider.audience = .ok (.ok audience) →
    isNullOrEmpty audience = false
  issuer : ∀ issuer, provider.issuer = .ok (.ok issuer) →
    isNullOrEmpty issuer = false

namespace EntitlementTokenProperties

/-- The properties are those which the provider supplies, the applications
trimmed and the lists as sets. -/
structure Carries (properties : EntitlementTokenProperties Address)
    (values : TokenPropertyValues Address) : Prop where
  issuedAt : properties.issuedAt = values.issuedAt
  notBefore : properties.notBefore = values.notBefore
  notAfter : properties.notAfter = values.notAfter
  audience : properties.audience = values.audience
  issuer : properties.issuer = values.issuer
  applications : ∀ application, application ∈ properties.applications ↔
    ∃ applicationIds applicationId,
      values.applicationIds = some applicationIds ∧
        some applicationId ∈ applicationIds ∧ trim applicationId = application
  ipAddresses : ∀ ipAddress, ipAddress ∈ properties.ipAddresses ↔
    ∃ ipAddresses, values.ipAddresses = some ipAddresses ∧
      ipAddress ∈ ipAddresses
  virtualMachineId : properties.virtualMachineId = values.virtualMachineId
  identifier : properties.identifier = values.tokenId

variable [DecidableEq Address]

theorem ofValues_carries (values : TokenPropertyValues Address) :
    (ofValues values).Carries values where
  issuedAt := rfl
  notBefore := rfl
  notAfter := rfl
  audience := rfl
  issuer := rfl
  applications application := by
    cases happlicationIds : values.applicationIds <;>
      simp [ofValues, happlicationIds, List.reduceOption_mem_iff]
  ipAddresses ipAddress := by
    cases hipAddresses : values.ipAddresses <;> simp [ofValues, hipAddresses]
  virtualMachineId := rfl
  identifier := rfl

/-- `Build` returns properties exactly when all nine results are OK, and else
the union of the messages of the failing ones. -/
structure AllOrNothing (provider : ITokenPropertyProvider Address) : Prop where
  ok_iff : (∃ properties, build provider = .ok (.ok properties)) ↔
    ∃ values, provider.Supplies values
  all : ∀ values, provider.Supplies values →
    ∃ properties, build provider = .ok (.ok properties) ∧
      properties.Carries values
  nothing : (∀ values, ¬provider.Supplies values) →
    ∃ errors, build provider = .ok (.error errors) ∧
      ∀ message, message ∈ errors.errors ↔ provider.Reports message

variable {provider : ITokenPropertyProvider Address}

theorem build_of_values (hparties : provider.NamesParties)
    {values : TokenPropertyValues Address} (hsupplies : provider.Supplies values)
    (hpresent : values.ListsPresent) :
    build provider = .ok (.ok (ofValues values)) := by
  have hselect : select values = .ok (ofValues values) :=
    select_eq_ok_iff.mpr ⟨hparties.issuer _ hsupplies.issuer,
      hparties.audience _ hsupplies.audience, hpresent, rfl⟩
  rw [build_of_supplies hsupplies, hselect]
  rfl

theorem build_of_no_values (htotal : provider.Total)
    (hnone : ∀ values, ¬provider.Supplies values) :
    ∃ errors, build provider = .ok (.error errors) ∧
      ∀ message, message ∈ errors.errors ↔ provider.Reports message := by
  rcases build_cases htotal with ⟨values, hsupplies⟩ | herrors
  · exact absurd hsupplies (hnone values)
  · exact herrors

/-- What a provider supplies when `Build` returns properties is complete. -/
theorem listsPresent_of_build {properties : EntitlementTokenProperties Address}
    (hbuild : build provider = .ok (.ok properties))
    {values : TokenPropertyValues Address}
    (hsupplies : provider.Supplies values) : values.ListsPresent := by
  rw [build_of_supplies hsupplies] at hbuild
  cases hselect : select values with
  | error exception =>
      rw [hselect] at hbuild
      cases hbuild
  | ok selected => exact (select_eq_ok_iff.mp hselect).2.2.1

/-- Building is all or nothing exactly where no list and no application of nine
results which are all OK is null. -/
theorem allOrNothing_iff (provider : ITokenPropertyProvider Address)
    (htotal : provider.Total) (hparties : provider.NamesParties) :
    AllOrNothing provider ↔
      ∀ values, provider.Supplies values → values.ListsPresent := by
  constructor
  · intro hall values hsupplies
    obtain ⟨properties, hbuild, -⟩ := hall.all values hsupplies
    exact listsPresent_of_build hbuild hsupplies
  · intro hpresent
    refine ⟨⟨?_, ?_⟩, ?_, build_of_no_values htotal⟩
    · rintro ⟨properties, hproperties⟩
      obtain ⟨values, hsupplies, -⟩ := supplies_of_build hproperties
      exact ⟨values, hsupplies⟩
    · rintro ⟨values, hsupplies⟩
      exact ⟨_, build_of_values hparties hsupplies (hpresent values hsupplies)⟩
    · intro values hsupplies
      exact ⟨_, build_of_values hparties hsupplies (hpresent values hsupplies),
        ofValues_carries values⟩

/-- A provider whose results are all OK, apart from those which are given. -/
def sampleProvider (notBefore : Result DateTimeOffset ErrorSet)
    (applicationIds : Result (Option (List (Option String))) ErrorSet) :
    ITokenPropertyProvider (Option IPAddress) where
  issuedAt := .ok (.ok .minValue)
  notBefore := .ok notBefore
  notAfter := .ok (.ok .minValue)
  audience := .ok (.ok (some "audience"))
  issuer := .ok (.ok (some "issuer"))
  applicationIds := .ok applicationIds
  ipAddresses := .ok (.ok (some [none, some (.v4 5)]))
  virtualMachineId := .ok (.ok none)
  tokenId := .ok (.ok none)

theorem total_sampleProvider (notBefore : Result DateTimeOffset ErrorSet)
    (applicationIds : Result (Option (List (Option String))) ErrorSet) :
    (sampleProvider notBefore applicationIds).Total :=
  ⟨⟨_, rfl⟩, ⟨_, rfl⟩, ⟨_, rfl⟩, ⟨_, rfl⟩, ⟨_, rfl⟩, ⟨_, rfl⟩, ⟨_, rfl⟩,
    ⟨_, rfl⟩, ⟨_, rfl⟩⟩

theorem namesParties_sampleProvider (notBefore : Result DateTimeOffset ErrorSet)
    (applicationIds : Result (Option (List (Option String))) ErrorSet) :
    (sampleProvider notBefore applicationIds).NamesParties := by
  constructor
  · rintro audience ⟨⟩
    decide
  · rintro issuer ⟨⟩
    decide

/-- Two failures, and no failure. -/
theorem allOrNothing_iff_sampleProvider :
    AllOrNothing (sampleProvider (.error (.create "Unable to parse NotBefore"))
        (.error (.create "No applications specified."))) ∧
      AllOrNothing
        (sampleProvider (.ok .minValue) (.ok (some [some " contoso "]))) := by
  constructor
  · refine (allOrNothing_iff _ (total_sampleProvider _ _)
      (namesParties_sampleProvider _ _)).mpr ?_
    rintro values ⟨-, hnotBefore, -, -, -, -, -, -, -⟩
    cases hnotBefore
  · refine (allOrNothing_iff _ (total_sampleProvider _ _)
      (namesParties_sampleProvider _ _)).mpr ?_
    rintro values ⟨-, -, -, -, -, happlicationIds, hipAddresses, -, -⟩
    have happlications := Except.ok.inj (Except.ok.inj happlicationIds)
    have haddresses := Except.ok.inj (Except.ok.inj hipAddresses)
    exact ⟨⟨_, happlications.symm, by simp⟩, by simp [← haddresses]⟩

/-- All nine results are OK, but one of the applications is null. -/
theorem not_allOrNothing_nullApplication :
    build (sampleProvider (.ok .minValue) (.ok (some [none]))) =
        .error .nullReference ∧
      ¬AllOrNothing (sampleProvider (.ok .minValue) (.ok (some [none]))) := by
  have hthrows : build (sampleProvider (.ok .minValue) (.ok (some [none]))) =
      .error .nullReference := rfl
  refine ⟨hthrows, fun hall => ?_⟩
  obtain ⟨properties, hbuild⟩ := hall.ok_iff.mpr
    ⟨⟨_, _, _, _, _, _, _, _, _⟩, rfl, rfl, rfl, rfl, rfl, rfl, rfl, rfl, rfl⟩
  cases hthrows.symm.trans hbuild

end EntitlementTokenProperties

end SoftwareEntitlement
