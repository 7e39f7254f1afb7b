import SoftwareEntitlement.TokenVerification

/-!
# What the parser accepts

The nine readers of `JwtPropertyProvider` succeed together exactly when the
validated token is readable, and the parser then builds its properties from
what they return.
-/

namespace SoftwareEntitlement

def DateTime.toInstant (time : DateTime) : DateTimeOffset :=
  ⟨time.ticks, time.inRange⟩

namespace JwtPropertyProvider

variable {runtime : Runtime} {library : JwtLibrary}
  {provider : JwtPropertyProvider}

/-- What the readers require of a token. -/
structure Readable (runtime : Runtime) (provider : JwtPropertyProvider) :
    Prop where
  audience : ∃ audience, provider.jwt.audiences = some [audience]
  issuedAt : provider.jwt.iat.isSome = true
  tokenId : isNullOrEmpty (provider.read runtime claimTokenId) = false
  applications : provider.readAll runtime claimApplication ≠ []
  ipAddresses : ∀ value ∈ provider.readAll runtime claimIpAddress,
    (runtime.tryParseAddress value).isSome = true

def values (runtime : Runtime) (library : JwtLibrary)
    (provider : JwtPropertyProvider) : TokenPropertyValues where
  issuedAt := (library.epochTime (provider.jwt.iat.getD 0)).toInstant
  notBefore := provider.jwt.validFrom.toInstant
  notAfter := provider.jwt.validTo.toInstant
  audience := (provider.jwt.audiences.getD []).head?
  issuer := provider.jwt.issuer
  applicationIds := nonNull (provider.readAll runtime claimApplication)
  ipAddresses := some ((provider.readAll runtime claimIpAddress).filterMap
    runtime.tryParseAddress)
  virtualMachineId := provider.read runtime claimVirtualMachineId
  tokenId := provider.read runtime claimTokenId

structure Utc (library : JwtLibrary) (provider : JwtPropertyProvider) :
    Prop where
  validFrom : provider.jwt.validFrom.kind = .utc
  validTo : provider.jwt.validTo.kind = .utc
  epochTime : ∀ seconds, provider.jwt.iat = some seconds →
    (library.epochTime seconds).kind = .utc

theorem listsPresent_values :
    (provider.values runtime library).ListsPresent :=
  ⟨⟨_, rfl, by simp⟩, Option.some_ne_none _⟩

theorem applications_ofValues :
    (EntitlementTokenProperties.ofValues
        (provider.values runtime library)).applications =
      .createRange ((provider.readAll runtime claimApplication).map trim) :=
  EntitlementTokenProperties.applications_ofValues rfl

theorem parseIpAddress_eq_ok_iff {value : String} {address : IPAddress} :
    parseIpAddress runtime value = .ok address ↔
      runtime.tryParseAddress value = some address := by
  unfold parseIpAddress
  cases runtime.tryParseAddress value <;> simp

theorem map_parseIpAddress {texts : List String}
    (hparse : ∀ value ∈ texts, (runtime.tryParseAddress value).isSome = true) :
    texts.map (parseIpAddress runtime) =
      (texts.filterMap runtime.tryParseAddress).map .ok := by
  induction texts with
  | nil => rfl
  | cons value texts ih =>
      obtain ⟨hvalue, htexts⟩ := List.forall_mem_cons.mp hparse
      obtain ⟨address, haddress⟩ := Option.isSome_iff_exists.mp hvalue
      rw [List.filterMap_cons_some haddress, List.map_cons, List.map_cons,
        ih htexts, parseIpAddress_eq_ok_iff.mpr haddress]

theorem Readable.supplies (hreadable : provider.Readable runtime)
    (hutc : provider.Utc library) :
    (provider.toProvider runtime library).Supplies
      (provider.values runtime library) := by
  obtain ⟨⟨audience, haudience⟩, hissuedAt, htokenId, happlications,
    hipAddresses⟩ := hreadable
  obtain ⟨iat, hiat⟩ := Option.isSome_iff_exists.mp hissuedAt
  refine ⟨?_, ?_, ?_, ?_, rfl, ?_, ?_, rfl, ?_⟩
  · simp [toProvider, JwtPropertyProvider.issuedAt, hiat, values,
      DateTimeOffset.ofDateTime_utc _ (hutc.epochTime iat hiat), Functor.map,
      Except.map, DateTime.toInstant]
  · simp [toProvider, notBefore, values,
      DateTimeOffset.ofDateTime_utc _ hutc.validFrom, Functor.map, Except.map,
      DateTime.toInstant]
  · simp [toProvider, notAfter, values,
      DateTimeOffset.ofDateTime_utc _ hutc.validTo, Functor.map, Except.map,
      DateTime.toInstant]
  · simp [toProvider, JwtPropertyProvider.audience, haudience, values]
  · simp [toProvider, applicationIds, happlications, values, Except.map]
  · have hreduce := Result.reduce_eq_ok_iff.mpr (map_parseIpAddress hipAddresses)
    exact congrArg Except.ok (Result.map_eq_ok_iff.mpr ⟨_, hreduce, rfl⟩)
  · simp [toProvider, JwtPropertyProvider.tokenId, htokenId, values]

theorem readable_of_supplies {supplied : TokenPropertyValues}
    (hsupplies : (provider.toProvider runtime library).Supplies supplied) :
    provider.Readable runtime := by
  refine ⟨?_, ?_, ?_, ?_, ?_⟩
  · have haudience := Except.ok.inj hsupplies.audience
    simp only [JwtPropertyProvider.audience] at haudience
    split at haudience <;> simp_all
  · have hissuedAt := hsupplies.issuedAt
    simp only [toProvider, issuedAt] at hissuedAt
    cases hiat : provider.jwt.iat with
    | none => simp [hiat] at hissuedAt
    | some iat => rfl
  · have htokenId := Except.ok.inj hsupplies.tokenId
    cases hempty : isNullOrEmpty (provider.read runtime claimTokenId) with
    | false => rfl
    | true => simp [tokenId, hempty] at htokenId
  · have happlications := Except.ok.inj hsupplies.applicationIds
    intro hnone
    simp [applicationIds, hnone, Except.map] at happlications
  · obtain ⟨ipAddresses, hipAddresses, -⟩ :=
      Result.map_eq_ok_iff.mp (Except.ok.inj hsupplies.ipAddresses)
    have hmap := Result.reduce_eq_ok_iff.mp hipAddresses
    intro value hvalue
    have hmem : parseIpAddress runtime value ∈
        ipAddresses.map (.ok : IPAddress → Result IPAddress ErrorSet) :=
      hmap ▸ List.mem_map_of_mem hvalue
    obtain ⟨address, -, haddress⟩ := List.mem_map.mp hmem
    rw [parseIpAddress_eq_ok_iff.mp haddress.symm]
    rfl

theorem listsPresent_of_supplies {supplied : TokenPropertyValues}
    (hsupplies : (provider.toProvider runtime library).Supplies supplied) :
    supplied.ListsPresent := by
  obtain ⟨applicationIds, -, happlicationIds⟩ :=
    Result.map_eq_ok_iff.mp (Except.ok.inj hsupplies.applicationIds)
  obtain ⟨ipAddresses, -, hipAddresses⟩ :=
    Result.map_eq_ok_iff.mp (Except.ok.inj hsupplies.ipAddresses)
  exact ⟨⟨_, happlicationIds.symm, by simp⟩, by simp [← hipAddresses]⟩

theorem Utc.total (hutc : provider.Utc library) :
    (provider.toProvider runtime library).Total := by
  refine ⟨?_, ?_, ?_, ⟨_, rfl⟩, ⟨_, rfl⟩, ⟨_, rfl⟩, ⟨_, rfl⟩, ⟨_, rfl⟩,
    ⟨_, rfl⟩⟩
  · cases hiat : provider.jwt.iat with
    | none => simp [toProvider, JwtPropertyProvider.issuedAt, hiat]
    | some iat =>
        simp [toProvider, JwtPropertyProvider.issuedAt, hiat,
          DateTimeOffset.ofDateTime_utc _ (hutc.epochTime iat hiat), Functor.map,
          Except.map]
  · simp [toProvider, notBefore,
      DateTimeOffset.ofDateTime_utc _ hutc.validFrom, Functor.map, Except.map]
  · simp [toProvider, notAfter,
      DateTimeOffset.ofDateTime_utc _ hutc.validTo, Functor.map, Except.map]

theorem build_of_not_readable (hutc : provider.Utc library)
    (hreadable : ¬provider.Readable runtime) :
    ∃ errors, EntitlementTokenProperties.build
      (provider.toProvider runtime library) = .ok (.error errors) := by
  rcases EntitlementTokenProperties.build_cases
      (hutc.total : (provider.toProvider runtime library).Total) with
    ⟨supplied, hsupplies⟩ | ⟨errors, herrors, -⟩
  · exact absurd (readable_of_supplies hsupplies) hreadable
  · exact ⟨errors, herrors⟩

theorem Readable.build (hreadable : provider.Readable runtime)
    (hutc : provider.Utc library)
    (hissuer : isNullOrEmpty provider.jwt.issuer = false)
    (haudience : ∀ audience, provider.jwt.audiences = some [audience] →
      audience ≠ "") :
    EntitlementTokenProperties.build (provider.toProvider runtime library) =
      .ok (.ok (.ofValues (provider.values runtime library))) := by
  obtain ⟨audience, haudiences⟩ := hreadable.audience
  rw [EntitlementTokenProperties.build_of_supplies (hreadable.supplies hutc),
    EntitlementTokenProperties.select_eq_ok_iff.mpr
      ⟨hissuer, ?_, listsPresent_values, rfl⟩]
  · rfl
  · simp [values, haudiences, isNullOrEmpty, haudience audience haudiences]

end JwtPropertyProvider

namespace JwtPropertyParser

variable {runtime : Runtime} {library : JwtLibrary} {parser : JwtPropertyParser}
  {now : DateTimeOffset} {token : String}

/-- Parsing is validation followed by `Build`. -/
theorem parse_of_validated {principal : ClaimsPrincipal}
    {jwt : JwtSecurityToken}
    (hvalidated : library.validateToken now parser.validationParameters token =
      .ok (principal, .jwt jwt)) :
    parser.parse runtime library now token =
      EntitlementTokenProperties.build
        ((⟨principal, jwt⟩ : JwtPropertyProvider).toProvider runtime library) := by
  unfold parse extractJwt
  simp only [hvalidated]
  rfl

theorem parse_of_not_validated (runtime : Runtime)
    (hvalidated : ∀ principal jwt,
      library.validateToken now parser.validationParameters token ≠
        .ok (principal, .jwt jwt)) :
    ∃ errors, parser.parse runtime library now token = .ok (.error errors) := by
  unfold parse extractJwt
  rcases houtcome :
      library.validateToken now parser.validationParameters token with
    exception | ⟨principal, jwt | _⟩
  · exact ⟨_, rfl⟩
  · exact absurd houtcome (hvalidated principal jwt)
  · exact ⟨_, rfl⟩

theorem validated_of_parse {properties : EntitlementTokenProperties}
    (hparse : parser.parse runtime library now token = .ok (.ok properties)) :
    ∃ principal jwt,
      library.validateToken now parser.validationParameters token =
        .ok (principal, .jwt jwt) := by
  by_contra hnone
  push Not at hnone
  obtain ⟨errors, herrors⟩ := parse_of_not_validated runtime hnone
  rw [hparse] at herrors
  cases herrors

/-- A parser with a signing key accepts only what verifies under it. -/
theorem verifies_of_parse (hlibrary : library.ChecksSignatures)
    {key : SecurityKey} (hkey : parser.signingKey = some key)
    {properties : EntitlementTokenProperties}
    (hparse : parser.parse runtime library now token = .ok (.ok properties)) :
    library.Signed token ∧ library.Verifies key token := by
  obtain ⟨principal, jwt, hvalidated⟩ := validated_of_parse hparse
  have hrequired : parser.validationParameters.requireSignedTokens = true := by
    simp [validationParameters, hkey]
  have hsigned : library.Signed token :=
    hlibrary.unsigned_rejected _ _ _ _ hvalidated hrequired
  obtain ⟨checked, hchecked, hverifies⟩ :=
    hlibrary.signed_verifies _ _ _ _ hvalidated hsigned
  have hsame : key = checked := Option.some.inj (hkey.symm.trans hchecked)
  subst hsame
  exact ⟨hsigned, hverifies⟩

/-- A parser without an audience or an issuer accepts nothing. -/
theorem parties_of_parse (hlibrary : library.ChecksParties)
    {properties : EntitlementTokenProperties}
    (hparse : parser.parse runtime library now token = .ok (.ok properties)) :
    isNullOrEmpty parser.expectedAudience = false ∧
      isNullOrEmpty parser.expectedIssuer = false := by
  obtain ⟨principal, jwt, hvalidated⟩ := validated_of_parse hparse
  obtain ⟨audience, _, haudience, haudienceNe, -⟩ :=
    hlibrary.audience _ _ _ _ _ hvalidated rfl
  obtain ⟨issuer, hissuer, hissuerNe, -⟩ :=
    hlibrary.issuer _ _ _ _ _ hvalidated rfl
  have hexpectedAudience :=
    isNullOrEmpty_eq_false.mpr ⟨audience, haudience, haudienceNe⟩
  have hexpectedIssuer :=
    isNullOrEmpty_eq_false.mpr ⟨issuer, hissuer, hissuerNe⟩
  exact ⟨hexpectedAudience, hexpectedIssuer⟩

end JwtPropertyParser

end SoftwareEntitlement
