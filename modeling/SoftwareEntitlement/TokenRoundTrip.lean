import SoftwareEntitlement.JwtReference
import SoftwareEntitlement.ReferenceRuntime
import SoftwareEntitlement.TokenParsing
import SoftwareEntitlement.TokenVerification

/-!
# Parsing undoes generation

The generator writes a multiset of claims, and the readers find each property
again among them, whatever their order and whatever the library adds.
-/

namespace SoftwareEntitlement

def entitlementClaimTypes : List String :=
  [claimApplication, claimTokenId, claimIpAddress, claimVirtualMachineId]

/-- Claim types stay distinct when their case is ignored. -/
def Runtime.SeparatesClaimTypes (runtime : Runtime) : Prop :=
  ∀ type ∈ entitlementClaimTypes,
    ∀ other ∈ entitlementClaimTypes ++ registeredClaimTypes,
      runtime.equalsOrdinalIgnoreCase other type = true → other = type

/-- `IPAddress.TryParse` inverts `IPAddress.ToString`. -/
def Runtime.ParsesAddresses (runtime : Runtime) : Prop :=
  ∀ address, runtime.tryParseAddress (runtime.addressToString address) =
    some address

theorem Runtime.equalsOrdinalIgnoreCase_refl (runtime : Runtime)
    (text : String) : runtime.equalsOrdinalIgnoreCase text text = true := by
  simp [Runtime.equalsOrdinalIgnoreCase]

/-- The values of the claims of one type. -/
def valuesOfType (claims : List Claim) (type : String) : List String :=
  (claims.filter fun claim => claim.type = type).map Claim.value

namespace TokenGenerator

variable {runtime : Runtime} {properties : EntitlementTokenProperties}

theorem valuesOfType_optionalClaim (written type : String)
    (value : Option String) :
    valuesOfType (optionalClaim written value) type =
      if written = type ∧ isNullOrEmpty value = false then [value.getD ""]
      else [] := by
  cases hempty : isNullOrEmpty value <;> by_cases heq : written = type <;>
    simp [valuesOfType, optionalClaim, hempty, heq]

theorem valuesOfType_map {α : Type} (written type : String) (items : List α)
    (toValue : α → String) :
    valuesOfType (items.map fun item => ⟨written, toValue item⟩) type =
      if written = type then items.map toValue else [] := by
  by_cases heq : written = type <;>
    simp [valuesOfType, heq, List.filter_map, Function.comp_def]

theorem valuesOfType_append (first second : List Claim) (type : String) :
    valuesOfType (first ++ second) type =
      valuesOfType first type ++ valuesOfType second type := by
  simp [valuesOfType]

theorem valuesOfType_createClaims (type : String) :
    valuesOfType (createClaims runtime properties) type =
      (if claimVirtualMachineId = type ∧
          isNullOrEmpty properties.virtualMachineId = false then
        [properties.virtualMachineId.getD ""] else []) ++
      (if claimTokenId = type ∧ isNullOrEmpty properties.identifier = false then
        [properties.identifier.getD ""] else []) ++
      (if claimIpAddress = type then
        properties.ipAddresses.items.map runtime.addressToString else []) ++
      (if claimApplication = type then properties.applications.items else []) := by
  have happlications :=
    valuesOfType_map claimApplication type properties.applications.items id
  simp only [id_eq, List.map_id] at happlications
  simp only [createClaims, valuesOfType_append, valuesOfType_optionalClaim,
    valuesOfType_map, happlications]

theorem type_mem_of_mem_createClaims {claim : Claim}
    (hclaim : claim ∈ createClaims runtime properties) :
    claim.type ∈ entitlementClaimTypes := by
  simp only [createClaims, optionalClaim, List.mem_append] at hclaim
  rcases hclaim with ((hvm | hid) | hip) | happ
  · split at hvm <;> simp_all [entitlementClaimTypes]
  · split at hid <;> simp_all [entitlementClaimTypes]
  · obtain ⟨address, -, rfl⟩ := List.mem_map.mp hip
    simp [entitlementClaimTypes]
  · obtain ⟨application, -, rfl⟩ := List.mem_map.mp happ
    simp [entitlementClaimTypes]

theorem type_not_registered_of_mem_createClaims {claim : Claim}
    (hclaim : claim ∈ createClaims runtime properties) :
    claim.type ∉ registeredClaimTypes := by
  intro hregistered
  have htype := type_mem_of_mem_createClaims hclaim
  simp [registeredClaimTypes, entitlementClaimTypes, claimApplication,
    claimTokenId, claimIpAddress, claimVirtualMachineId] at htype hregistered
  rcases hregistered with h | h | h | h | h <;> simp [h] at htype

end TokenGenerator

namespace JwtPropertyProvider

variable {runtime : Runtime} {provider : JwtPropertyProvider}

theorem read_eq_head? (type : String) :
    provider.read runtime type = (provider.readAll runtime type).head? := by
  rw [read, readAll, ClaimsPrincipal.findFirst_eq_head?, List.head?_map]

theorem readAll_perm (hruntime : runtime.SeparatesClaimTypes)
    {claims registered : List Claim}
    (hperm : provider.principal.claims.Perm (claims ++ registered))
    (hclaims : ∀ claim ∈ claims, claim.type ∈ entitlementClaimTypes)
    (hregistered : ∀ claim ∈ registered, claim.type ∈ registeredClaimTypes)
    {type : String} (htype : type ∈ entitlementClaimTypes) :
    (provider.readAll runtime type).Perm (valuesOfType claims type) := by
  have hdisjoint : ∀ other ∈ registeredClaimTypes, other ≠ type := by
    rintro other hother rfl
    simp [registeredClaimTypes, entitlementClaimTypes, claimApplication,
      claimTokenId, claimIpAddress, claimVirtualMachineId] at hother htype
    rcases hother with rfl | rfl | rfl | rfl | rfl <;> simp at htype
  have hfilter : ∀ claim ∈ claims ++ registered,
      runtime.equalsOrdinalIgnoreCase claim.type type =
        decide (claim.type = type) := by
    intro claim hclaim
    have hmem : claim.type ∈ entitlementClaimTypes ++ registeredClaimTypes := by
      rcases List.mem_append.mp hclaim with h | h
      · exact List.mem_append_left _ (hclaims claim h)
      · exact List.mem_append_right _ (hregistered claim h)
    by_cases heq : claim.type = type
    · simp [heq, Runtime.equalsOrdinalIgnoreCase_refl]
    · have hne := mt (hruntime type htype claim.type hmem) heq
      simpa [heq] using hne
  have hnone : registered.filter (fun claim => claim.type = type) = [] := by
    refine List.filter_eq_nil_iff.mpr fun claim hclaim => ?_
    simpa using hdisjoint claim.type (hregistered claim hclaim)
  unfold JwtPropertyProvider.readAll ClaimsPrincipal.findAll
  refine ((hperm.filter _).map _).trans (List.Perm.of_eq ?_)
  rw [List.filter_congr hfilter, List.filter_append, hnone, List.append_nil]
  rfl

end JwtPropertyProvider

/-! ## The round trip -/

/-- An empty string counts as null. -/
def nullIfEmpty (value : Option String) : Option String :=
  if isNullOrEmpty value then none else value

/-- `parsed` has the content of `original`: sets are compared as sets, an empty
virtual machine identifier has become null, and instants are truncated to
seconds. -/
structure EntitlementTokenProperties.RoundTrips
    (original parsed : EntitlementTokenProperties) : Prop where
  virtualMachineId :
    parsed.virtualMachineId = nullIfEmpty original.virtualMachineId
  issuedAt : parsed.issuedAt = original.issuedAt.truncateToSecond
  notBefore : parsed.notBefore = original.notBefore.truncateToSecond
  notAfter : parsed.notAfter = original.notAfter.truncateToSecond
  applications : parsed.applications.SetEq original.applications
  ipAddresses : parsed.ipAddresses.SetEq original.ipAddresses
  identifier : parsed.identifier = original.identifier
  audience : parsed.audience = original.audience
  issuer : parsed.issuer = original.issuer

/-- Properties which can be written to a token. -/
structure EntitlementTokenProperties.Writable
    (properties : EntitlementTokenProperties) : Prop where
  applications : properties.applications.items ≠ []
  trimmed : ∀ application ∈ properties.applications,
    trim application = application
  identifier : isNullOrEmpty properties.identifier = false
  audience : isNullOrEmpty properties.audience = false
  issuer : isNullOrEmpty properties.issuer = false
  lifetime : properties.notBefore < properties.notAfter

section RoundTrip

variable {runtime : Runtime} {library : JwtLibrary}
  {generator : TokenGenerator} {properties : EntitlementTokenProperties}
  {provider : JwtPropertyProvider}

theorem readAll_generated (hruntime : runtime.SeparatesClaimTypes)
    (hcarries : library.Carries (generator.descriptor runtime properties)
      provider.principal provider.jwt) (type : String)
    (htype : type ∈ entitlementClaimTypes) :
    (provider.readAll runtime type).Perm
      (valuesOfType (TokenGenerator.createClaims runtime properties) type) := by
  obtain ⟨registered, hperm, hregistered⟩ := hcarries.claims
  exact JwtPropertyProvider.readAll_perm hruntime hperm
    (fun _ hclaim => TokenGenerator.type_mem_of_mem_createClaims hclaim)
    hregistered htype

theorem readAll_applications (hruntime : runtime.SeparatesClaimTypes)
    (hcarries : library.Carries (generator.descriptor runtime properties)
      provider.principal provider.jwt) :
    (provider.readAll runtime claimApplication).Perm
      properties.applications.items := by
  simpa [TokenGenerator.valuesOfType_createClaims, claimVirtualMachineId,
    claimTokenId, claimIpAddress, claimApplication] using
    readAll_generated hruntime hcarries claimApplication
      (by simp [entitlementClaimTypes])

theorem readAll_ipAddresses (hruntime : runtime.SeparatesClaimTypes)
    (hcarries : library.Carries (generator.descriptor runtime properties)
      provider.principal provider.jwt) :
    (provider.readAll runtime claimIpAddress).Perm
      (properties.ipAddresses.items.map runtime.addressToString) := by
  simpa [TokenGenerator.valuesOfType_createClaims, claimVirtualMachineId,
    claimTokenId, claimIpAddress, claimApplication] using
    readAll_generated hruntime hcarries claimIpAddress
      (by simp [entitlementClaimTypes])

theorem read_tokenId (hruntime : runtime.SeparatesClaimTypes)
    (hcarries : library.Carries (generator.descriptor runtime properties)
      provider.principal provider.jwt)
    (hidentifier : isNullOrEmpty properties.identifier = false) :
    provider.read runtime claimTokenId = properties.identifier := by
  have hperm := readAll_generated hruntime hcarries claimTokenId
    (by simp [entitlementClaimTypes])
  simp [TokenGenerator.valuesOfType_createClaims, claimVirtualMachineId,
    claimTokenId, claimIpAddress, claimApplication, hidentifier] at hperm
  obtain ⟨identifier, hsome, -⟩ := isNullOrEmpty_eq_false.mp hidentifier
  rw [JwtPropertyProvider.read_eq_head?, claimTokenId, hperm, hsome]
  rfl

theorem read_virtualMachineId (hruntime : runtime.SeparatesClaimTypes)
    (hcarries : library.Carries (generator.descriptor runtime properties)
      provider.principal provider.jwt) :
    provider.read runtime claimVirtualMachineId =
      nullIfEmpty properties.virtualMachineId := by
  have hperm := readAll_generated hruntime hcarries claimVirtualMachineId
    (by simp [entitlementClaimTypes])
  rw [JwtPropertyProvider.read_eq_head?, nullIfEmpty]
  cases hempty : isNullOrEmpty properties.virtualMachineId with
  | false =>
      obtain ⟨value, hvalue, -⟩ := isNullOrEmpty_eq_false.mp hempty
      simp [TokenGenerator.valuesOfType_createClaims, claimVirtualMachineId,
        claimTokenId, claimIpAddress, claimApplication, hempty] at hperm
      rw [claimVirtualMachineId, hperm, hvalue]
      rfl
  | true =>
      simp [TokenGenerator.valuesOfType_createClaims, claimVirtualMachineId,
        claimTokenId, claimIpAddress, claimApplication, hempty] at hperm
      rw [claimVirtualMachineId, hperm]
      rfl

theorem readable_generated (hruntime : runtime.SeparatesClaimTypes)
    (hparses : runtime.ParsesAddresses) (hwritable : properties.Writable)
    (hcarries : library.Carries (generator.descriptor runtime properties)
      provider.principal provider.jwt) : provider.Readable runtime := by
  refine ⟨?_, ?_, ?_, ?_, ?_⟩
  · obtain ⟨audience, haudience, -⟩ :=
      isNullOrEmpty_eq_false.mp hwritable.audience
    exact ⟨audience, hcarries.audience audience haudience⟩
  · obtain ⟨seconds, hseconds, -⟩ := hcarries.issuedAt
    simp [hseconds]
  · rw [read_tokenId hruntime hcarries hwritable.identifier]
    exact hwritable.identifier
  · intro hnil
    have hperm := readAll_applications hruntime hcarries
    rw [hnil] at hperm
    exact hwritable.applications hperm.symm.eq_nil
  · intro value hvalue
    have hmem := (readAll_ipAddresses hruntime hcarries).subset hvalue
    obtain ⟨address, -, rfl⟩ := List.mem_map.mp hmem
    simp [hparses address]

theorem utc_generated
    (hcarries : library.Carries (generator.descriptor runtime properties)
      provider.principal provider.jwt) : provider.Utc library := by
  refine ⟨by rw [hcarries.validFrom]; rfl, by rw [hcarries.validTo]; rfl, ?_⟩
  intro seconds hseconds
  obtain ⟨seconds', hseconds', htime⟩ := hcarries.issuedAt
  obtain rfl : seconds = seconds' := by simpa [hseconds] using hseconds'
  rw [htime]
  rfl

theorem roundTrips_generated (hruntime : runtime.SeparatesClaimTypes)
    (hparses : runtime.ParsesAddresses) (hwritable : properties.Writable)
    (hcarries : library.Carries (generator.descriptor runtime properties)
      provider.principal provider.jwt) :
    properties.RoundTrips (.ofValues (provider.values runtime library)) := by
  obtain ⟨seconds, hseconds, htime⟩ := hcarries.issuedAt
  refine ⟨read_virtualMachineId hruntime hcarries, ?_, ?_, ?_, ?_, ?_,
    read_tokenId hruntime hcarries hwritable.identifier, ?_, hcarries.issuer⟩
  · simp [EntitlementTokenProperties.ofValues, JwtPropertyProvider.values,
      hseconds, htime, DateTime.toInstant, DateTimeOffset.utcDateTime,
      TokenGenerator.descriptor]
  · simp [EntitlementTokenProperties.ofValues, JwtPropertyProvider.values,
      hcarries.validFrom, DateTime.toInstant, DateTimeOffset.utcDateTime,
      TokenGenerator.descriptor]
  · simp [EntitlementTokenProperties.ofValues, JwtPropertyProvider.values,
      hcarries.validTo, DateTime.toInstant, DateTimeOffset.utcDateTime,
      TokenGenerator.descriptor]
  · intro application
    have hperm := readAll_applications hruntime hcarries
    rw [JwtPropertyProvider.applications_ofValues,
      ImmutableHashSet.mem_createRange, List.mem_map]
    constructor
    · rintro ⟨claimed, hclaimed, rfl⟩
      have hmem : claimed ∈ properties.applications := hperm.subset hclaimed
      rwa [hwritable.trimmed claimed hmem]
    · intro hmem
      exact ⟨application, hperm.symm.subset hmem,
        hwritable.trimmed application hmem⟩
  · intro address
    have hperm := readAll_ipAddresses hruntime hcarries
    rw [EntitlementTokenProperties.ofValues, ImmutableHashSet.mem_createRange]
    simp only [JwtPropertyProvider.values, Option.getD_some,
      List.mem_filterMap, hperm.mem_iff, List.mem_map]
    constructor
    · rintro ⟨text, ⟨written, hwritten, rfl⟩, hparsed⟩
      obtain rfl : written = address := by
        simpa [hparses written] using hparsed
      exact hwritten
    · intro hmem
      exact ⟨_, ⟨address, hmem, rfl⟩, hparses address⟩
  · obtain ⟨audience, haudience, -⟩ :=
      isNullOrEmpty_eq_false.mp hwritable.audience
    simp [EntitlementTokenProperties.ofValues, JwtPropertyProvider.values,
      hcarries.audience audience haudience, haudience]

theorem parse_generated {parser : JwtPropertyParser} {now : DateTimeOffset}
    {token : String} (hruntime : runtime.SeparatesClaimTypes)
    (hparses : runtime.ParsesAddresses) (hlibrary : library.TransportsTokens)
    (hwritable : properties.Writable)
    (hmatches : TokenValidationParameters.Matches library
      parser.validationParameters
      (generator.descriptor runtime properties))
    (hinForce : parser.validationParameters.InForce
      (generator.descriptor runtime properties) now)
    (hgenerate : generator.generate runtime library properties = .ok token) :
    ∃ parsed, parser.parse runtime library now token = .ok (.ok parsed) ∧
      properties.RoundTrips parsed := by
  obtain ⟨principal, jwt, hvalidated, hcarries⟩ :=
    hlibrary.accepts now parser.validationParameters _ token hgenerate
      (fun _ => TokenGenerator.type_not_registered_of_mem_createClaims)
      hmatches hinForce
  have hreadable : (⟨principal, jwt⟩ : JwtPropertyProvider).Readable runtime :=
    readable_generated hruntime hparses hwritable hcarries
  have hround : properties.RoundTrips
      (.ofValues ((⟨principal, jwt⟩ : JwtPropertyProvider).values runtime
        library)) :=
    roundTrips_generated hruntime hparses hwritable hcarries
  refine ⟨_, ?_, hround⟩
  rw [JwtPropertyParser.parse_of_validated hvalidated]
  refine hreadable.build (utc_generated hcarries) ?_ ?_
  · exact hcarries.issuer ▸ hwritable.issuer
  · intro audience haudiences
    obtain ⟨written, hwritten, hne⟩ :=
      isNullOrEmpty_eq_false.mp hwritable.audience
    have hsame : some [audience] = some [written] :=
      haudiences.symm.trans (hcarries.audience written hwritten)
    obtain rfl : audience = written := by simpa using hsame
    exact hne

end RoundTrip

/-- The parser has the counterparts of the keys of the generator. -/
structure TokenGenerator.MatchedBy (library : JwtLibrary)
    (generator : TokenGenerator) (parser : JwtPropertyParser) : Prop where
  unsigned : generator.signingCredentials = none → parser.signingKey = none
  signed : ∀ key, generator.signingCredentials = some key →
    library.CanSign key ∧ ∃ checked, parser.signingKey = some checked ∧
      checked.pair = key.pair
  encrypted : ∀ key, generator.encryptingCredentials = some key →
    library.CanEncrypt key ∧ ∃ decrypting,
      parser.encryptionKey = some decrypting ∧
        decrypting.pair = key.pair ∧ library.CanDecrypt decrypting

theorem TokenGenerator.MatchedBy.matches {runtime : Runtime}
    {library : JwtLibrary} {generator : TokenGenerator}
    {parser : JwtPropertyParser} {properties : EntitlementTokenProperties}
    (hkeys : generator.MatchedBy library parser)
    (hwritable : properties.Writable)
    (haudience : parser.expectedAudience = properties.audience)
    (hissuer : parser.expectedIssuer = properties.issuer) :
    TokenValidationParameters.Matches library parser.validationParameters
      (generator.descriptor runtime properties) where
  audience := haudience
  audience_ne := hwritable.audience
  issuer := hissuer
  issuer_ne := hwritable.issuer
  unsigned hnone := by
    simp [JwtPropertyParser.validationParameters, hkeys.unsigned hnone]
  signed key hkey := (hkeys.signed key hkey).2
  encrypted key hkey := (hkeys.encrypted key hkey).2

theorem inForce_of_between {runtime : Runtime} {generator : TokenGenerator}
    {parser : JwtPropertyParser} {properties : EntitlementTokenProperties}
    {now : DateTimeOffset} (hstarted : properties.notBefore ≤ now)
    (hunexpired : now ≤ properties.notAfter) :
    parser.validationParameters.InForce
      (generator.descriptor runtime properties) now := by
  have hbefore : properties.notBefore.ticks ≤ now.ticks := hstarted
  have hafter : now.ticks ≤ properties.notAfter.ticks := hunexpired
  -- truncating moves an instant by less than a second, the skew is a minute
  have hsecond := Nat.mod_lt properties.notAfter.ticks
    (show 0 < ticksPerSecond by decide)
  simp only [TokenValidationParameters.InForce, TokenGenerator.descriptor,
    DateTimeOffset.truncateToSecond, JwtPropertyParser.validationParameters]
  omega

theorem separatesClaimTypes_reference :
    Runtime.reference.SeparatesClaimTypes := by
  unfold Runtime.SeparatesClaimTypes
  decide

theorem parsesAddresses_reference : Runtime.reference.ParsesAddresses :=
  ReferenceRuntime.tryParseAddress_addressToString

def issuedRequest : TokenVerificationRequest :=
  ⟨"contosoapp", .v4 16777343#32⟩

def issuedProperties (audience issuer : String)
    (virtualMachineId : Option String) : EntitlementTokenProperties where
  virtualMachineId := virtualMachineId
  issuedAt := referenceMoment
  notBefore := referenceMoment
  notAfter := ⟨630006048000000000, by decide⟩
  applications := ⟨[issuedRequest.applicationId], by decide⟩
  ipAddresses := ⟨[issuedRequest.ipAddress], by decide⟩
  identifier := some "entitlement"
  audience := some audience
  issuer := some issuer

theorem writable_issuedProperties {audience issuer : String}
    (haudience : audience ≠ "") (hissuer : issuer ≠ "")
    (virtualMachineId : Option String) :
    (issuedProperties audience issuer virtualMachineId).Writable where
  applications := List.cons_ne_nil _ _
  trimmed application happlication := by
    obtain rfl : application = "contosoapp" :=
      List.mem_singleton.mp happlication
    decide
  identifier := rfl
  audience := by simpa [isNullOrEmpty, issuedProperties] using haudience
  issuer := by simpa [isNullOrEmpty, issuedProperties] using hissuer
  lifetime := by
    have hticks : (630000000000000000 : ℕ) < 630006048000000000 := by decide
    exact hticks

def defaultProperties : EntitlementTokenProperties :=
  issuedProperties defaultAudience defaultIssuer none

/-- A certificate whose private key may or may not be accessible. -/
def sampleCertificate (hasPrivateKey : Bool) : X509Certificate2 where
  thumbprint := "6D2A2C9A8F1C4D0B97B5D3F0E6C7A8B1D4E5F601"
  publicKey := "sample key pair"
  hasPrivateKey := hasPrivateKey
  rsaPrivateKey := .ok ⟨"sample key pair"⟩

theorem generate_eq_ok (runtime : Runtime) {library : JwtLibrary}
    {generator : TokenGenerator} {parser : JwtPropertyParser}
    {properties : EntitlementTokenProperties}
    (hlibrary : library.TransportsTokens) (hwritable : properties.Writable)
    (hkeys : generator.MatchedBy library parser) :
    ∃ token, generator.generate runtime library properties = .ok token :=
  hlibrary.writes (generator.descriptor runtime properties) hwritable.lifetime
    (fun key hkey => (hkeys.signed key hkey).1)
    (fun key hkey => (hkeys.encrypted key hkey).1)

/-- The generator writes a token, and while it is in force a matching parser
gets the properties back from it. -/
theorem parse_generate (runtime : Runtime) (library : JwtLibrary)
    (generator : TokenGenerator) (parser : JwtPropertyParser)
    (properties : EntitlementTokenProperties)
    (hruntime : runtime.SeparatesClaimTypes)
    (hparses : runtime.ParsesAddresses) (hlibrary : library.TransportsTokens)
    (hwritable : properties.Writable)
    (hkeys : generator.MatchedBy library parser)
    (haudience : parser.expectedAudience = properties.audience)
    (hissuer : parser.expectedIssuer = properties.issuer) :
    ∃ token, generator.generate runtime library properties = .ok token ∧
      ∀ now, properties.notBefore ≤ now → now ≤ properties.notAfter →
        ∃ parsed, parser.parse runtime library now token = .ok (.ok parsed) ∧
          properties.RoundTrips parsed := by
  obtain ⟨token, hgenerate⟩ := generate_eq_ok runtime hlibrary hwritable hkeys
  refine ⟨token, hgenerate, fun now hstarted hunexpired => ?_⟩
  exact parse_generated hruntime hparses hlibrary hwritable
    (hkeys.matches hwritable haudience hissuer)
    (inForce_of_between hstarted hunexpired) hgenerate

/-- A token signed with a certificate and encrypted for its key pair. -/
theorem parse_generate_defaultProperties :
    ∃ token,
      TokenGenerator.generate .reference .reference
          ⟨some (.x509 (sampleCertificate true)),
            some (.x509 (sampleCertificate true))⟩ defaultProperties =
        .ok token ∧
      ∀ now, defaultProperties.notBefore ≤ now →
        now ≤ defaultProperties.notAfter →
        ∃ parsed,
          JwtPropertyParser.parse .reference .reference
              ⟨some defaultAudience, some defaultIssuer,
                some (.x509 (sampleCertificate true)),
                some (.rsa ⟨"sample key pair"⟩)⟩ now token =
            .ok (.ok parsed) ∧
          defaultProperties.RoundTrips parsed := by
  refine parse_generate _ _ _ _ _ separatesClaimTypes_reference
    parsesAddresses_reference JwtReference.transportsTokens
    (writable_issuedProperties (by decide) (by decide) none) ⟨?_, ?_, ?_⟩ rfl
    rfl
  · rintro ⟨⟩
  · rintro key ⟨⟩
    exact ⟨rfl, _, rfl, rfl⟩
  · rintro key ⟨⟩
    exact ⟨trivial, _, rfl, rfl, rfl⟩

end SoftwareEntitlement
