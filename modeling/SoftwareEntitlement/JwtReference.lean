import SoftwareEntitlement.JwtLibrary
import SoftwareEntitlement.ReferenceRuntime

/-!
# A reference JWT library

An instance of the library which keeps all of its documented laws.  A token
is the content it was made from, numbered and written in unary, followed by
as many periods as its parts require; a signature or an encryption is the
name of the key pair it was made with.
-/

namespace SoftwareEntitlement

namespace JwtReference

deriving instance Encodable for KeyPair
deriving instance Encodable for Claim

/-- What a token says; its instants are in whole seconds. -/
structure Content where
  claims : List Claim
  notBefore : ℕ
  expires : ℕ
  issuedAt : ℕ
  issuer : Option String
  audience : Option String
  signedWith : Option KeyPair
  encryptedFor : Option KeyPair
  deriving DecidableEq, Encodable

def Content.ofDescriptor (descriptor : SecurityTokenDescriptor) : Content where
  claims := descriptor.claims
  notBefore := descriptor.notBefore.ticks / ticksPerSecond
  expires := descriptor.expires.ticks / ticksPerSecond
  issuedAt := descriptor.issuedAt.ticks / ticksPerSecond
  issuer := descriptor.issuer
  audience := descriptor.audience
  signedWith := descriptor.signingCredentials.map SecurityKey.pair
  encryptedFor := descriptor.encryptingCredentials.map SecurityKey.pair

def Content.serialize (content : Content) : String :=
  String.ofList (List.replicate (Encodable.encode content) 'x' ++
    List.replicate (if content.encryptedFor.isSome then 4 else 2) '.')

def deserialize (token : String) : Option Content :=
  (Encodable.decode (token.toList.count 'x')).filter fun content =>
    content.serialize = token

theorem deserialize_serialize (content : Content) :
    deserialize content.serialize = some content := by
  have hcount : content.serialize.toList.count 'x' =
      Encodable.encode content := by
    simp [Content.serialize, List.count_append, List.count_replicate]
  simp [deserialize, hcount]

theorem serialize_of_deserialize {token : String} {content : Content}
    (hcontent : deserialize token = some content) :
    content.serialize = token := by
  have hkept := (Option.filter_eq_some_iff.mp hcontent).2
  simpa using hkept

theorem tokenParts_serialize (content : Content) :
    tokenParts content.serialize =
      if content.encryptedFor.isSome then 5 else 3 := by
  unfold tokenParts Content.serialize
  cases content.encryptedFor <;>
    simp [List.count_append, List.count_replicate]

def timeOfSeconds (seconds : ℕ) : DateTime :=
  ⟨min (seconds * ticksPerSecond) maxTicks, Nat.min_le_right _ _, .utc⟩

theorem timeOfSeconds_div (instant : DateTimeOffset) :
    timeOfSeconds (instant.ticks / ticksPerSecond) =
      instant.truncateToSecond.utcDateTime := by
  have hrange := instant.inRange
  have hfloor : instant.ticks / ticksPerSecond * ticksPerSecond =
      instant.ticks - instant.ticks % ticksPerSecond := by
    have hsplit := Nat.div_add_mod' instant.ticks ticksPerSecond
    omega
  have hle : instant.ticks - instant.ticks % ticksPerSecond ≤ maxTicks := by
    omega
  simp only [timeOfSeconds, DateTimeOffset.truncateToSecond,
    DateTimeOffset.utcDateTime, DateTime.mk.injEq, and_true]
  rw [hfloor, Nat.min_eq_left hle]

/-- The key can undo what its public counterpart does. -/
def holdsPrivatePart : SecurityKey → Bool
  | .x509 certificate => certificate.hasPrivateKey
  | .rsa _ | .symmetric _ => true

namespace Content

variable (content : Content)

def registeredClaims : List Claim :=
  content.audience.toList.map (fun audience => ⟨"aud", audience⟩) ++
    content.issuer.toList.map (fun issuer => ⟨"iss", issuer⟩) ++
    [⟨"nbf", toString content.notBefore⟩, ⟨"exp", toString content.expires⟩,
      ⟨"iat", toString content.issuedAt⟩]

def jwt : JwtSecurityToken where
  claims := content.claims ++ content.registeredClaims
  audiences := some content.audience.toList
  issuer := content.issuer
  validFrom := timeOfSeconds content.notBefore
  validTo := timeOfSeconds content.expires
  iat := some content.issuedAt

def principal : ClaimsPrincipal := ⟨content.jwt.claims⟩

/-- The token was made with the counterparts of the keys at hand. -/
abbrev FitsKeys (parameters : TokenValidationParameters) : Prop :=
  (∀ pair ∈ content.encryptedFor, ∃ key ∈ parameters.tokenDecryptionKey,
      key.pair = pair ∧ holdsPrivatePart key = true) ∧
    (content.signedWith = none → parameters.requireSignedTokens = false) ∧
    ∀ pair ∈ content.signedWith, ∃ key ∈ parameters.issuerSigningKey,
      key.pair = pair

abbrev Started (now : DateTimeOffset) (parameters : TokenValidationParameters) :
    Prop :=
  parameters.validateLifetime = true →
    content.jwt.validFrom.ticks ≤ now.ticks + parameters.clockSkew

abbrev Unexpired (now : DateTimeOffset)
    (parameters : TokenValidationParameters) : Prop :=
  parameters.validateLifetime = true →
    now.ticks ≤ content.jwt.validTo.ticks + parameters.clockSkew

abbrev FitsParties (parameters : TokenValidationParameters) : Prop :=
  (parameters.validateAudience = true →
      isNullOrEmpty parameters.validAudience = false ∧
        content.audience = parameters.validAudience) ∧
    (parameters.validateIssuer = true →
      content.issuer = parameters.validIssuer) ∧
    isNullOrEmpty content.issuer = false

structure Passes (now : DateTimeOffset)
    (parameters : TokenValidationParameters) : Prop where
  fitsKeys : content.FitsKeys parameters
  started : content.Started now parameters
  unexpired : content.Unexpired now parameters
  fitsParties : content.FitsParties parameters

instance (now : DateTimeOffset) (parameters : TokenValidationParameters) :
    Decidable (content.Passes now parameters) :=
  decidable_of_iff
    (content.FitsKeys parameters ∧ content.Started now parameters ∧
      content.Unexpired now parameters ∧ content.FitsParties parameters)
    ⟨fun ⟨hkeys, hstarted, hunexpired, hparties⟩ =>
      ⟨hkeys, hstarted, hunexpired, hparties⟩,
    fun ⟨hkeys, hstarted, hunexpired, hparties⟩ =>
      ⟨hkeys, hstarted, hunexpired, hparties⟩⟩

def rejection (now : DateTimeOffset) (parameters : TokenValidationParameters) :
    TokenException :=
  if ¬content.FitsKeys parameters then
    .other "IDX10503: Signature validation failed."
  else if ¬content.Started now parameters then
    .notYetValid content.jwt.validFrom
  else if ¬content.Unexpired now parameters then
    .expired content.jwt.validTo
  else
    .invalidAudience (content.audience.getD "")

end Content

def writeToken (descriptor : SecurityTokenDescriptor) : Throws String :=
  if descriptor.expires ≤ descriptor.notBefore then
    .error (.argument "IDX12401: Expires must be after NotBefore." "expires")
  else if descriptor.signingCredentials.any fun key => !holdsPrivatePart key then
    .error (.cryptographic "IDX10638: Cannot create signatures with this key.")
  else
    .ok (Content.ofDescriptor descriptor).serialize

def validateToken (now : DateTimeOffset)
    (parameters : TokenValidationParameters) (token : String) :
    Except TokenException (ClaimsPrincipal × SecurityToken) :=
  match deserialize token with
  | none => .error (.argument "IDX10708: The token is not well formed.")
  | some content =>
      if content.Passes now parameters then
        .ok (content.principal, .jwt content.jwt)
      else
        .error (content.rejection now parameters)

end JwtReference

def JwtLibrary.reference : JwtLibrary where
  writeToken := JwtReference.writeToken
  validateToken := JwtReference.validateToken
  epochTime seconds := JwtReference.timeOfSeconds seconds.toNat
  CanSign key := JwtReference.holdsPrivatePart key = true
  CanEncrypt _ := True
  CanDecrypt key := JwtReference.holdsPrivatePart key = true
  Signed token := ∃ content, JwtReference.deserialize token = some content ∧
    content.signedWith.isSome = true
  Verifies key token := ∃ content,
    JwtReference.deserialize token = some content ∧
      content.signedWith = some key.pair
  Decrypts key token := ∃ content,
    JwtReference.deserialize token = some content ∧
      content.encryptedFor = some key.pair ∧
      JwtReference.holdsPrivatePart key = true

namespace JwtReference

theorem writeToken_eq_ok {descriptor : SecurityTokenDescriptor} {token : String}
    (hwritten : writeToken descriptor = .ok token) :
    token = (Content.ofDescriptor descriptor).serialize := by
  unfold writeToken at hwritten
  split at hwritten
  · cases hwritten
  · split at hwritten
    · cases hwritten
    · exact (Except.ok.inj hwritten).symm

theorem validateToken_serialize {now : DateTimeOffset}
    {parameters : TokenValidationParameters} {content : Content}
    (hpasses : content.Passes now parameters) :
    validateToken now parameters content.serialize =
      .ok (content.principal, .jwt content.jwt) := by
  simp [validateToken, deserialize_serialize, hpasses]

theorem validateToken_eq_ok {now : DateTimeOffset}
    {parameters : TokenValidationParameters} {token : String}
    {accepted : ClaimsPrincipal × SecurityToken}
    (haccepted : validateToken now parameters token = .ok accepted) :
    ∃ content, deserialize token = some content ∧
      content.Passes now parameters ∧
      accepted = (content.principal, .jwt content.jwt) := by
  unfold validateToken at haccepted
  cases hcontent : deserialize token with
  | none => simp [hcontent] at haccepted
  | some content =>
      simp only [hcontent] at haccepted
      split at haccepted
      · exact ⟨content, rfl, by assumption, (Except.ok.inj haccepted).symm⟩
      · cases haccepted

/-! ## The documented laws -/

theorem checksSignatures : JwtLibrary.reference.ChecksSignatures := by
  refine ⟨?_, ?_, ?_, ?_⟩
  · intro now parameters token accepted haccepted hrequired
    obtain ⟨content, hcontent, hpasses, -⟩ := validateToken_eq_ok haccepted
    refine ⟨content, hcontent, ?_⟩
    by_contra hunsigned
    have hnone : content.signedWith = none := by simpa using hunsigned
    simp [hpasses.fitsKeys.2.1 hnone] at hrequired
  · rintro now parameters token accepted haccepted ⟨content, hcontent, hsigned⟩
    obtain ⟨other, hother, hpasses, -⟩ := validateToken_eq_ok haccepted
    obtain rfl : content = other := Option.some.inj (hcontent.symm.trans hother)
    obtain ⟨pair, hpair⟩ := Option.isSome_iff_exists.mp hsigned
    obtain ⟨key, hkey, rfl⟩ := hpasses.fitsKeys.2.2 pair hpair
    exact ⟨key, hkey, content, hcontent, hpair⟩
  · rintro key token ⟨content, hcontent, hpair⟩
    exact ⟨content, hcontent, by simp [hpair]⟩
  · intro key token _
    cases hpair : key.pair with
    | rsa modulus => exact ⟨.rsa ⟨modulus⟩, rfl, rfl⟩
    | secret value => exact ⟨.symmetric value, rfl, rfl⟩

theorem tokenParts_of_deserialize {token : String} {content : Content}
    (hcontent : deserialize token = some content) :
    tokenParts token = if content.encryptedFor.isSome then 5 else 3 := by
  rw [← serialize_of_deserialize hcontent, tokenParts_serialize]

theorem checksEncryption : JwtLibrary.reference.ChecksEncryption := by
  refine ⟨?_, ?_⟩
  · intro now parameters token accepted haccepted
    obtain ⟨content, hcontent, -⟩ := validateToken_eq_ok haccepted
    rw [tokenParts_of_deserialize hcontent]
    cases content.encryptedFor <;> simp
  · intro now parameters token accepted haccepted hparts
    obtain ⟨content, hcontent, hpasses, -⟩ := validateToken_eq_ok haccepted
    rw [tokenParts_of_deserialize hcontent] at hparts
    cases hpair : content.encryptedFor with
    | none => simp [hpair] at hparts
    | some pair =>
        obtain ⟨key, hkey, rfl, hprivate⟩ := hpasses.fitsKeys.1 pair hpair
        exact ⟨key, hkey, content, hcontent, hpair, hprivate⟩

theorem checksParties : JwtLibrary.reference.ChecksParties := by
  refine ⟨?_, ?_⟩
  · intro now parameters token principal jwt haccepted hvalidates
    obtain ⟨content, -, hpasses, haccepted⟩ := validateToken_eq_ok haccepted
    obtain ⟨hprincipal, hjwt⟩ := Prod.mk.inj haccepted
    obtain rfl := SecurityToken.jwt.inj hjwt
    obtain ⟨hvalid, hsame⟩ := hpasses.fitsParties.1 hvalidates
    obtain ⟨audience, haudience, hne⟩ := isNullOrEmpty_eq_false.mp hvalid
    refine ⟨audience, [audience], haudience, hne, ?_, by simp⟩
    simp [Content.jwt, hsame, haudience]
  · intro now parameters token principal jwt haccepted hvalidates
    obtain ⟨content, -, hpasses, haccepted⟩ := validateToken_eq_ok haccepted
    obtain ⟨hprincipal, hjwt⟩ := Prod.mk.inj haccepted
    obtain rfl := SecurityToken.jwt.inj hjwt
    have hsame := hpasses.fitsParties.2.1 hvalidates
    obtain ⟨issuer, hissuer, hne⟩ :=
      isNullOrEmpty_eq_false.mp hpasses.fitsParties.2.2
    exact ⟨issuer, hsame ▸ hissuer, hne, hissuer⟩

theorem reportsUtc : JwtLibrary.reference.ReportsUtc := by
  refine ⟨?_, fun _ => rfl⟩
  intro now parameters token principal jwt haccepted
  obtain ⟨content, -, -, haccepted⟩ := validateToken_eq_ok haccepted
  obtain rfl := SecurityToken.jwt.inj (Prod.mk.inj haccepted).2
  exact ⟨rfl, rfl⟩

theorem exposesTokens : JwtLibrary.reference.ExposesTokens := by
  refine ⟨?_, ?_⟩
  · intro now parameters token principal jwt haccepted
    obtain ⟨content, -, -, haccepted⟩ := validateToken_eq_ok haccepted
    obtain ⟨rfl, hjwt⟩ := Prod.mk.inj haccepted
    obtain rfl := SecurityToken.jwt.inj hjwt
    rfl
  · intro now parameters token principal jwt haccepted
    obtain ⟨content, -, hpasses, haccepted⟩ := validateToken_eq_ok haccepted
    obtain rfl := SecurityToken.jwt.inj (Prod.mk.inj haccepted).2
    exact hpasses.fitsParties.2.2

theorem checksLifetimes : JwtLibrary.reference.ChecksLifetimes := by
  refine ⟨?_, ?_, ?_⟩
  · intro now parameters token principal jwt haccepted hvalidates
    obtain ⟨content, -, hpasses, haccepted⟩ := validateToken_eq_ok haccepted
    obtain rfl := SecurityToken.jwt.inj (Prod.mk.inj haccepted).2
    exact ⟨hpasses.started hvalidates, hpasses.unexpired hvalidates⟩
  · intro now later parameters token principal jwt haccepted hadmits
    obtain ⟨content, hcontent, hpasses, haccepted⟩ :=
      validateToken_eq_ok haccepted
    obtain ⟨rfl, hjwt⟩ := Prod.mk.inj haccepted
    obtain rfl := SecurityToken.jwt.inj hjwt
    rw [← serialize_of_deserialize hcontent]
    exact validateToken_serialize ⟨hpasses.fitsKeys, fun _ => hadmits.1,
      fun _ => hadmits.2, hpasses.fitsParties⟩
  · intro now later parameters token accepted accepted' haccepted haccepted'
    obtain ⟨content, hcontent, -, rfl⟩ := validateToken_eq_ok haccepted
    obtain ⟨content', hcontent', -, rfl⟩ := validateToken_eq_ok haccepted'
    rw [Option.some.inj (hcontent'.symm.trans hcontent)]

theorem carries (descriptor : SecurityTokenDescriptor) :
    JwtLibrary.reference.Carries descriptor
      (Content.ofDescriptor descriptor).principal
      (Content.ofDescriptor descriptor).jwt := by
  refine ⟨⟨(Content.ofDescriptor descriptor).registeredClaims, .refl _, ?_⟩,
    ?_, rfl, timeOfSeconds_div _, timeOfSeconds_div _,
    ⟨_, rfl, timeOfSeconds_div descriptor.issuedAt⟩⟩
  · intro claim hclaim
    simp only [Content.registeredClaims, List.mem_append, List.mem_map,
      List.mem_cons, List.not_mem_nil, or_false] at hclaim
    rcases hclaim with (⟨_, -, rfl⟩ | ⟨_, -, rfl⟩) | rfl | rfl | rfl <;>
      simp [registeredClaimTypes]
  · intro audience haudience
    simp [Content.jwt, Content.ofDescriptor, haudience]

theorem passes_of_matches {descriptor : SecurityTokenDescriptor}
    {parameters : TokenValidationParameters} {now : DateTimeOffset}
    (hmatches : TokenValidationParameters.Matches .reference parameters
      descriptor)
    (hinForce : parameters.InForce descriptor now) :
    (Content.ofDescriptor descriptor).Passes now parameters := by
  refine ⟨⟨?_, ?_, ?_⟩, fun _ => ?_, fun _ => ?_, fun _ => ?_, fun _ => ?_, ?_⟩
  · intro pair hpair
    obtain ⟨key, hkey, rfl⟩ := Option.map_eq_some_iff.mp hpair
    obtain ⟨decrypting, hdecrypting, hsame, hprivate⟩ :=
      hmatches.encrypted key hkey
    exact ⟨decrypting, hdecrypting, hsame, hprivate⟩
  · intro hunsigned
    exact hmatches.unsigned (Option.map_eq_none_iff.mp hunsigned)
  · intro pair hpair
    obtain ⟨key, hkey, rfl⟩ := Option.map_eq_some_iff.mp hpair
    exact hmatches.signed key hkey
  · simpa [Content.jwt, Content.ofDescriptor, timeOfSeconds_div] using
      hinForce.1
  · simpa [Content.jwt, Content.ofDescriptor, timeOfSeconds_div] using
      hinForce.2
  · exact ⟨hmatches.audience ▸ hmatches.audience_ne, hmatches.audience.symm⟩
  · exact hmatches.issuer.symm
  · exact hmatches.issuer_ne

theorem transportsTokens : JwtLibrary.reference.TransportsTokens := by
  refine ⟨?_, ?_, ?_, ?_⟩
  · intro descriptor hlifetime hsigns _
    have hany : (descriptor.signingCredentials.any
        fun key => !holdsPrivatePart key) = false := by
      cases hkey : descriptor.signingCredentials with
      | none => rfl
      | some key =>
          have hprivate : holdsPrivatePart key = true := hsigns key hkey
          simp [hprivate]
    refine ⟨(Content.ofDescriptor descriptor).serialize, ?_⟩
    simp [JwtLibrary.reference, writeToken, not_le.mpr hlifetime, hany]
  · intro now parameters descriptor token hwritten _ hmatches hinForce
    obtain rfl := writeToken_eq_ok hwritten
    exact ⟨_, _, validateToken_serialize (passes_of_matches hmatches hinForce),
      carries descriptor⟩
  · intro descriptor token hwritten
    obtain rfl := writeToken_eq_ok hwritten
    simp [JwtLibrary.reference, deserialize_serialize, Content.ofDescriptor]
  · intro descriptor token hwritten
    obtain rfl := writeToken_eq_ok hwritten
    simp [tokenParts_serialize, Content.ofDescriptor]

end JwtReference

end SoftwareEntitlement
