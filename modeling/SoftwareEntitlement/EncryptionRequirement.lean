import SoftwareEntitlement.ServerWiring

/-!
# Tokens for a parser with an encryption key

The validation parameters say with which key to decrypt, but none of them says
that a token has to be encrypted.
-/

namespace SoftwareEntitlement

/-- Whatever the parser accepts is an encrypted token which decrypts under the
key. -/
def JwtPropertyParser.AcceptsOnlyEncrypted (runtime : Runtime)
    (library : JwtLibrary) (parser : JwtPropertyParser) (key : SecurityKey) :
    Prop :=
  ∀ now token properties,
    parser.parse runtime library now token = .ok (.ok properties) →
      tokenParts token = 5 ∧ library.Decrypts key token

section Requirement

variable {runtime : Runtime} {library : JwtLibrary} {parser : JwtPropertyParser}
  {key : SecurityKey} {now : DateTimeOffset} {token : String}
  {properties : EntitlementTokenProperties}

theorem decrypts_of_parse (hlibrary : library.ChecksEncryption)
    (hkey : parser.encryptionKey = some key)
    (hparse : parser.parse runtime library now token = .ok (.ok properties))
    (hparts : tokenParts token ≠ 3) :
    tokenParts token = 5 ∧ library.Decrypts key token := by
  obtain ⟨principal, jwt, hvalidated⟩ :=
    JwtPropertyParser.validated_of_parse hparse
  have hfive : tokenParts token = 5 :=
    (hlibrary.parts _ _ _ _ hvalidated).resolve_left hparts
  obtain ⟨decrypting, hdecrypting, hdecrypts⟩ :=
    hlibrary.encrypted_decrypts _ _ _ _ hvalidated hfive
  obtain rfl : key = decrypting := Option.some.inj (hkey.symm.trans hdecrypting)
  exact ⟨hfive, hdecrypts⟩

theorem exists_plain (hruntime : runtime.SeparatesClaimTypes)
    (hparses : runtime.ParsesAddresses) (htransports : library.TransportsTokens)
    (haudience : isNullOrEmpty parser.expectedAudience = false)
    (hissuer : isNullOrEmpty parser.expectedIssuer = false)
    (hsigner : ∀ signing, parser.signingKey = some signing →
      ∃ signer, library.CanSign signer ∧ signer.pair = signing.pair) :
    ∃ now token properties,
      parser.parse runtime library now token = .ok (.ok properties) ∧
        tokenParts token = 3 := by
  obtain ⟨generator, hplain, hkeys⟩ : ∃ generator : TokenGenerator,
      generator.encryptingCredentials = none ∧
        generator.MatchedBy library parser := by
    cases hsigning : parser.signingKey with
    | none =>
        refine ⟨⟨none, none⟩, rfl, fun _ => hsigning, ?_, ?_⟩ <;>
          rintro key ⟨⟩
    | some signing =>
        obtain ⟨signer, hsigns, hpair⟩ := hsigner signing hsigning
        refine ⟨⟨some signer, none⟩, rfl, ?_, ?_, ?_⟩
        · rintro ⟨⟩
        · rintro key ⟨⟩
          exact ⟨hsigns, signing, hsigning, hpair.symm⟩
        · rintro key ⟨⟩
  obtain ⟨token, parsed, hgenerate, hparse, -⟩ := exists_issued
    hruntime hparses htransports hkeys haudience hissuer none
  refine ⟨_, token, parsed, hparse, ?_⟩
  simpa [TokenGenerator.descriptor, hplain] using
    htransports.encrypts _ _ hgenerate

/-- A parser with an encryption key accepts only encrypted tokens exactly when
it accepts none at all; what it does decrypt, it decrypts with that key. -/
theorem acceptsOnlyEncrypted_iff (runtime : Runtime) (library : JwtLibrary)
    (parser : JwtPropertyParser) (key : SecurityKey)
    (hruntime : runtime.SeparatesClaimTypes)
    (hparses : runtime.ParsesAddresses)
    (hsignatures : library.ChecksSignatures)
    (hencryption : library.ChecksEncryption) (hparties : library.ChecksParties)
    (htransports : library.TransportsTokens)
    (hkey : parser.encryptionKey = some key) :
    (parser.AcceptsOnlyEncrypted runtime library key ↔
      isNullOrEmpty parser.expectedAudience = true ∨
        isNullOrEmpty parser.expectedIssuer = true ∨
        ∃ signing, parser.signingKey = some signing ∧
          ∀ signer, library.CanSign signer → signer.pair ≠ signing.pair) ∧
    ∀ now token properties,
      parser.parse runtime library now token = .ok (.ok properties) →
        tokenParts token ≠ 3 →
          tokenParts token = 5 ∧ library.Decrypts key token := by
  refine ⟨⟨fun honly => ?_, ?_⟩, fun _ _ _ => decrypts_of_parse hencryption hkey⟩
  · by_contra hnone
    push Not at hnone
    obtain ⟨haudience, hissuer, hsigner⟩ := hnone
    have hexpectedAudience : isNullOrEmpty parser.expectedAudience = false := by
      simpa using haudience
    have hexpectedIssuer : isNullOrEmpty parser.expectedIssuer = false := by
      simpa using hissuer
    obtain ⟨now, token, properties, hparse, hparts⟩ := exists_plain hruntime
      hparses htransports hexpectedAudience hexpectedIssuer hsigner
    have hfive := (honly now token properties hparse).1
    omega
  · intro hcondition now token properties hparse
    obtain ⟨haudience, hissuer⟩ :=
      JwtPropertyParser.parties_of_parse hparties hparse
    rcases hcondition with hnull | hnull | ⟨signing, hsigning, hnobody⟩
    · simp [haudience] at hnull
    · simp [hissuer] at hnull
    · have hverifies := JwtPropertyParser.verifies_of_parse hsignatures hsigning
        hparse
      obtain ⟨signer, hsigns, hpair⟩ :=
        hsignatures.verified_made _ _ hverifies.2
      exact absurd hpair (hnobody signer hsigns)

end Requirement

def encryptingParser (audience : Option String) : JwtPropertyParser where
  expectedAudience := audience
  expectedIssuer := some defaultIssuer
  signingKey := some (.x509 (sampleCertificate true))
  encryptionKey := some (.rsa ⟨"sample key pair"⟩)

/-- Without an audience the parser accepts nothing. -/
theorem acceptsOnlyEncrypted_withoutAudience :
    (encryptingParser none).AcceptsOnlyEncrypted .reference .reference
      (.rsa ⟨"sample key pair"⟩) :=
  (acceptsOnlyEncrypted_iff .reference .reference (encryptingParser none)
    (.rsa ⟨"sample key pair"⟩) separatesClaimTypes_reference
    parsesAddresses_reference JwtReference.checksSignatures
    JwtReference.checksEncryption JwtReference.checksParties
    JwtReference.transportsTokens rfl).1.mpr (.inl rfl)

/-- With an audience it accepts a plain token, signed as it expects. -/
theorem not_acceptsOnlyEncrypted_encryptingParser :
    ¬(encryptingParser (some defaultAudience)).AcceptsOnlyEncrypted .reference
      .reference (.rsa ⟨"sample key pair"⟩) := by
  intro honly
  obtain ⟨now, token, properties, hparse, hparts⟩ := exists_plain
    separatesClaimTypes_reference parsesAddresses_reference
    JwtReference.transportsTokens
    (show isNullOrEmpty
      (encryptingParser (some defaultAudience)).expectedAudience = false by
        decide)
    (by decide) fun signing hsigning =>
      ⟨.x509 (sampleCertificate true), rfl, by cases hsigning; rfl⟩
  have hfive := (honly now token properties hparse).1
  omega

end SoftwareEntitlement
