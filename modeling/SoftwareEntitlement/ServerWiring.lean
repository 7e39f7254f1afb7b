import SoftwareEntitlement.IssuedTokens
import SoftwareEntitlement.ServerOptions

/-!
# From server options to the token verifier

`sestest server` turns its certificates into keys, hands them to the
controller's options, and the start-up code builds the token parser from
these.  A key which could not be created is null all the way down, and a null
signing key is how the parser is told not to require signatures.
-/

namespace SoftwareEntitlement

structure SoftwareEntitlementsController.ServerOptions where
  signingKey : Option SecurityKey
  encryptionKey : Option SecurityKey
  audience : Option String
  issuer : Option String
  exitAfterRequest : Bool

namespace SoftwareEntitlementServer

def createRsaSecurityKey (certificate : Option X509Certificate2) :
    Throws (Option SecurityKey) :=
  match certificate with
  | none => .ok none
  | some certificate =>
      if !certificate.hasPrivateKey then
        .ok none
      else do
        let parameters ← certificate.rsaPrivateKey
        return some (.rsa parameters)

def createX509SecurityKey (certificate : Option X509Certificate2) :
    Option SecurityKey :=
  match certificate with
  | none => none
  | some certificate =>
      if !certificate.hasPrivateKey then
        none
      else
        some (.x509 certificate)

def configureServices (options : ServerOptions) :
    Throws SoftwareEntitlementsController.ServerOptions := do
  let signingKey := createX509SecurityKey options.signingCertificate
  let encryptingKey ← createRsaSecurityKey options.encryptionCertificate
  return {
    signingKey := signingKey, encryptionKey := encryptingKey
    audience := options.audience, issuer := options.issuer
    exitAfterRequest := options.exitAfterRequest }

end SoftwareEntitlementServer

/-- The parser which `Startup.ConfigureServices` registers. -/
def Startup.tokenPropertyParser
    (serverOptions : SoftwareEntitlementsController.ServerOptions) :
    JwtPropertyParser where
  expectedAudience := serverOptions.audience
  expectedIssuer := serverOptions.issuer
  signingKey := serverOptions.signingKey
  encryptionKey := serverOptions.encryptionKey

/-- The parser of a server which runs with these options. -/
def ServerOptions.parser (options : ServerOptions) :
    Throws JwtPropertyParser :=
  Startup.tokenPropertyParser <$>
    SoftwareEntitlementServer.configureServices options

/-- Whatever the verifier of the server accepts carries a signature which
verifies under the key of the certificate. -/
def ServerOptions.ApprovesOnlySigned (runtime : Runtime) (library : JwtLibrary)
    (options : ServerOptions) (certificate : X509Certificate2) : Prop :=
  ∀ parser, options.parser = .ok parser →
    ∀ now request token verified,
      TokenVerifier.verify runtime (parser.parse runtime library) now request
          token = .ok (.ok verified) →
        library.Signed token ∧ library.Verifies (.x509 certificate) token

section Wiring

variable {runtime : Runtime} {library : JwtLibrary} {options : ServerOptions}
  {certificate : X509Certificate2} {parser : JwtPropertyParser}

theorem createRsaSecurityKey_eq_error_iff {exception : ClrException}
    {certificate : Option X509Certificate2} :
    SoftwareEntitlementServer.createRsaSecurityKey certificate =
        .error exception ↔
      ∃ held, certificate = some held ∧ held.hasPrivateKey = true ∧
        held.rsaPrivateKey = .error exception := by
  cases certificate with
  | none => simp [SoftwareEntitlementServer.createRsaSecurityKey]
  | some held =>
      cases hkey : held.hasPrivateKey <;> cases hrsa : held.rsaPrivateKey <;>
        simp [SoftwareEntitlementServer.createRsaSecurityKey, hkey, hrsa, bind,
          Except.bind, pure, Except.pure]

theorem ServerOptions.parser_eq_ok_iff :
    options.parser = .ok parser ↔
      ∃ encryptionKey,
        SoftwareEntitlementServer.createRsaSecurityKey
            options.encryptionCertificate = .ok encryptionKey ∧
          parser = ⟨options.audience, options.issuer,
            SoftwareEntitlementServer.createX509SecurityKey
              options.signingCertificate, encryptionKey⟩ := by
  unfold ServerOptions.parser SoftwareEntitlementServer.configureServices
  cases SoftwareEntitlementServer.createRsaSecurityKey
      options.encryptionCertificate with
  | error exception =>
      simp [bind, Except.bind, Functor.map, Except.map]
  | ok encryptionKey =>
      simp [bind, Except.bind, Functor.map, Except.map, pure, Except.pure,
        Startup.tokenPropertyParser, eq_comm]

/-- Without its private key a signing certificate is not consulted: some
unsigned token is accepted. -/
theorem not_approvesOnlySigned (hruntime : runtime.SeparatesClaimTypes)
    (hparses : runtime.ParsesAddresses) (htransports : library.TransportsTokens)
    {encryptionKey : Option SecurityKey}
    (hcertificate : options.signingCertificate = some certificate)
    (hinaccessible : certificate.hasPrivateKey = false)
    (haudience : options.audience ≠ none) (hissuer : options.issuer ≠ none)
    (hstarts : SoftwareEntitlementServer.createRsaSecurityKey
      options.encryptionCertificate = .ok encryptionKey) :
    ¬options.ApprovesOnlySigned runtime library certificate := by
  intro honly
  have hnone : SoftwareEntitlementServer.createX509SecurityKey
      options.signingCertificate = none := by
    simp [SoftwareEntitlementServer.createX509SecurityKey, hcertificate,
      hinaccessible]
  have hparser := ServerOptions.parser_eq_ok_iff.mpr
    ⟨encryptionKey, hstarts, rfl⟩
  rw [hnone] at hparser
  have hkeys : TokenGenerator.MatchedBy library ⟨none, none⟩
      ⟨options.audience, options.issuer, none, encryptionKey⟩ := by
    refine ⟨fun _ => rfl, ?_, ?_⟩ <;> rintro key ⟨⟩
  have hexpectedAudience : isNullOrEmpty options.audience = false := by
    simpa using mt options.isNullOrEmpty_audience.mp haudience
  have hexpectedIssuer : isNullOrEmpty options.issuer = false := by
    simpa using mt options.isNullOrEmpty_issuer.mp hissuer
  obtain ⟨token, parsed, hgenerate, -, -, hverify⟩ :=
    exists_issued hruntime hparses htransports hkeys hexpectedAudience
      hexpectedIssuer none
  have hsigned := (honly _ hparser _ _ _ _ hverify).1
  simpa [TokenGenerator.descriptor] using
    (htransports.signs _ _ hgenerate).mp hsigned

/-- The exact condition under which a server with a signing certificate
approves only tokens signed with it. -/
theorem approvesOnlySigned_iff (runtime : Runtime) (library : JwtLibrary)
    (options : ServerOptions) (certificate : X509Certificate2)
    (hruntime : runtime.SeparatesClaimTypes)
    (hparses : runtime.ParsesAddresses)
    (hsignatures : library.ChecksSignatures)
    (hparties : library.ChecksParties) (htransports : library.TransportsTokens)
    (hcertificate : options.signingCertificate = some certificate) :
    options.ApprovesOnlySigned runtime library certificate ↔
      certificate.hasPrivateKey = true ∨ options.audience = none ∨
        options.issuer = none ∨
        ∃ encryption exception,
          options.encryptionCertificate = some encryption ∧
            encryption.hasPrivateKey = true ∧
            encryption.rsaPrivateKey = .error exception := by
  constructor
  · intro honly
    by_contra hnone
    push Not at hnone
    obtain ⟨hinaccessible, haudience, hissuer, hexports⟩ := hnone
    cases hencryption : SoftwareEntitlementServer.createRsaSecurityKey
        options.encryptionCertificate with
    | error exception =>
        obtain ⟨encryption, hencryption, hprivate, hrsa⟩ :=
          createRsaSecurityKey_eq_error_iff.mp hencryption
        exact hexports encryption exception hencryption hprivate hrsa
    | ok encryptionKey =>
        have hnoKey : certificate.hasPrivateKey = false := by
          simpa using hinaccessible
        exact not_approvesOnlySigned hruntime hparses htransports hcertificate
          hnoKey haudience hissuer hencryption honly
  · rintro hcondition parser hparser now request token verified hverify
    obtain ⟨encryptionKey, hencryptionKey, rfl⟩ :=
      ServerOptions.parser_eq_ok_iff.mp hparser
    obtain ⟨hparse, -⟩ := (TokenVerifier.verify_eq_ok_iff runtime).mp hverify
    have hparties := JwtPropertyParser.parties_of_parse hparties hparse
    rcases hcondition with haccessible | haudience | hissuer |
      ⟨encryption, exception, hencryption⟩
    · have hkey : SoftwareEntitlementServer.createX509SecurityKey
          options.signingCertificate = some (.x509 certificate) := by
        simp [SoftwareEntitlementServer.createX509SecurityKey, hcertificate,
          haccessible]
      exact JwtPropertyParser.verifies_of_parse hsignatures hkey hparse
    · have hnull := hparties.1
      rw [haudience] at hnull
      cases hnull
    · have hnull := hparties.2
      rw [hissuer] at hnull
      cases hnull
    · have hfails := createRsaSecurityKey_eq_error_iff.mpr
        ⟨encryption, hencryption⟩
      rw [hencryptionKey] at hfails
      cases hfails

end Wiring

def signingOptions (hasPrivateKey : Bool) : ServerOptions where
  signingCertificate := some (sampleCertificate hasPrivateKey)
  encryptionCertificate := none
  connectionCertificate := none
  serverUrl := none
  audience := some defaultAudience
  issuer := some defaultIssuer
  exitAfterRequest := false
  audience_ne := by decide
  issuer_ne := by decide

theorem approvesOnlySigned_signingOptions :
    (signingOptions true).ApprovesOnlySigned .reference .reference
      (sampleCertificate true) :=
  (approvesOnlySigned_iff .reference .reference (signingOptions true)
    (sampleCertificate true) separatesClaimTypes_reference
    parsesAddresses_reference JwtReference.checksSignatures
    JwtReference.checksParties JwtReference.transportsTokens rfl).mpr (.inl rfl)

/-- With an inaccessible one it is not. -/
theorem not_approvesOnlySigned_signingOptions :
    ¬(signingOptions false).ApprovesOnlySigned .reference .reference
      (sampleCertificate false) :=
  not_approvesOnlySigned separatesClaimTypes_reference
    parsesAddresses_reference JwtReference.transportsTokens rfl rfl
    (by decide) (by decide) rfl

end SoftwareEntitlement
