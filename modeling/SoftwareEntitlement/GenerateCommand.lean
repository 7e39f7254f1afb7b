import SoftwareEntitlement.CertificateStores
import SoftwareEntitlement.CommandLineProperties
import SoftwareEntitlement.JwtReference

/-!
# Generating tokens

`sestest generate` builds the properties, finds the certificates and writes
the token.  Nothing compares the ends of the lifetime before the library does,
and it throws when the end does not lie behind the start.
-/

namespace SoftwareEntitlement

structure GeneratePlatform extends CommandLinePlatform where
  library : JwtLibrary
  stores : X509Stores X509Certificate2
  /-- The path of a `FileInfo`. -/
  fullName : String → Throws String
  writeAllText : String → String → Throws Unit

namespace GenerateCommand

variable (platform : GeneratePlatform)

def findCertificate (purpose : String) (thumbprint : Option String) :
    Throws (Result (Option X509Certificate2) ErrorSet) :=
  if isNullOrEmpty thumbprint then .ok (.ok none)
  else do
    let t ← CertificateThumbprint.new platform.runtime thumbprint
    let found ← CertificateStore.findByThumbprint platform.runtime
      platform.stores purpose t
    return found.map some

def tokenGenerator (signingCert encryptionCert : Option X509Certificate2) :
    TokenGenerator :=
  ⟨signingCert.map .x509, encryptionCert.map .x509⟩

def generateToken (tokenProperties : EntitlementTokenProperties)
    (signingCert encryptionCert : Option X509Certificate2) : Throws String :=
  (tokenGenerator signingCert encryptionCert).generate
    platform.runtime.toRuntime platform.library tokenProperties

def returnToken (token : String) (commandLine : GenerateCommandLine) :
    Throws ℤ :=
  if isNullOrEmpty commandLine.tokenFile then .ok ResultCodes.success
  else do
    let file ← platform.fullName (commandLine.tokenFile.getD "")
    match platform.writeAllText file token with
    | .ok () => return ResultCodes.success
    | .error _ => return ResultCodes.internalError

def execute (provider : CommandLineEntitlementPropertyProvider) : Throws ℤ := do
  let commandLine := provider.commandLine
  let props ← EntitlementTokenProperties.build
    (provider.toProvider platform.toCommandLinePlatform)
  let signingCert ← findCertificate platform "signing"
    commandLine.signatureThumbprint
  let encryptionCert ← findCertificate platform "encryption"
    commandLine.encryptionThumbprint
  match props |>.join signingCert |>.join encryptionCert with
  | .ok ((props, signingCert), encryptionCert) =>
      let token ← generateToken platform props signingCert encryptionCert
      returnToken platform token commandLine
  | .error _ => return ResultCodes.failed

end GenerateCommand

/-! ## The lifetime of the token -/

/-- The option is given, and parses to this instant. -/
def Given (platform : CommandLinePlatform) (option : Option String)
    (instant : DateTimeOffset) : Prop :=
  isNullOrEmpty option = false ∧
    TimestampParser.parse platform (option.getD "") = some instant

/-- When both ends of the lifetime are given, they are in order. -/
def GivenInOrder (platform : CommandLinePlatform)
    (commandLine : GenerateCommandLine) : Prop :=
  ∀ notBefore notAfter, Given platform commandLine.notBefore notBefore →
    Given platform commandLine.notAfter notAfter → notBefore < notAfter

/-- The default for the end which is not given fits the end which is. -/
structure DefaultsFit (platform : CommandLinePlatform) (now : DateTimeOffset)
    (commandLine : GenerateCommandLine) : Prop where
  notAfter : isNullOrEmpty commandLine.notAfter = true →
    ∀ notBefore, Given platform commandLine.notBefore notBefore →
      (notBefore.ticks : ℤ) < now.ticks + TimeSpan.sevenDays.ticks
  notBefore : isNullOrEmpty commandLine.notBefore = true →
    ∀ notAfter, Given platform commandLine.notAfter notAfter → now < notAfter

/-- The library refuses to write a token with these keys exactly when it
expires before it becomes valid, or then. -/
def RejectsEmptyLifetimes (library : JwtLibrary) (generator : TokenGenerator) :
    Prop :=
  ∀ descriptor : SecurityTokenDescriptor,
    descriptor.signingCredentials = generator.signingCredentials →
      descriptor.encryptingCredentials = generator.encryptingCredentials →
        ((∃ token, library.writeToken descriptor = .ok token) ↔
          ¬descriptor.expires ≤ descriptor.notBefore)

section Given

variable {platform : CommandLinePlatform} {option : Option String}
  {instant other : DateTimeOffset}

theorem Given.not_isNullOrEmpty (hgiven : Given platform option instant) :
    ¬isNullOrEmpty option = true := by
  simp [hgiven.1]

theorem Given.unique (hgiven : Given platform option instant)
    (hother : Given platform option other) : instant = other :=
  Option.some.inj (hgiven.2.symm.trans hother.2)

end Given

namespace CommandLineEntitlementPropertyProvider

variable {platform : CommandLinePlatform}
  {provider : CommandLineEntitlementPropertyProvider}
  {instant : DateTimeOffset}

theorem tryParse_eq_ok_iff {value name : String} :
    TimestampParser.tryParse platform value name = .ok instant ↔
      TimestampParser.parse platform value = some instant := by
  unfold TimestampParser.tryParse
  cases TimestampParser.parse platform value <;> simp

theorem notBefore_eq_ok_iff :
    provider.notBefore platform = .ok instant ↔
      (isNullOrEmpty provider.commandLine.notBefore = true ∧
        instant = provider.now) ∨
      Given platform provider.commandLine.notBefore instant := by
  unfold notBefore Given
  cases isNullOrEmpty provider.commandLine.notBefore with
  | true => simp [eq_comm]
  | false => simp [tryParse_eq_ok_iff]

theorem notAfter_eq_ok_iff :
    provider.notAfter platform = .ok (.ok instant) ↔
      (isNullOrEmpty provider.commandLine.notAfter = true ∧
        provider.now.add .sevenDays = .ok instant) ∨
      Given platform provider.commandLine.notAfter instant := by
  unfold notAfter Given
  cases isNullOrEmpty provider.commandLine.notAfter with
  | true =>
      cases provider.now.add .sevenDays <;>
        simp [Functor.map, Except.map]
  | false => simp [tryParse_eq_ok_iff]

end CommandLineEntitlementPropertyProvider

section Lifetime

variable {platform : CommandLinePlatform}
  {provider : CommandLineEntitlementPropertyProvider}
  {properties : EntitlementTokenProperties}

/-- The ends of the lifetime in the properties, as the provider supplies
them. -/
theorem lifetime_of_build
    (hbuild : EntitlementTokenProperties.build (provider.toProvider platform) =
      .ok (.ok properties)) :
    provider.notBefore platform = .ok properties.notBefore ∧
      provider.notAfter platform = .ok (.ok properties.notAfter) := by
  obtain ⟨values, hsupplies, -, rfl⟩ :=
    EntitlementTokenProperties.supplies_of_build hbuild
  exact ⟨Except.ok.inj hsupplies.notBefore, hsupplies.notAfter⟩

/-- Where the ends of the lifetime come from decides whether they are in
order. -/
theorem lifetime_lt_iff
    (hbuild : EntitlementTokenProperties.build (provider.toProvider platform) =
      .ok (.ok properties))
    (hgiven : GivenInOrder platform provider.commandLine) :
    properties.notBefore < properties.notAfter ↔
      DefaultsFit platform provider.now provider.commandLine := by
  obtain ⟨hstart, hend⟩ := lifetime_of_build hbuild
  rw [CommandLineEntitlementPropertyProvider.notBefore_eq_ok_iff] at hstart
  rw [CommandLineEntitlementPropertyProvider.notAfter_eq_ok_iff] at hend
  have hlt : properties.notBefore < properties.notAfter ↔
      properties.notBefore.ticks < properties.notAfter.ticks := Iff.rfl
  have hweek : 0 < TimeSpan.sevenDays.ticks := by decide
  rcases hstart with ⟨hnoStart, hnow⟩ | hstart
  · rcases hend with ⟨hnoEnd, hadd⟩ | hend
    · -- neither end is given
      have hticks := DateTimeOffset.ticks_of_add hadd
      refine iff_of_true (hlt.mpr (by rw [hnow]; omega)) ⟨?_, ?_⟩
      · intro _ notBefore hgivenStart
        exact absurd hnoStart hgivenStart.not_isNullOrEmpty
      · intro _ notAfter hgivenEnd
        exact absurd hnoEnd hgivenEnd.not_isNullOrEmpty
    · -- only the end is given
      rw [hnow]
      constructor
      · intro horder
        refine ⟨fun hnoEnd => absurd hnoEnd hend.not_isNullOrEmpty, ?_⟩
        intro _ notAfter hgivenEnd
        rwa [← hend.unique hgivenEnd]
      · intro hfit
        exact hfit.notBefore hnoStart _ hend
  · rcases hend with ⟨hnoEnd, hadd⟩ | hend
    · -- only the start is given
      have hticks := DateTimeOffset.ticks_of_add hadd
      rw [hlt]
      constructor
      · intro horder
        refine ⟨?_, fun hnoStart => absurd hnoStart hstart.not_isNullOrEmpty⟩
        intro _ notBefore hgivenStart
        rw [← hstart.unique hgivenStart]
        omega
      · intro hfit
        have hfits := hfit.notAfter hnoEnd _ hstart
        omega
    · -- both ends are given
      exact iff_of_true (hgiven _ _ hstart hend)
        ⟨fun hnoEnd => absurd hnoEnd hend.not_isNullOrEmpty,
          fun hnoStart => absurd hnoStart hstart.not_isNullOrEmpty⟩

theorem generate_iff (runtime : Runtime) {library : JwtLibrary}
    {generator : TokenGenerator}
    (hlibrary : RejectsEmptyLifetimes library generator) :
    (∃ token, generator.generate runtime library properties = .ok token) ↔
      properties.notBefore < properties.notAfter :=
  (hlibrary (generator.descriptor runtime properties) rfl rfl).trans not_le

end Lifetime

/-- A command line which is built into properties yields a token exactly when
the default for an end of the lifetime which is not given fits the other. -/
theorem yieldsToken_iff (platform : CommandLinePlatform) (library : JwtLibrary)
    (generator : TokenGenerator)
    (hlibrary : RejectsEmptyLifetimes library generator)
    (provider : CommandLineEntitlementPropertyProvider)
    (properties : EntitlementTokenProperties)
    (hbuild : EntitlementTokenProperties.build (provider.toProvider platform) =
      .ok (.ok properties))
    (hgiven : GivenInOrder platform provider.commandLine) :
    (properties.notBefore < properties.notAfter ∧
      ∃ token, generator.generate platform.runtime.toRuntime library
        properties = .ok token) ↔
      DefaultsFit platform provider.now provider.commandLine := by
  rw [generate_iff platform.runtime.toRuntime hlibrary, and_self,
    lifetime_lt_iff hbuild hgiven]

section Execute

variable {platform : GeneratePlatform}
  {provider : CommandLineEntitlementPropertyProvider}
  {properties : EntitlementTokenProperties}
  {signingCert encryptionCert : Option X509Certificate2}

theorem GenerateCommand.execute_of_found
    (hbuild : EntitlementTokenProperties.build
      (provider.toProvider platform.toCommandLinePlatform) =
        .ok (.ok properties))
    (hsigning : findCertificate platform "signing"
      provider.commandLine.signatureThumbprint = .ok (.ok signingCert))
    (hencryption : findCertificate platform "encryption"
      provider.commandLine.encryptionThumbprint = .ok (.ok encryptionCert)) :
    execute platform provider = (do
      let token ← generateToken platform properties signingCert encryptionCert
      returnToken platform token provider.commandLine) := by
  simp [execute, hbuild, hsigning, hencryption, bind, Except.bind]

/-- When the default does not fit, all that the user sees is an exception from
the library. -/
theorem GenerateCommand.execute_throws
    (hlibrary : RejectsEmptyLifetimes platform.library
      (tokenGenerator signingCert encryptionCert))
    (hbuild : EntitlementTokenProperties.build
      (provider.toProvider platform.toCommandLinePlatform) =
        .ok (.ok properties))
    (hgiven : GivenInOrder platform.toCommandLinePlatform provider.commandLine)
    (hsigning : findCertificate platform "signing"
      provider.commandLine.signatureThumbprint = .ok (.ok signingCert))
    (hencryption : findCertificate platform "encryption"
      provider.commandLine.encryptionThumbprint = .ok (.ok encryptionCert))
    (hfit : ¬DefaultsFit platform.toCommandLinePlatform provider.now
      provider.commandLine) :
    ∃ exception, execute platform provider = .error exception := by
  rw [← lifetime_lt_iff hbuild hgiven,
    ← generate_iff platform.runtime.toRuntime hlibrary] at hfit
  rw [execute_of_found hbuild hsigning hencryption]
  cases htoken : generateToken platform properties signingCert
      encryptionCert with
  | ok token => exact absurd ⟨token, htoken⟩ hfit
  | error exception => exact ⟨exception, rfl⟩

end Execute

def nextMonth : DateTimeOffset := ⟨630028800000000000, by decide⟩

def CommandLinePlatform.reference : CommandLinePlatform where
  runtime := .reference
  tryParseExact value :=
    if value = "1997-06-26T00:00" then some nextMonth else none
  tryParseInvariant _ := none
  tryParseCurrent _ := none
  unicastAddresses := [none, some [.v4 5, .v6 5 9]]

/-- `sestest generate` for one application, with these ends of the lifetime. -/
def generateFor (notBefore notAfter : Option String) :
    CommandLineEntitlementPropertyProvider where
  commandLine :=
    { logLevel := none
      logFile := none
      logFileLevel := none
      applicationIds := some [" contoso-app "]
      virtualMachineId := none
      notBefore := notBefore
      notAfter := notAfter
      addresses := none
      signatureThumbprint := none
      encryptionThumbprint := none
      tokenFile := none
      audience := none
      issuer := none }
  now := referenceMoment
  guid := default

def generatedProperties (notBefore notAfter : DateTimeOffset) :
    EntitlementTokenProperties where
  virtualMachineId := none
  issuedAt := referenceMoment
  notBefore := notBefore
  notAfter := notAfter
  applications := .createRange ["contoso-app"]
  ipAddresses := .createRange [.v4 5, .v6 5 0]
  identifier := some "token-----"
  audience := some defaultAudience
  issuer := some defaultIssuer

theorem rejectsEmptyLifetimes_reference :
    RejectsEmptyLifetimes .reference ⟨none, none⟩ := by
  intro descriptor hsigning _
  have hwrite : JwtLibrary.reference.writeToken descriptor =
      JwtReference.writeToken descriptor := rfl
  rw [hwrite, JwtReference.writeToken, hsigning]
  by_cases hlifetime : descriptor.expires ≤ descriptor.notBefore
  · simp [hlifetime]
  · simp [hlifetime]

theorem yieldsToken_iff_month :
    referenceMoment < nextMonth ∧
      ∃ token, TokenGenerator.generate .reference .reference ⟨none, none⟩
        (generatedProperties referenceMoment nextMonth) = .ok token := by
  refine (yieldsToken_iff .reference .reference ⟨none, none⟩
    rejectsEmptyLifetimes_reference (generateFor none (some "1997-06-26T00:00"))
    _ rfl ?_).mpr ⟨?_, ?_⟩
  · rintro notBefore notAfter ⟨hempty, -⟩
    cases hempty
  · rintro hempty
    cases hempty
  · rintro - notAfter ⟨-, hparse⟩
    cases hparse
    decide

/-- A token which becomes valid in a month: it expires in a week, and the
library throws. -/
theorem not_yieldsToken_nextMonth :
    ∃ properties, EntitlementTokenProperties.build
        ((generateFor (some "1997-06-26T00:00") none).toProvider .reference) =
          .ok (.ok properties) ∧
      GivenInOrder .reference
        (generateFor (some "1997-06-26T00:00") none).commandLine ∧
      ¬properties.notBefore < properties.notAfter ∧
      TokenGenerator.generate .reference .reference ⟨none, none⟩ properties =
        .error (.argument "IDX12401: Expires must be after NotBefore."
          "expires") := by
  refine ⟨generatedProperties nextMonth ⟨630006048000000000, by decide⟩, rfl,
    ?_, by decide, rfl⟩
  rintro notBefore notAfter - ⟨hempty, -⟩
  cases hempty

end SoftwareEntitlement
