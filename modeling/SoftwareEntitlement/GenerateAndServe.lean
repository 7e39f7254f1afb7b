import SoftwareEntitlement.GenerateCommand
import SoftwareEntitlement.GeneratedTokens
import SoftwareEntitlement.HttpSessions
import SoftwareEntitlement.ServerStartup
import Mathlib.Data.List.DropRight

/-!
# Generating and serving on one machine

`sestest generate` and `sestest server` find their certificates in the same
stores.  Started with the same thumbprints, audience and issuer, the server
approves what the command line of the generator has asked for, and nothing
else.
-/

namespace SoftwareEntitlement

open Interleaving SoftwareEntitlementsController

/-! ## What the generator is asked for -/

theorem trim_trim (text : String) : trim (trim text) = trim text := by
  have hkeeps : ∀ l : List Char,
      ((l.dropWhile isWhiteSpace).rdropWhile isWhiteSpace).dropWhile
        isWhiteSpace = (l.dropWhile isWhiteSpace).rdropWhile isWhiteSpace := by
    intro l
    rw [List.dropWhile_eq_self_iff]
    intro hpositive
    have hinitial := List.rdropWhile_prefix isWhiteSpace
      (l.dropWhile isWhiteSpace)
    rw [hinitial.getElem hpositive]
    exact List.dropWhile_get_zero_not isWhiteSpace l _
  change String.ofList ((((trim text).toList.dropWhile
    isWhiteSpace)).rdropWhile isWhiteSpace) = _
  have htoList : (trim text).toList =
      (text.toList.dropWhile isWhiteSpace).rdropWhile isWhiteSpace :=
    String.toList_ofList
  rw [htoList, hkeeps, List.rdropWhile_idempotent]
  rfl

/-- What a request must ask for, in terms of the options of the command. -/
structure GenerateCommandLine.Allows (platform : CommandLinePlatform)
    (commandLine : GenerateCommandLine) (request : TokenVerificationRequest) :
    Prop where
  application : ∃ applicationId ∈ commandLine.applicationIds.getD [],
    platform.runtime.equalsOrdinalIgnoreCase (trim applicationId)
      request.applicationId = true
  /-- Without `--address` the addresses are those of the machine. -/
  address : if commandLine.addresses.getD [] = [] then
      request.ipAddress ∈
        CommandLineEntitlementPropertyProvider.listMachineIpAddresses platform
    else ∃ text ∈ commandLine.addresses.getD [],
      platform.runtime.tryParseAddress text = some request.ipAddress

section Properties

variable {platform : CommandLinePlatform}
  {provider : CommandLineEntitlementPropertyProvider}
  {properties : EntitlementTokenProperties}

theorem applications_of_provider {applicationIds : List String}
    (hsupplies : provider.applicationIds = .ok applicationIds) :
    provider.commandLine.applicationIds.getD [] ≠ [] ∧
      applicationIds =
        (provider.commandLine.applicationIds.getD []).map trim := by
  unfold CommandLineEntitlementPropertyProvider.applicationIds at hsupplies
  split at hsupplies
  · cases hsupplies
  · cases hsupplies
  · rename_i given hne hgiven
    obtain rfl := Except.ok.inj hsupplies
    rw [hgiven, Option.getD_some]
    exact ⟨hne, rfl⟩

theorem tryParseIPAddress_eq_ok_iff {text : String} {address : IPAddress} :
    CommandLineEntitlementPropertyProvider.tryParseIPAddress platform text =
        .ok address ↔
      platform.runtime.tryParseAddress text = some address := by
  unfold CommandLineEntitlementPropertyProvider.tryParseIPAddress
  cases platform.runtime.tryParseAddress text <;> simp

theorem mem_ipAddresses_of_provider {ipAddresses : List IPAddress}
    (hsupplies : provider.ipAddresses platform = .ok ipAddresses)
    (address : IPAddress) :
    address ∈ ipAddresses ↔
      if provider.commandLine.addresses.getD [] = [] then
        address ∈
          CommandLineEntitlementPropertyProvider.listMachineIpAddresses platform
      else ∃ text ∈ provider.commandLine.addresses.getD [],
        platform.runtime.tryParseAddress text = some address := by
  unfold CommandLineEntitlementPropertyProvider.ipAddresses at hsupplies
  simp only [List.isEmpty_map, List.isEmpty_iff] at hsupplies
  split
  · rename_i hnone
    rw [if_pos hnone, Result.reduce_eq_ok_iff] at hsupplies
    have hsame := List.map_injective_iff.mpr
      (fun _ _ => Except.ok.inj) hsupplies
    rw [hsame]
  · rename_i hsome
    rw [if_neg hsome, Result.reduce_eq_ok_iff] at hsupplies
    have hmem : address ∈ ipAddresses ↔
        (.ok address : Result IPAddress ErrorSet) ∈
          ipAddresses.map Except.ok := by
      simp
    rw [hmem, ← hsupplies, List.mem_map]
    simp only [tryParseIPAddress_eq_ok_iff]

/-- A request is granted by the properties exactly when the command line
allows it. -/
theorem grants_iff_allows
    (hbuild : EntitlementTokenProperties.build (provider.toProvider platform) =
      .ok (.ok properties)) (request : TokenVerificationRequest) :
    properties.Grants platform.runtime.toRuntime request ↔
      provider.commandLine.Allows platform request := by
  obtain ⟨values, hsupplies, -, rfl⟩ :=
    EntitlementTokenProperties.supplies_of_build hbuild
  obtain ⟨applicationIds, happlicationIds, hgiven⟩ :=
    Result.map_eq_ok_iff.mp (Except.ok.inj hsupplies.applicationIds)
  obtain ⟨-, happlications⟩ := applications_of_provider happlicationIds
  obtain ⟨ipAddresses, hipAddresses, hlisted⟩ :=
    Result.map_eq_ok_iff.mp (Except.ok.inj hsupplies.ipAddresses)
  have haddresses := mem_ipAddresses_of_provider hipAddresses request.ipAddress
  have hmem : ∀ application,
      application ∈ (EntitlementTokenProperties.ofValues values).applications ↔
        ∃ applicationId ∈ provider.commandLine.applicationIds.getD [],
          trim applicationId = application := by
    intro application
    rw [EntitlementTokenProperties.applications_ofValues hgiven, happlications]
    simp [trim_trim]
  have hset := EntitlementTokenProperties.ipAddresses_ofValues hlisted
  constructor
  · rintro ⟨⟨application, happlication, hequal⟩, haddress⟩
    obtain ⟨applicationId, hgiven, rfl⟩ := (hmem application).mp happlication
    exact ⟨⟨applicationId, hgiven, hequal⟩, haddresses.mp
      (ImmutableHashSet.mem_createRange.mp (hset ▸ haddress))⟩
  · rintro ⟨⟨applicationId, hgiven, hequal⟩, haddress⟩
    exact ⟨⟨_, (hmem _).mpr ⟨applicationId, hgiven, rfl⟩, hequal⟩,
      hset ▸ ImmutableHashSet.mem_createRange.mpr (haddresses.mpr haddress)⟩

theorem writable_of_build
    (hbuild : EntitlementTokenProperties.build (provider.toProvider platform) =
      .ok (.ok properties))
    (hlifetime : properties.notBefore < properties.notAfter) :
    properties.Writable := by
  obtain ⟨values, hsupplies, -, rfl⟩ :=
    EntitlementTokenProperties.supplies_of_build hbuild
  obtain ⟨applicationIds, happlicationIds, hlisted⟩ :=
    Result.map_eq_ok_iff.mp (Except.ok.inj hsupplies.applicationIds)
  obtain ⟨hgiven, happlications⟩ := applications_of_provider happlicationIds
  obtain ⟨haudience, hissuer⟩ :
      isNullOrEmpty values.audience = false ∧
        isNullOrEmpty values.issuer = false := by
    rw [EntitlementTokenProperties.build_of_supplies hsupplies] at hbuild
    cases hselect : EntitlementTokenProperties.select values with
    | error exception =>
        rw [hselect] at hbuild
        cases hbuild
    | ok selected =>
        obtain ⟨hissuer, haudience, -⟩ :=
          EntitlementTokenProperties.select_eq_ok_iff.mp hselect
        exact ⟨haudience, hissuer⟩
  have hset := EntitlementTokenProperties.applications_ofValues hlisted
  refine ⟨?_, ?_, ?_, haudience, hissuer, hlifetime⟩
  · rw [hset, happlications]
    simpa [ImmutableHashSet.createRange, List.dedup_eq_nil] using hgiven
  · intro application hmem
    rw [hset] at hmem
    have hmem' := ImmutableHashSet.mem_createRange.mp hmem
    obtain ⟨applicationId, -, rfl⟩ := List.mem_map.mp hmem'
    exact trim_trim applicationId
  · have hidentifier : values.tokenId =
        some ("token-" ++ provider.guid.toString) :=
      (Except.ok.inj (Except.ok.inj hsupplies.tokenId)).symm
    simp [EntitlementTokenProperties.ofValues, hidentifier, isNullOrEmpty]

theorem parties_of_build
    (hbuild : EntitlementTokenProperties.build (provider.toProvider platform) =
      .ok (.ok properties)) :
    properties.audience =
        (if isNullOrEmpty provider.commandLine.audience then
          some defaultAudience else provider.commandLine.audience) ∧
      properties.issuer =
        (if isNullOrEmpty provider.commandLine.issuer then
          some defaultIssuer else provider.commandLine.issuer) := by
  obtain ⟨values, hsupplies, -, rfl⟩ :=
    EntitlementTokenProperties.supplies_of_build hbuild
  have haudience := Except.ok.inj hsupplies.audience
  have hissuer := Except.ok.inj hsupplies.issuer
  unfold CommandLineEntitlementPropertyProvider.audience at haudience
  unfold CommandLineEntitlementPropertyProvider.issuer at hissuer
  constructor
  · cases hempty : isNullOrEmpty provider.commandLine.audience <;>
      rw [hempty] at haudience <;> exact (Except.ok.inj haudience).symm
  · cases hempty : isNullOrEmpty provider.commandLine.issuer <;>
      rw [hempty] at hissuer <;> exact (Except.ok.inj hissuer).symm

end Properties

/-! ## One machine -/

/-- The platform of a server on the machine of the generator. -/
def GeneratePlatform.server (platform : GeneratePlatform) (uris : UriLibrary) :
    ServerPlatform :=
  ⟨platform.runtime, uris, platform.stores⟩

/-- Two thumbprints which name the same certificate, or none. -/
inductive SameThumbprint (runtime : TextRuntime) :
    Option String → Option String → Prop
  | missing {first second : Option String}
      (hfirst : isNullOrEmpty first = true)
      (hsecond : isNullOrEmpty second = true) :
      SameThumbprint runtime first second
  | given {first second : String} (hfirst : first ≠ "") (hsecond : second ≠ "")
      (hsame : CertificateThumbprint.sanitizeThumbprint runtime first =
        CertificateThumbprint.sanitizeThumbprint runtime second) :
      SameThumbprint runtime (some first) (some second)

/-- The options which must agree between the two commands. -/
structure SameSetup (runtime : TextRuntime) (generate : GenerateCommandLine)
    (server : ServerCommandLine) : Prop where
  signing : SameThumbprint runtime generate.signatureThumbprint
    server.signingCertificateThumbprint
  encryption : SameThumbprint runtime generate.encryptionThumbprint
    server.encryptionCertificateThumbprint
  audience : (isNullOrEmpty generate.audience = true ∧
    isNullOrEmpty server.audience = true) ∨ generate.audience = server.audience
  issuer : (isNullOrEmpty generate.issuer = true ∧
    isNullOrEmpty server.issuer = true) ∨ generate.issuer = server.issuer

/-- The certificate has a private key of its own, which can decrypt. -/
structure X509Certificate2.Usable (library : JwtLibrary)
    (certificate : X509Certificate2) : Prop where
  hasPrivateKey : certificate.hasPrivateKey = true
  own : ∀ parameters, certificate.rsaPrivateKey = .ok parameters →
    parameters.modulus = certificate.publicKey
  decrypts : ∀ parameters, certificate.rsaPrivateKey = .ok parameters →
    library.CanDecrypt (.rsa parameters)

/-- The command has written `token`. -/
structure GenerateCommand.Issues (platform : GeneratePlatform)
    (provider : CommandLineEntitlementPropertyProvider)
    (properties : EntitlementTokenProperties)
    (signingCert encryptionCert : Option X509Certificate2) (token : String) :
    Prop where
  build : EntitlementTokenProperties.build
    (provider.toProvider platform.toCommandLinePlatform) = .ok (.ok properties)
  signing : findCertificate platform "signing"
    provider.commandLine.signatureThumbprint = .ok (.ok signingCert)
  encryption : findCertificate platform "encryption"
    provider.commandLine.encryptionThumbprint = .ok (.ok encryptionCert)
  token : generateToken platform properties signingCert encryptionCert =
    .ok token

section Certificates

variable {platform : GeneratePlatform} {uris : UriLibrary}
  {purpose other : String}

theorem findByThumbprint_purpose {runtime : TextRuntime}
    {stores : X509Stores X509Certificate2}
    {thumbprint : CertificateThumbprint} {certificate : X509Certificate2}
    (hfind : CertificateStore.findByThumbprint runtime stores purpose
      thumbprint = .ok (.ok certificate)) :
    CertificateStore.findByThumbprint runtime stores other thumbprint =
      .ok (.ok certificate) := by
  obtain ⟨found, hfound, hfind⟩ := Traversal.bind_eq_ok_iff.mp hfind
  refine Traversal.bind_eq_ok_iff.mpr ⟨found, hfound, ?_⟩
  simp only at hfind ⊢
  split at hfind
  · exact hfind
  · split at hfind
    · exact hfind
    · cases hfind

theorem found_of_generate {text : String}
    {generated : Option X509Certificate2} (hne : text ≠ "")
    (hgenerate : GenerateCommand.findCertificate platform purpose (some text) =
      .ok (.ok generated)) :
    ∃ held, generated = some held ∧
      CertificateStore.findByThumbprint platform.runtime platform.stores purpose
        ⟨CertificateThumbprint.sanitizeThumbprint platform.runtime text⟩ =
          .ok (.ok held) := by
  have hempty : ¬isNullOrEmpty (some text) = true := by
    simpa [isNullOrEmpty] using hne
  rw [GenerateCommand.findCertificate, if_neg hempty] at hgenerate
  obtain ⟨thumbprint, hnew, hgenerate⟩ := Traversal.bind_eq_ok_iff.mp hgenerate
  obtain ⟨found, hfound, hmap⟩ := Traversal.bind_eq_ok_iff.mp hgenerate
  obtain ⟨held, rfl, rfl⟩ := Result.map_eq_ok_iff.mp
    (Except.ok.inj hmap)
  refine ⟨held, rfl, ?_⟩
  unfold CertificateThumbprint.new at hnew
  split at hnew
  · cases hnew
  · obtain rfl := Except.ok.inj hnew
    exact hfound

theorem found_of_serve {text : String} {served : Option X509Certificate2}
    (hne : text ≠ "")
    (hserve : ServerOptionBuilder.optionalCertificate (platform.server uris)
      purpose (some text) = .ok (.ok served)) :
    ∃ held, served = some held ∧
      CertificateStore.findByThumbprint platform.runtime platform.stores purpose
        ⟨CertificateThumbprint.sanitizeThumbprint platform.runtime text⟩ =
          .ok (.ok held) := by
  have hempty : ¬isNullOrEmpty (some text) = true := by
    simpa [isNullOrEmpty] using hne
  rw [ServerOptionBuilder.optionalCertificate, if_neg hempty] at hserve
  obtain ⟨found, hfound, hmap⟩ := Traversal.bind_eq_ok_iff.mp hserve
  obtain ⟨held, rfl, rfl⟩ := Result.map_eq_ok_iff.mp
    (Except.ok.inj hmap)
  refine ⟨held, rfl, ?_⟩
  unfold ServerOptionBuilder.findCertificate at hfound
  split at hfound
  · cases hfound
  · obtain ⟨thumbprint, hnew, hfound⟩ := Traversal.bind_eq_ok_iff.mp hfound
    unfold CertificateThumbprint.new at hnew
    split at hnew
    · cases hnew
    · obtain rfl := Except.ok.inj hnew
      exact hfound

/-- Both commands find the same certificate. -/
theorem certificate_unique {first second : Option String}
    {generated served : Option X509Certificate2}
    (hsame : SameThumbprint platform.runtime first second)
    (hgenerate : GenerateCommand.findCertificate platform purpose first =
      .ok (.ok generated))
    (hserve : ServerOptionBuilder.optionalCertificate (platform.server uris)
      other second = .ok (.ok served)) : generated = served := by
  cases hsame with
  | missing hfirst hsecond =>
      rw [GenerateCommand.findCertificate, if_pos hfirst] at hgenerate
      rw [ServerOptionBuilder.optionalCertificate, if_pos hsecond] at hserve
      rw [← Except.ok.inj (Except.ok.inj hgenerate),
        ← Except.ok.inj (Except.ok.inj hserve)]
  | given hfirst hsecond hsame =>
      obtain ⟨held, rfl, hheld⟩ := found_of_generate hfirst hgenerate
      obtain ⟨held', rfl, hheld'⟩ := found_of_serve hsecond hserve
      rw [hsame] at hheld
      have hboth := (findByThumbprint_purpose hheld).symm.trans hheld'
      rw [Except.ok.inj (Except.ok.inj hboth)]

end Certificates

/-! ## From command line to approval -/

section Approvals

variable {platform : GeneratePlatform} {uris : UriLibrary}
  {provider : CommandLineEntitlementPropertyProvider}
  {properties : EntitlementTokenProperties}
  {signingCert encryptionCert : Option X509Certificate2} {token : String}
  {commandLine : ServerCommandLine} {options : ServerOptions}
  {parser : JwtPropertyParser}

theorem effective_eq {first second : Option String} {default : String}
    (hsame : (isNullOrEmpty first = true ∧ isNullOrEmpty second = true) ∨
      first = second) :
    (if isNullOrEmpty first then some default else first) =
      if isNullOrEmpty second then some default else second := by
  rcases hsame with ⟨hfirst, hsecond⟩ | rfl
  · rw [if_pos hfirst, if_pos hsecond]
  · rfl

/-- The server has the counterparts of the keys of the generator, and expects
its audience and issuer. -/
theorem matches_of_sameSetup
    (hissues : GenerateCommand.Issues platform provider properties signingCert
      encryptionCert token)
    (hlifetime : properties.notBefore < properties.notAfter)
    (hsetup : SameSetup platform.runtime provider.commandLine commandLine)
    (hsigning : ∀ certificate, signingCert = some certificate →
      certificate.hasPrivateKey = true)
    (hencryption : ∀ certificate, encryptionCert = some certificate →
      certificate.Usable platform.library)
    (hserver : ServerOptionBuilder.build (platform.server uris) commandLine =
      .ok (.ok options))
    (hparser : options.parser = .ok parser) :
    TokenValidationParameters.Matches platform.library
      parser.validationParameters
      ((GenerateCommand.tokenGenerator signingCert encryptionCert).descriptor
        platform.runtime.toRuntime properties) := by
  obtain ⟨-, hoptions⟩ := ServerOptionBuilder.build_describes hserver
  obtain ⟨hrequested, hsigned, hencrypted⟩ := hoptions options rfl
  obtain ⟨encryptionKey, hrsa, rfl⟩ := ServerOptions.parser_eq_ok_iff.mp hparser
  have hsame := certificate_unique hsetup.signing hissues.signing hsigned
  have hsame' := certificate_unique hsetup.encryption hissues.encryption
    hencrypted
  obtain ⟨haudience, hissuer⟩ := parties_of_build hissues.build
  have hwritable := writable_of_build hissues.build hlifetime
  refine ⟨?_, hwritable.audience, ?_, hwritable.issuer, ?_, ?_, ?_⟩
  · exact (hrequested.audience.trans (effective_eq hsetup.audience).symm).trans
      haudience.symm
  · exact (hrequested.issuer.trans (effective_eq hsetup.issuer).symm).trans
      hissuer.symm
  · intro hnone
    have hnone' : signingCert = none := by
      simpa [TokenGenerator.descriptor, GenerateCommand.tokenGenerator] using
        hnone
    simp [JwtPropertyParser.validationParameters, ← hsame, hnone',
      SoftwareEntitlementServer.createX509SecurityKey]
  · intro key hkey
    obtain ⟨certificate, hcertificate, rfl⟩ := Option.map_eq_some_iff.mp hkey
    refine ⟨.x509 certificate, ?_, rfl⟩
    simp [JwtPropertyParser.validationParameters, ← hsame, hcertificate,
      SoftwareEntitlementServer.createX509SecurityKey,
      hsigning certificate hcertificate]
  · intro key hkey
    obtain ⟨certificate, hcertificate, rfl⟩ := Option.map_eq_some_iff.mp hkey
    have husable := hencryption certificate hcertificate
    rw [← hsame', hcertificate] at hrsa
    simp only [SoftwareEntitlementServer.createRsaSecurityKey,
      husable.hasPrivateKey, Bool.not_true, Bool.false_eq_true, if_false] at hrsa
    obtain ⟨parameters, hparameters, hkey⟩ := Traversal.bind_eq_ok_iff.mp hrsa
    obtain rfl := Except.ok.inj hkey
    exact ⟨.rsa parameters, rfl, congrArg KeyPair.rsa
      (husable.own parameters hparameters), husable.decrypts parameters
        hparameters⟩

/-- The moment lies in the lifetime which is written in whole seconds, give or
take a minute. -/
def WithinLifetime (notBefore notAfter now : DateTimeOffset) : Prop :=
  notBefore.truncateToSecond.ticks ≤ now.ticks + 60 * ticksPerSecond ∧
    now.ticks ≤ notAfter.truncateToSecond.ticks + 60 * ticksPerSecond

/-- How an approval ends: at the moment which the request reads, it is granted
if the generator was asked for it, and else denied. -/
structure HttpPool.ApprovesAsAsked {ι : Type} (platform : CommandLinePlatform)
    (commandLine : GenerateCommandLine) (notBefore notAfter : DateTimeOffset)
    (action : Action) (verification : TokenVerificationRequest) (thread : ι)
    (result : HttpResult) (past : List (Event ι)) (now : DateTimeOffset) :
    Prop where
  read : ⟨thread, .validationTime, now⟩ ∈ past
  granted : WithinLifetime notBefore notAfter now →
    commandLine.Allows platform verification →
      ∃ guid, ⟨thread, .newGuid, guid⟩ ∈ past ∧
        result = .ofOutcome (.ok ⟨200, action.approval
          (nullIfEmpty commandLine.virtualMachineId) notAfter.truncateToSecond
          guid⟩)
  denied : ¬(WithinLifetime notBefore notAfter now ∧
      commandLine.Allows platform verification) →
    ∃ errors, result = .ofOutcome (.ok (createDeniedResponse errors
      verification.applicationId))

/-- A token which `sestest generate` has issued is approved by a server with
the same setup, in every run, for what the command line asked and for nothing
else. -/
theorem HttpPool.approves_issued {ι : Type} [DecidableEq ι]
    (hruntime : platform.runtime.toRuntime.SeparatesClaimTypes)
    (hparses : platform.runtime.toRuntime.ParsesAddresses)
    (htransports : platform.library.TransportsTokens)
    (hlifetimes : platform.library.ChecksLifetimes)
    (hrejects : RejectsEmptyLifetimes platform.library
      (GenerateCommand.tokenGenerator signingCert encryptionCert))
    (hissues : GenerateCommand.Issues platform provider properties signingCert
      encryptionCert token)
    (hsetup : SameSetup platform.runtime provider.commandLine commandLine)
    (hsigning : ∀ certificate, signingCert = some certificate →
      certificate.hasPrivateKey = true)
    (hencryption : ∀ certificate, encryptionCert = some certificate →
      certificate.Usable platform.library)
    (hserver : ServerOptionBuilder.build (platform.server uris) commandLine =
      .ok (.ok options))
    (hparser : options.parser = .ok parser)
    {serverOptions : SoftwareEntitlementsController.ServerOptions}
    {requests : ι → HttpRequest} {pool : HttpPool ι}
    (hreachable : HttpPool.Reachable
      (parser.services platform.runtime.toRuntime platform.library)
      serverOptions requests pool)
    {thread : ι} {action : Action} {applicationId : String}
    (happrove : action = .approveV1 ∨ action = .approveV2)
    (hroutes : Routes platform.runtime.toRuntime (requests thread) action)
    (hbody : (requests thread).body.approve =
      some ⟨⟨some token, some applicationId⟩⟩)
    (happlication : applicationId ≠ "") {outcome : HttpOutcome}
    (hdone : pool.threads thread = .done outcome) :
    ∃ now, HttpPool.ApprovesAsAsked platform.toCommandLinePlatform
      provider.commandLine properties.notBefore properties.notAfter action
      ⟨applicationId, (requests thread).remoteIpAddress⟩ thread outcome.result
      pool.shared.past now := by
  have hlifetime : properties.notBefore < properties.notAfter :=
    (generate_iff platform.runtime.toRuntime hrejects).mp
      ⟨token, hissues.token⟩
  have hmatches := matches_of_sameSetup hissues hlifetime hsetup hsigning
    hencryption hserver hparser
  obtain ⟨-, now, hread, hgranted, hdenied⟩ := HttpPool.approves_generated
    hruntime hparses htransports hlifetimes
    (writable_of_build hissues.build hlifetime) hmatches hissues.token
    hreachable happrove hroutes hbody happlication hdone
  have hallows := grants_iff_allows hissues.build
    ⟨applicationId, (requests thread).remoteIpAddress⟩
  have hmachine : properties.virtualMachineId =
      provider.commandLine.virtualMachineId := by
    obtain ⟨values, hsupplies, -, rfl⟩ :=
      EntitlementTokenProperties.supplies_of_build hissues.build
    exact (Except.ok.inj (Except.ok.inj hsupplies.virtualMachineId)).symm
  refine ⟨now, hread, fun hwithin hasked => ?_, fun hrefused => ?_⟩
  · rw [← hmachine]
    exact hgranted hwithin (hallows.mpr hasked)
  · exact hdenied fun ⟨hwithin, hgrants⟩ =>
      hrefused ⟨hwithin, hallows.mp hgrants⟩

end Approvals

/-! ## A machine with one certificate -/

section Machine

theorem rejectsEmptyLifetimes_of_holdsPrivatePart {generator : TokenGenerator}
    (hkeys : ∀ key ∈ generator.signingCredentials,
      JwtReference.holdsPrivatePart key = true) :
    RejectsEmptyLifetimes .reference generator := by
  intro descriptor hsigning _
  have hany : descriptor.signingCredentials.any
      (fun key => !JwtReference.holdsPrivatePart key) = false := by
    rw [hsigning]
    cases hkey : generator.signingCredentials with
    | none => rfl
    | some key => simp [hkeys key hkey]
  have hwrite : JwtLibrary.reference.writeToken descriptor =
      JwtReference.writeToken descriptor := rfl
  rw [hwrite, JwtReference.writeToken, hany]
  by_cases hlifetime : descriptor.expires ≤ descriptor.notBefore <;>
    simp [hlifetime]

def machine : GeneratePlatform where
  toCommandLinePlatform := .reference
  library := .reference
  stores := storesWithCopies [true]
  fullName := .ok
  writeAllText _ _ := .ok ()

def machineUris : UriLibrary where
  new text :=
    if text = ServerCommandLine.defaultServerUrl then .ok ⟨text⟩
    else .error "Invalid URI: The format of the URI could not be determined."
  scheme _ := "https"

def machineCertificate : X509Certificate2 :=
  ⟨"97EFF302", "sample key pair", true, .ok ⟨"sample key pair"⟩⟩

/-- A signed and encrypted token for a month. -/
def generateSigned : CommandLineEntitlementPropertyProvider :=
  let provider := generateFor none (some "1997-06-26T00:00")
  { provider with
    commandLine := { provider.commandLine with
      signatureThumbprint := some "97 ef f3 02"
      encryptionThumbprint := some "97eff302" } }

def serveSigned : ServerCommandLine where
  logLevel := none
  logFile := none
  logFileLevel := none
  signingCertificateThumbprint := some "97EFF302"
  encryptionCertificateThumbprint := some "97EFF302"
  connectionCertificateThumbprint := some "97EFF302"
  serverUrl := none
  audience := none
  issuer := some ""
  exitAfterRequest := false

def machineParser : JwtPropertyParser :=
  ⟨some defaultAudience, some defaultIssuer, some (.x509 machineCertificate),
    some (.rsa ⟨"sample key pair"⟩)⟩

/-- A request to approve `token`. -/
def approvalOf (token : String) : HttpRequest where
  method := .post
  path := ["softwareEntitlements"]
  query := [("api-version", ApiVersions.march012018)]
  remoteIpAddress := .v4 5
  body := {
    approve := some ⟨⟨some token, some "contoso-app"⟩⟩
    acquire := none
    renew := none }

theorem routes_approvalOf (token : String) :
    Routes machine.runtime.toRuntime (approvalOf token) .approveV2 :=
  .approveV2 ApiVersions.march012018 rfl rfl rfl (by decide)

theorem issues_machine :
    ∃ token, GenerateCommand.Issues machine generateSigned
      (generatedProperties referenceMoment nextMonth) (some machineCertificate)
      (some machineCertificate) token := by
  obtain ⟨token, htoken⟩ := JwtReference.transportsTokens.writes
    ((GenerateCommand.tokenGenerator (some machineCertificate)
      (some machineCertificate)).descriptor machine.runtime.toRuntime
        (generatedProperties referenceMoment nextMonth))
    (by decide) (by rintro key ⟨⟩; rfl) (fun _ _ => trivial)
  exact ⟨token, rfl, rfl, rfl, htoken⟩

theorem sameSetup_machine :
    SameSetup machine.runtime generateSigned.commandLine serveSigned where
  signing := .given (by decide) (by decide) (by decide +kernel)
  encryption := .given (by decide) (by decide) (by decide +kernel)
  audience := .inl ⟨rfl, rfl⟩
  issuer := .inl ⟨rfl, rfl⟩

theorem withinLifetime_referenceMoment :
    WithinLifetime referenceMoment nextMonth referenceMoment :=
  ⟨by decide, by decide⟩

theorem allows_generateSigned :
    generateSigned.commandLine.Allows .reference ⟨"contoso-app", .v4 5⟩ where
  application := ⟨" contoso-app ", List.mem_singleton_self _, by decide⟩
  address := List.mem_cons_self

/-- The token is approved for the application, at a moment in its lifetime, in
the request which is served alone. -/
theorem approves_issued_machine :
    ∃ token pool outcome now guid,
      GenerateCommand.Issues machine generateSigned
        (generatedProperties referenceMoment nextMonth)
        (some machineCertificate) (some machineCertificate) token ∧
      HttpPool.Reachable (machineParser.services .reference .reference)
        exitingOptions (fun _ : Unit => approvalOf token) pool ∧
      pool.threads () = .done outcome ∧
      HttpPool.ApprovesAsAsked .reference generateSigned.commandLine
        referenceMoment nextMonth .approveV2 ⟨"contoso-app", .v4 5⟩ ()
        outcome.result pool.shared.past now ∧
      WithinLifetime referenceMoment nextMonth now ∧
      outcome.result = .ofOutcome (.ok ⟨200, Action.approveV2.approval none
        nextMonth.truncateToSecond guid⟩) := by
  obtain ⟨token, hissues⟩ := issues_machine
  obtain ⟨pool, outcome, hreachable, hdone, hvalidated⟩ :=
    HttpPool.exists_answered (machineParser.services .reference .reference)
      exitingOptions (approvalOf token) referenceMoment
  obtain ⟨options, hserver, hparser⟩ : ∃ options,
      ServerOptionBuilder.build (machine.server machineUris) serveSigned =
        .ok (.ok options) ∧ options.parser = .ok machineParser :=
    ⟨_, rfl, rfl⟩
  have husable : ∀ certificate, some machineCertificate = some certificate →
      certificate.Usable machine.library := by
    rintro _ ⟨⟩
    refine ⟨rfl, ?_, ?_⟩
    · rintro _ ⟨⟩
      rfl
    · rintro _ ⟨⟩
      rfl
  obtain ⟨now, happroves⟩ := HttpPool.approves_issued
    separatesClaimTypes_reference parsesAddresses_reference
    JwtReference.transportsTokens JwtReference.checksLifetimes
    (rejectsEmptyLifetimes_of_holdsPrivatePart (by rintro key ⟨⟩; rfl)) hissues
    sameSetup_machine (by rintro _ ⟨⟩; rfl) husable hserver hparser hreachable
    (.inr rfl) (routes_approvalOf token) rfl (by decide) hdone
  have hwithin : WithinLifetime referenceMoment nextMonth now := by
    rw [hvalidated () now happroves.read]
    exact withinLifetime_referenceMoment
  obtain ⟨guid, -, hresult⟩ := happroves.granted hwithin allows_generateSigned
  exact ⟨token, pool, outcome, now, guid, hissues, hreachable, hdone, happroves,
    hwithin, hresult⟩

end Machine

end SoftwareEntitlement
