import SoftwareEntitlement.TokenProperties
import SoftwareEntitlement.JwtLibrary

/-!
# Reading and writing entitlement tokens

The provider reads nine properties from a validated token, the parser
validates a token string and builds its properties, and the generator writes
a token from properties.
-/

namespace SoftwareEntitlement

/-- Claim types of an entitlement token (the static class `Claims`). -/
def claimApplication : String := "app"
def claimTokenId : String := "id"
def claimIpAddress : String := "ip"
def claimVirtualMachineId : String := "vmid"

def defaultAudience : String := "https://batch.azure.test/software-entitlement"
def defaultIssuer : String := "https://batch.azure.test/software-entitlement"

/-! ## The provider -/

structure JwtPropertyProvider where
  principal : ClaimsPrincipal
  jwt : JwtSecurityToken

namespace JwtPropertyProvider

variable (runtime : Runtime) (library : JwtLibrary) (provider : JwtPropertyProvider)

def read (claimId : String) : Option String :=
  (provider.principal.findFirst runtime claimId).map Claim.value

def readAll (claimId : String) : List String :=
  (provider.principal.findAll runtime claimId).map Claim.value

def issuedAt : Throws (Result DateTimeOffset ErrorSet) :=
  match provider.jwt.iat with
  | none => .ok (.error (.create "Missing issued-at claim on token."))
  | some iat =>
      .ok <$> DateTimeOffset.ofDateTime runtime.localOffset (library.epochTime iat)

def notBefore : Throws (Result DateTimeOffset ErrorSet) :=
  .ok <$> DateTimeOffset.ofDateTime runtime.localOffset provider.jwt.validFrom

def notAfter : Throws (Result DateTimeOffset ErrorSet) :=
  .ok <$> DateTimeOffset.ofDateTime runtime.localOffset provider.jwt.validTo

def audience : Result (Option String) ErrorSet :=
  match provider.jwt.audiences with
  | none | some [] => .error (.create "No audience claim found in token.")
  | some [audience] => .ok (some audience)
  | some _ => .error (.create "Multiple audience claims found in token.")

def issuer : Result (Option String) ErrorSet := .ok provider.jwt.issuer

def applicationIds : Result (List String) ErrorSet :=
  let applicationIds := provider.readAll runtime claimApplication
  if applicationIds.isEmpty then
    .error (.create "No application id claims found in token.")
  else
    .ok applicationIds

def parseIpAddress (value : String) : Result IPAddress ErrorSet :=
  match runtime.tryParseAddress value with
  | none => .error (.create ("Invalid IP claim: " ++ value))
  | some parsedAddress => .ok parsedAddress

def ipAddresses : Result (List IPAddress) ErrorSet :=
  Result.reduce
    ((provider.readAll runtime claimIpAddress).map (parseIpAddress runtime))

def virtualMachineId : Result (Option String) ErrorSet :=
  .ok (provider.read runtime claimVirtualMachineId)

def tokenId : Result (Option String) ErrorSet :=
  let entitlementId := provider.read runtime claimTokenId
  if isNullOrEmpty entitlementId then
    .error (.create "Missing token identifier in token.")
  else
    .ok entitlementId

def toProvider : ITokenPropertyProvider where
  issuedAt := provider.issuedAt runtime library
  notBefore := provider.notBefore runtime
  notAfter := provider.notAfter runtime
  audience := .ok provider.audience
  issuer := .ok provider.issuer
  applicationIds := .ok ((provider.applicationIds runtime).map nonNull)
  ipAddresses := .ok ((provider.ipAddresses runtime).map some)
  virtualMachineId := .ok (provider.virtualMachineId runtime)
  tokenId := .ok (provider.tokenId runtime)

end JwtPropertyProvider

/-! ## The parser -/

/-- Something that turns a token string into token properties, at a given
moment. -/
abbrev ITokenPropertyParser :=
  DateTimeOffset → String → Throws (Result EntitlementTokenProperties ErrorSet)

structure JwtPropertyParser where
  expectedAudience : Option String
  expectedIssuer : Option String
  signingKey : Option SecurityKey
  encryptionKey : Option SecurityKey

namespace JwtPropertyParser

variable (runtime : Runtime) (library : JwtLibrary) (parser : JwtPropertyParser)

def validationParameters : TokenValidationParameters where
  validateAudience := true
  validAudience := parser.expectedAudience
  validateIssuer := true
  validIssuer := parser.expectedIssuer
  validateLifetime := true
  requireExpirationTime := true
  requireSignedTokens := parser.signingKey.isSome
  clockSkew := 60 * ticksPerSecond
  issuerSigningKey := parser.signingKey
  validateIssuerSigningKey := parser.signingKey.isSome
  tokenDecryptionKey := parser.encryptionKey

def tokenNotYetValidError (notBefore : DateTime) : String :=
  "Token will not be valid until " ++ runtime.formatTimestamp notBefore

def tokenExpiredError (expires : DateTime) : String :=
  "Token expired at " ++ runtime.formatTimestamp expires

def missingExpirationError : String := "Missing token expiration"

def unexpectedIssuerError (issuer : String) : String :=
  "Invalid issuer " ++ issuer

def unexpectedAudienceError (audience : String) : String :=
  "Invalid audience " ++ audience

def invalidTokenError (reason : String) : String :=
  "Invalid token (" ++ reason ++ ")"

def validationError : TokenException → String
  | .notYetValid notBefore => tokenNotYetValidError runtime notBefore
  | .expired expires => tokenExpiredError runtime expires
  | .noExpiration => missingExpirationError
  | .invalidIssuer issuer => unexpectedIssuerError issuer
  | .invalidAudience audience => unexpectedAudienceError audience
  | .argument message =>
      if message.startsWith "IDX" then "Token is not well formed"
      else invalidTokenError message
  | .other message => invalidTokenError message

def extractJwt (now : DateTimeOffset) (token : String) :
    Result (ClaimsPrincipal × JwtSecurityToken) ErrorSet :=
  match library.validateToken now parser.validationParameters token with
  | .ok (principal, .jwt jwt) => .ok (principal, jwt)
  | .ok (_, .other) =>
      .error (.create "Validated security token is expected to be a JWT")
  | .error exception => .error (.create (validationError runtime exception))

def parse : ITokenPropertyParser := fun now token =>
  ExceptT.run do
    let (principal, jwt) ←
      (parser.extractJwt runtime library now token).toQuery
    let provider : JwtPropertyProvider := ⟨principal, jwt⟩
    let entitlements ← ExceptT.mk
      (EntitlementTokenProperties.build (provider.toProvider runtime library))
    return entitlements

end JwtPropertyParser

/-! ## The generator -/

structure TokenGenerator where
  signingCredentials : Option SecurityKey
  encryptingCredentials : Option SecurityKey

namespace TokenGenerator

variable (runtime : Runtime) (library : JwtLibrary) (generator : TokenGenerator)

/-- A claim which is left out when its value is null or empty. -/
def optionalClaim (type : String) (value : Option String) : List Claim :=
  if isNullOrEmpty value then [] else [⟨type, value.getD ""⟩]

def createClaims (tokenProperties : EntitlementTokenProperties) : List Claim :=
  optionalClaim claimVirtualMachineId tokenProperties.virtualMachineId ++
    optionalClaim claimTokenId tokenProperties.identifier ++
    tokenProperties.ipAddresses.items.map
      (fun ip => ⟨claimIpAddress, runtime.addressToString ip⟩) ++
    tokenProperties.applications.items.map (fun app => ⟨claimApplication, app⟩)

def descriptor (tokenProperties : EntitlementTokenProperties) :
    SecurityTokenDescriptor where
  claims := createClaims runtime tokenProperties
  notBefore := tokenProperties.notBefore
  expires := tokenProperties.notAfter
  issuedAt := tokenProperties.issuedAt
  issuer := tokenProperties.issuer
  audience := tokenProperties.audience
  signingCredentials := generator.signingCredentials
  encryptingCredentials := generator.encryptingCredentials

def generate (tokenProperties : EntitlementTokenProperties) : Throws String :=
  library.writeToken (generator.descriptor runtime tokenProperties)

end TokenGenerator

end SoftwareEntitlement
