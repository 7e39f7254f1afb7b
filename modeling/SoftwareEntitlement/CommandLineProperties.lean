import SoftwareEntitlement.CertificateThumbprints
import SoftwareEntitlement.JwtTokens
import SoftwareEntitlement.LoggingOptions

/-!
# Token properties from the command line

`sestest generate` describes the token on its command line.  The provider of
the token properties parses what is given and supplies defaults for the rest:
the current time and a week from then for the ends of the lifetime, each
without regard to the other.
-/

namespace SoftwareEntitlement

structure GenerateCommandLine extends CommandLineBase where
  applicationIds : Option (List String)
  virtualMachineId : Option String
  notBefore : Option String
  notAfter : Option String
  addresses : Option (List String)
  signatureThumbprint : Option String
  encryptionThumbprint : Option String
  tokenFile : Option String
  audience : Option String
  issuer : Option String

structure CommandLinePlatform where
  runtime : TextRuntime
  /-- `DateTimeOffset.TryParseExact` in the expected format. -/
  tryParseExact : String → Option DateTimeOffset
  /-- `DateTimeOffset.TryParse` in the invariant culture. -/
  tryParseInvariant : String → Option DateTimeOffset
  /-- `DateTimeOffset.TryParse` in the current culture. -/
  tryParseCurrent : String → Option DateTimeOffset
  /-- The unicast addresses of the network interfaces. -/
  unicastAddresses : List (Option (List IPAddress))

namespace TimestampParser

variable (platform : CommandLinePlatform)

def expectedFormat : String := "yyyy-MM-ddTHH:mm"

def parse (value : String) : Option DateTimeOffset :=
  platform.tryParseExact value <|> platform.tryParseInvariant value <|>
    platform.tryParseCurrent value

def tryParse (value name : String) : Result DateTimeOffset ErrorSet :=
  match parse platform value with
  | some result => .ok result
  | none =>
      .error (.create ("Unable to parse " ++ name ++ " timestamp '" ++ value ++
        "' (expected format is '" ++ expectedFormat ++ "')"))

end TimestampParser

def TimeSpan.sevenDays : TimeSpan :=
  ⟨7 * 864000000000, by decide, by decide⟩

/-- The provider, with the readings of the clock and of the identifier
generator which it takes when it is constructed. -/
structure CommandLineEntitlementPropertyProvider where
  commandLine : GenerateCommandLine
  now : DateTimeOffset
  guid : Guid

namespace CommandLineEntitlementPropertyProvider

variable (platform : CommandLinePlatform)
  (provider : CommandLineEntitlementPropertyProvider)

def issuedAt : Result DateTimeOffset ErrorSet := .ok provider.now

def notBefore : Result DateTimeOffset ErrorSet :=
  if isNullOrEmpty provider.commandLine.notBefore then .ok provider.now
  else
    TimestampParser.tryParse platform
      (provider.commandLine.notBefore.getD "") "NotBefore"

/-- The default throws if it lies behind the year 9999. -/
def notAfter : Throws (Result DateTimeOffset ErrorSet) :=
  if isNullOrEmpty provider.commandLine.notAfter then
    .ok <$> provider.now.add .sevenDays
  else
    .ok (TimestampParser.tryParse platform
      (provider.commandLine.notAfter.getD "") "NotAfter")

def audience : Result (Option String) ErrorSet :=
  if isNullOrEmpty provider.commandLine.audience then .ok (some defaultAudience)
  else .ok provider.commandLine.audience

def issuer : Result (Option String) ErrorSet :=
  if isNullOrEmpty provider.commandLine.issuer then .ok (some defaultIssuer)
  else .ok provider.commandLine.issuer

/-- An address without the scope of a local IPv6 address. -/
def withoutScope : IPAddress → IPAddress
  | .v4 address => .v4 address
  | .v6 address _ => .v6 address 0

def listMachineIpAddresses : List IPAddress :=
  (platform.unicastAddresses.reduceOption.flatten).map withoutScope

def tryParseIPAddress (address : String) : Result IPAddress ErrorSet :=
  match platform.runtime.tryParseAddress address with
  | some ip => .ok ip
  | none =>
      .error (.create ("IP address '" ++ address ++
        "' is not in an expected format (IPv4 and IPv6 supported)."))

def ipAddresses : Result (List IPAddress) ErrorSet :=
  let result := (provider.commandLine.addresses.getD []).map
    (tryParseIPAddress platform)
  if result.isEmpty then
    Result.reduce ((listMachineIpAddresses platform).map .ok)
  else Result.reduce result

def applicationIds : Result (List String) ErrorSet :=
  match provider.commandLine.applicationIds with
  | none | some [] => .error (.create "No applications specified.")
  | some applicationIds => .ok (applicationIds.map trim)

def virtualMachineId : Result (Option String) ErrorSet :=
  .ok provider.commandLine.virtualMachineId

def tokenId : Result (Option String) ErrorSet :=
  .ok (some ("token-" ++ provider.guid.toString))

def toProvider : ITokenPropertyProvider where
  issuedAt := .ok provider.issuedAt
  notBefore := .ok (provider.notBefore platform)
  notAfter := provider.notAfter platform
  audience := .ok provider.audience
  issuer := .ok provider.issuer
  applicationIds := .ok (provider.applicationIds.map nonNull)
  ipAddresses := .ok ((provider.ipAddresses platform).map some)
  virtualMachineId := .ok provider.virtualMachineId
  tokenId := .ok provider.tokenId

end CommandLineEntitlementPropertyProvider

end SoftwareEntitlement
