import SoftwareEntitlement.Results

/-!
# The JWT library

`JwtSecurityTokenHandler` belongs to a package whose source is not in the
repository, so it is a parameter here: a structure of the functions the code
calls, and of the observations on token strings in which its documentation
speaks.  The documented behaviour is stated as laws, in separate structures
so that every result names the part it rests on.
-/

namespace SoftwareEntitlement

/-! ## Keys and certificates -/

structure RsaParameters where
  modulus : String
  deriving DecidableEq

structure X509Certificate2 where
  thumbprint : String
  /-- Identifies the key pair the certificate is about. -/
  publicKey : String
  hasPrivateKey : Bool
  /-- The outcome of `GetRSAPrivateKey().ExportParameters(true)`. -/
  rsaPrivateKey : Throws RsaParameters

inductive SecurityKey where
  | x509 (certificate : X509Certificate2)
  | rsa (parameters : RsaParameters)
  | symmetric (secret : String)

/-- What two keys have in common when one undoes what the other does. -/
inductive KeyPair where
  | rsa (modulus : String)
  | secret (value : String)
  deriving DecidableEq

/-- The key pair, or the shared secret, which a key belongs to. -/
def SecurityKey.pair : SecurityKey → KeyPair
  | .x509 certificate => .rsa certificate.publicKey
  | .rsa parameters => .rsa parameters.modulus
  | .symmetric secret => .secret secret

/-! ## Claims and tokens -/

structure Claim where
  type : String
  value : String
  deriving DecidableEq

structure ClaimsPrincipal where
  claims : List Claim

/-- `ClaimsPrincipal.FindAll`: claim types are compared ignoring case. -/
def ClaimsPrincipal.findAll (runtime : Runtime) (principal : ClaimsPrincipal)
    (type : String) : List Claim :=
  principal.claims.filter fun claim =>
    runtime.equalsOrdinalIgnoreCase claim.type type

def ClaimsPrincipal.findFirst (runtime : Runtime)
    (principal : ClaimsPrincipal) (type : String) : Option Claim :=
  principal.claims.find? fun claim =>
    runtime.equalsOrdinalIgnoreCase claim.type type

theorem ClaimsPrincipal.findFirst_eq_head? (runtime : Runtime)
    (principal : ClaimsPrincipal) (type : String) :
    principal.findFirst runtime type =
      (principal.findAll runtime type).head? :=
  (List.head?_filter ..).symm

structure JwtSecurityToken where
  claims : List Claim
  audiences : Option (List String)
  issuer : Option String
  validFrom : DateTime
  validTo : DateTime
  iat : Option ℤ

inductive SecurityToken where
  | jwt (token : JwtSecurityToken)
  | other

inductive TokenException where
  | notYetValid (notBefore : DateTime)
  | expired (expires : DateTime)
  | noExpiration
  | invalidIssuer (invalidIssuer : String)
  | invalidAudience (invalidAudience : String)
  | argument (message : String)
  | other (message : String)

structure TokenValidationParameters where
  validateAudience : Bool
  validAudience : Option String
  validateIssuer : Bool
  validIssuer : Option String
  validateLifetime : Bool
  requireExpirationTime : Bool
  requireSignedTokens : Bool
  /-- In ticks. -/
  clockSkew : ℕ
  issuerSigningKey : Option SecurityKey
  validateIssuerSigningKey : Bool
  tokenDecryptionKey : Option SecurityKey

structure SecurityTokenDescriptor where
  claims : List Claim
  notBefore : DateTimeOffset
  expires : DateTimeOffset
  issuedAt : DateTimeOffset
  issuer : Option String
  audience : Option String
  signingCredentials : Option SecurityKey
  encryptingCredentials : Option SecurityKey

/-- The number of base-64 strings, separated by periods, of a token. -/
def tokenParts (token : String) : ℕ := token.toList.count '.' + 1

/-- The functions of the library which the code calls, and what its
documentation says about token strings. -/
structure JwtLibrary where
  /-- `CreateToken` followed by `WriteToken`. -/
  writeToken : SecurityTokenDescriptor → Throws String
  /-- `ValidateToken`, at the given moment. -/
  validateToken : DateTimeOffset → TokenValidationParameters → String →
    Except TokenException (ClaimsPrincipal × SecurityToken)
  epochTime : ℤ → DateTime
  /-- The key has a private part which fits its signature algorithm. -/
  CanSign : SecurityKey → Prop
  CanEncrypt : SecurityKey → Prop
  /-- The key has a private part which fits its encryption algorithm. -/
  CanDecrypt : SecurityKey → Prop
  Signed : String → Prop
  /-- The signature verifies under the key. -/
  Verifies : SecurityKey → String → Prop
  Decrypts : SecurityKey → String → Prop

/-! ## Documented behaviour -/

def registeredClaimTypes : List String := ["aud", "iss", "nbf", "exp", "iat"]

/-- The parameters ask for the audience and the issuer of the token, and hold
the counterparts of the keys it was made with. -/
structure TokenValidationParameters.Matches (library : JwtLibrary)
    (parameters : TokenValidationParameters)
    (descriptor : SecurityTokenDescriptor) : Prop where
  audience : parameters.validAudience = descriptor.audience
  audience_ne : isNullOrEmpty descriptor.audience = false
  issuer : parameters.validIssuer = descriptor.issuer
  issuer_ne : isNullOrEmpty descriptor.issuer = false
  unsigned : descriptor.signingCredentials = none →
    parameters.requireSignedTokens = false
  signed : ∀ key, descriptor.signingCredentials = some key →
    ∃ checked, parameters.issuerSigningKey = some checked ∧
      checked.pair = key.pair
  encrypted : ∀ key, descriptor.encryptingCredentials = some key →
    ∃ decrypting, parameters.tokenDecryptionKey = some decrypting ∧
      decrypting.pair = key.pair ∧ library.CanDecrypt decrypting

/-- The moment lies in the lifetime written to the token, give or take the
clock skew. -/
def TokenValidationParameters.InForce (parameters : TokenValidationParameters)
    (descriptor : SecurityTokenDescriptor) (now : DateTimeOffset) : Prop :=
  descriptor.notBefore.truncateToSecond.ticks ≤ now.ticks + parameters.clockSkew ∧
    now.ticks ≤ descriptor.expires.truncateToSecond.ticks + parameters.clockSkew

/-- The moment lies in the lifetime of the validated token, give or take the
clock skew. -/
def TokenValidationParameters.Admits (parameters : TokenValidationParameters)
    (jwt : JwtSecurityToken) (now : DateTimeOffset) : Prop :=
  jwt.validFrom.ticks ≤ now.ticks + parameters.clockSkew ∧
    now.ticks ≤ jwt.validTo.ticks + parameters.clockSkew

/-- The validated token carries the content of the descriptor: its claims as
a multiset, and its instants truncated to seconds. -/
structure JwtLibrary.Carries (library : JwtLibrary)
    (descriptor : SecurityTokenDescriptor) (principal : ClaimsPrincipal)
    (jwt : JwtSecurityToken) : Prop where
  claims : ∃ registered : List Claim,
    principal.claims.Perm (descriptor.claims ++ registered) ∧
      ∀ claim ∈ registered, claim.type ∈ registeredClaimTypes
  audience : ∀ audience, descriptor.audience = some audience →
    jwt.audiences = some [audience]
  issuer : jwt.issuer = descriptor.issuer
  validFrom : jwt.validFrom = descriptor.notBefore.truncateToSecond.utcDateTime
  validTo : jwt.validTo = descriptor.expires.truncateToSecond.utcDateTime
  issuedAt : ∃ seconds, jwt.iat = some seconds ∧
    library.epochTime seconds = descriptor.issuedAt.truncateToSecond.utcDateTime

namespace JwtLibrary

variable (library : JwtLibrary)

/-- Unsigned tokens are rejected when signatures are required, and a signed
token is accepted only if it verifies under the signing key, whose private
counterpart made the signature. -/
structure ChecksSignatures : Prop where
  unsigned_rejected : ∀ now parameters token accepted,
    library.validateToken now parameters token = .ok accepted →
      parameters.requireSignedTokens = true → library.Signed token
  signed_verifies : ∀ now parameters token accepted,
    library.validateToken now parameters token = .ok accepted →
      library.Signed token →
        ∃ key, parameters.issuerSigningKey = some key ∧
          library.Verifies key token
  verifies_signed : ∀ key token, library.Verifies key token →
    library.Signed token
  verified_made : ∀ key token, library.Verifies key token →
    ∃ signer, library.CanSign signer ∧ signer.pair = key.pair

/-- Tokens have three parts, or five when they are encrypted, and the latter
are decrypted with the decryption key. -/
structure ChecksEncryption : Prop where
  parts : ∀ now parameters token accepted,
    library.validateToken now parameters token = .ok accepted →
      tokenParts token = 3 ∨ tokenParts token = 5
  encrypted_decrypts : ∀ now parameters token accepted,
    library.validateToken now parameters token = .ok accepted →
      tokenParts token = 5 →
        ∃ key, parameters.tokenDecryptionKey = some key ∧
          library.Decrypts key token

/-- A validated token is addressed to the valid audience and comes from the
valid issuer; without these settings no token is validated. -/
structure ChecksParties : Prop where
  audience : ∀ now parameters token principal jwt,
    library.validateToken now parameters token = .ok (principal, .jwt jwt) →
      parameters.validateAudience = true →
        ∃ audience audiences, parameters.validAudience = some audience ∧
          audience ≠ "" ∧ jwt.audiences = some audiences ∧
          audience ∈ audiences
  issuer : ∀ now parameters token principal jwt,
    library.validateToken now parameters token = .ok (principal, .jwt jwt) →
      parameters.validateIssuer = true →
        ∃ issuer, parameters.validIssuer = some issuer ∧ issuer ≠ "" ∧
          jwt.issuer = some issuer

structure ReportsUtc : Prop where
  lifetime : ∀ now parameters token principal jwt,
    library.validateToken now parameters token = .ok (principal, .jwt jwt) →
      jwt.validFrom.kind = .utc ∧ jwt.validTo.kind = .utc
  epochTime : ∀ seconds, (library.epochTime seconds).kind = .utc

/-- The instants of a validated token are in UTC, but for the start of one
without an `nbf` claim. -/
structure ReportsInstants : Prop where
  validFrom : ∀ now parameters token principal jwt,
    library.validateToken now parameters token = .ok (principal, .jwt jwt) →
      jwt.validFrom.kind = .utc ∨ jwt.validFrom = .minValue
  validTo : ∀ now parameters token principal jwt,
    library.validateToken now parameters token = .ok (principal, .jwt jwt) →
      parameters.requireExpirationTime = true → jwt.validTo.kind = .utc
  epochTime : ∀ seconds, (library.epochTime seconds).kind = .utc

/-- The principal has exactly the claims of the token, which is a JWT and
names its issuer. -/
structure ExposesTokens : Prop where
  claims : ∀ now parameters token principal jwt,
    library.validateToken now parameters token = .ok (principal, .jwt jwt) →
      principal.claims = jwt.claims
  issuer : ∀ now parameters token principal jwt,
    library.validateToken now parameters token = .ok (principal, .jwt jwt) →
      isNullOrEmpty jwt.issuer = false

/-- A token which is validated at one moment is validated at another, with the
same content, exactly when its lifetime admits the moment. -/
structure ChecksLifetimes : Prop where
  admits : ∀ now parameters token principal jwt,
    library.validateToken now parameters token = .ok (principal, .jwt jwt) →
      parameters.validateLifetime = true → parameters.Admits jwt now
  accepts : ∀ now later parameters token principal jwt,
    library.validateToken now parameters token = .ok (principal, .jwt jwt) →
      parameters.Admits jwt later →
        library.validateToken later parameters token =
          .ok (principal, .jwt jwt)
  same : ∀ now later parameters token accepted accepted',
    library.validateToken now parameters token = .ok accepted →
      library.validateToken later parameters token = .ok accepted' →
        accepted' = accepted

/-- The tokens which the library writes, it validates under matching
parameters while they are in force. -/
structure TransportsTokens : Prop where
  writes : ∀ descriptor : SecurityTokenDescriptor,
    descriptor.notBefore < descriptor.expires →
      (∀ key, descriptor.signingCredentials = some key → library.CanSign key) →
      (∀ key, descriptor.encryptingCredentials = some key →
        library.CanEncrypt key) →
      ∃ token, library.writeToken descriptor = .ok token
  accepts : ∀ now parameters descriptor token,
    library.writeToken descriptor = .ok token →
      (∀ claim ∈ descriptor.claims, claim.type ∉ registeredClaimTypes) →
      TokenValidationParameters.Matches library parameters descriptor →
      TokenValidationParameters.InForce parameters descriptor now →
        ∃ principal jwt,
          library.validateToken now parameters token =
              .ok (principal, .jwt jwt) ∧
            library.Carries descriptor principal jwt
  signs : ∀ descriptor token, library.writeToken descriptor = .ok token →
    (library.Signed token ↔ descriptor.signingCredentials.isSome = true)
  encrypts : ∀ descriptor token, library.writeToken descriptor = .ok token →
    tokenParts token =
      if descriptor.encryptingCredentials.isSome then 5 else 3

end JwtLibrary

end SoftwareEntitlement
