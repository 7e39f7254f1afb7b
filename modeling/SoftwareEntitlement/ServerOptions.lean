import SoftwareEntitlement.JwtLibrary
import SoftwareEntitlement.TokenProperties

/-!
# Server options

The options of `sestest server` are copied on write: every setter goes through
one mutating constructor, which takes the specified arguments and copies the
rest.
-/

namespace SoftwareEntitlement

structure Uri where
  originalString : String
  deriving DecidableEq

/-- The options of `sestest server`.  The setters refuse an empty audience or
issuer, so a value never holds one. -/
structure ServerOptions where
  signingCertificate : Option X509Certificate2
  encryptionCertificate : Option X509Certificate2
  connectionCertificate : Option X509Certificate2
  serverUrl : Option Uri
  audience : Option String
  issuer : Option String
  exitAfterRequest : Bool
  audience_ne : audience ≠ some ""
  issuer_ne : issuer ≠ some ""

theorem Specifiable.unspecified_ne {α : Type} (value : α) :
    (none : Specifiable α) ≠ some value :=
  Option.some_ne_none value |>.symm

theorem Specifiable.orDefault_ne {α : Type} {value : Specifiable α}
    {other refused : α} (hvalue : value ≠ some refused)
    (hother : other ≠ refused) : value.orDefault other ≠ refused := by
  cases value with
  | none => exact hother
  | some specified => exact fun heq => hvalue (congrArg some heq)

theorem ne_empty_of_not_isNullOrEmpty {text : Option String}
    (htext : ¬isNullOrEmpty text = true) : some text ≠ some (some "") := by
  rintro ⟨⟩
  exact htext rfl

namespace ServerOptions

def new : ServerOptions where
  signingCertificate := none
  encryptionCertificate := none
  connectionCertificate := none
  serverUrl := none
  audience := none
  issuer := none
  exitAfterRequest := false
  audience_ne := Specifiable.unspecified_ne ""
  issuer_ne := Specifiable.unspecified_ne ""

structure Changes where
  signingCertificate : Specifiable (Option X509Certificate2) := none
  encryptionCertificate : Specifiable (Option X509Certificate2) := none
  connectionCertificate : Specifiable (Option X509Certificate2) := none
  serverUrl : Specifiable (Option Uri) := none
  audience : Specifiable (Option String) := none
  issuer : Specifiable (Option String) := none
  exitAfterRequest : Specifiable Bool := none

structure Changes.Valid (changes : Changes) : Prop where
  audience_ne : changes.audience ≠ some (some "")
  issuer_ne : changes.issuer ≠ some (some "")

theorem Changes.Valid.of_unspecified {changes : Changes}
    (haudience : changes.audience = none) (hissuer : changes.issuer = none) :
    changes.Valid :=
  ⟨haudience ▸ Specifiable.unspecified_ne (some ""),
    hissuer ▸ Specifiable.unspecified_ne (some "")⟩

/-- The mutating constructor. -/
def modify (original : ServerOptions) (changes : Changes)
    (hvalid : changes.Valid) : ServerOptions where
  signingCertificate :=
    changes.signingCertificate.orDefault original.signingCertificate
  encryptionCertificate :=
    changes.encryptionCertificate.orDefault original.encryptionCertificate
  connectionCertificate :=
    changes.connectionCertificate.orDefault original.connectionCertificate
  serverUrl := changes.serverUrl.orDefault original.serverUrl
  audience := changes.audience.orDefault original.audience
  issuer := changes.issuer.orDefault original.issuer
  exitAfterRequest :=
    changes.exitAfterRequest.orDefault original.exitAfterRequest
  audience_ne :=
    Specifiable.orDefault_ne hvalid.audience_ne original.audience_ne
  issuer_ne := Specifiable.orDefault_ne hvalid.issuer_ne original.issuer_ne

variable (options : ServerOptions)

def withSigningCertificate (certificate : Option X509Certificate2) :
    ServerOptions :=
  options.modify { signingCertificate := some certificate }
    (.of_unspecified rfl rfl)

def withEncryptionCertificate (certificate : Option X509Certificate2) :
    ServerOptions :=
  options.modify { encryptionCertificate := some certificate }
    (.of_unspecified rfl rfl)

def withConnectionCertificate (certificate : Option X509Certificate2) :
    Throws ServerOptions :=
  match certificate with
  | none => .error (.argumentNull "certificate")
  | some certificate =>
      .ok (options.modify { connectionCertificate := some (some certificate) }
        (.of_unspecified rfl rfl))

def withServerUrl (url : Option Uri) : Throws ServerOptions :=
  match url with
  | none => .error (.argumentNull "url")
  | some url =>
      .ok (options.modify { serverUrl := some (some url) }
        (.of_unspecified rfl rfl))

def withAudience (audience : Option String) : Throws ServerOptions :=
  if h : isNullOrEmpty audience = true then
    .error (.argument "Expect to have an audience" "audience")
  else
    .ok (options.modify { audience := some audience }
      ⟨ne_empty_of_not_isNullOrEmpty h, Specifiable.unspecified_ne (some "")⟩)

def withIssuer (issuer : Option String) : Throws ServerOptions :=
  if h : isNullOrEmpty issuer = true then
    .error (.argument "Expect to have an issuer" "issuer")
  else
    .ok (options.modify { issuer := some issuer }
      ⟨Specifiable.unspecified_ne (some ""), ne_empty_of_not_isNullOrEmpty h⟩)

def withAutomaticExitAfterOneRequest (exitAfterRequest : Bool) :
    ServerOptions :=
  options.modify { exitAfterRequest := some exitAfterRequest }
    (.of_unspecified rfl rfl)

theorem isNullOrEmpty_audience :
    isNullOrEmpty options.audience = true ↔ options.audience = none := by
  have hne := options.audience_ne
  cases haudience : options.audience with
  | none => simp [isNullOrEmpty]
  | some audience => simpa [isNullOrEmpty, haudience] using hne

theorem isNullOrEmpty_issuer :
    isNullOrEmpty options.issuer = true ↔ options.issuer = none := by
  have hne := options.issuer_ne
  cases hissuer : options.issuer with
  | none => simp [isNullOrEmpty]
  | some issuer => simpa [isNullOrEmpty, hissuer] using hne

end ServerOptions

end SoftwareEntitlement
