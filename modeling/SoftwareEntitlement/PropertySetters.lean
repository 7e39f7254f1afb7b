import SoftwareEntitlement.CopyOnWrite
import SoftwareEntitlement.ServerOptions

/-!
# The setters of token properties and server options

Both records are copied by a constructor with one optional argument for each
field, most of them `Specifiable`, two of them null when they are not given.
Each setter assigns to the field it is named after and to no other, so that
the last call for a field decides.
-/

namespace SoftwareEntitlement

/-! ## Token properties -/

namespace EntitlementTokenProperties

inductive Field where
  | virtualMachineId
  | issuedAt
  | notBefore
  | notAfter
  | applications
  | ipAddresses
  | identifier
  | audience
  | issuer
  deriving DecidableEq

def Field.Value : Field → Type
  | .virtualMachineId => Option String
  | .issuedAt => DateTimeOffset
  | .notBefore => DateTimeOffset
  | .notAfter => DateTimeOffset
  | .applications => ImmutableHashSet String
  | .ipAddresses => ImmutableHashSet IPAddress
  | .identifier => Option String
  | .audience => Option String
  | .issuer => Option String

def get (properties : EntitlementTokenProperties) :
    (field : Field) → field.Value
  | .virtualMachineId => properties.virtualMachineId
  | .issuedAt => properties.issuedAt
  | .notBefore => properties.notBefore
  | .notAfter => properties.notAfter
  | .applications => properties.applications
  | .ipAddresses => properties.ipAddresses
  | .identifier => properties.identifier
  | .audience => properties.audience
  | .issuer => properties.issuer

/-- A call of a setter, with any argument. -/
inductive SetterCall where
  | fromInstant (notBefore : DateTimeOffset)
  | untilInstant (notAfter : DateTimeOffset)
  | withIssuedAt (issuedAt : DateTimeOffset)
  | withIssuer (issuer : Option String)
  | withAudience (audience : Option String)
  | withApplications (applications : Option (List (Option String)))
  | withIpAddresses (ipAddresses : Option (List IPAddress))
  | withVirtualMachineId (virtualMachineId : Option String)
  | withIdentifier (identifier : Option String)

namespace SetterCall

def perform (call : SetterCall) (properties : EntitlementTokenProperties) :
    Throws EntitlementTokenProperties :=
  match call with
  | .fromInstant notBefore => .ok (properties.fromInstant notBefore)
  | .untilInstant notAfter => .ok (properties.untilInstant notAfter)
  | .withIssuedAt issuedAt => .ok (properties.withIssuedAt issuedAt)
  | .withIssuer issuer => properties.withIssuer issuer
  | .withAudience audience => properties.withAudience audience
  | .withApplications applications => properties.withApplications applications
  | .withIpAddresses ipAddresses => properties.withIpAddresses ipAddresses
  | .withVirtualMachineId virtualMachineId =>
      .ok (properties.withVirtualMachineId virtualMachineId)
  | .withIdentifier identifier => .ok (properties.withIdentifier identifier)

/-- The field which a call is for, and the value it is to have. -/
def assign : SetterCall → Option ((field : Field) × field.Value)
  | .fromInstant instant => some ⟨.notBefore, instant⟩
  | .untilInstant instant => some ⟨.notAfter, instant⟩
  | .withIssuedAt instant => some ⟨.issuedAt, instant⟩
  | .withIssuer issuer =>
      if isNullOrEmpty issuer then none else some ⟨.issuer, issuer⟩
  | .withAudience audience =>
      if isNullOrEmpty audience then none else some ⟨.audience, audience⟩
  | .withApplications none => none
  | .withApplications (some applications) =>
      if applications.any Option.isNone then none
      else some ⟨.applications,
        .createRange (applications.reduceOption.map trim)⟩
  | .withIpAddresses none => none
  | .withIpAddresses (some addresses) =>
      some ⟨.ipAddresses, .createRange addresses⟩
  | .withVirtualMachineId identifier => some ⟨.virtualMachineId, identifier⟩
  | .withIdentifier identifier => some ⟨.identifier, identifier⟩

theorem get_injective : Function.Injective get := by
  intro first second heq
  cases first
  cases second
  have hfields := fun field => congrFun heq field
  congr
  · exact hfields .virtualMachineId
  · exact hfields .issuedAt
  · exact hfields .notBefore
  · exact hfields .notAfter
  · exact hfields .applications
  · exact hfields .ipAddresses
  · exact hfields .identifier
  · exact hfields .audience
  · exact hfields .issuer

theorem perform_assigned {call : SetterCall} {field : Field}
    {value : field.Value} (properties : EntitlementTokenProperties)
    (hassign : call.assign = some ⟨field, value⟩) :
    ∃ copy, call.perform properties = .ok copy ∧
      copy.get = Function.update properties.get field value := by
  have hcopied : ∀ {target : Field} {given : target.Value}
      {copy : EntitlementTokenProperties},
      copy.get = Function.update properties.get target given →
        (some ⟨target, given⟩ : Option ((field : Field) × field.Value)) =
            some ⟨field, value⟩ →
          ∃ result, (.ok copy : Throws EntitlementTokenProperties) = .ok result ∧
            result.get = Function.update properties.get field value := by
    rintro target given copy hget ⟨⟩
    exact ⟨copy, rfl, hget⟩
  cases call with
  | fromInstant notBefore =>
      exact hcopied (funext fun field => by cases field <;> rfl) hassign
  | untilInstant notAfter =>
      exact hcopied (funext fun field => by cases field <;> rfl) hassign
  | withIssuedAt issuedAt =>
      exact hcopied (funext fun field => by cases field <;> rfl) hassign
  | withIssuer issuer =>
      simp only [assign] at hassign
      split at hassign
      next => cases hassign
      next haccepted =>
        rw [perform, EntitlementTokenProperties.withIssuer, if_neg haccepted]
        exact hcopied (funext fun field => by cases field <;> rfl) hassign
  | withAudience audience =>
      simp only [assign] at hassign
      split at hassign
      next => cases hassign
      next haccepted =>
        rw [perform, EntitlementTokenProperties.withAudience, if_neg haccepted]
        exact hcopied (funext fun field => by cases field <;> rfl) hassign
  | withApplications applications =>
      cases applications with
      | none => cases hassign
      | some applications =>
          simp only [assign] at hassign
          split at hassign
          next => cases hassign
          next haccepted =>
            simp only [perform, EntitlementTokenProperties.withApplications,
              if_neg haccepted]
            exact hcopied (funext fun field => by cases field <;> rfl) hassign
  | withIpAddresses ipAddresses =>
      cases ipAddresses with
      | none => cases hassign
      | some ipAddresses =>
          exact hcopied (funext fun field => by cases field <;> rfl) hassign
  | withVirtualMachineId virtualMachineId =>
      exact hcopied (funext fun field => by cases field <;> rfl) hassign
  | withIdentifier identifier =>
      exact hcopied (funext fun field => by cases field <;> rfl) hassign

theorem perform_refused {call : SetterCall}
    (properties : EntitlementTokenProperties) (hassign : call.assign = none) :
    ∃ exception, call.perform properties = .error exception := by
  cases call with
  | withIssuer issuer =>
      simp only [assign] at hassign
      split at hassign
      next hrefused => exact ⟨_, if_pos hrefused⟩
      next => cases hassign
  | withAudience audience =>
      simp only [assign] at hassign
      split at hassign
      next hrefused => exact ⟨_, if_pos hrefused⟩
      next => cases hassign
  | withApplications applications =>
      cases applications with
      | none => exact ⟨_, rfl⟩
      | some applications =>
          simp only [assign] at hassign
          split at hassign
          next hrefused => exact ⟨_, if_pos hrefused⟩
          next => cases hassign
  | withIpAddresses ipAddresses =>
      cases ipAddresses with
      | none => exact ⟨_, rfl⟩
      | some ipAddresses => cases hassign
  | _ => cases hassign

end SetterCall

def setters : CopyOnWrite EntitlementTokenProperties SetterCall ClrException
    Field.Value where
  get := get
  get_injective := SetterCall.get_injective
  assign := SetterCall.assign
  perform := SetterCall.perform
  perform_assigned := SetterCall.perform_assigned
  perform_refused := SetterCall.perform_refused

end EntitlementTokenProperties

/-! ## Server options -/

namespace ServerOptions

inductive Field where
  | signingCertificate
  | encryptionCertificate
  | connectionCertificate
  | serverUrl
  | audience
  | issuer
  | exitAfterRequest
  deriving DecidableEq

def Field.Value : Field → Type
  | .signingCertificate => Option X509Certificate2
  | .encryptionCertificate => Option X509Certificate2
  | .connectionCertificate => Option X509Certificate2
  | .serverUrl => Option Uri
  | .audience => Option String
  | .issuer => Option String
  | .exitAfterRequest => Bool

def get (options : ServerOptions) : (field : Field) → field.Value
  | .signingCertificate => options.signingCertificate
  | .encryptionCertificate => options.encryptionCertificate
  | .connectionCertificate => options.connectionCertificate
  | .serverUrl => options.serverUrl
  | .audience => options.audience
  | .issuer => options.issuer
  | .exitAfterRequest => options.exitAfterRequest

inductive SetterCall where
  | withSigningCertificate (certificate : Option X509Certificate2)
  | withEncryptionCertificate (certificate : Option X509Certificate2)
  | withConnectionCertificate (certificate : Option X509Certificate2)
  | withServerUrl (url : Option Uri)
  | withAudience (audience : Option String)
  | withIssuer (issuer : Option String)
  | withAutomaticExitAfterOneRequest (exitAfterRequest : Bool)

namespace SetterCall

def perform (call : SetterCall) (options : ServerOptions) :
    Throws ServerOptions :=
  match call with
  | .withSigningCertificate certificate =>
      .ok (options.withSigningCertificate certificate)
  | .withEncryptionCertificate certificate =>
      .ok (options.withEncryptionCertificate certificate)
  | .withConnectionCertificate certificate =>
      options.withConnectionCertificate certificate
  | .withServerUrl url => options.withServerUrl url
  | .withAudience audience => options.withAudience audience
  | .withIssuer issuer => options.withIssuer issuer
  | .withAutomaticExitAfterOneRequest exitAfterRequest =>
      .ok (options.withAutomaticExitAfterOneRequest exitAfterRequest)

def assign : SetterCall → Option ((field : Field) × field.Value)
  | .withSigningCertificate certificate =>
      some ⟨.signingCertificate, certificate⟩
  | .withEncryptionCertificate certificate =>
      some ⟨.encryptionCertificate, certificate⟩
  | .withConnectionCertificate none => none
  | .withConnectionCertificate (some certificate) =>
      some ⟨.connectionCertificate, some certificate⟩
  | .withServerUrl none => none
  | .withServerUrl (some url) => some ⟨.serverUrl, some url⟩
  | .withAudience audience =>
      if isNullOrEmpty audience then none else some ⟨.audience, audience⟩
  | .withIssuer issuer =>
      if isNullOrEmpty issuer then none else some ⟨.issuer, issuer⟩
  | .withAutomaticExitAfterOneRequest exitAfterRequest =>
      some ⟨.exitAfterRequest, exitAfterRequest⟩

theorem get_injective : Function.Injective get := by
  intro first second heq
  cases first
  cases second
  have hfields := fun field => congrFun heq field
  congr
  · exact hfields .signingCertificate
  · exact hfields .encryptionCertificate
  · exact hfields .connectionCertificate
  · exact hfields .serverUrl
  · exact hfields .audience
  · exact hfields .issuer
  · exact hfields .exitAfterRequest

theorem perform_assigned {call : SetterCall} {field : Field}
    {value : field.Value} (options : ServerOptions)
    (hassign : call.assign = some ⟨field, value⟩) :
    ∃ copy, call.perform options = .ok copy ∧
      copy.get = Function.update options.get field value := by
  have hcopied : ∀ {target : Field} {given : target.Value}
      {copy : ServerOptions},
      copy.get = Function.update options.get target given →
        (some ⟨target, given⟩ : Option ((field : Field) × field.Value)) =
            some ⟨field, value⟩ →
          ∃ result, (.ok copy : Throws ServerOptions) = .ok result ∧
            result.get = Function.update options.get field value := by
    rintro target given copy hget ⟨⟩
    exact ⟨copy, rfl, hget⟩
  cases call with
  | withSigningCertificate certificate =>
      exact hcopied (funext fun field => by cases field <;> rfl) hassign
  | withEncryptionCertificate certificate =>
      exact hcopied (funext fun field => by cases field <;> rfl) hassign
  | withConnectionCertificate certificate =>
      cases certificate with
      | none => cases hassign
      | some certificate =>
          exact hcopied (funext fun field => by cases field <;> rfl) hassign
  | withServerUrl url =>
      cases url with
      | none => cases hassign
      | some url =>
          exact hcopied (funext fun field => by cases field <;> rfl) hassign
  | withAudience audience =>
      simp only [assign] at hassign
      split at hassign
      next => cases hassign
      next haccepted =>
        rw [perform, ServerOptions.withAudience, dif_neg haccepted]
        exact hcopied (funext fun field => by cases field <;> rfl) hassign
  | withIssuer issuer =>
      simp only [assign] at hassign
      split at hassign
      next => cases hassign
      next haccepted =>
        rw [perform, ServerOptions.withIssuer, dif_neg haccepted]
        exact hcopied (funext fun field => by cases field <;> rfl) hassign
  | withAutomaticExitAfterOneRequest exitAfterRequest =>
      exact hcopied (funext fun field => by cases field <;> rfl) hassign

theorem perform_refused {call : SetterCall} (options : ServerOptions)
    (hassign : call.assign = none) :
    ∃ exception, call.perform options = .error exception := by
  cases call with
  | withConnectionCertificate certificate =>
      cases certificate with
      | none => exact ⟨_, rfl⟩
      | some certificate => cases hassign
  | withServerUrl url =>
      cases url with
      | none => exact ⟨_, rfl⟩
      | some url => cases hassign
  | withAudience audience =>
      simp only [assign] at hassign
      split at hassign
      next hrefused => exact ⟨_, dif_pos hrefused⟩
      next => cases hassign
  | withIssuer issuer =>
      simp only [assign] at hassign
      split at hassign
      next hrefused => exact ⟨_, dif_pos hrefused⟩
      next => cases hassign
  | _ => cases hassign

end SetterCall

def setters : CopyOnWrite ServerOptions SetterCall ClrException
    Field.Value where
  get := get
  get_injective := SetterCall.get_injective
  assign := SetterCall.assign
  perform := SetterCall.perform
  perform_assigned := SetterCall.perform_assigned
  perform_refused := SetterCall.perform_refused

end ServerOptions

/-! ## The law -/

theorem setters_lastCallDecides :
    EntitlementTokenProperties.setters.LastCallDecides ∧
      ServerOptions.setters.LastCallDecides :=
  ⟨CopyOnWrite.lastCallDecides _, CopyOnWrite.lastCallDecides _⟩

example : EntitlementTokenProperties.setters.lastAssigned .audience
    [.withAudience (some "a"), .withIpAddresses (some []),
      .withAudience (some "b")] = some (some "b") := rfl

end SoftwareEntitlement
