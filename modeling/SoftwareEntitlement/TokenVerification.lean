import SoftwareEntitlement.JwtTokens

/-!
# Verifying a request against a token

`TokenVerifier` parses the token and compares what the request asks for with
the applications and addresses the token lists.
-/

namespace SoftwareEntitlement

structure TokenVerificationRequest where
  applicationId : String
  ipAddress : IPAddress

namespace TokenVerifier

variable (runtime : Runtime)

def grantsApplication (tokenProperties : EntitlementTokenProperties)
    (applicationId : String) : Bool :=
  tokenProperties.applications.items.any fun a =>
    runtime.equalsOrdinalIgnoreCase a applicationId

def grantsAddress (tokenProperties : EntitlementTokenProperties)
    (ipAddress : IPAddress) : Bool :=
  tokenProperties.ipAddresses.items.any fun addr => addr == ipAddress

/-- The private overload of `Verify`, on parsed properties. -/
def verifyProperties (request : TokenVerificationRequest)
    (tokenProperties : EntitlementTokenProperties) :
    Result EntitlementTokenProperties ErrorSet :=
  if !grantsApplication runtime tokenProperties request.applicationId then
    .error (.create
      ("Token does not grant entitlement for " ++ request.applicationId))
  else if !grantsAddress tokenProperties request.ipAddress then
    .error (.create ("Token does not grant entitlement for " ++
      runtime.addressToString request.ipAddress))
  else
    .ok tokenProperties

def verify (tokenPropertyParser : ITokenPropertyParser) (now : DateTimeOffset)
    (request : TokenVerificationRequest) (token : String) :
    Throws (Result EntitlementTokenProperties ErrorSet) :=
  ExceptT.run do
    let parsedProps ← ExceptT.mk (tokenPropertyParser now token)
    let verifiedProps ← (verifyProperties runtime request parsedProps).toQuery
    return verifiedProps

theorem verifyProperties_isOk (request : TokenVerificationRequest)
    (tokenProperties : EntitlementTokenProperties) :
    (verifyProperties runtime request tokenProperties).isOk =
      (grantsApplication runtime tokenProperties request.applicationId &&
        grantsAddress tokenProperties request.ipAddress) := by
  cases happlication :
      grantsApplication runtime tokenProperties request.applicationId <;>
    cases haddress : grantsAddress tokenProperties request.ipAddress <;>
    simp [verifyProperties, happlication, haddress, Except.isOk, Except.toBool]

theorem verifyProperties_eq_ok_iff {request : TokenVerificationRequest}
    {tokenProperties verified : EntitlementTokenProperties} :
    verifyProperties runtime request tokenProperties = .ok verified ↔
      tokenProperties = verified ∧
        grantsApplication runtime tokenProperties request.applicationId = true ∧
        grantsAddress tokenProperties request.ipAddress = true := by
  cases happlication :
      grantsApplication runtime tokenProperties request.applicationId <;>
    cases haddress : grantsAddress tokenProperties request.ipAddress <;>
    simp [verifyProperties, happlication, haddress]

theorem verify_eq (tokenPropertyParser : ITokenPropertyParser)
    (now : DateTimeOffset) (request : TokenVerificationRequest)
    (token : String) :
    verify runtime tokenPropertyParser now request token =
      match tokenPropertyParser now token with
      | .error exception => .error exception
      | .ok (.error errors) => .ok (.error errors)
      | .ok (.ok parsed) => .ok (verifyProperties runtime request parsed) := by
  unfold verify
  rcases tokenPropertyParser now token with exception | (errors | parsed)
  · rfl
  · rfl
  · cases hverified : verifyProperties runtime request parsed <;>
      simp [hverified, Result.toQuery, ExceptT.run, ExceptT.mk, bind,
        ExceptT.bind, ExceptT.bindCont, Except.bind, pure, Except.pure]

theorem verify_eq_ok_iff {tokenPropertyParser : ITokenPropertyParser}
    {now : DateTimeOffset} {request : TokenVerificationRequest} {token : String}
    {verified : EntitlementTokenProperties} :
    verify runtime tokenPropertyParser now request token = .ok (.ok verified) ↔
      tokenPropertyParser now token = .ok (.ok verified) ∧
        grantsApplication runtime verified request.applicationId = true ∧
        grantsAddress verified request.ipAddress = true := by
  rw [verify_eq]
  rcases tokenPropertyParser now token with exception | (errors | parsed)
  · simp
  · simp
  · simp only [Except.ok.injEq, verifyProperties_eq_ok_iff]
    constructor
    · rintro ⟨rfl, hgrants⟩
      exact ⟨rfl, hgrants⟩
    · rintro ⟨rfl, hgrants⟩
      exact ⟨rfl, hgrants⟩

end TokenVerifier

end SoftwareEntitlement
