import SoftwareEntitlement.Authorization
import SoftwareEntitlement.ParserTotality

/-!
# When a handler throws

Four things are checked before a handler does its work: the body, the token,
the application and the duration.  The first clause of the Acquire and Renew
handlers reads the duration of a body which may be missing, and two exceptions
on the way from the duration to the expiry are not caught.
-/

namespace SoftwareEntitlement

open Interleaving

/-! ## Requests and what is wrong with them -/

inductive HandlerRequest where
  | approveV1 (remoteIpAddress : IPAddress) (body : Option ApproveRequestBody)
  | approveV2 (remoteIpAddress : IPAddress) (body : Option ApproveRequestBody)
  | acquire (remoteIpAddress : IPAddress) (body : Option AcquireRequestBody)
  | renew (body : Option RenewRequestBody) (entitlementId : String)
  | release (entitlementId : String)

namespace HandlerRequest

def handle (services : Services) : HandlerRequest → Handling Response
  | .approveV1 remoteIpAddress body =>
      ApproveV1RequestHandler.handle services remoteIpAddress body
  | .approveV2 remoteIpAddress body =>
      ApproveV2RequestHandler.handle services remoteIpAddress body
  | .acquire remoteIpAddress body =>
      AcquireRequestHandler.handle services remoteIpAddress body
  | .renew body entitlementId =>
      RenewRequestHandler.handle services body entitlementId
  | .release entitlementId => ReleaseRequestHandler.handle entitlementId

/-- The duration in the body of the request, if it has such a field. -/
def duration : HandlerRequest → Option (Option String)
  | .acquire _ body => body.map AcquireRequestBody.duration
  | .renew body _ => body.map RenewRequestBody.duration
  | _ => none

end HandlerRequest

section Clauses

variable {services : Services} {answer : (access : Access) → Reply access}
  {now : DateTimeOffset}

end Clauses

/-! ## The handlers -/

section Handlers

variable {services : Services} {answer : (access : Access) → Reply access}

end Handlers

/-! ## Requests without a body -/

theorem JwtReference.reportsInstants : JwtLibrary.reference.ReportsInstants := by
  refine ⟨?_, ?_, reportsUtc.epochTime⟩
  · intro now parameters token principal jwt hvalidated
    exact .inl (reportsUtc.lifetime _ _ _ _ _ hvalidated).1
  · intro now parameters token principal jwt hvalidated _
    exact (reportsUtc.lifetime _ _ _ _ _ hvalidated).2

end SoftwareEntitlement
