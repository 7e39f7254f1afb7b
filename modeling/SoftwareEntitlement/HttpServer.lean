import SoftwareEntitlement.HttpRouting
import SoftwareEntitlement.ServerWiring
import SoftwareEntitlement.StoreHistory

/-!
# The server as a pool of HTTP requests

A request is routed to an action of the controller, which answers it at once
or runs one of the five handlers.  Requests of all kinds run concurrently over
the one store of the server.
-/

namespace SoftwareEntitlement

open Interleaving SoftwareEntitlementsController

/-! ## The controller -/

inductive IActionResult where
  | statusCode (statusCode : ℕ)
  | objectResult (statusCode : ℕ) (value : IResponseValue)
  deriving DecidableEq

def createActionResult (response : Response) : IActionResult :=
  match response.value with
  | none => .statusCode response.statusCode
  | some value => .objectResult response.statusCode value

/-- How the framework ends a request. -/
inductive HttpResult where
  | actionResult (result : IActionResult)
  | exception (exception : ClrException)
  /-- No action of the controller handles the request. -/
  | notRouted
  | ambiguousAction (candidates : List Action)
  deriving DecidableEq

structure HttpOutcome where
  result : HttpResult
  /-- The controller has called `StopApplication`. -/
  stopApplication : Bool
  deriving DecidableEq

def HttpResult.ofOutcome : Throws Response → HttpResult
  | .ok response => .actionResult (createActionResult response)
  | .error thrown => .exception thrown

namespace SoftwareEntitlementsController

def handleApiVersionError (errorMessage : String) : IActionResult :=
  createActionResult
    ⟨400, some (.failure "EntitlementDenied" { value := errorMessage })⟩

/-- A handler in its `try ... finally`. -/
def handleRequest (serverOptions : ServerOptions)
    (requestHandler : Handling Response) : Program Access Reply HttpOutcome := do
  let outcome ← requestHandler.run
  return {
    result := .ofOutcome outcome
    stopApplication := serverOptions.exitAfterRequest }

def missingApiVersion : IActionResult :=
  handleApiVersionError
    "Missing api-version query parameter; denying entitlement request."

def invalidApiVersion (apiVersion : Option String) : IActionResult :=
  handleApiVersionError
    ("Specified api-version of " ++ apiVersion.getD "" ++
      " is not supported; denying entitlement request.")

end SoftwareEntitlementsController

def HttpRequest.entitlementId (runtime : Runtime) (request : HttpRequest) :
    String :=
  match request.resource runtime with
  | some (.item entitlementId) => entitlementId
  | _ => ""

/-- What an action asks a handler to do; the first two have none. -/
def SoftwareEntitlementsController.Action.handlerRequest (runtime : Runtime)
    (request : HttpRequest) : Action → Option HandlerRequest
  | .missingApiVersion => none
  | .invalidApiVersion => none
  | .approveV1 => some (.approveV1 request.remoteIpAddress request.body.approve)
  | .approveV2 => some (.approveV2 request.remoteIpAddress request.body.approve)
  | .acquire => some (.acquire request.remoteIpAddress request.body.acquire)
  | .renew => some (.renew request.body.renew (request.entitlementId runtime))
  | .release => some (.release (request.entitlementId runtime))

section Server

variable (services : Services)
  (serverOptions : SoftwareEntitlementsController.ServerOptions)

def SoftwareEntitlementsController.invoke (request : HttpRequest) :
    Action → Program Access Reply HttpOutcome
  | .missingApiVersion => .done ⟨.actionResult missingApiVersion, false⟩
  | .invalidApiVersion =>
      let apiVersion :=
        request.query.fromQuery services.runtime ApiVersions.parameterName
      .done ⟨.actionResult (invalidApiVersion apiVersion), false⟩
  | .approveV1 =>
      handleRequest serverOptions (ApproveV1RequestHandler.handle services
        request.remoteIpAddress request.body.approve)
  | .approveV2 =>
      handleRequest serverOptions (ApproveV2RequestHandler.handle services
        request.remoteIpAddress request.body.approve)
  | .acquire =>
      handleRequest serverOptions (AcquireRequestHandler.handle services
        request.remoteIpAddress request.body.acquire)
  | .renew =>
      handleRequest serverOptions (RenewRequestHandler.handle services
        request.body.renew (request.entitlementId services.runtime))
  | .release =>
      handleRequest serverOptions (ReleaseRequestHandler.handle
        (request.entitlementId services.runtime))

def HttpRequest.process (request : HttpRequest) :
    Program Access Reply HttpOutcome :=
  match selectAction services.runtime request with
  | .none => .done ⟨.notRouted, false⟩
  | .action action => invoke services serverOptions request action
  | .ambiguous candidates => .done ⟨.ambiguousAction candidates, false⟩

/-- The handler which a request reaches, with what it is asked to do. -/
def HttpRequest.handlerRequest (runtime : Runtime) (request : HttpRequest) :
    Option HandlerRequest :=
  match selectAction runtime request with
  | .action action => action.handlerRequest runtime request
  | _ => none

abbrev HttpPool (ι : Type) :=
  Pool ι Access Reply (ServerState ι) HttpOutcome

variable {ι : Type}

def HttpPool.start (requests : ι → HttpRequest) : HttpPool ι :=
  ⟨fun i => (requests i).process services serverOptions, .empty⟩

def HttpPool.Reachable [DecidableEq ι] (requests : ι → HttpRequest)
    (pool : HttpPool ι) : Prop :=
  Pool.Reaches perform (HttpPool.start services serverOptions requests) pool

end Server

theorem HttpRequest.exists_routes {runtime : Runtime} {request : HttpRequest}
    {handlerRequest : HandlerRequest}
    (hhandled : request.handlerRequest runtime = some handlerRequest) :
    ∃ action, Routes runtime request action ∧
      action.handlerRequest runtime request = some handlerRequest := by
  unfold HttpRequest.handlerRequest at hhandled
  cases hselect : selectAction runtime request with
  | none => simp [hselect] at hhandled
  | ambiguous candidates => simp [hselect] at hhandled
  | action action =>
      simp only [hselect] at hhandled
      exact ⟨action, .of_selectAction hselect, hhandled⟩

section Requests

variable {services : Services}
  {serverOptions : SoftwareEntitlementsController.ServerOptions}
  {request : HttpRequest}

theorem HttpRequest.process_of_handled {handlerRequest : HandlerRequest}
    (hhandled : request.handlerRequest services.runtime = some handlerRequest) :
    request.process services serverOptions =
      handleRequest serverOptions (handlerRequest.handle services) := by
  unfold HttpRequest.handlerRequest at hhandled
  unfold HttpRequest.process
  cases hselect : selectAction services.runtime request with
  | none => simp [hselect] at hhandled
  | ambiguous candidates => simp [hselect] at hhandled
  | action action =>
      simp only [hselect] at hhandled ⊢
      cases action <;> cases hhandled <;> rfl

theorem HttpRequest.process_of_not_handled
    (serverOptions : SoftwareEntitlementsController.ServerOptions)
    (hnone : request.handlerRequest services.runtime = none) :
    ∃ result, request.process services serverOptions = .done ⟨result, false⟩ ∧
      (result = .notRouted ∨ ∃ errorMessage,
        result = .actionResult (handleApiVersionError errorMessage)) := by
  unfold HttpRequest.handlerRequest at hnone
  unfold HttpRequest.process
  cases hselect : selectAction services.runtime request with
  | none => exact ⟨_, rfl, .inl rfl⟩
  | ambiguous candidates =>
      exact absurd hselect (selectAction_ne_ambiguous candidates)
  | action action =>
      simp only [hselect] at hnone ⊢
      cases action with
      | missingApiVersion => exact ⟨_, rfl, .inr ⟨_, rfl⟩⟩
      | invalidApiVersion => exact ⟨_, rfl, .inr ⟨_, rfl⟩⟩
      | _ => cases hnone

end Requests

end SoftwareEntitlement
