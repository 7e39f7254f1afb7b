import SoftwareEntitlement.StoreInvariants
import SoftwareEntitlement.LocalTraces

/-!
# The traces of the handlers

What a client has done before it changes the dictionary, whatever the others
do: `AddOrUpdate` is given a new record and keeps an existing one, and
`TryUpdate` compares with the record of its last lookup, from which its new
record was made.  The history of the server is the log to which these traces
belong.
-/

namespace SoftwareEntitlement

open Interleaving

variable {ι : Type}

/-! ## The discipline of a client -/

/-- After the events `earlier`, the client may look up `key` and store the
revision of the record which it finds. -/
def Client.Revises (client : Client) (thread : ι) (earlier : List (Event ι))
    (key : String)
    (revision : EntitlementProperties → EntitlementProperties) : Prop :=
  match client with
  | .call (.renew id time) =>
      id = key ∧ earlier = [] ∧ revision = fun props => props.withRenewal time
  | .call (.release id time) =>
      id = key ∧ earlier = [] ∧ revision = fun props => props.withRelease time
  | .request (.renew _ id) =>
      id = key ∧ ∃ time found,
        earlier =
            [⟨thread, .utcNow, time⟩, ⟨thread, .tryGetValue id, some found⟩] ∧
          revision = fun props => props.withRenewal time
  | .request (.release id) =>
      id = key ∧ ∃ time found,
        earlier =
            [⟨thread, .utcNow, time⟩, ⟨thread, .tryGetValue id, some found⟩] ∧
          revision = fun props => props.withRelease time
  | _ => False

/-- After the events `earlier`, the client may store a new record. -/
def Client.Creates (client : Client) (thread : ι) (earlier : List (Event ι))
    (key : String) (record : EntitlementProperties) : Prop :=
  match client with
  | .call (.store id tokenProperties time) =>
      id = key ∧ earlier = [] ∧ record = .createNew id tokenProperties time
  | .request (.acquire _ _) =>
      ∃ tokenProperties time before,
        earlier = ⟨thread, .utcNow, time⟩ :: before ∧
          record = .createNew key tokenProperties time
  | _ => False

def Client.Permits (client : Client) (thread : ι) (trace : List (Event ι)) :
    Access → Prop
  | .addOrUpdate key added updateValueFactory =>
      updateValueFactory = (fun _ props => props) ∧
        ∃ record earlier, trace = ⟨thread, .allocate record, added⟩ :: earlier ∧
          client.Creates thread earlier key record
  | .tryUpdate key newValue comparisonValue =>
      ∃ revision earlier,
        trace = ⟨thread, .allocate (revision comparisonValue.value), newValue⟩ ::
            ⟨thread, .tryGetValue key, some comparisonValue⟩ :: earlier ∧
          client.Revises thread earlier key revision
  | _ => True

/-- The trace of a call of `TryUpdate`, by its result. -/
def UpdateTrace (thread : ι) (key : String) (earlier : List (Event ι))
    (result : Result EntitlementProperties ErrorSet)
    (trace : List (Event ι)) : Prop :=
  match result with
  | .ok record =>
      ∃ updated newValue comparisonValue,
        newValue.value = record ∧
          trace = ⟨thread, .tryUpdate key newValue comparisonValue, true⟩ ::
            ⟨thread, .allocate updated, newValue⟩ ::
              ⟨thread, .tryGetValue key, some comparisonValue⟩ :: earlier
  | .error _ =>
      trace = ⟨thread, .tryGetValue key, none⟩ :: earlier ∨
        ∃ updated newValue comparisonValue,
          trace = ⟨thread, .tryUpdate key newValue comparisonValue, false⟩ ::
            ⟨thread, .allocate updated, newValue⟩ ::
              ⟨thread, .tryGetValue key, some comparisonValue⟩ :: earlier

/-- The trace of a client which has finished. -/
def Client.Finishes (client : Client) (thread : ι) (outcome : Throws Answer)
    (trace : List (Event ι)) : Prop :=
  match client with
  | .call (.renew id _) =>
      ∃ result, outcome = .ok (.result result) ∧
        UpdateTrace thread id [] result trace
  | .call (.release id _) =>
      ∃ result, outcome = .ok (.result result) ∧
        UpdateTrace thread id [] result trace
  | _ => True

theorem Client.Creates.eq_createNew {client : Client} {thread : ι}
    {earlier : List (Event ι)} {key : String} {record : EntitlementProperties}
    (hcreates : client.Creates thread earlier key record) :
    ∃ tokenProperties time, record = .createNew key tokenProperties time := by
  unfold Client.Creates at hcreates
  split at hcreates
  next id tokenProperties time =>
    obtain ⟨rfl, -, hrecord⟩ := hcreates
    exact ⟨tokenProperties, time, hrecord⟩
  next =>
    obtain ⟨tokenProperties, time, -, -, hrecord⟩ := hcreates
    exact ⟨tokenProperties, time, hrecord⟩
  next => exact hcreates.elim

/-- A request revises a record at the time it has read after it found the
entitlement. -/
theorem Request.cases_of_revises {request : Request} {thread : ι}
    {earlier : List (Event ι)} {key : String}
    {revision : EntitlementProperties → EntitlementProperties}
    (hrevises : (Client.request request).Revises thread earlier key revision) :
    ∃ time found,
      earlier =
          [⟨thread, .utcNow, time⟩, ⟨thread, .tryGetValue key, some found⟩] ∧
        ((∃ body, request = .renew body key) ∧
            revision = (fun props => props.withRenewal time) ∨
          request = .release key ∧
            revision = fun props => props.withRelease time) := by
  cases request with
  | acquire remoteIpAddress body => exact hrevises.elim
  | renew body id =>
      obtain ⟨rfl, time, found, hearlier, hrevision⟩ := hrevises
      exact ⟨time, found, hearlier, .inl ⟨⟨body, rfl⟩, hrevision⟩⟩
  | release id =>
      obtain ⟨rfl, time, found, hearlier, hrevision⟩ := hrevises
      exact ⟨time, found, hearlier, .inr ⟨rfl, hrevision⟩⟩

/-! ## Rules -/

section Rules

variable {α β : Type} (thread : ι) (permits : List (Event ι) → Access → Prop)

def Handling.Obeys (program : Handling α)
    (post : Throws α → List (Event ι) → Prop) (trace : List (Event ι)) : Prop :=
  program.run.Obeys (Event.mk thread) permits post trace

/-- The same for a query; nothing is said of a query which ends its handler. -/
def Query.Obeys (query : Query α) (mid : α → List (Event ι) → Prop)
    (trace : List (Event ι)) : Prop :=
  Handling.Obeys thread permits query.run
    (fun outcome trace' => ∀ value, outcome = .ok (.ok value) →
      mid value trace') trace

variable {thread permits} {trace : List (Event ι)}

theorem Handling.Obeys.bind {program : Handling α} {f : α → Handling β}
    {mid : α → List (Event ι) → Prop}
    {post : Throws β → List (Event ι) → Prop}
    (hprogram : program.Obeys thread permits
      (fun outcome trace' => ∃ value, outcome = .ok value ∧ mid value trace')
      trace)
    (hnext : ∀ value trace', mid value trace' →
      (f value).Obeys thread permits post trace') :
    (program >>= f).Obeys thread permits post trace := by
  refine Program.Obeys.exceptBind (Program.Obeys.mono hprogram ?_) hnext
  rintro outcome trace' ⟨value, rfl, hvalue⟩
  exact hvalue

theorem request_obeys {access : Access}
    {post : Throws (Reply access) → List (Event ι) → Prop}
    (hpermits : permits trace access)
    (hpost : ∀ reply, post (.ok reply) (⟨thread, access, reply⟩ :: trace)) :
    (request access).Obeys thread permits post trace :=
  ⟨hpermits, hpost⟩

/-- An access as the first clause of a computation. -/
theorem request_bind_obeys {access : Access} {f : Reply access → Handling β}
    {post : Throws β → List (Event ι) → Prop}
    (hpermits : permits trace access)
    (hnext : ∀ reply, (f reply).Obeys thread permits post
      (⟨thread, access, reply⟩ :: trace)) :
    (request access >>= f).Obeys thread permits post trace :=
  ⟨hpermits, hnext⟩

theorem Query.Obeys.bind {query : Query α} {f : α → Query β}
    {mid : α → List (Event ι) → Prop} {post : β → List (Event ι) → Prop}
    (hquery : query.Obeys thread permits mid trace)
    (hnext : ∀ value trace', mid value trace' →
      (f value).Obeys thread permits post trace') :
    (query >>= f).Obeys thread permits post trace := by
  refine Program.Obeys.bind hquery fun outcome trace' houtcome => ?_
  rcases outcome with exception | (response | value)
  · rintro value heq
    cases heq
  · rintro value heq
    cases heq
  · exact hnext value trace' (houtcome value rfl)

theorem Query.pure_obeys {value : α} {mid : α → List (Event ι) → Prop}
    (hmid : mid value trace) :
    (Pure.pure value : Query α).Obeys thread permits mid trace := by
  rintro value' heq
  cases heq
  exact hmid

theorem Query.ofOutcome_obeys (outcome : Throws (Result α Response)) :
    (Query.ofOutcome outcome).Obeys thread permits
      (fun _ trace' => trace' = trace) trace :=
  fun _ _ => rfl

theorem Query.Obeys.lift {program : Handling α}
    {mid : α → List (Event ι) → Prop}
    (hprogram : program.Obeys thread permits
      (fun outcome trace' => ∀ value, outcome = .ok value → mid value trace')
      trace) :
    (liftM program : Query α).Obeys thread permits mid trace := by
  refine Program.Obeys.exceptMap (Program.Obeys.mono hprogram ?_)
  rintro (exception | value) trace' houtcome value' heq
  · cases heq
  · cases heq
    exact houtcome value rfl

theorem Query.request_obeys {access : Access}
    (hpermits : permits trace access) :
    (liftM (request access) : Query (Reply access)).Obeys thread permits
      (fun reply trace' => trace' = ⟨thread, access, reply⟩ :: trace) trace := by
  refine Query.Obeys.lift ⟨hpermits, fun reply value heq => ?_⟩
  cases heq
  rfl

theorem Query.Obeys.merge {query : Query Response}
    (hquery : query.Obeys thread permits (fun _ _ => True) trace) :
    query.merge.Obeys thread permits (fun _ _ => True) trace :=
  Program.Obeys.exceptMap (Program.Obeys.mono hquery fun _ _ _ => trivial)

end Rules

/-! ## The store methods and the handlers -/

section Handlers

variable {client : Client} {thread : ι} {trace : List (Event ι)}
  {services : Services}

theorem storeEntitlement_obeys {id : String}
    {tokenProperties : EntitlementTokenProperties} {time : DateTimeOffset}
    (hcreates : client.Creates thread trace id
      (.createNew id tokenProperties time)) :
    (EntitlementStore.storeEntitlement id tokenProperties time).Obeys thread
      (client.Permits thread) (fun _ _ => True) trace :=
  request_bind_obeys trivial fun _ =>
    request_bind_obeys ⟨rfl, _, _, rfl, hcreates⟩ fun _ => trivial

theorem findEntitlement_obeys (id : String) :
    (EntitlementStore.findEntitlement id).Obeys thread (client.Permits thread)
      (fun outcome trace' => ∃ result, outcome = .ok result ∧
        ∃ found, trace' = ⟨thread, .tryGetValue id, found⟩ :: trace ∧
          ∀ record, result = .ok record → found.isSome) trace := by
  refine request_bind_obeys trivial fun found => ?_
  cases found with
  | none => exact ⟨_, rfl, none, rfl, fun record heq => by cases heq⟩
  | some reference => exact ⟨_, rfl, some reference, rfl, fun _ _ => rfl⟩

theorem tryUpdate_obeys {id errorMessage : String}
    {updater : EntitlementProperties → EntitlementProperties}
    (hrevises : client.Revises thread trace id updater) :
    (EntitlementStore.tryUpdate id updater errorMessage).Obeys thread
      (client.Permits thread)
      (fun outcome trace' => ∃ result, outcome = .ok result ∧
        UpdateTrace thread id trace result trace') trace := by
  refine request_bind_obeys trivial fun found => ?_
  cases found with
  | none => exact ⟨_, rfl, .inl rfl⟩
  | some current =>
      refine request_bind_obeys trivial fun updated => ?_
      refine request_bind_obeys ⟨updater, trace, rfl, hrevises⟩ fun swapped => ?_
      cases swapped with
      | false => exact ⟨_, rfl, .inr ⟨_, _, _, rfl⟩⟩
      | true => exact ⟨_, rfl, _, _, _, rfl, rfl⟩

theorem StoreCall.handle_obeys (call : StoreCall) :
    call.handle.Obeys thread ((Client.call call).Permits thread)
      ((Client.call call).Finishes thread) [] := by
  cases call with
  | store id tokenProperties time =>
      exact Program.Obeys.exceptMap
        (storeEntitlement_obeys ⟨rfl, rfl, rfl⟩)
  | find id =>
      exact Program.Obeys.exceptMap
        (Program.Obeys.mono (findEntitlement_obeys id) fun _ _ _ => trivial)
  | renew id time =>
      refine Program.Obeys.exceptMap
        (Program.Obeys.mono (tryUpdate_obeys ⟨rfl, rfl, rfl⟩) ?_)
      rintro outcome trace ⟨result, rfl, htrace⟩
      exact ⟨result, rfl, htrace⟩
  | release id time =>
      refine Program.Obeys.exceptMap
        (Program.Obeys.mono (tryUpdate_obeys ⟨rfl, rfl, rfl⟩) ?_)
      rintro outcome trace ⟨result, rfl, htrace⟩
      exact ⟨result, rfl, htrace⟩

theorem verifyClause_obeys (verification : TokenVerificationRequest)
    (token : String) :
    (verifyClause services verification token).Obeys thread
      (client.Permits thread) (fun _ _ => True) trace := by
  refine (Query.request_obeys trivial).bind fun now trace' _ => ?_
  exact fun _ _ => trivial

theorem findEntitlementClause_obeys (id : String) :
    (findEntitlementClause id).Obeys thread (client.Permits thread)
      (fun _ trace' => ∃ found,
        trace' = ⟨thread, .tryGetValue id, some found⟩ :: trace) trace := by
  refine (findEntitlement_obeys id).bind ?_
  rintro result trace' ⟨found, rfl, hfound⟩ value heq
  cases result with
  | error errors => cases heq
  | ok record =>
      obtain ⟨reference, rfl⟩ := Option.isSome_iff_exists.mp (hfound record rfl)
      exact ⟨reference, rfl⟩

/-- The shared end of the Renew and Release handlers. -/
theorem update_obeys {id errorMessage : String} {response : Response}
    {updater : EntitlementProperties → EntitlementProperties}
    (hrevises : client.Revises thread trace id updater) :
    Query.Obeys thread (client.Permits thread)
      (do
        let _ ← (ExceptT.mk do
          let result ← EntitlementStore.tryUpdate id updater errorMessage
          return result.onError createInternalErrorResponse : Query _)
        return response)
      (fun _ _ => True) trace := by
  have hupdate : Query.Obeys thread (client.Permits thread)
      (ExceptT.mk do
        let result ← EntitlementStore.tryUpdate id updater errorMessage
        return result.onError createInternalErrorResponse)
      (fun _ _ => True) trace :=
    (tryUpdate_obeys hrevises).bind fun _ _ _ _ _ => trivial
  exact hupdate.bind fun _ _ _ => Query.pure_obeys trivial

theorem AcquireRequestHandler.handle_obeys {remoteIpAddress : IPAddress}
    {body : Option AcquireRequestBody}
    (hclient : client = .request (.acquire remoteIpAddress body)) :
    (AcquireRequestHandler.handle services remoteIpAddress body).Obeys thread
      (client.Permits thread) (fun _ _ => True) [] := by
  refine Query.Obeys.merge ?_
  refine (Query.ofOutcome_obeys _).bind fun duration trace₁ _ => ?_
  refine (Query.ofOutcome_obeys _).bind
    fun (verification, token) trace₂ _ => ?_
  refine (verifyClause_obeys verification token).bind
    fun tokenProperties trace₃ _ => ?_
  refine (Query.request_obeys trivial).bind fun guid trace₄ _ => ?_
  refine (Query.request_obeys trivial).bind fun acquisitionTime trace₅ h₅ => ?_
  refine (Query.ofOutcome_obeys _).bind fun expiry trace₆ h₆ => ?_
  subst h₅ h₆
  refine (Query.Obeys.lift (Program.Obeys.mono (storeEntitlement_obeys ?_)
    fun _ _ _ _ _ => trivial)).bind fun stored _ _ => Query.pure_obeys trivial
  rw [hclient]
  exact ⟨tokenProperties, acquisitionTime, _, rfl, rfl⟩

theorem RenewRequestHandler.handle_obeys {body : Option RenewRequestBody}
    {id : String} (hclient : client = .request (.renew body id)) :
    (RenewRequestHandler.handle services body id).Obeys thread
      (client.Permits thread) (fun _ _ => True) [] := by
  refine Query.Obeys.merge ?_
  refine (Query.ofOutcome_obeys _).bind fun duration trace₁ h₁ => ?_
  subst h₁
  refine (findEntitlementClause_obeys id).bind fun record trace₂ h₂ => ?_
  obtain ⟨found, rfl⟩ := h₂
  refine (Query.ofOutcome_obeys _).bind fun _ trace₃ h₃ => ?_
  refine (Query.request_obeys trivial).bind fun renewalTime trace₄ h₄ => ?_
  refine (Query.ofOutcome_obeys _).bind fun expiry trace₅ h₅ => ?_
  subst h₃ h₄ h₅
  refine update_obeys ?_
  rw [hclient]
  exact ⟨rfl, renewalTime, found, rfl, rfl⟩

theorem ReleaseRequestHandler.handle_obeys {id : String}
    (hclient : client = .request (.release id)) :
    (ReleaseRequestHandler.handle id).Obeys thread (client.Permits thread)
      (fun _ _ => True) [] := by
  refine Query.Obeys.merge ?_
  refine (findEntitlementClause_obeys id).bind fun record trace₁ h₁ => ?_
  obtain ⟨found, rfl⟩ := h₁
  refine (Query.request_obeys trivial).bind fun releaseTime trace₂ h₂ => ?_
  subst h₂
  refine update_obeys ?_
  rw [hclient]
  exact ⟨rfl, releaseTime, found, rfl, rfl⟩

theorem Client.handle_obeys (client : Client) :
    (client.handle services).Obeys thread (client.Permits thread)
      (client.Finishes thread) [] := by
  cases client with
  | call call => exact StoreCall.handle_obeys call
  | request request =>
      cases request with
      | acquire remoteIpAddress body =>
          exact Program.Obeys.exceptMap
            (AcquireRequestHandler.handle_obeys rfl)
      | renew body id =>
          exact Program.Obeys.exceptMap (RenewRequestHandler.handle_obeys rfl)
      | release id =>
          exact Program.Obeys.exceptMap (ReleaseRequestHandler.handle_obeys rfl)

end Handlers

end SoftwareEntitlement
