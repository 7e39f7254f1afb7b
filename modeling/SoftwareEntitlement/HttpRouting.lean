import SoftwareEntitlement.HandlerTotality

/-!
# Routes and API versions

The controller has seven actions on two resources.  A request is handled by
the action whose template, constraint and method accept it; the constraints
look at the `api-version` parameter of the query and at nothing else.
-/

namespace SoftwareEntitlement

/-! ## The query of a request -/

/-- The parameters of a query in their order.  Names are compared without
regard to case. -/
abbrev IQueryCollection := List (String × String)

namespace IQueryCollection

variable (runtime : Runtime) (query : IQueryCollection) (name : String)

def values : List String :=
  (query.filter fun parameter =>
    runtime.equalsOrdinalIgnoreCase parameter.1 name).map Prod.snd

def containsKey : Bool := !(query.values runtime name).isEmpty

/-- The values of a parameter, converted from `StringValues` to a string. -/
def item : Option String :=
  match query.values runtime name with
  | [] => none
  | values => some (",".intercalate values)

/-- What `[FromQuery]` binds to a string: the first value, unless it is
blank. -/
def fromQuery : Option String :=
  match query.values runtime name with
  | [] => none
  | first :: _ => if first.toList.all isWhiteSpace then none else some first

end IQueryCollection

/-! ## API versions -/

namespace ApiVersions

def parameterName : String := "api-version"

def may012017 : String := "2017-05-01.5.0"
def june012017 : String := "2017-06-01.5.1"
def sept012017 : String := "2017-09-01.6.0"
def march012018 : String := "2018-03-01.6.1"
def august012018 : String := "2018-08-01.7.0"
def apiVersionLatest : String := "9999-09-09.99.99"

def validApiVersions : List String :=
  [may012017, june012017, sept012017, march012018, august012018,
    apiVersionLatest]

def isValidApiVersion (apiVersion : Option String) : Bool :=
  match apiVersion with
  | none => false
  | some apiVersion => apiVersion != "" && validApiVersions.contains apiVersion

end ApiVersions

/-- `string.CompareOrdinal`, by the sign of its result. -/
def compareOrdinal (a b : String) : Ordering :=
  compareUnits (codeUnits a) (codeUnits b)
where
  compareUnits : List ℕ → List ℕ → Ordering
    | [], [] => .eq
    | [], _ :: _ => .lt
    | _ :: _, [] => .gt
    | a :: as, b :: bs => (compare a b).then (compareUnits as bs)

/-! ## Constraints -/

def MissingVersionConstraintAttribute.accept (runtime : Runtime)
    (queryParameters : IQueryCollection) : Bool :=
  if queryParameters.containsKey runtime ApiVersions.parameterName then
    false
  else
    true

def InvalidVersionConstraintAttribute.accept (runtime : Runtime)
    (queryParameters : IQueryCollection) : Bool :=
  if !queryParameters.containsKey runtime ApiVersions.parameterName then
    false
  else
    let specifiedVersion :=
      queryParameters.item runtime ApiVersions.parameterName
    if ApiVersions.isValidApiVersion specifiedVersion then
      false
    else
      true

structure VersionRangeConstraintAttribute where
  minVersion : Option String := none
  maxVersion : Option String := none

def VersionRangeConstraintAttribute.accept
    (range : VersionRangeConstraintAttribute) (runtime : Runtime)
    (queryParameters : IQueryCollection) : Bool :=
  if !queryParameters.containsKey runtime ApiVersions.parameterName then
    false
  else
    let specifiedVersion :=
      queryParameters.item runtime ApiVersions.parameterName
    if !ApiVersions.isValidApiVersion specifiedVersion then
      false
    else if !isNullOrEmpty range.minVersion &&
        compareOrdinal (specifiedVersion.getD "")
          (range.minVersion.getD "") == .lt then
      false
    else if !isNullOrEmpty range.maxVersion &&
        compareOrdinal (specifiedVersion.getD "")
          (range.maxVersion.getD "") == .gt then
      false
    else
      true

/-! ## Requests and actions -/

inductive HttpMethod where
  | get
  | post
  | put
  | delete
  | other (name : String)
  deriving DecidableEq

/-- The bodies which model binding makes of the content of a request, one for
each type an action may ask for; `none` is null. -/
structure RequestBodies where
  approve : Option ApproveRequestBody
  acquire : Option AcquireRequestBody
  renew : Option RenewRequestBody

structure HttpRequest where
  method : HttpMethod
  /-- The decoded segments of the path. -/
  path : List String
  query : IQueryCollection
  remoteIpAddress : IPAddress
  body : RequestBodies

/-- The templates `softwareEntitlements` and
`softwareEntitlements/{entitlementId}`, with the route values of a match. -/
inductive Resource where
  | collection
  | item (entitlementId : String)
  deriving DecidableEq

def HttpRequest.resource (runtime : Runtime) (request : HttpRequest) :
    Option Resource :=
  match request.path with
  | [controller] =>
      if runtime.equalsOrdinalIgnoreCase controller "softwareEntitlements" then
        some .collection
      else
        none
  | [controller, entitlementId] =>
      if runtime.equalsOrdinalIgnoreCase controller "softwareEntitlements" &&
          entitlementId != "" then
        some (.item entitlementId)
      else
        none
  | _ => none

def HttpRequest.specifiedVersion (runtime : Runtime) (request : HttpRequest) :
    Option String :=
  request.query.item runtime ApiVersions.parameterName

namespace SoftwareEntitlementsController

inductive Action where
  | missingApiVersion
  | invalidApiVersion
  | approveV1
  | approveV2
  | acquire
  | renew
  | release
  deriving DecidableEq

namespace Action

def all : List Action :=
  [missingApiVersion, invalidApiVersion, approveV1, approveV2, acquire, renew,
    release]

def onItem : Action → Bool
  | renew => true
  | release => true
  | _ => false

def httpMethod : Action → HttpMethod
  | release => .delete
  | _ => .post

def accept (runtime : Runtime) (queryParameters : IQueryCollection) :
    Action → Bool
  | missingApiVersion =>
      MissingVersionConstraintAttribute.accept runtime queryParameters
  | invalidApiVersion =>
      InvalidVersionConstraintAttribute.accept runtime queryParameters
  | approveV1 =>
      VersionRangeConstraintAttribute.accept
        { maxVersion := some ApiVersions.june012017 } runtime queryParameters
  | approveV2 =>
      VersionRangeConstraintAttribute.accept
        { minVersion := some ApiVersions.sept012017
          maxVersion := some ApiVersions.august012018 } runtime queryParameters
  | acquire =>
      VersionRangeConstraintAttribute.accept
        { minVersion := some ApiVersions.apiVersionLatest } runtime
        queryParameters
  | renew =>
      VersionRangeConstraintAttribute.accept
        { minVersion := some ApiVersions.apiVersionLatest } runtime
        queryParameters
  | release =>
      VersionRangeConstraintAttribute.accept
        { minVersion := some ApiVersions.apiVersionLatest } runtime
        queryParameters

/-- The template of the action matches, and its constraints accept. -/
def isCandidate (runtime : Runtime) (request : HttpRequest) (action : Action) :
    Bool :=
  (match request.resource runtime with
    | none => false
    | some .collection => !action.onItem
    | some (.item _) => action.onItem) &&
  action.accept runtime request.query && action.httpMethod == request.method

end Action

inductive Selection where
  | none
  | action (action : Action)
  /-- `AmbiguousActionException`. -/
  | ambiguous (candidates : List Action)
  deriving DecidableEq

/-- The action selector of the framework. -/
def selectAction (runtime : Runtime) (request : HttpRequest) : Selection :=
  match Action.all.filter (·.isCandidate runtime request) with
  | [] => .none
  | [action] => .action action
  | candidates => .ambiguous candidates

end SoftwareEntitlementsController

/-! ## Which action handles a request -/

open SoftwareEntitlementsController

/-- The table of routes: the resource, the method and the version decide. -/
inductive Routes (runtime : Runtime) (request : HttpRequest) : Action → Prop
  | missingApiVersion (hresource : request.resource runtime = some .collection)
      (hmethod : request.method = .post)
      (hversion : request.specifiedVersion runtime = none) :
      Routes runtime request .missingApiVersion
  | invalidApiVersion (version : String)
      (hresource : request.resource runtime = some .collection)
      (hmethod : request.method = .post)
      (hversion : request.specifiedVersion runtime = some version)
      (hinvalid : version ∉ ApiVersions.validApiVersions) :
      Routes runtime request .invalidApiVersion
  | approveV1 (version : String)
      (hresource : request.resource runtime = some .collection)
      (hmethod : request.method = .post)
      (hversion : request.specifiedVersion runtime = some version)
      (hvalid : version ∈ [ApiVersions.may012017, ApiVersions.june012017]) :
      Routes runtime request .approveV1
  | approveV2 (version : String)
      (hresource : request.resource runtime = some .collection)
      (hmethod : request.method = .post)
      (hversion : request.specifiedVersion runtime = some version)
      (hvalid : version ∈ [ApiVersions.sept012017, ApiVersions.march012018,
        ApiVersions.august012018]) :
      Routes runtime request .approveV2
  | acquire (hresource : request.resource runtime = some .collection)
      (hmethod : request.method = .post)
      (hversion : request.specifiedVersion runtime =
        some ApiVersions.apiVersionLatest) :
      Routes runtime request .acquire
  | renew (entitlementId : String)
      (hresource : request.resource runtime = some (.item entitlementId))
      (hmethod : request.method = .post)
      (hversion : request.specifiedVersion runtime =
        some ApiVersions.apiVersionLatest) :
      Routes runtime request .renew
  | release (entitlementId : String)
      (hresource : request.resource runtime = some (.item entitlementId))
      (hmethod : request.method = .delete)
      (hversion : request.specifiedVersion runtime =
        some ApiVersions.apiVersionLatest) :
      Routes runtime request .release

section Selection

variable {runtime : Runtime} {request : HttpRequest}

theorem IQueryCollection.containsKey_eq (query : IQueryCollection)
    (name : String) :
    query.containsKey runtime name = (query.item runtime name).isSome := by
  unfold IQueryCollection.containsKey IQueryCollection.item
  cases query.values runtime name <;> rfl

theorem ApiVersions.isValidApiVersion_iff (apiVersion : Option String) :
    ApiVersions.isValidApiVersion apiVersion = true ↔
      ∃ version ∈ ApiVersions.validApiVersions, apiVersion = some version := by
  have hne : "" ∉ ApiVersions.validApiVersions := by decide
  cases apiVersion with
  | none => simp [ApiVersions.isValidApiVersion]
  | some version =>
      simp only [ApiVersions.isValidApiVersion, Bool.and_eq_true, bne_iff_ne,
        List.contains_iff_mem, Option.some.injEq, exists_eq_right']
      constructor
      · exact And.right
      · intro hvalid
        exact ⟨fun heq => hne (heq ▸ hvalid), hvalid⟩

/-- The valid versions which a range admits. -/
def VersionRangeConstraintAttribute.versions
    (range : VersionRangeConstraintAttribute) : List String :=
  ApiVersions.validApiVersions.filter fun version =>
    (isNullOrEmpty range.minVersion ||
      compareOrdinal version (range.minVersion.getD "") != .lt) &&
    (isNullOrEmpty range.maxVersion ||
      compareOrdinal version (range.maxVersion.getD "") != .gt)

theorem VersionRangeConstraintAttribute.accept_iff
    (range : VersionRangeConstraintAttribute) (query : IQueryCollection) :
    range.accept runtime query = true ↔
      ∃ version ∈ range.versions,
        query.item runtime ApiVersions.parameterName = some version := by
  have hvalid := ApiVersions.isValidApiVersion_iff
    (query.item runtime ApiVersions.parameterName)
  unfold VersionRangeConstraintAttribute.accept
  rw [query.containsKey_eq]
  cases hitem : query.item runtime ApiVersions.parameterName with
  | none => simp
  | some version =>
      simp only [hitem, Option.some.injEq, exists_eq_right'] at hvalid
      simp only [Option.isSome_some, Bool.not_true, Bool.false_eq_true,
        if_false, Option.getD_some, Option.some.injEq, exists_eq_right',
        VersionRangeConstraintAttribute.versions, List.mem_filter, ← hvalid]
      grind

theorem VersionRangeConstraintAttribute.versions_approveV1 :
    VersionRangeConstraintAttribute.versions
        { maxVersion := some ApiVersions.june012017 } =
      [ApiVersions.may012017, ApiVersions.june012017] := by
  decide

theorem VersionRangeConstraintAttribute.versions_approveV2 :
    VersionRangeConstraintAttribute.versions
        { minVersion := some ApiVersions.sept012017
          maxVersion := some ApiVersions.august012018 } =
      [ApiVersions.sept012017, ApiVersions.march012018,
        ApiVersions.august012018] := by
  decide

theorem VersionRangeConstraintAttribute.versions_latest :
    VersionRangeConstraintAttribute.versions
        { minVersion := some ApiVersions.apiVersionLatest } =
      [ApiVersions.apiVersionLatest] := by
  decide

theorem InvalidVersionConstraintAttribute.accept_iff
    (query : IQueryCollection) :
    InvalidVersionConstraintAttribute.accept runtime query = true ↔
      ∃ version, query.item runtime ApiVersions.parameterName = some version ∧
        version ∉ ApiVersions.validApiVersions := by
  have hvalid := ApiVersions.isValidApiVersion_iff
    (query.item runtime ApiVersions.parameterName)
  unfold InvalidVersionConstraintAttribute.accept
  rw [query.containsKey_eq]
  cases hitem : query.item runtime ApiVersions.parameterName with
  | none => simp
  | some version =>
      simp only [hitem, Option.some.injEq, exists_eq_right'] at hvalid
      simp [← hvalid]

theorem MissingVersionConstraintAttribute.accept_iff
    (query : IQueryCollection) :
    MissingVersionConstraintAttribute.accept runtime query = true ↔
      query.item runtime ApiVersions.parameterName = none := by
  unfold MissingVersionConstraintAttribute.accept
  rw [query.containsKey_eq]
  cases query.item runtime ApiVersions.parameterName <;> simp

theorem SoftwareEntitlementsController.Action.isCandidate_of_collection
    {action : Action} (hcollection : action.onItem = false) :
    action.isCandidate runtime request = true ↔
      request.resource runtime = some .collection ∧
        action.accept runtime request.query = true ∧
          action.httpMethod = request.method := by
  unfold Action.isCandidate
  rcases request.resource runtime with - | (- | entitlementId) <;>
    simp [hcollection]

theorem SoftwareEntitlementsController.Action.isCandidate_of_item
    {action : Action} (hitem : action.onItem = true) :
    action.isCandidate runtime request = true ↔
      (∃ entitlementId,
          request.resource runtime = some (.item entitlementId)) ∧
        action.accept runtime request.query = true ∧
          action.httpMethod = request.method := by
  unfold Action.isCandidate
  rcases request.resource runtime with - | (- | entitlementId) <;>
    simp [hitem]

theorem SoftwareEntitlementsController.Action.isCandidate_iff
    (action : Action) :
    action.isCandidate runtime request = true ↔
      Routes runtime request action := by
  cases action with
  | missingApiVersion =>
      rw [Action.isCandidate_of_collection rfl, Action.accept,
        MissingVersionConstraintAttribute.accept_iff]
      constructor
      · rintro ⟨hresource, hversion, hmethod⟩
        exact .missingApiVersion hresource hmethod.symm hversion
      · intro hroutes
        cases hroutes with
        | missingApiVersion hresource hmethod hversion =>
            exact ⟨hresource, hversion, hmethod.symm⟩
  | invalidApiVersion =>
      rw [Action.isCandidate_of_collection rfl, Action.accept,
        InvalidVersionConstraintAttribute.accept_iff]
      constructor
      · rintro ⟨hresource, ⟨version, hversion, hinvalid⟩, hmethod⟩
        exact .invalidApiVersion version hresource hmethod.symm hversion hinvalid
      · intro hroutes
        cases hroutes with
        | invalidApiVersion version hresource hmethod hversion hinvalid =>
            exact ⟨hresource, ⟨version, hversion, hinvalid⟩, hmethod.symm⟩
  | approveV1 =>
      rw [Action.isCandidate_of_collection rfl, Action.accept,
        VersionRangeConstraintAttribute.accept_iff,
        VersionRangeConstraintAttribute.versions_approveV1]
      constructor
      · rintro ⟨hresource, ⟨version, hvalid, hversion⟩, hmethod⟩
        exact .approveV1 version hresource hmethod.symm hversion hvalid
      · intro hroutes
        cases hroutes with
        | approveV1 version hresource hmethod hversion hvalid =>
            exact ⟨hresource, ⟨version, hvalid, hversion⟩, hmethod.symm⟩
  | approveV2 =>
      rw [Action.isCandidate_of_collection rfl, Action.accept,
        VersionRangeConstraintAttribute.accept_iff,
        VersionRangeConstraintAttribute.versions_approveV2]
      constructor
      · rintro ⟨hresource, ⟨version, hvalid, hversion⟩, hmethod⟩
        exact .approveV2 version hresource hmethod.symm hversion hvalid
      · intro hroutes
        cases hroutes with
        | approveV2 version hresource hmethod hversion hvalid =>
            exact ⟨hresource, ⟨version, hvalid, hversion⟩, hmethod.symm⟩
  | acquire =>
      rw [Action.isCandidate_of_collection rfl, Action.accept,
        VersionRangeConstraintAttribute.accept_iff,
        VersionRangeConstraintAttribute.versions_latest]
      constructor
      · rintro ⟨hresource, ⟨version, hvalid, hversion⟩, hmethod⟩
        obtain rfl := List.mem_singleton.mp hvalid
        exact .acquire hresource hmethod.symm hversion
      · intro hroutes
        cases hroutes with
        | acquire hresource hmethod hversion =>
            exact ⟨hresource, ⟨_, List.mem_singleton_self _, hversion⟩, hmethod.symm⟩
  | renew =>
      rw [Action.isCandidate_of_item rfl, Action.accept,
        VersionRangeConstraintAttribute.accept_iff,
        VersionRangeConstraintAttribute.versions_latest]
      constructor
      · rintro ⟨⟨id, hresource⟩, ⟨version, hvalid, hversion⟩, hmethod⟩
        obtain rfl := List.mem_singleton.mp hvalid
        exact .renew id hresource hmethod.symm hversion
      · intro hroutes
        cases hroutes with
        | renew id hresource hmethod hversion =>
            exact ⟨⟨id, hresource⟩, ⟨_, List.mem_singleton_self _, hversion⟩,
              hmethod.symm⟩
  | release =>
      rw [Action.isCandidate_of_item rfl, Action.accept,
        VersionRangeConstraintAttribute.accept_iff,
        VersionRangeConstraintAttribute.versions_latest]
      constructor
      · rintro ⟨⟨id, hresource⟩, ⟨version, hvalid, hversion⟩, hmethod⟩
        obtain rfl := List.mem_singleton.mp hvalid
        exact .release id hresource hmethod.symm hversion
      · intro hroutes
        cases hroutes with
        | release id hresource hmethod hversion =>
            exact ⟨⟨id, hresource⟩, ⟨_, List.mem_singleton_self _, hversion⟩,
              hmethod.symm⟩

theorem Routes.unique {first second : Action}
    (hfirst : Routes runtime request first)
    (hsecond : Routes runtime request second) : first = second := by
  have hdisjoint : ∀ version ∈ [ApiVersions.may012017, ApiVersions.june012017],
      version ∉ [ApiVersions.sept012017, ApiVersions.march012018,
        ApiVersions.august012018] ∧ version ≠ ApiVersions.apiVersionLatest := by
    decide
  have hlatest : ApiVersions.apiVersionLatest ∉ [ApiVersions.sept012017,
      ApiVersions.march012018, ApiVersions.august012018] := by
    decide
  have hvalid : ∀ version, version ∈ [ApiVersions.may012017,
        ApiVersions.june012017] ∨ version ∈ [ApiVersions.sept012017,
          ApiVersions.march012018, ApiVersions.august012018] ∨
        version = ApiVersions.apiVersionLatest →
      version ∈ ApiVersions.validApiVersions := by
    simp only [ApiVersions.validApiVersions, List.mem_cons,
      List.not_mem_nil, or_false]
    tauto
  cases hfirst <;> cases hsecond <;> grind

theorem Routes.exists_of_collection
    (hresource : request.resource runtime = some .collection)
    (hmethod : request.method = .post) :
    ∃ action, Routes runtime request action := by
  cases hversion : request.specifiedVersion runtime with
  | none => exact ⟨_, .missingApiVersion hresource hmethod hversion⟩
  | some version =>
      by_cases hvalid : version ∈ ApiVersions.validApiVersions
      · simp only [ApiVersions.validApiVersions, List.mem_cons,
          List.not_mem_nil, or_false] at hvalid
        rcases hvalid with rfl | rfl | rfl | rfl | rfl | rfl
        · exact ⟨_, .approveV1 _ hresource hmethod hversion (by simp)⟩
        · exact ⟨_, .approveV1 _ hresource hmethod hversion (by simp)⟩
        · exact ⟨_, .approveV2 _ hresource hmethod hversion (by simp)⟩
        · exact ⟨_, .approveV2 _ hresource hmethod hversion (by simp)⟩
        · exact ⟨_, .approveV2 _ hresource hmethod hversion (by simp)⟩
        · exact ⟨_, .acquire hresource hmethod hversion⟩
      · exact ⟨_, .invalidApiVersion _ hresource hmethod hversion hvalid⟩

theorem candidates_eq (runtime : Runtime) (request : HttpRequest) :
    (∃ action, Routes runtime request action ∧
      Action.all.filter (·.isCandidate runtime request) = [action]) ∨
    ((∀ action, ¬Routes runtime request action) ∧
      Action.all.filter (·.isCandidate runtime request) = []) := by
  have hroutes : ∀ action ∈
      Action.all.filter (·.isCandidate runtime request),
      Routes runtime request action := fun action hmem =>
    action.isCandidate_iff.mp (List.mem_filter.mp hmem).2
  have hnodup : (Action.all.filter (·.isCandidate runtime request)).Nodup :=
    List.Nodup.filter _ (by decide)
  rcases hfilter : Action.all.filter (·.isCandidate runtime request) with
    - | ⟨action, - | ⟨other, rest⟩⟩
  · refine .inr ⟨fun action haction => ?_, hfilter⟩
    have hall : action ∈ Action.all := by cases action <;> decide
    have hmem := List.mem_filter.mpr
      ⟨hall, action.isCandidate_iff.mpr haction⟩
    rw [hfilter] at hmem
    cases hmem
  · rw [hfilter] at hroutes
    exact .inl ⟨action, hroutes action List.mem_cons_self, hfilter⟩
  · rw [hfilter] at hroutes hnodup
    have heq : action = other := (hroutes action (by simp)).unique
      (hroutes other (by simp))
    simp [heq] at hnodup

theorem Routes.of_selectAction {action : Action}
    (hselect : selectAction runtime request = .action action) :
    Routes runtime request action := by
  unfold selectAction at hselect
  rcases candidates_eq runtime request with ⟨other, hroutes, hfilter⟩ |
    ⟨hnone, hfilter⟩
  · rw [hfilter] at hselect
    exact Selection.action.inj hselect ▸ hroutes
  · rw [hfilter] at hselect
    cases hselect

theorem selectAction_of_routes {action : Action}
    (hroutes : Routes runtime request action) :
    selectAction runtime request = .action action := by
  unfold selectAction
  rcases candidates_eq runtime request with ⟨other, hother, hfilter⟩ |
    ⟨hnone, -⟩
  · rw [hfilter, hroutes.unique hother]
  · exact absurd hroutes (hnone action)

theorem selectAction_ne_ambiguous (candidates : List Action) :
    selectAction runtime request ≠ .ambiguous candidates := by
  unfold selectAction
  rcases candidates_eq runtime request with ⟨other, hroutes, hfilter⟩ |
    ⟨hnone, hfilter⟩ <;> simp [hfilter]

end Selection

/-- The constraints select the action of the table and no other: selection is
never ambiguous, and every POST to the collection has an action. -/
theorem selectAction_routes (runtime : Runtime) (request : HttpRequest) :
    (∀ action, selectAction runtime request = .action action ↔
      Routes runtime request action) ∧
    (selectAction runtime request = .none ↔
      ∀ action, ¬Routes runtime request action) ∧
    (∀ candidates, selectAction runtime request ≠ .ambiguous candidates) ∧
    (request.resource runtime = some .collection → request.method = .post →
      ∃ action, selectAction runtime request = .action action) := by
  refine ⟨fun action => ⟨Routes.of_selectAction, fun hroutes => ?_⟩, ?_,
    selectAction_ne_ambiguous, fun hresource hmethod => ?_⟩
  · exact selectAction_of_routes hroutes
  · constructor
    · intro hnone action hroutes
      rw [selectAction_of_routes hroutes] at hnone
      cases hnone
    · intro hnone
      cases hselect : selectAction runtime request with
      | none => rfl
      | action action =>
          exact absurd (Routes.of_selectAction hselect) (hnone action)
      | ambiguous candidates =>
          exact absurd hselect (selectAction_ne_ambiguous candidates)
  · obtain ⟨action, hroutes⟩ := Routes.exists_of_collection hresource hmethod
    exact ⟨action, selectAction_of_routes hroutes⟩

end SoftwareEntitlement
