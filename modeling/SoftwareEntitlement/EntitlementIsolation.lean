import SoftwareEntitlement.EntitlementOwnership
import SoftwareEntitlement.AcknowledgedUpdates

/-!
# Isolation of entitlements

Requests of all kinds run over one store, in any order of their accesses.  No
two of them are granted the same entitlement, an entry is made by the request
which drew its identifier, and from then on only requests for the latest API
version which name the entitlement in their path can change it.
-/

namespace SoftwareEntitlement

open Interleaving SoftwareEntitlementsController

variable {ι : Type}

/-! ## The discipline of a pool -/

/-- The access reads or writes the store, or prepares to. -/
def Access.touchesStore : Access → Bool
  | .allocate _ => true
  | .tryGetValue _ => true
  | .addOrUpdate _ _ _ => true
  | .tryUpdate _ _ _ => true
  | _ => false

section Pool

variable {services : Services}
  {serverOptions : SoftwareEntitlementsController.ServerOptions}
  {requests : ι → HttpRequest} {request : HttpRequest} {thread : ι}

def HttpRequest.Permits (runtime : Runtime) (request : HttpRequest)
    (thread : ι) (trace : List (Event ι)) (access : Access) : Prop :=
  match request.handlerRequest runtime with
  | none => False
  | some handlerRequest => handlerRequest.Permits thread trace access

/-- What has happened when a request has ended: one action at most was there
for it, an entitlement is granted under the identifier drawn for it, and the
server is asked to stop if it is to exit after a request and a handler has
run. -/
structure HttpRequest.Concludes (runtime : Runtime)
    (serverOptions : SoftwareEntitlementsController.ServerOptions)
    (request : HttpRequest) (thread : ι) (outcome : HttpOutcome)
    (trace : List (Event ι)) : Prop where
  unambiguous : ∀ candidates, outcome.result ≠ .ambiguousAction candidates
  granted : ∀ id, outcome.result.granted = some id →
    ∃ handlerRequest guid,
      request.handlerRequest runtime = some handlerRequest ∧
        ⟨thread, .newGuid, guid⟩ ∈ trace ∧
        handlerRequest.grantsAs guid = some id
  stops : outcome.stopApplication = true ↔
    serverOptions.exitAfterRequest = true ∧
      (request.handlerRequest runtime).isSome

theorem HttpResult.granted_ofOutcome (response : Response) :
    (HttpResult.ofOutcome (.ok response)).granted = response.granted := by
  obtain ⟨statusCode, value⟩ := response
  cases value <;> rfl

theorem HttpResult.ofOutcome_ne_ambiguous (outcome : Throws Response)
    (candidates : List Action) :
    HttpResult.ofOutcome outcome ≠ .ambiguousAction candidates := by
  cases outcome <;> nofun

theorem HttpRequest.process_obeys (request : HttpRequest) :
    (request.process services serverOptions).Obeys (Event.mk thread)
      (request.Permits services.runtime thread)
      (request.Concludes services.runtime serverOptions thread) [] := by
  cases hhandled : request.handlerRequest services.runtime with
  | none =>
      obtain ⟨result, hprocess, hresult⟩ :=
        request.process_of_not_handled serverOptions hhandled
      rw [hprocess]
      refine ⟨?_, fun id hgranted => ?_, by simp [hhandled]⟩
      · rcases hresult with rfl | ⟨errorMessage, rfl⟩ <;> simp
      · rcases hresult with rfl | ⟨errorMessage, rfl⟩ <;> cases hgranted
  | some handlerRequest =>
      have hpermits : request.Permits services.runtime thread =
          handlerRequest.Permits thread := by
        funext trace access
        simp only [HttpRequest.Permits, hhandled]
      rw [HttpRequest.process_of_handled hhandled, hpermits]
      refine Program.Obeys.bind handlerRequest.handle_obeys
        fun outcome trace houtcome =>
          ⟨HttpResult.ofOutcome_ne_ambiguous outcome, fun id hgranted => ?_,
            by simp [hhandled]⟩
      cases outcome with
      | error exception => cases hgranted
      | ok response =>
          obtain ⟨guid, hguid, hid⟩ := houtcome response id rfl
            (HttpResult.granted_ofOutcome response ▸ hgranted)
          exact ⟨handlerRequest, guid, hhandled, hguid, hid⟩

theorem HttpRequest.Permits.handled {runtime : Runtime}
    {trace : List (Event ι)} {access : Access}
    (hpermits : request.Permits runtime thread trace access) :
    ∃ handlerRequest, request.handlerRequest runtime = some handlerRequest ∧
      handlerRequest.Permits thread trace access := by
  unfold HttpRequest.Permits at hpermits
  cases hhandled : request.handlerRequest runtime with
  | none => simp [hhandled] at hpermits
  | some handlerRequest =>
      exact ⟨handlerRequest, rfl, by simpa [hhandled] using hpermits⟩

section Reachable

variable [DecidableEq ι] {pool next later : HttpPool ι}
  (hreachable : HttpPool.Reachable services serverOptions requests pool)

include hreachable

theorem HttpPool.Reachable.obedient :
    serverLog.Obedient
      (fun i => (requests i).Permits services.runtime i)
      (fun i => (requests i).Concludes services.runtime serverOptions i)
      pool := by
  refine Log.Obedient.reaches (fun i => ?_) hreachable
  exact (requests i).process_obeys

/-- Every access in the history was permitted when it was made. -/
theorem HttpPool.Reachable.permitted {access : Access} {reply : Reply access}
    (hmem : (⟨thread, access, reply⟩ : Event ι) ∈ pool.shared.past) :
    ∃ trace, trace ⊆ ownEvents thread pool.shared.past ∧
      (requests thread).Permits services.runtime thread trace access := by
  obtain ⟨front, back, hsplit⟩ := List.append_of_mem (mem_ownEvents.mpr hmem)
  obtain ⟨before, after, hbefore, hback, hmove, hafter, -⟩ :=
    serverLog.exists_move_of_own (fun h => h) hreachable rfl hsplit
  obtain ⟨environment, hstep⟩ := hmove
  obtain ⟨access', rest, reply', shared, hthread, hperform, rfl⟩ :=
    Pool.step_eq_some hstep
  have hevent := (perform_past hperform).symm.trans hafter
  obtain ⟨heq, -⟩ := List.cons.inj hevent
  cases heq
  have hpermits :=
    (HttpPool.Reachable.obedient hbefore).permits_of_access hthread
  refine ⟨back, ?_, hback ▸ hpermits⟩
  rw [hsplit]
  exact fun _ h => List.mem_append_right _ (List.mem_cons_of_mem _ h)

theorem HttpPool.Reachable.guids_nodup :
    ((issuedGuids pool.shared.past).map Prod.snd).Nodup := by
  induction hreachable with
  | refl => exact List.nodup_nil
  | tail _ hlast ih =>
      obtain ⟨thread, environment, hstep⟩ := hlast
      obtain ⟨access, rest, reply, shared, -, hperform, rfl⟩ :=
        Pool.step_eq_some hstep
      have hpast := perform_past hperform
      simp only [hpast]
      cases access with
      | newGuid =>
          simp only [perform, Option.ite_none_left_eq_some,
            Option.some.injEq, Prod.mk.injEq] at hperform
          obtain ⟨hissued, rfl, -⟩ := hperform
          exact List.nodup_cons.mpr ⟨hissued, ih⟩
      | _ => exact ih

theorem HttpPool.Reachable.drawn_once {first second : ι} {guid : Guid}
    (hfirst : (⟨first, .newGuid, guid⟩ : Event ι) ∈ pool.shared.past)
    (hsecond : (⟨second, .newGuid, guid⟩ : Event ι) ∈ pool.shared.past) :
    first = second := by
  have hsame := List.inj_on_of_nodup_map (guids_nodup hreachable)
    (mem_issuedGuids.mpr hfirst) (mem_issuedGuids.mpr hsecond) rfl
  exact congrArg Prod.fst hsame

theorem HttpPool.Reachable.exists_store {id : String}
    (hentry : (pool.shared.entries id).isSome) :
    ∃ thread added factory reply,
      (⟨thread, .addOrUpdate id added factory, reply⟩ : Event ι) ∈
        pool.shared.past := by
  induction hreachable with
  | refl => cases hentry
  | @tail before _ _ hlast ih =>
      obtain ⟨thread, environment, hstep⟩ := hlast
      obtain ⟨access, rest, reply, shared, -, hperform, rfl⟩ :=
        Pool.step_eq_some hstep
      have hpast := perform_past hperform
      have hearlier : (before.shared.entries id).isSome →
          ∃ thread added factory reply,
            (⟨thread, .addOrUpdate id added factory, reply⟩ : Event ι) ∈
              shared.past := by
        intro hentry'
        obtain ⟨j, added, factory, reply', hmem⟩ := ih hentry'
        exact ⟨j, added, factory, reply', hpast ▸ List.mem_cons_of_mem _ hmem⟩
      cases access with
      | addOrUpdate key added factory =>
          by_cases heq : id = key
          · subst heq
            exact ⟨thread, added, factory, reply, by simp [hpast]⟩
          · simp only [perform, Option.some.injEq, Prod.mk.injEq] at hperform
            obtain ⟨-, rfl⟩ := hperform
            exact hearlier (by simpa [heq] using hentry)
      | tryUpdate key newValue comparisonValue =>
          cases reply with
          | false =>
              rw [perform_tryUpdate_failed hperform] at hentry
              exact hearlier hentry
          | true =>
              obtain ⟨⟨current, hcurrent, -⟩, hentries⟩ :=
                perform_tryUpdate_swapped hperform
              by_cases heq : id = key
              · subst heq
                exact hearlier (by simp [hcurrent])
              · exact hearlier (by simpa [hentries, heq] using hentry)
      | _ =>
          rw [perform_entries_of_quiet rfl hperform] at hentry
          exact hearlier hentry

/-- A request which is about to store does so under an identifier which is not
in use. -/
theorem HttpPool.Reachable.absent_of_store {key : String} {added : Reference}
    {factory : String → Reference → Reference}
    {rest : Reply (.addOrUpdate key added factory) →
      Program Access Reply HttpOutcome}
    (hthread : pool.threads thread =
      .access (.addOrUpdate key added factory) rest) :
    pool.shared.entries key = none := by
  by_contra hentry
  obtain ⟨handlerRequest, hhandled, -, ⟨guid, hguid, hkey⟩, honce⟩ :=
    ((obedient hreachable).permits_of_access hthread).handled
  obtain ⟨other, added', factory', reply', hstored⟩ :=
    exists_store hreachable (Option.isSome_iff_ne_none.mpr hentry)
  obtain ⟨trace, hsubset, hpermitted⟩ := permitted hreachable hstored
  obtain ⟨otherRequest, -, -, ⟨guid', hguid', hkey'⟩, -⟩ :=
    hpermitted.handled
  have hsame : guid = guid' := by
    cases guid
    cases guid'
    simpa [Guid.toStringN] using hkey.symm.trans hkey'
  subst hsame
  have hmem := mem_ownEvents.mp hguid
  have hmem' := mem_ownEvents.mp (hsubset hguid')
  obtain rfl := drawn_once hreachable hmem hmem'
  exact honce _ _ _ _ (mem_ownEvents.mpr hstored)

/-- What one step does to an entry: nothing, or it is made by an Acquire, or
the step is one of a request for it. -/
theorem HttpPool.Reachable.entries_step {environment : Environment}
    (hstep : pool.step perform thread environment = some next) (id : String) :
    next.shared.entries id = pool.shared.entries id ∨
    ∃ handlerRequest,
      (requests thread).handlerRequest services.runtime =
          some handlerRequest ∧
        (handlerRequest.target = some id ∧
            (pool.shared.entries id).isSome ∧ (next.shared.entries id).isSome ∨
          handlerRequest.IsAcquire ∧ pool.shared.entries id = none) := by
  obtain ⟨access, rest, reply, shared, hthread, hperform, rfl⟩ :=
    Pool.step_eq_some hstep
  obtain ⟨handlerRequest, hhandled, hpermits⟩ :=
    ((obedient hreachable).permits_of_access hthread).handled
  cases access with
  | addOrUpdate key added factory =>
      have habsent := absent_of_store hreachable hthread
      by_cases heq : id = key
      · subst heq
        exact .inr ⟨handlerRequest, hhandled, .inr ⟨hpermits.1, habsent⟩⟩
      · simp only [perform, Option.some.injEq, Prod.mk.injEq] at hperform
        obtain ⟨-, rfl⟩ := hperform
        exact .inl (by simp [heq])
  | tryUpdate key newValue comparisonValue =>
      cases reply with
      | false => exact .inl (by rw [perform_tryUpdate_failed hperform])
      | true =>
          obtain ⟨⟨current, hcurrent, -⟩, hentries⟩ :=
            perform_tryUpdate_swapped hperform
          by_cases heq : id = key
          · subst heq
            exact .inr ⟨handlerRequest, hhandled,
              .inl ⟨hpermits, by simp [hcurrent], by simp [hentries]⟩⟩
          · exact .inl (by simp [hentries, heq])
  | _ => exact .inl (by rw [perform_entries_of_quiet rfl hperform])

theorem HttpPool.Reachable.latest_of_access {access : Access}
    {reply : Reply access} (haccess : access.touchesStore = true)
    (hmem : (⟨thread, access, reply⟩ : Event ι) ∈ pool.shared.past) :
    (requests thread).specifiedVersion services.runtime =
      some ApiVersions.apiVersionLatest := by
  obtain ⟨trace, -, hpermitted⟩ := permitted hreachable hmem
  obtain ⟨handlerRequest, hhandled, hpermits⟩ := hpermitted.handled
  have hlatest : handlerRequest.IsAcquire ∨ handlerRequest.target.isSome := by
    cases access with
    | allocate record => exact hpermits
    | tryGetValue key => exact .inr (Option.isSome_iff_exists.mpr ⟨key, hpermits⟩)
    | addOrUpdate key added factory => exact .inl hpermits.1
    | tryUpdate key newValue comparisonValue =>
        exact .inr (Option.isSome_iff_exists.mpr ⟨key, hpermits⟩)
    | _ => cases haccess
  rcases hlatest with hacquire | htarget
  · have hroutes := HttpRequest.routes_of_isAcquire hhandled hacquire
    cases hroutes
    assumption
  · obtain ⟨id, htarget⟩ := Option.isSome_iff_exists.mp htarget
    exact (HttpRequest.isAbout_of_target hhandled htarget).specifiedVersion

omit hreachable in
theorem HttpPool.ownEvents_suffix (hreaches : Pool.Reaches perform pool later)
    (thread : ι) :
    ownEvents thread pool.shared.past <:+ ownEvents thread later.shared.past := by
  induction hreaches with
  | refl => exact List.suffix_rfl
  | tail _ hlast ih =>
      obtain ⟨i, environment, hstep⟩ := hlast
      obtain ⟨access, rest, reply, shared, -, hperform, rfl⟩ :=
        Pool.step_eq_some hstep
      exact ih.trans ((perform_grows hperform).past.filter _)

end Reachable

/-! ## Isolation -/

/-- How the store at a later moment of a run differs from the store now. -/
structure HttpPool.Isolates (runtime : Runtime) (requests : ι → HttpRequest)
    [DecidableEq ι] (pool later : HttpPool ι) : Prop where
  /-- Whoever has accessed the store has asked for the latest version. -/
  latest : ∀ thread access (reply : Reply access),
    access.touchesStore = true →
      ⟨thread, access, reply⟩ ∈ later.shared.past →
        (requests thread).specifiedVersion runtime =
          some ApiVersions.apiVersionLatest
  /-- An entry stays what it is unless a request about it acts. -/
  kept : ∀ id, (pool.shared.entries id).isSome →
    (∀ thread, (requests thread).IsAbout runtime id →
      ownEvents thread later.shared.past = ownEvents thread pool.shared.past) →
    later.shared.entries id = pool.shared.entries id
  stays : ∀ id, (pool.shared.entries id).isSome →
    (later.shared.entries id).isSome
  /-- A new entry was made by the Acquire which drew its identifier. -/
  created : ∀ id, (later.shared.entries id).isSome →
    ∃ thread guid, Routes runtime (requests thread) .acquire ∧
      ⟨thread, .newGuid, guid⟩ ∈ later.shared.past ∧ id = guid.toStringN

section Isolation

variable [DecidableEq ι] {pool later : HttpPool ι}

theorem HttpPool.kept_of_reaches
    (hreachable : HttpPool.Reachable services serverOptions requests pool)
    (hreaches : Pool.Reaches perform pool later) {id : String}
    (hentry : (pool.shared.entries id).isSome)
    (hidle : ∀ thread, (requests thread).IsAbout services.runtime id →
      ownEvents thread later.shared.past =
        ownEvents thread pool.shared.past) :
    later.shared.entries id = pool.shared.entries id := by
  induction hreaches with
  | refl => rfl
  | @tail middle last hmiddle hlast ih =>
      obtain ⟨mover, environment, hstep⟩ := hlast
      have hlonger : Pool.Reaches perform middle last :=
        Relation.ReflTransGen.single ⟨mover, environment, hstep⟩
      have hidle' : ∀ thread, (requests thread).IsAbout services.runtime id →
          ownEvents thread middle.shared.past =
            ownEvents thread pool.shared.past := by
        intro thread habout
        have hshort := (HttpPool.ownEvents_suffix hlonger thread).length_le
        rw [hidle thread habout] at hshort
        exact ((HttpPool.ownEvents_suffix hmiddle thread).eq_of_length_le
          hshort).symm
      have hearlier := ih hidle'
      rcases HttpPool.Reachable.entries_step (hreachable.trans hmiddle) hstep
        id with hsame | ⟨handlerRequest, hhandled, ⟨htarget, -⟩ | ⟨-, hnone⟩⟩
      · rw [hsame, hearlier]
      · -- a request about the entitlement has an event which it had not
        exfalso
        have habout := HttpRequest.isAbout_of_target hhandled htarget
        have hgrown : ownEvents mover last.shared.past ≠
            ownEvents mover middle.shared.past := by
          obtain ⟨access, rest, reply, shared, -, hperform, rfl⟩ :=
            Pool.step_eq_some hstep
          simp only [perform_past hperform, ownEvents_cons_self]
          exact List.cons_ne_self _ _
        exact hgrown ((hidle mover habout).trans (hidle' mover habout).symm)
      · rw [hearlier] at hnone
        simp [hnone] at hentry

theorem HttpPool.isSome_of_reaches (hreaches : Pool.Reaches perform pool later)
    {id : String} (hentry : (pool.shared.entries id).isSome) :
    (later.shared.entries id).isSome := by
  induction hreaches with
  | refl => exact hentry
  | tail _ hlast ih =>
      obtain ⟨i, environment, hstep⟩ := hlast
      obtain ⟨access, rest, reply, shared, -, hperform, rfl⟩ :=
        Pool.step_eq_some hstep
      exact (perform_grows hperform).entries id ih

/-- Between any two moments of a run an entitlement is made by the Acquire
which drew its identifier, never removed, and changed by requests about it
only. -/
theorem HttpPool.isolates_of_reachable
    (services : Services)
    (serverOptions : SoftwareEntitlementsController.ServerOptions)
    (requests : ι → HttpRequest) {pool later : HttpPool ι}
    (hreachable : HttpPool.Reachable services serverOptions requests pool)
    (hreaches : Pool.Reaches perform pool later) :
    HttpPool.Isolates services.runtime requests pool later := by
  have hlater : HttpPool.Reachable services serverOptions requests later :=
    hreachable.trans hreaches
  refine ⟨fun thread access reply htouches hmem =>
      HttpPool.Reachable.latest_of_access hlater htouches hmem,
    fun id hentry hidle =>
      HttpPool.kept_of_reaches hreachable hreaches hentry hidle,
    fun id hentry => HttpPool.isSome_of_reaches hreaches hentry,
    fun id hentry => ?_⟩
  obtain ⟨thread, added, factory, reply, hmem⟩ :=
    HttpPool.Reachable.exists_store hlater hentry
  obtain ⟨trace, hsubset, hpermitted⟩ :=
    HttpPool.Reachable.permitted hlater hmem
  obtain ⟨handlerRequest, hhandled, hacquire, ⟨guid, hguid, rfl⟩, -⟩ :=
    hpermitted.handled
  exact ⟨thread, guid, HttpRequest.routes_of_isAcquire hhandled hacquire,
    mem_ownEvents.mp (hsubset hguid), rfl⟩

end Isolation

/-! ## Identities -/

/-- The identifiers of the platform have 32 digits. -/
def Guid.WellFormed (guid : Guid) : Prop :=
  guid.digits.toList.length = 32

/-- The digits are what the five groups of `ToString` spell. -/
theorem Guid.groups_append {digits : List Char} (hlength : digits.length = 32) :
    (digits.drop 0).take 8 ++ (digits.drop 8).take 4 ++
        (digits.drop 12).take 4 ++ (digits.drop 16).take 4 ++
      (digits.drop 20).take 12 = digits := by
  calc
    _ = digits.take 32 := by
        simp only [List.drop_zero, ← List.take_add, Nat.reduceAdd]
    _ = digits := List.take_of_length_le hlength.le

theorem Guid.eq_of_digits {first second : Guid}
    (hdigits : first.digits.toList = second.digits.toList) : first = second := by
  cases first
  cases second
  simpa [String.toList_inj] using hdigits

theorem Guid.toString_injective {first second : Guid}
    (hfirst : first.WellFormed) (hsecond : second.WellFormed)
    (heq : first.toString = second.toString) : first = second := by
  unfold Guid.WellFormed at hfirst hsecond
  have hlists := congrArg String.toList heq
  simp only [Guid.toString, String.toList_ofList] at hlists
  obtain ⟨hlists, h₅⟩ := List.append_inj' hlists (by simp [hfirst, hsecond])
  obtain ⟨hlists, h₄⟩ := List.append_inj' hlists (by simp [hfirst, hsecond])
  obtain ⟨hlists, h₃⟩ := List.append_inj' hlists (by simp [hfirst, hsecond])
  obtain ⟨h₁, h₂⟩ := List.append_inj' hlists (by simp [hfirst, hsecond])
  refine Guid.eq_of_digits ?_
  rw [← Guid.groups_append hfirst, ← Guid.groups_append hsecond, h₁,
    (List.cons.inj h₂).2, (List.cons.inj h₃).2, (List.cons.inj h₄).2,
    (List.cons.inj h₅).2]

/-- The identifiers of approvals and of acquired entitlements differ in
length. -/
theorem HandlerRequest.grantsAs_length {request : HandlerRequest} {guid : Guid}
    {id : String} (hguid : guid.WellFormed)
    (hgrants : request.grantsAs guid = some id) :
    (request.IsAcquire ∧ id = guid.toStringN ∧ id.toList.length = 32) ∨
      (id = "entitlement-" ++ guid.toString ∧ id.toList.length = 48) := by
  unfold Guid.WellFormed at hguid
  cases request with
  | acquire remoteIpAddress body =>
      obtain rfl := Option.some.inj hgrants
      exact .inl ⟨⟨_, _, rfl⟩, rfl, hguid⟩
  | renew body entitlementId => cases hgrants
  | release entitlementId => cases hgrants
  | _ =>
      obtain rfl := Option.some.inj hgrants
      exact .inr ⟨rfl, by simp [Guid.toString, hguid]⟩

theorem HandlerRequest.grantsAs_injective {first second : HandlerRequest}
    {guid guid' : Guid} {id : String} (hguid : guid.WellFormed)
    (hguid' : guid'.WellFormed) (hfirst : first.grantsAs guid = some id)
    (hsecond : second.grantsAs guid' = some id) : guid = guid' := by
  rcases HandlerRequest.grantsAs_length hguid hfirst with
    ⟨-, hid, hlength⟩ | ⟨hid, hlength⟩ <;>
  rcases HandlerRequest.grantsAs_length hguid' hsecond with
    ⟨-, hid', hlength'⟩ | ⟨hid', hlength'⟩
  · exact Guid.eq_of_digits (congrArg String.toList (hid.symm.trans hid'))
  · omega
  · omega
  · have hsame := congrArg String.toList (hid.symm.trans hid')
    simp only [String.toList_append] at hsame
    exact Guid.toString_injective hguid hguid'
      (String.toList_inj.mp (List.append_cancel_left hsame))

/-- What is known of a request which has ended. -/
structure HttpPool.Answers [DecidableEq ι] (runtime : Runtime)
    (serverOptions : SoftwareEntitlementsController.ServerOptions)
    (requests : ι → HttpRequest) (pool : HttpPool ι) (thread : ι)
    (outcome : HttpOutcome) : Prop where
  /-- The framework never finds two actions for a request. -/
  unambiguous : ∀ candidates, outcome.result ≠ .ambiguousAction candidates
  /-- The server is asked to stop by every request which has reached a
  handler, whether or not the handler has thrown, and by no other. -/
  stops : outcome.stopApplication = true ↔
    serverOptions.exitAfterRequest = true ∧
      ((requests thread).handlerRequest runtime).isSome
  /-- No other request is granted the same entitlement. -/
  unique : ∀ id, outcome.result.granted = some id →
    ∀ other outcome', pool.threads other = .done outcome' →
      outcome'.result.granted = some id → other = thread

section Answers

variable [DecidableEq ι] {pool : HttpPool ι}

theorem HttpPool.answers_of_reachable
    (services : Services)
    (serverOptions : SoftwareEntitlementsController.ServerOptions)
    (requests : ι → HttpRequest) {pool : HttpPool ι}
    (hreachable : HttpPool.Reachable services serverOptions requests pool)
    (hguids : ∀ thread guid, (⟨thread, .newGuid, guid⟩ : Event ι) ∈
      pool.shared.past → guid.WellFormed)
    {thread : ι} {outcome : HttpOutcome}
    (hdone : pool.threads thread = .done outcome) :
    HttpPool.Answers services.runtime serverOptions requests pool thread
      outcome := by
  have hconcludes : ∀ i outcome, pool.threads i = .done outcome →
      (requests i).Concludes services.runtime serverOptions i outcome
        (ownEvents i pool.shared.past) := fun i outcome hdone =>
    (HttpPool.Reachable.obedient hreachable).post_of_done hdone
  refine ⟨(hconcludes thread outcome hdone).unambiguous,
    (hconcludes thread outcome hdone).stops, ?_⟩
  intro id hgranted other outcome' hdone' hgranted'
  obtain ⟨request, guid, -, hguid, hid⟩ :=
    (hconcludes thread outcome hdone).granted id hgranted
  obtain ⟨request', guid', -, hguid', hid'⟩ :=
    (hconcludes other outcome' hdone').granted id hgranted'
  have hmem := mem_ownEvents.mp hguid
  have hmem' := mem_ownEvents.mp hguid'
  have hsame := HandlerRequest.grantsAs_injective
    (hguids other guid' hmem') (hguids thread guid hmem) hid' hid
  subst hsame
  exact HttpPool.Reachable.drawn_once hreachable hmem' hmem

end Answers

end Pool

/-! ## A concrete server -/

section Concrete

def drawnGuid : Guid := ⟨"0123456789abcdef0123456789abcdef"⟩

/-- Requests of the latest version: an Acquire, and a Renew and a Release of
the entitlement which it is granted. -/
def threeHttpRequests (requester : Requester) : HttpRequest where
  method :=
    match requester with
    | .releaser => .delete
    | _ => .post
  path :=
    match requester with
    | .acquirer => ["softwareentitlements"]
    | _ => ["softwareEntitlements", drawnGuid.toStringN]
  query := [("api-version", ApiVersions.apiVersionLatest)]
  remoteIpAddress := .v4 5
  body := {
    approve := none
    acquire := some {
      token := some "token"
      applicationId := some "app"
      duration := some "PT1H" }
    renew := some ⟨some "PT1H"⟩ }

def exitingOptions : SoftwareEntitlementsController.ServerOptions :=
  ⟨none, none, none, none, true⟩

def httpPool (schedule : List (Requester × Environment)) : HttpPool Requester :=
  (Pool.run perform schedule
    (HttpPool.start trustingServices exitingOptions threeHttpRequests)).getD
      (HttpPool.start trustingServices exitingOptions threeHttpRequests)

def drawnAt (ticks : ℕ) : Environment := { at' ticks with guid := drawnGuid }

def acquireHttpSchedule : List (Requester × Environment) :=
  [(.acquirer, drawnAt 1), (.acquirer, drawnAt 1), (.acquirer, drawnAt 2),
    (.acquirer, drawnAt 2), (.acquirer, drawnAt 2)]

/-- The Acquire has returned, and the Renew has read the entry. -/
theorem isolates_httpPool :
    (httpPool acquireHttpSchedule).shared.record drawnGuid.toStringN ≠ none ∧
      HttpPool.Isolates .reference threeHttpRequests
        (httpPool acquireHttpSchedule)
        (httpPool (acquireHttpSchedule ++ [(.renewer, drawnAt 3)])) :=
  ⟨nofun, HttpPool.isolates_of_reachable trustingServices exitingOptions
    threeHttpRequests (Pool.Reaches.run_getD _ _)
      (Pool.Reaches.of_run
        (rfl : Pool.run perform [(.renewer, drawnAt 3)] _ = some _))⟩

/-- The Acquire has returned and has asked the server to stop. -/
theorem answers_httpPool :
    ∃ outcome,
      (httpPool acquireHttpSchedule).threads .acquirer = .done outcome ∧
        outcome.result.granted = some drawnGuid.toStringN ∧
        HttpPool.Answers .reference exitingOptions threeHttpRequests
          (httpPool acquireHttpSchedule) .acquirer outcome := by
  have hissued : issuedGuids (httpPool acquireHttpSchedule).shared.past =
      [(.acquirer, drawnGuid)] := rfl
  have hguids : ∀ thread guid,
      (⟨thread, .newGuid, guid⟩ : Event Requester) ∈
        (httpPool acquireHttpSchedule).shared.past → guid.WellFormed := by
    intro thread guid hmem
    have hdrawn := mem_issuedGuids.mpr hmem
    rw [hissued, List.mem_singleton, Prod.mk.injEq] at hdrawn
    obtain ⟨-, rfl⟩ := hdrawn
    rfl
  exact ⟨_, rfl, rfl, HttpPool.answers_of_reachable trustingServices
    exitingOptions threeHttpRequests (Pool.Reaches.run_getD _ _) hguids rfl⟩

end Concrete

end SoftwareEntitlement
