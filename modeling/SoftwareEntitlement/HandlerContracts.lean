import SoftwareEntitlement.StoreRefinement

/-!
# What the store methods and the handlers guarantee

Every method of the store has one specification, which says what its caller
knows about its own events afterwards.  The specification of a handler is
composed from those of its clauses, and does not look into the store again.
-/

namespace SoftwareEntitlement

open Interleaving

variable {ι : Type} [DecidableEq ι]

/-! ## Assertions about one thread -/

section Specifications

variable {α β : Type} (clients : ι → Client) (thread : ι)

def Handling.Ensures (program : Handling α)
    (post : Throws α → ServerState ι → Prop) (s : ServerState ι) : Prop :=
  program.run.Meets (perform thread) (Consistent clients) (contract thread)
    post s

/-- The program does not throw, and its result satisfies `post`. -/
def Handling.Returns (program : Handling α) (post : α → ServerState ι → Prop)
    (s : ServerState ι) : Prop :=
  Handling.Ensures clients thread program
    (fun outcome t => ∃ value, outcome = .ok value ∧ post value t) s

/-- The same for a query; `final` is what has to hold when it ends the handler
with an exception or a response. -/
def Query.Ensures (query : Query α)
    (final : Throws Response → ServerState ι → Prop)
    (mid : α → ServerState ι → Prop) (s : ServerState ι) : Prop :=
  Handling.Ensures clients thread query.run
    (fun outcome t =>
      match outcome with
      | .error exception => final (.error exception) t
      | .ok (.error response) => final (.ok response) t
      | .ok (.ok value) => mid value t) s

/-- What a thread knows whatever the others do. -/
abbrev Holds (assertion : ServerState ι → Prop) (s : ServerState ι) : Prop :=
  Stably (Consistent clients) (contract thread) assertion s

variable {clients thread} {s : ServerState ι}

theorem Handling.Returns.bind {program : Handling α} {f : α → Handling β}
    {mid : α → ServerState ι → Prop} {post : Throws β → ServerState ι → Prop}
    (hinv : Consistent clients s)
    (hprogram : program.Returns clients thread mid s)
    (hnext : ∀ value t, Consistent clients t →
      Holds clients thread (mid value) t →
        (f value).Ensures clients thread post t) :
    (program >>= f).Ensures clients thread post s := by
  refine Program.Meets.exceptBind hinv (Program.Meets.mono hprogram ?_) hnext
  rintro outcome t ⟨value, rfl, hvalue⟩
  exact hvalue

theorem Handling.pure_returns {value : α} {post : α → ServerState ι → Prop}
    (hpost : Holds clients thread (post value) s) :
    (Pure.pure value : Handling α).Returns clients thread post s :=
  hpost.mono fun _ h => ⟨value, rfl, h⟩

theorem Query.Ensures.bind {query : Query α} {f : α → Query β}
    {final : Throws Response → ServerState ι → Prop}
    {mid : α → ServerState ι → Prop} {post : β → ServerState ι → Prop}
    (hinv : Consistent clients s)
    (hquery : query.Ensures clients thread final mid s)
    (hnext : ∀ value t, Consistent clients t →
      Holds clients thread (mid value) t →
        (f value).Ensures clients thread final post t) :
    (query >>= f).Ensures clients thread final post s := by
  refine Program.Meets.bind hinv hquery fun outcome t hinv' houtcome => ?_
  rcases outcome with exception | (response | value)
  · exact houtcome
  · exact houtcome
  · exact hnext value t hinv' houtcome

theorem Query.Ensures.mono {query : Query α}
    {final : Throws Response → ServerState ι → Prop}
    {mid mid' : α → ServerState ι → Prop}
    (hquery : query.Ensures clients thread final mid s)
    (hmid : ∀ value t, mid value t → mid' value t) :
    query.Ensures clients thread final mid' s := by
  refine Program.Meets.mono hquery ?_
  rintro (exception | (response | value)) t houtcome
  · exact houtcome
  · exact houtcome
  · exact hmid value t houtcome

theorem Query.Ensures.lift {program : Handling α}
    {final : Throws Response → ServerState ι → Prop}
    {mid : α → ServerState ι → Prop} (hinv : Consistent clients s)
    (hprogram : program.Returns clients thread mid s) :
    (liftM program : Query α).Ensures clients thread final mid s := by
  refine Program.Meets.exceptMap hinv (Program.Meets.mono hprogram ?_)
  rintro outcome t ⟨value, rfl, hvalue⟩
  exact hvalue

theorem Query.pure_ensures {value : α}
    {final : Throws Response → ServerState ι → Prop}
    {mid : α → ServerState ι → Prop}
    (hmid : Holds clients thread (mid value) s) :
    (Pure.pure value : Query α).Ensures clients thread final mid s :=
  hmid

theorem Query.ofOutcome_ensures {outcome : Throws (Result α Response)}
    {final : Throws Response → ServerState ι → Prop}
    {mid : α → ServerState ι → Prop}
    (hexception : ∀ exception, outcome = .error exception →
      Holds clients thread (final (.error exception)) s)
    (hresponse : ∀ response, outcome = .ok (.error response) →
      Holds clients thread (final (.ok response)) s)
    (hvalue : ∀ value, outcome = .ok (.ok value) →
      Holds clients thread (mid value) s) :
    (Query.ofOutcome outcome).Ensures clients thread final mid s := by
  rcases outcome with exception | (response | value)
  · exact hexception exception rfl
  · exact hresponse response rfl
  · exact hvalue value rfl

theorem Query.Ensures.merge {query : Query Response}
    {final : Throws Response → ServerState ι → Prop}
    (hinv : Consistent clients s)
    (hquery : query.Ensures clients thread final
      (fun response => final (.ok response)) s) :
    query.merge.Ensures clients thread final s := by
  refine Program.Meets.exceptMap hinv (Program.Meets.mono hquery ?_)
  rintro (exception | (response | response)) t houtcome
  · exact houtcome
  · exact houtcome
  · exact houtcome

/-! ## Accesses -/

def Access.isQuiet : Access → Bool
  | .addOrUpdate _ _ _ => false
  | .tryUpdate _ _ _ => false
  | _ => true

omit [DecidableEq ι] in
theorem perform_entries_of_quiet {access : Access} {environment : Environment}
    {t u : ServerState ι} {reply : Reply access}
    (hquiet : access.isQuiet = true)
    (hperform : perform thread access environment t = some (reply, u)) :
    u.entries = t.entries := by
  cases access with
  | newGuid =>
      simp only [perform, Option.ite_none_left_eq_some, Option.some.injEq,
        Prod.mk.injEq] at hperform
      obtain ⟨-, rfl, rfl⟩ := hperform
      rfl
  | addOrUpdate => cases hquiet
  | tryUpdate => cases hquiet
  | _ =>
      simp only [perform, Option.some.injEq, Prod.mk.injEq] at hperform
      obtain ⟨rfl, rfl⟩ := hperform
      rfl

theorem Client.update_of_quiet (client : Client) (clock : Option DateTimeOffset)
    {access : Access} (hquiet : access.isQuiet = true) (reply : Reply access) :
    client.update clock access reply = none := by
  cases access with
  | addOrUpdate => cases hquiet
  | tryUpdate => cases hquiet
  | _ => rfl

variable {trace : List (Event ι)}

/-- A quiet access is added to the events of its thread; `extra` is what its
reply tells about the state, now and later. -/
theorem request_returns {access : Access}
    {extra : Reply access → ServerState ι → Prop}
    (hquiet : access.isQuiet = true) (hown : ownEvents thread s.past = trace)
    (hextra : ∀ t environment reply u, s.Grows t → Consistent clients t →
      perform thread access environment t = some (reply, u) →
        ∀ v, u.Grows v → extra reply v) :
    (request access).Returns clients thread
      (fun reply t =>
        ownEvents thread t.past = ⟨thread, access, reply⟩ :: trace ∧
          extra reply t) s := by
  intro t hrely hinv environment reply u hperform
  have hentries := perform_entries_of_quiet hquiet hperform
  refine ⟨perform_guarantee hperform, hinv.quiet hperform hentries
    (Client.update_of_quiet _ _ hquiet reply), fun v hrely' _ => ?_⟩
  refine ⟨reply, rfl, ?_,
    hextra t environment reply u hrely.2 hinv hperform v hrely'.2⟩
  rw [hrely'.1, perform_past hperform, ownEvents_cons_self, hrely.1, hown]

theorem quiet_returns {access : Access} (hquiet : access.isQuiet = true)
    (hown : ownEvents thread s.past = trace) :
    (request access).Returns clients thread
      (fun reply t =>
        ownEvents thread t.past = ⟨thread, access, reply⟩ :: trace) s := by
  have hreturns : (request access).Returns clients thread
      (fun reply t =>
        ownEvents thread t.past = ⟨thread, access, reply⟩ :: trace ∧ True) s :=
    request_returns hquiet hown fun _ _ _ _ _ _ _ _ _ => trivial
  refine Program.Meets.mono hreturns ?_
  rintro outcome t ⟨reply, rfl, hown', -⟩
  exact ⟨reply, rfl, hown'⟩

theorem tryGetValue_returns {id : String}
    (hown : ownEvents thread s.past = trace) :
    (request (.tryGetValue id)).Returns clients thread
      (fun found t =>
        ownEvents thread t.past = ⟨thread, .tryGetValue id, found⟩ :: trace ∧
          (∀ reference, found = some reference → reference.Live t) ∧
          ((s.entries id).isSome → found.isSome)) s := by
  refine request_returns rfl hown
    fun t environment found u hgrows hinv hperform v hgrows' => ?_
  have hgrows'' := (perform_grows hperform).trans hgrows'
  simp only [perform, Option.some.injEq, Prod.mk.injEq] at hperform
  obtain ⟨rfl, rfl⟩ := hperform
  exact ⟨fun reference hfound => (hinv.live id reference hfound).mono hgrows'',
    hgrows.entries id⟩

theorem allocate_returns {record : EntitlementProperties}
    (hown : ownEvents thread s.past = trace) :
    (request (.allocate record)).Returns clients thread
      (fun reference t =>
        ownEvents thread t.past =
            ⟨thread, .allocate record, reference⟩ :: trace ∧
          reference.value = record ∧ reference.Live t ∧ s.Grows t) s := by
  refine request_returns rfl hown
    fun t environment reference u hbefore _ hperform v hafter => ?_
  have hgrows := (hbefore.trans (perform_grows hperform)).trans hafter
  simp only [perform, Option.some.injEq, Prod.mk.injEq] at hperform
  obtain ⟨rfl, rfl⟩ := hperform
  refine ⟨rfl, Reference.Live.mono ?_ hafter, hgrows⟩
  simp [Reference.Live]

omit [DecidableEq ι] in
theorem perform_tryUpdate_failed {id : String}
    {newValue comparisonValue : Reference} {environment : Environment}
    {t u : ServerState ι}
    (hperform : perform thread (.tryUpdate id newValue comparisonValue)
      environment t = some (false, u)) : u.entries = t.entries := by
  simp only [perform, Option.some.injEq, Prod.mk.injEq] at hperform
  obtain ⟨hfailed, rfl⟩ := hperform
  simp [hfailed]

omit [DecidableEq ι] in
theorem perform_tryUpdate_swapped {id : String}
    {newValue comparisonValue : Reference} {environment : Environment}
    {t u : ServerState ι}
    (hperform : perform thread (.tryUpdate id newValue comparisonValue)
      environment t = some (true, u)) :
    (∃ current, t.entries id = some current ∧
        current.address = comparisonValue.address) ∧
      u.entries = Function.update t.entries id (some newValue) := by
  simp only [perform, Option.some.injEq, Prod.mk.injEq] at hperform
  obtain ⟨hswapped, rfl⟩ := hperform
  cases hentry : t.entries id with
  | none => simp [hentry] at hswapped
  | some current => exact ⟨⟨current, rfl, by simpa [hentry] using hswapped⟩,
      by simp [hentry] at hswapped; simp [hswapped]⟩

section EntryUpdates

variable {t u : ServerState ι} {id : String} {stored : Reference}
  (hentries : u.entries = Function.update t.entries id (some stored))

include hentries

omit [DecidableEq ι] in
theorem record_of_entries :
    u.record = Function.update t.record id (some stored.value) := by
  funext id'
  by_cases heq : id' = id <;> simp [ServerState.record, hentries, heq]

theorem Consistent.live_of_entries (hinv : Consistent clients t)
    (hgrows : t.Grows u) (hstored : stored.Live u) (id' : String)
    (reference : Reference) (hentry : u.entries id' = some reference) :
    reference.Live u := by
  rw [hentries] at hentry
  by_cases heq : id' = id
  · subst heq
    rw [Function.update_self, Option.some.injEq] at hentry
    exact hentry ▸ hstored
  · rw [Function.update_of_ne heq] at hentry
    exact (hinv.live id' reference hentry).mono hgrows

end EntryUpdates

/-- The compare-and-swap of `TryUpdate`.  If it succeeds then the abstract
store performs the update. -/
theorem compareAndSwap_returns {id : String} {newValue comparisonValue : Reference}
    {update : Update} (hown : ownEvents thread s.past = trace)
    (hnone : commits clients trace = [])
    (hnew : newValue.Live s) (hcomparison : comparisonValue.Live s)
    (hupdate : (clients thread).update (clockReading thread trace)
      (.tryUpdate id newValue comparisonValue) true = some update)
    (happly : ∀ contents : Contents, contents id = some comparisonValue.value →
      update.apply contents =
        some (Function.update contents id (some newValue.value)))
    (hlate : (clients thread).IsRenew → update.id = id ∧
      some comparisonValue ∈ (lookups thread trace).dropLast) :
    (request (.tryUpdate id newValue comparisonValue)).Returns clients thread
      (fun updated t =>
        commits clients (ownEvents thread t.past) =
          if updated then [⟨thread, update⟩] else []) s := by
  intro t hrely hinv environment updated u hperform
  have hown' : ownEvents thread t.past = trace := hrely.1.trans hown
  have hclock : clockReading thread t.past = clockReading thread trace := by
    rw [← clockReading_ownEvents, hown']
  have hcommits : ∀ v, (contract thread).rely u v →
      commits clients (ownEvents thread v.past) =
        if updated then [⟨thread, update⟩] else [] := by
    intro v hrely'
    rw [hrely'.1, perform_past hperform, ownEvents_cons_self, hown']
    cases updated with
    | false => simp [commits, Client.update, hnone]
    | true => simp [commits, hupdate, hnone]
  refine ⟨perform_guarantee hperform, ?_,
    fun v hrely' _ => ⟨updated, rfl, hcommits v hrely'⟩⟩
  cases updated with
  | false => exact hinv.quiet hperform (perform_tryUpdate_failed hperform) rfl
  | true =>
      have hgrows := perform_grows hperform
      obtain ⟨⟨current, hentry, haddress⟩, hentries⟩ :=
        perform_tryUpdate_swapped hperform
      have hvalue : current.value = comparisonValue.value :=
        (hinv.live id current hentry).value_eq (hcomparison.mono hrely.2)
          haddress
      have hrecord : t.record id = some comparisonValue.value := by
        simp [ServerState.record, hentry, hvalue]
      refine hinv.commit hperform (hclock ▸ hupdate) (hown' ▸ hnone) ?_ ?_ ?_ ?_
      · exact hinv.live_of_entries hentries hgrows
          (hnew.mono (hrely.2.trans hgrows))
      · rw [happly t.record hrecord, record_of_entries hentries]
      · rintro ⟨remoteIpAddress, body, hclient⟩
        simp [hclient, Client.update] at hupdate
      · -- A release in the past shows in the record which was compared.
        intro commit hcommit id' releaseTime renewalTime hreleased hrenewed hrenew
        obtain ⟨hid, hlookup⟩ := hlate hrenew
        obtain rfl : update = .renewed id' renewalTime := hrenewed
        obtain rfl : id' = id := hid
        rw [replay_eq_ledgerRecord hinv.contents] at hrecord
        obtain ⟨stored, -, hledger⟩ := Option.map_eq_some_iff.mp hrecord
        refine ⟨comparisonValue, ?_, ?_⟩
        · rw [← lookups_ownEvents, hown']
          exact hlookup
        · rw [← hledger]
          refine (lastRelease_isSome_iff _ _).mpr ⟨releaseTime, ?_⟩
          exact List.mem_map.mpr ⟨commit, hcommit, hreleased⟩

/-- The `AddOrUpdate` of `StoreEntitlement`, which keeps the record that is
there already. -/
theorem addOrKeep_returns {id : String} {added : Reference}
    {tokenProperties : EntitlementTokenProperties} {time : DateTimeOffset}
    (hown : ownEvents thread s.past = trace)
    (hnone : commits clients trace = []) (hadded : added.Live s)
    (hvalue : added.value = .createNew id tokenProperties time)
    (hupdate : ∀ reply, (clients thread).update (clockReading thread trace)
      (.addOrUpdate id added fun _ props => props) reply =
        some (.stored id tokenProperties time))
    (hfresh : (clients thread).IsAcquire →
      ∃ guid, (⟨thread, .newGuid, guid⟩ : Event ι) ∈ trace ∧
        id = guid.toStringN) :
    (request (.addOrUpdate id added fun _ props => props)).Returns clients
      thread
      (fun _ t =>
        commits clients (ownEvents thread t.past) =
          [⟨thread, .stored id tokenProperties time⟩]) s := by
  intro t hrely hinv environment stored u hperform
  have hown' : ownEvents thread t.past = trace := hrely.1.trans hown
  have hclock : clockReading thread t.past = clockReading thread trace := by
    rw [← clockReading_ownEvents, hown']
  have hgrows := perform_grows hperform
  have hentries : u.entries = Function.update t.entries id
      (some ((t.entries id).getD added)) := by
    simp only [perform, Option.some.injEq, Prod.mk.injEq] at hperform
    obtain ⟨-, rfl⟩ := hperform
    cases t.entries id <;> rfl
  refine ⟨perform_guarantee hperform, ?_, fun v hrely' _ => ⟨stored, rfl, ?_⟩⟩
  · refine hinv.commit hperform (hclock ▸ hupdate stored) (hown' ▸ hnone)
      ?_ ?_ ?_ ?_
    · refine hinv.live_of_entries hentries hgrows ?_
      cases hentry : t.entries id with
      | none => exact hadded.mono (hrely.2.trans hgrows)
      | some existing => exact (hinv.live id existing hentry).mono hgrows
    · rw [Update.apply, record_of_entries hentries]
      cases hentry : t.entries id <;>
        simp [ServerState.record, hentry, hvalue]
    · intro hacquire
      obtain ⟨guid, hguid, hid⟩ := hfresh hacquire
      rw [← hown'] at hguid
      exact ⟨guid, List.mem_of_mem_filter hguid, hid⟩
    · intro commit _ id' releaseTime renewalTime _ hrenewed
      cases hrenewed
  · dsimp only
    rw [hrely'.1, perform_past hperform, ownEvents_cons_self, hown']
    simp [commits, hupdate stored, hnone]

/-! ## The methods of the store -/

theorem storeEntitlement_returns {id : String}
    {tokenProperties : EntitlementTokenProperties} {time : DateTimeOffset}
    (hinv : Consistent clients s) (hown : ownEvents thread s.past = trace)
    (hnone : commits clients trace = [])
    (hupdate : ∀ added reply,
      added.value = .createNew id tokenProperties time →
        (clients thread).update (clockReading thread trace)
          (.addOrUpdate id added fun _ props => props) reply =
            some (.stored id tokenProperties time))
    (hfresh : (clients thread).IsAcquire →
      ∃ guid, (⟨thread, .newGuid, guid⟩ : Event ι) ∈ trace ∧
        id = guid.toStringN) :
    (EntitlementStore.storeEntitlement id tokenProperties time).Returns clients
      thread
      (fun _ t => commits clients (ownEvents thread t.past) =
        [⟨thread, .stored id tokenProperties time⟩]) s := by
  refine (allocate_returns hown).bind hinv fun added t hinv' hadded => ?_
  obtain ⟨hown', hvalue, hlive, -⟩ := hadded.now hinv'
  refine (addOrKeep_returns hown' ?_ hlive hvalue
    (fun reply => hupdate added reply hvalue) ?_).bind hinv'
      fun stored u _ hstored => Handling.pure_returns hstored
  · simp [commits, Client.update, hnone]
  · intro hacquire
    obtain ⟨guid, hguid, hid⟩ := hfresh hacquire
    exact ⟨guid, List.mem_cons_of_mem _ hguid, hid⟩

theorem findEntitlement_returns {id : String}
    (hinv : Consistent clients s) (hown : ownEvents thread s.past = trace) :
    (EntitlementStore.findEntitlement id).Returns clients thread
      (fun result t =>
        (∃ found, ownEvents thread t.past =
          ⟨thread, .tryGetValue id, found⟩ :: trace) ∧
        ((s.entries id).isSome → ∃ record, result = .ok record)) s := by
  refine (tryGetValue_returns hown).bind hinv fun found t _ hfound => ?_
  cases found with
  | none =>
      refine Handling.pure_returns (hfound.mono fun u h => ⟨⟨none, h.1⟩, fun hpresent => ?_⟩)
      exact absurd (h.2.2 hpresent) (by simp)
  | some reference =>
      exact Handling.pure_returns
        (hfound.mono fun u h => ⟨⟨_, h.1⟩, fun _ => ⟨_, rfl⟩⟩)

/-- `TryUpdate` commits the update of its client exactly when it succeeds. -/
theorem tryUpdate_returns {id errorMessage : String} {update : Update}
    {updater : EntitlementProperties → EntitlementProperties}
    (hinv : Consistent clients s) (hown : ownEvents thread s.past = trace)
    (hnone : commits clients trace = [])
    (hupdate : ∀ newValue comparisonValue,
      (clients thread).update (clockReading thread trace)
        (.tryUpdate id newValue comparisonValue) true = some update)
    (happly : ∀ (contents : Contents) record, contents id = some record →
      update.apply contents =
        some (Function.update contents id (some (updater record))))
    (hlate : (clients thread).IsRenew →
      update.id = id ∧ lookups thread trace ≠ []) :
    (EntitlementStore.tryUpdate id updater errorMessage).Returns clients thread
      (fun result t => commits clients (ownEvents thread t.past) =
        match result with
        | .ok _ => [⟨thread, update⟩]
        | .error _ => []) s := by
  refine (tryGetValue_returns hown).bind hinv fun found t hinv' hfound => ?_
  cases found with
  | none =>
      refine Handling.pure_returns (hfound.mono fun u h => ?_)
      simp [h.1, commits, Client.update, hnone]
  | some current =>
      have hcurrent := (hfound.now hinv').2.1 current rfl
      refine (allocate_returns (hfound.now hinv').1).bind hinv'
        fun updated u hinv'' hupdated => ?_
      obtain ⟨hown', hvalue, hlive, hgrows⟩ := hupdated.now hinv''
      refine (compareAndSwap_returns hown' ?_ hlive (hcurrent.mono hgrows)
        (hupdate updated current) ?_ ?_).bind hinv''
          fun swapped v _ hswapped => ?_
      · simp [commits, Client.update, hnone]
      · intro contents hcontents
        rw [hvalue]
        exact happly contents _ hcontents
      · intro hrenew
        obtain ⟨hid, hlookups⟩ := hlate hrenew
        refine ⟨hid, ?_⟩
        simp [lookups, List.dropLast_cons_of_ne_nil hlookups]
      · cases swapped with
        | false => exact Handling.pure_returns hswapped
        | true => exact Handling.pure_returns hswapped

theorem renewEntitlement_returns {id : String} {time : DateTimeOffset}
    (hinv : Consistent clients s) (hown : ownEvents thread s.past = trace)
    (hnone : commits clients trace = [])
    (hupdate : ∀ newValue comparisonValue,
      (clients thread).update (clockReading thread trace)
        (.tryUpdate id newValue comparisonValue) true = some (.renewed id time))
    (hlookups : (clients thread).IsRenew → lookups thread trace ≠ []) :
    (EntitlementStore.renewEntitlement id time).Returns clients thread
      (fun result t => commits clients (ownEvents thread t.past) =
        match result with
        | .ok _ => [⟨thread, .renewed id time⟩]
        | .error _ => []) s := by
  refine tryUpdate_returns hinv hown hnone hupdate
    (fun contents record hrecord => ?_) fun hrenew => ⟨rfl, hlookups hrenew⟩
  simp [Update.apply, Contents.revise, hrecord]

theorem releaseEntitlement_returns {id : String} {time : DateTimeOffset}
    (hinv : Consistent clients s) (hown : ownEvents thread s.past = trace)
    (hnone : commits clients trace = [])
    (hupdate : ∀ newValue comparisonValue,
      (clients thread).update (clockReading thread trace)
        (.tryUpdate id newValue comparisonValue) true =
          some (.released id time))
    (hclient : ¬(clients thread).IsRenew) :
    (EntitlementStore.releaseEntitlement id time).Returns clients thread
      (fun result t => commits clients (ownEvents thread t.past) =
        match result with
        | .ok _ => [⟨thread, .released id time⟩]
        | .error _ => []) s := by
  refine tryUpdate_returns hinv hown hnone hupdate
    (fun contents record hrecord => ?_) fun hrenew => absurd hrenew hclient
  simp [Update.apply, Contents.revise, hrecord]

end Specifications

/-! ## The clauses of the handlers -/

/-- What is known when a handler has ended.  `success` is its status code for
an update that took effect, and `known` says that the entitlement was in the
store before it began. -/
structure Concludes (clients : ι → Client) (thread : ι) (success : ℕ)
    (known : Prop) (outcome : Throws Response) (s : ServerState ι) : Prop where
  acknowledged : commits clients (ownEvents thread s.past) ≠ [] ↔
    ∃ response, outcome = .ok response ∧ response.statusCode = success
  found : known → ∀ response, outcome = .ok response →
    response.statusCode ≠ 404
  acquired : ∀ id expiry,
    outcome = .ok (.createSuccess (.acquireSuccess id expiry)) →
      ∃ tokenProperties time, (⟨thread, .stored id tokenProperties time⟩ :
        Commit ι) ∈ commits clients (ownEvents thread s.past)

/-- A response which refuses a request, other than "not found". -/
structure Response.Refuses (response : Response) : Prop where
  status : response.statusCode ∈ [400, 403, 409, 500]
  value : ∃ code message, response.value = some (.failure code message)

theorem createBadRequestResponse_refuses (errors : ErrorSet) :
    (createBadRequestResponse errors).Refuses :=
  ⟨by simp [createBadRequestResponse], _, _, rfl⟩

theorem createDeniedResponse_refuses (errors : ErrorSet) (id : String) :
    (createDeniedResponse errors id).Refuses :=
  ⟨by simp [createDeniedResponse], _, _, rfl⟩

theorem createAlreadyReleasedResponse_refuses (id : String) :
    (createAlreadyReleasedResponse id).Refuses :=
  ⟨by simp [createAlreadyReleasedResponse], _, _, rfl⟩

theorem createInternalErrorResponse_refuses (errors : ErrorSet) :
    (createInternalErrorResponse errors).Refuses :=
  ⟨by simp [createInternalErrorResponse], _, _, rfl⟩

section Clauses

variable {clients : ι → Client} {thread : ι} {success : ℕ} {known : Prop}
  {s : ServerState ι} {trace : List (Event ι)} {services : Services}

theorem Concludes.of_exception {exception : ClrException}
    (hnone : commits clients (ownEvents thread s.past) = []) :
    Concludes clients thread success known (.error exception) s :=
  ⟨by simp [hnone], by simp, by simp⟩

theorem Concludes.of_refuses {response : Response}
    (hnone : commits clients (ownEvents thread s.past) = [])
    (hsuccess : success = 200 ∨ success = 204)
    (hrefuses : response.Refuses) :
    Concludes clients thread success known (.ok response) s := by
  obtain ⟨hstatus, code, message, hvalue⟩ := hrefuses
  simp only [List.mem_cons, List.not_mem_nil, or_false] at hstatus
  refine ⟨?_, ?_, ?_⟩
  · simp only [hnone, ne_eq, not_true_eq_false, Except.ok.injEq,
      exists_eq_left', false_iff]
    omega
  · rintro - response' heq
    obtain rfl := Except.ok.inj heq
    omega
  · rintro id expiry heq
    rw [Except.ok.inj heq] at hvalue
    cases hvalue

theorem holds_own (clients : ι → Client)
    (hown : ownEvents thread s.past = trace) :
    Holds clients thread
      (fun t => ownEvents thread t.past = trace ∧ s.Grows t) s :=
  fun _ hrely _ => ⟨hrely.1.trans hown, hrely.2⟩

section BeforeCommit

variable (hsuccess : success = 200 ∨ success = 204)
  (hnone : commits clients trace = [])

include hsuccess hnone

theorem ofOutcome_ensures {α : Type} {outcome : Throws (Result α Response)}
    (hown : ownEvents thread s.past = trace)
    (hrefuses : ∀ response, outcome = .ok (.error response) →
      response.Refuses) :
    (Query.ofOutcome outcome).Ensures clients thread
      (Concludes clients thread success known)
      (fun _ t => ownEvents thread t.past = trace ∧ s.Grows t) s := by
  have hholds := holds_own clients hown
  refine Query.ofOutcome_ensures (fun exception _ => ?_)
    (fun response houtcome => ?_) fun value _ => hholds
  · exact hholds.mono fun t h => .of_exception (h.1 ▸ hnone)
  · exact hholds.mono fun t h =>
      .of_refuses (h.1 ▸ hnone) hsuccess (hrefuses response houtcome)

theorem parseDurationClause_ensures {duration : Option (Option String)}
    (hown : ownEvents thread s.past = trace) :
    (parseDurationClause services duration).Ensures clients thread
      (Concludes clients thread success known)
      (fun _ t => ownEvents thread t.past = trace ∧ s.Grows t) s := by
  refine ofOutcome_ensures hsuccess hnone hown fun response houtcome => ?_
  cases duration with
  | none => cases houtcome
  | some duration =>
      rcases hparsed : parseDuration services.runtime duration with
        exception | (errors | timeSpan) <;>
        simp only [hparsed] at houtcome <;> cases houtcome
      exact createBadRequestResponse_refuses errors

theorem extractVerificationRequestClause_ensures
    {body : Option IVerificationRequestBody} {remoteIpAddress : IPAddress}
    (hown : ownEvents thread s.past = trace) :
    (extractVerificationRequestClause body remoteIpAddress).Ensures clients
      thread (Concludes clients thread success known)
      (fun _ t => ownEvents thread t.past = trace ∧ s.Grows t) s := by
  refine ofOutcome_ensures hsuccess hnone hown fun response houtcome => ?_
  rcases hextracted : extractVerificationRequest body remoteIpAddress with
    errors | extracted <;>
    simp only [hextracted] at houtcome <;> cases houtcome
  exact createBadRequestResponse_refuses errors

theorem addClause_ensures {instant : DateTimeOffset} {duration : TimeSpan}
    (hown : ownEvents thread s.past = trace) :
    (addClause instant duration).Ensures clients thread
      (Concludes clients thread success known)
      (fun _ t => ownEvents thread t.past = trace ∧ s.Grows t) s := by
  refine ofOutcome_ensures hsuccess hnone hown fun response houtcome => ?_
  cases hadd : instant.add duration <;>
    simp only [hadd] at houtcome <;> cases houtcome

theorem notReleasedClause_ensures {properties : EntitlementProperties}
    (hown : ownEvents thread s.past = trace) :
    (notReleasedClause properties).Ensures clients thread
      (Concludes clients thread success known)
      (fun _ t => ownEvents thread t.past = trace ∧ s.Grows t) s := by
  refine ofOutcome_ensures hsuccess hnone hown fun response houtcome => ?_
  cases hreleased : properties.isReleased <;>
    simp only [asPredicateFailure, hreleased] at houtcome <;> cases houtcome
  exact createAlreadyReleasedResponse_refuses _

theorem verifyClause_ensures {verification : TokenVerificationRequest}
    {token : String} (hinv : Consistent clients s)
    (hown : ownEvents thread s.past = trace) :
    (verifyClause services verification token).Ensures clients thread
      (Concludes clients thread success known)
      (fun _ t => ∃ now, ownEvents thread t.past =
        ⟨thread, .validationTime, now⟩ :: trace) s := by
  refine (Query.Ensures.lift hinv (quiet_returns rfl hown)).bind hinv
    fun now t hinv' hnow => ?_
  have hown' := hnow.now hinv'
  have hnone' : commits clients (⟨thread, .validationTime, now⟩ :: trace) = [] := by
    simpa [commits, Client.update] using hnone
  refine (ofOutcome_ensures hsuccess hnone' hown'
    fun response houtcome => ?_).mono fun _ _ h => ⟨now, h.1⟩
  rcases hverified : TokenVerifier.verify services.runtime
      services.tokenPropertyParser now verification token with
    exception | (errors | verified) <;>
    simp only [hverified] at houtcome <;> cases houtcome
  exact createDeniedResponse_refuses errors _

theorem findEntitlementClause_ensures {id : String}
    (hinv : Consistent clients s) (hown : ownEvents thread s.past = trace)
    (hknown : known → (s.entries id).isSome) :
    (findEntitlementClause id).Ensures clients thread
      (Concludes clients thread success known)
      (fun _ t => ∃ found, ownEvents thread t.past =
        ⟨thread, .tryGetValue id, found⟩ :: trace) s := by
  refine (findEntitlement_returns hinv hown).bind hinv
    fun result t hinv' hresult => ?_
  have hcommits : ∀ u : ServerState ι, (∃ found, ownEvents thread u.past =
      ⟨thread, .tryGetValue id, found⟩ :: trace) →
        commits clients (ownEvents thread u.past) = [] := by
    rintro u ⟨found, hown'⟩
    rw [hown']
    simpa [commits, Client.update] using hnone
  cases result with
  | error errors =>
      refine hresult.mono fun u hu => ⟨?_, fun hknown' => ?_, ?_⟩
      · simp only [hcommits u hu.1]
        rcases hsuccess with rfl | rfl <;> simp [createNotFoundResponse]
      · obtain ⟨record, hrecord⟩ := hu.2 (hknown hknown')
        cases hrecord
      · rintro id' expiry heq
        cases heq
  | ok record => exact hresult.mono fun u hu => hu.1

end BeforeCommit

/-! ## The handlers -/

theorem AcquireRequestHandler.handle_ensures {remoteIpAddress : IPAddress}
    {body : Option AcquireRequestBody}
    (hclient : clients thread = .request (.acquire remoteIpAddress body))
    (hinv : Consistent clients s) (hown : ownEvents thread s.past = []) :
    (AcquireRequestHandler.handle services remoteIpAddress body).Ensures
      clients thread (Concludes clients thread 200 known) s := by
  refine Query.Ensures.merge hinv ?_
  refine (parseDurationClause_ensures (.inl rfl) rfl hown).bind hinv
    fun duration t₁ hinv₁ h₁ => ?_
  obtain ⟨hown₁, -⟩ := h₁.now hinv₁
  refine (extractVerificationRequestClause_ensures (.inl rfl) rfl hown₁).bind
    hinv₁ fun (verification, token) t₂ hinv₂ h₂ => ?_
  obtain ⟨hown₂, -⟩ := h₂.now hinv₂
  refine (verifyClause_ensures (.inl rfl) rfl hinv₂ hown₂).bind hinv₂
    fun tokenProperties t₃ hinv₃ h₃ => ?_
  obtain ⟨now, hown₃⟩ := h₃.now hinv₃
  refine (Query.Ensures.lift hinv₃ (quiet_returns rfl hown₃)).bind hinv₃
    fun guid t₄ hinv₄ h₄ => ?_
  have hown₄ := h₄.now hinv₄
  refine (Query.Ensures.lift hinv₄ (quiet_returns rfl hown₄)).bind hinv₄
    fun acquisitionTime t₅ hinv₅ h₅ => ?_
  have hown₅ := h₅.now hinv₅
  refine (addClause_ensures (.inl rfl) rfl hown₅).bind hinv₅
    fun expiry t₆ hinv₆ h₆ => ?_
  obtain ⟨hown₆, -⟩ := h₆.now hinv₆
  refine (Query.Ensures.lift hinv₆ (storeEntitlement_returns hinv₆ hown₆ rfl
    ?_ ?_)).bind hinv₆ fun stored t₇ hinv₇ h₇ => ?_
  · intro added reply hadded
    simp [hclient, Client.update, clockReading, hadded,
      EntitlementProperties.createNew]
  · rintro -
    exact ⟨guid, by simp, rfl⟩
  · refine Query.pure_ensures (h₇.mono fun u hcommits => ⟨?_, ?_, ?_⟩)
    · simp [hcommits, Response.createSuccess]
    · simp [Response.createSuccess]
    · rintro id expiry' heq
      obtain ⟨rfl, -⟩ : guid.toStringN = id ∧ _ := by
        simpa [Response.createSuccess] using heq
      exact ⟨tokenProperties, acquisitionTime, by simp [hcommits]⟩

/-- The shared end of the Renew and Release handlers: the update of the store,
then the response. -/
theorem update_ensures {update : Update} {response : Response}
    {program : Handling (Result EntitlementProperties ErrorSet)}
    (hsuccess : success = 200 ∨ success = 204)
    (hinv : Consistent clients s)
    (hprogram : program.Returns clients thread
      (fun result t => commits clients (ownEvents thread t.past) =
        match result with
        | .ok _ => [⟨thread, update⟩]
        | .error _ => []) s)
    (hstatus : response.statusCode = success)
    (hvalue : ∀ id expiry,
      response ≠ .createSuccess (.acquireSuccess id expiry)) :
    Query.Ensures clients thread
      (do
        let _ ← (ExceptT.mk do
          let result ← program
          return result.onError createInternalErrorResponse : Query _)
        return response)
      (Concludes clients thread success known)
      (fun response => Concludes clients thread success known (.ok response))
      s := by
  have hupdate : Query.Ensures clients thread
      (ExceptT.mk do
        let result ← program
        return result.onError createInternalErrorResponse)
      (Concludes clients thread success known)
      (fun _ t =>
        commits clients (ownEvents thread t.past) = [⟨thread, update⟩]) s := by
    refine hprogram.bind hinv fun result t hinv' hresult => ?_
    cases result with
    | error errors =>
        exact hresult.mono fun u hnone => .of_refuses hnone hsuccess
          (createInternalErrorResponse_refuses errors)
    | ok record => exact hresult
  refine hupdate.bind hinv fun _ t hinv' hcommits => ?_
  refine Query.pure_ensures (hcommits.mono fun u hu => ⟨?_, ?_, ?_⟩)
  · simp [hu, hstatus]
  · rintro - response' heq
    obtain rfl := Except.ok.inj heq
    omega
  · rintro id expiry heq
    exact absurd (Except.ok.inj heq) (hvalue id expiry)

theorem RenewRequestHandler.handle_ensures {body : Option RenewRequestBody}
    {id : String} (hclient : clients thread = .request (.renew body id))
    (hinv : Consistent clients s) (hown : ownEvents thread s.past = [])
    (hknown : known → (s.entries id).isSome) :
    (RenewRequestHandler.handle services body id).Ensures clients thread
      (Concludes clients thread 200 known) s := by
  refine Query.Ensures.merge hinv ?_
  refine (parseDurationClause_ensures (.inl rfl) rfl hown).bind hinv
    fun duration t₁ hinv₁ h₁ => ?_
  obtain ⟨hown₁, hgrows⟩ := h₁.now hinv₁
  refine (findEntitlementClause_ensures (.inl rfl) rfl hinv₁ hown₁
    fun h => hgrows.entries id (hknown h)).bind hinv₁
      fun record t₂ hinv₂ h₂ => ?_
  obtain ⟨found, hown₂⟩ := h₂.now hinv₂
  refine (notReleasedClause_ensures (.inl rfl) rfl hown₂).bind hinv₂
    fun _ t₃ hinv₃ h₃ => ?_
  obtain ⟨hown₃, -⟩ := h₃.now hinv₃
  refine (Query.Ensures.lift hinv₃ (quiet_returns rfl hown₃)).bind hinv₃
    fun renewalTime t₄ hinv₄ h₄ => ?_
  have hown₄ := h₄.now hinv₄
  refine (addClause_ensures (.inl rfl) rfl hown₄).bind hinv₄
    fun expiry t₅ hinv₅ h₅ => ?_
  obtain ⟨hown₅, -⟩ := h₅.now hinv₅
  refine update_ensures (.inl rfl) hinv₅
    (renewEntitlement_returns hinv₅ hown₅ rfl ?_ ?_) rfl ?_
  · intro newValue comparisonValue
    simp [hclient, Client.update, clockReading]
  · rintro -
    simp [lookups]
  · rintro id expiry heq
    simp [Response.createSuccess] at heq

theorem ReleaseRequestHandler.handle_ensures {id : String}
    (hclient : clients thread = .request (.release id))
    (hinv : Consistent clients s) (hown : ownEvents thread s.past = [])
    (hknown : known → (s.entries id).isSome) :
    (ReleaseRequestHandler.handle id).Ensures clients thread
      (Concludes clients thread 204 known) s := by
  refine Query.Ensures.merge hinv ?_
  refine (findEntitlementClause_ensures (.inr rfl) rfl hinv hown hknown).bind
    hinv fun record t₁ hinv₁ h₁ => ?_
  obtain ⟨found, hown₁⟩ := h₁.now hinv₁
  refine (Query.Ensures.lift hinv₁ (quiet_returns rfl hown₁)).bind hinv₁
    fun releaseTime t₂ hinv₂ h₂ => ?_
  have hown₂ := h₂.now hinv₂
  refine update_ensures (.inr rfl) hinv₂
    (releaseEntitlement_returns hinv₂ hown₂ rfl ?_ ?_) rfl ?_
  · intro newValue comparisonValue
    simp [hclient, Client.update, clockReading]
  · rintro ⟨body, id', hrenew⟩
    simp [hclient] at hrenew
  · rintro id expiry heq
    cases heq

end Clauses

end SoftwareEntitlement
