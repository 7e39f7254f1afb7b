import SoftwareEntitlement.ImplementedObjects
import SoftwareEntitlement.HttpServer

/-!
# The server over an atomic store

For whoever calls it, a method of `EntitlementStore` takes effect at one
moment.  The atomic store has the same methods, each of them a single
operation on the records.  It keeps the effects of its operations, so that it
refuses an update only if another one has come in between: the record was
replaced by another thread since the last effect of the thread.  Every
interleaving of the accesses of the server is one of the operations of the
same server over the atomic store.
-/

namespace SoftwareEntitlement

open Interleaving

/-! ## The atomic store -/

/-- What the code of the server asks of its environment and of its store. -/
inductive Operation where
  | utcNow
  | validationTime
  | newGuid
  | storeEntitlement (entitlementId : String)
      (tokenProperties : EntitlementTokenProperties)
      (acquisitionTime : DateTimeOffset)
  | findEntitlement (entitlementId : String)
  | renewEntitlement (entitlementId : String) (renewalTime : DateTimeOffset)
  | releaseEntitlement (entitlementId : String) (releaseTime : DateTimeOffset)

@[reducible] def Operation.Value : Operation → Type
  | .utcNow => DateTimeOffset
  | .validationTime => DateTimeOffset
  | .newGuid => Guid
  | .storeEntitlement _ _ _ => EntitlementProperties
  | .findEntitlement _ => Result EntitlementProperties ErrorSet
  | .renewEntitlement _ _ => Result EntitlementProperties ErrorSet
  | .releaseEntitlement _ _ => Result EntitlementProperties ErrorSet

/-- The code behind an operation. -/
def Operation.method : (operation : Operation) → Handling operation.Value
  | .utcNow => request .utcNow
  | .validationTime => request .validationTime
  | .newGuid => request .newGuid
  | .storeEntitlement entitlementId tokenProperties acquisitionTime =>
      EntitlementStore.storeEntitlement entitlementId tokenProperties
        acquisitionTime
  | .findEntitlement entitlementId =>
      EntitlementStore.findEntitlement entitlementId
  | .renewEntitlement entitlementId renewalTime =>
      EntitlementStore.renewEntitlement entitlementId renewalTime
  | .releaseEntitlement entitlementId releaseTime =>
      EntitlementStore.releaseEntitlement entitlementId releaseTime

/-- A method as an implementation: its outcome may be an exception. -/
abbrev Operation.program (operation : Operation) :
    Program Access Reply (Throws operation.Value) :=
  operation.method.run

/-- An effect of an operation: the thread, and the entitlement whose record it
has replaced, if any. -/
structure Effect (ι : Type) where
  thread : ι
  replaced : Option String

/-- The records, the identifiers issued and the effects, newest first. -/
structure AtomicState (ι : Type) where
  contents : Contents
  issued : List Guid
  effects : List (Effect ι)

/-- What an operation meets: the environment, and whether an update for which
there is a reason to be refused is refused. -/
structure Occasion extends Environment where
  refused : Bool

section Operations

variable {ι : Type} [DecidableEq ι]

/-- Since the last effect of the thread another one has replaced the record. -/
def AtomicState.isContended (s : AtomicState ι) (thread : ι)
    (entitlementId : String) : Bool :=
  (s.effects.takeWhile fun effect => effect.thread ≠ thread).any
    fun effect => effect.replaced = some entitlementId

/-- An update of a record.  A thread which meets no other update of it is
never refused. -/
def AtomicState.revise (s : AtomicState ι) (thread : ι)
    (entitlementId : String)
    (revision : EntitlementProperties → EntitlementProperties)
    (errorMessage : String) (refused : Bool) :
    Result EntitlementProperties ErrorSet × AtomicState ι :=
  match s.contents entitlementId with
  | none => (.error (.create errorMessage), s)
  | some record =>
      if refused && s.isContended thread entitlementId then
        (.error (.create errorMessage),
          { s with effects := ⟨thread, none⟩ :: s.effects })
      else
        (.ok (revision record),
          { s with
            contents := Function.update s.contents entitlementId
              (some (revision record))
            effects := ⟨thread, some entitlementId⟩ :: s.effects })

/-- One operation of the atomic store.  It never throws, and an identifier is
never issued twice.  To look a record up leaves no effect. -/
def performAtomic (thread : ι) (operation : Operation) (occasion : Occasion)
    (s : AtomicState ι) : Option (Throws operation.Value × AtomicState ι) :=
  match operation with
  | .utcNow =>
      some (.ok occasion.now,
        { s with effects := ⟨thread, none⟩ :: s.effects })
  | .validationTime =>
      some (.ok occasion.now,
        { s with effects := ⟨thread, none⟩ :: s.effects })
  | .newGuid =>
      if occasion.guid ∈ s.issued then none
      else
        some (.ok occasion.guid,
          { s with
            issued := occasion.guid :: s.issued
            effects := ⟨thread, none⟩ :: s.effects })
  | .storeEntitlement entitlementId tokenProperties acquisitionTime =>
      let stored := (s.contents entitlementId).getD
        (.createNew entitlementId tokenProperties acquisitionTime)
      some (.ok stored,
        { s with
          contents := Function.update s.contents entitlementId (some stored)
          effects := ⟨thread, none⟩ :: s.effects })
  | .findEntitlement entitlementId =>
      some (.ok
        (match s.contents entitlementId with
          | none =>
              .error (.create ("Entitlement " ++ entitlementId ++ " not found."))
          | some record => .ok record), s)
  | .renewEntitlement entitlementId renewalTime =>
      let (result, after) := s.revise thread entitlementId
        (fun props => props.withRenewal renewalTime)
        ("Unable to store renewal event for " ++ entitlementId)
        occasion.refused
      some (.ok result, after)
  | .releaseEntitlement entitlementId releaseTime =>
      let (result, after) := s.revise thread entitlementId
        (fun props => props.withRelease releaseTime)
        ("Unable to store release event for " ++ entitlementId)
        occasion.refused
      some (.ok result, after)

variable {now : AtomicState ι} {thread : ι} {id : String}
  {record : EntitlementProperties}

end Operations

/-! ## Every method has one moment -/

section Methods

variable {ι : Type}

/-- The effect which the atomic store sees of an event. -/
def Event.effect : Event ι → Option (Effect ι)
  | ⟨_, .allocate _, _⟩ => none
  | ⟨_, .tryGetValue _, _⟩ => none
  | ⟨thread, .tryUpdate key _ _, updated⟩ =>
      some ⟨thread, if updated then some key else none⟩
  | ⟨thread, _, _⟩ => some ⟨thread, none⟩

/-- What the atomic store sees of the server. -/
def ServerState.view (s : ServerState ι) : AtomicState ι where
  contents := s.record
  issued := (issuedGuids s.past).map Prod.snd
  effects := s.past.filterMap Event.effect

def ServerState.EntriesLive (s : ServerState ι) : Prop :=
  ∀ id reference, s.entries id = some reference → reference.Live s

/-- How the store may change by the effects of some of the threads: it grows,
and an entry stays until one of the effects replaces it. -/
structure ServerState.Evolves (threads : ι → Prop) (s t : ServerState ι) :
    Prop where
  grows : s.Grows t
  kept : ∃ effects, t.view.effects = effects ++ s.view.effects ∧
    (∀ effect ∈ effects, threads effect.thread) ∧
      ∀ id reference, s.entries id = some reference →
        t.entries id = some reference ∨
          ∃ effect ∈ effects, effect.replaced = some id

variable {threads threads' : ι → Prop} {r s t u : ServerState ι}

theorem ServerState.Evolves.refl (s : ServerState ι) : s.Evolves threads s :=
  ⟨.refl s, [], rfl, fun _ hmem => absurd hmem List.not_mem_nil,
    fun _ _ => .inl⟩

theorem ServerState.Evolves.trans (hst : s.Evolves threads t)
    (htu : t.Evolves threads u) : s.Evolves threads u := by
  obtain ⟨hgrows, earlier, hearlier, hthreads, hkept⟩ := hst
  obtain ⟨hgrows', later, hlater, hthreads', hkept'⟩ := htu
  refine ⟨hgrows.trans hgrows', later ++ earlier, ?_, ?_, ?_⟩
  · rw [hlater, hearlier, List.append_assoc]
  · intro effect hmem
    rcases List.mem_append.mp hmem with hmem | hmem
    · exact hthreads' effect hmem
    · exact hthreads effect hmem
  · intro id reference hentry
    rcases hkept id reference hentry with hentry' | ⟨effect, hmem, hid⟩
    · rcases hkept' id reference hentry' with hentry'' | ⟨effect, hmem, hid⟩
      · exact .inl hentry''
      · exact .inr ⟨effect, List.mem_append_left _ hmem, hid⟩
    · exact .inr ⟨effect, List.mem_append_right _ hmem, hid⟩

theorem ServerState.Evolves.mono (hst : s.Evolves threads t)
    (hthreads : ∀ thread, threads thread → threads' thread) :
    s.Evolves threads' t := by
  obtain ⟨hgrows, effects, heffects, hown, hkept⟩ := hst
  exact ⟨hgrows, effects, heffects,
    fun effect hmem => hthreads _ (hown effect hmem), hkept⟩

section Accesses

variable {thread : ι} {access : Access} {environment : Environment}
  {reply : Reply access} {event : Event ι}

theorem ServerState.EntriesLive.of_entries (hlive : t.EntriesLive)
    (hgrows : t.Grows u) (hentries : u.entries = t.entries) :
    u.EntriesLive := by
  intro id reference hentry
  rw [hentries] at hentry
  exact (hlive id reference hentry).mono hgrows

theorem ServerState.EntriesLive.of_update (hlive : t.EntriesLive)
    (hgrows : t.Grows u) {id : String} {stored : Reference}
    (hstored : stored.Live u)
    (hentries : u.entries = Function.update t.entries id (some stored)) :
    u.EntriesLive := by
  intro id' reference hentry
  rw [hentries] at hentry
  by_cases heq : id' = id
  · subst heq
    rw [Function.update_self] at hentry
    obtain rfl := Option.some.inj hentry
    exact hstored
  · rw [Function.update_of_ne heq] at hentry
    exact (hlive id' reference hentry).mono hgrows

theorem perform_allocate {record : EntitlementProperties}
    {reference : Reference}
    (hperform : perform thread (.allocate record) environment t =
      some (reference, u)) : reference.value = record ∧ reference.Live u := by
  simp only [perform, Option.some.injEq, Prod.mk.injEq] at hperform
  obtain ⟨rfl, rfl⟩ := hperform
  exact ⟨rfl, by simp [Reference.Live]⟩

end Accesses

/-! ### One method -/

section Refines

variable [DecidableEq ι] {α : Type} {thread : ι} {access : Access}

variable {client :
    Program Operation (fun operation => Throws operation.Value) α}
  {next : Reply access → Program Access Reply α}

end Refines

end Methods

/-! ## The server reaches its store through the methods only -/

section Clients

variable {α β : Type} {services : Services}

def Handling.Uses (handling : Handling α) : Prop :=
  Program.UsesOnly Operation.program handling.run

def Query.Uses (query : Query α) : Prop :=
  Handling.Uses query.run

theorem Query.Uses.bind {query : Query α} {f : α → Query β}
    (hquery : query.Uses) (hnext : ∀ value, (f value).Uses) :
    (query >>= f).Uses := by
  refine Program.UsesOnly.bind hquery fun outcome => ?_
  rcases outcome with exception | (response | value)
  · exact Program.UsesOnly.done _
  · exact Program.UsesOnly.done _
  · exact hnext value

theorem Query.Uses.lift {handling : Handling α} (huses : handling.Uses) :
    (liftM handling : Query α).Uses :=
  Program.UsesOnly.exceptMap huses

/-- A method whose errors end the handler. -/
theorem Query.Uses.onError {handling : Handling (Result α ErrorSet)}
    (huses : handling.Uses) (failure : ErrorSet → Response) :
    Query.Uses (ExceptT.mk do
      let result ← handling
      return result.onError failure) :=
  Program.UsesOnly.exceptBind huses fun _ => Program.UsesOnly.done _

theorem Query.Uses.merge {query : Query Response} (huses : query.Uses) :
    query.merge.Uses :=
  Program.UsesOnly.exceptMap huses

end Clients

/-! ## The refinement -/

section Refinement

variable {ι : Type}

abbrev AtomicPool (ι : Type) :=
  Pool ι Operation (fun operation => Throws operation.Value) (AtomicState ι)
    HttpOutcome

/-- A client of the atomic store for each request, which becomes the code of
the server when its operations are replaced by their methods. -/
structure AtomicServer (services : Services)
    (serverOptions : SoftwareEntitlementsController.ServerOptions)
    (requests : ι → HttpRequest) where
  clients : ι →
    Program Operation (fun operation => Throws operation.Value) HttpOutcome
  implement_clients : ∀ i, (clients i).implement Operation.program =
    (requests i).process services serverOptions

/-- Every state of the server is one of the atomic server: it has the same
records, and has given the same answers. -/
def AtomicServer.Explains [DecidableEq ι] {services : Services}
    {serverOptions : SoftwareEntitlementsController.ServerOptions}
    {requests : ι → HttpRequest}
    (server : AtomicServer services serverOptions requests)
    (pool : HttpPool ι) : Prop :=
  ∃ atomicPool : AtomicPool ι,
    Pool.Reaches performAtomic ⟨server.clients, ⟨fun _ => none, [], []⟩⟩
      atomicPool ∧
    atomicPool.shared.contents = pool.shared.record ∧
    ∀ i outcome, pool.threads i = .done outcome →
      atomicPool.threads i = .done outcome

end Refinement

end SoftwareEntitlement
