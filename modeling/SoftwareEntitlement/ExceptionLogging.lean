import SoftwareEntitlement.LoggingOptions
import SoftwareEntitlement.PreorderVisits

/-!
# Logging exceptions

The shared logger unpacks what is in an exception.  An entry is forwarded
without its exception, and then the exception is logged in entries of its own,
followed by the exceptions inside it, each indented below the one it is in.
The logger which takes the entries may have any effects.
-/

namespace SoftwareEntitlement

/-! ## Exceptions -/

/-- What is logged of an exception.  Keys and values of its data are texts, as
they are formatted; the text of a null value is empty. -/
structure ExceptionDetails where
  /-- `GetType().Name`. -/
  typeName : String
  message : String
  data : Option (List (String × String))
  stackTrace : Option String
  deriving DecidableEq

/-- A finite tree of exceptions.  The `InnerException` of an aggregate is the
first of its inner exceptions. -/
inductive Exception where
  | ordinary (details : ExceptionDetails) (innerException : Option Exception)
  | aggregate (details : ExceptionDetails) (innerExceptions : List Exception)

namespace Exception

def details : Exception → ExceptionDetails
  | ordinary details _ => details
  | aggregate details _ => details

/-- The exceptions directly inside an exception. -/
def nested : Exception → List Exception
  | ordinary _ innerException => innerException.toList
  | aggregate _ innerExceptions => innerExceptions

theorem sizeOf_lt_of_mem_nested {exception inner : Exception}
    (hinner : inner ∈ exception.nested) : sizeOf inner < sizeOf exception := by
  cases exception with
  | ordinary details innerException =>
      obtain rfl : innerException = some inner := Option.mem_toList.mp hinner
      simp only [ordinary.sizeOf_spec, Option.some.sizeOf_spec]
      omega
  | aggregate details innerExceptions =>
      have hsize : sizeOf inner < sizeOf innerExceptions :=
        List.sizeOf_lt_of_mem hinner
      simp only [aggregate.sizeOf_spec]
      omega

@[simp] theorem one_lt_sizeOf (exception : Exception) :
    1 < sizeOf exception := by
  cases exception with
  | ordinary details innerException =>
      have hpos : 0 < sizeOf innerException := by
        cases innerException with
        | none => simp
        | some inner =>
            simp only [Option.some.sizeOf_spec]
            omega
      simp only [ordinary.sizeOf_spec]
      omega
  | aggregate details innerExceptions =>
      have hpos : 0 < sizeOf innerExceptions := by
        cases innerExceptions with
        | nil => simp
        | cons first rest =>
            simp only [List.cons.sizeOf_spec]
            omega
      simp only [aggregate.sizeOf_spec]
      omega

theorem wellFounded_nested :
    WellFounded fun inner exception : Exception => inner ∈ exception.nested :=
  Subrelation.wf sizeOf_lt_of_mem_nested (measure sizeOf).wf

end Exception

/-! ## Lines -/

def isLineBreak (c : Char) : Bool :=
  c == '\r' || c == '\n'

/-- `StringReader.ReadLine`: the characters before the end of the line, and
what follows it. -/
def readLine : List Char → List Char × List Char
  | [] => ([], [])
  | '\r' :: '\n' :: rest => ([], rest)
  | c :: rest =>
      if isLineBreak c then ([], rest)
      else (c :: (readLine rest).1, (readLine rest).2)

theorem length_readLine_le (text : List Char) :
    (readLine text).2.length ≤ text.length - 1 := by
  fun_induction readLine text with
  | case1 => simp
  | case2 rest => simp
  | case3 c rest hnewline hbreak => simp
  | case4 c rest hnewline hbreak ih =>
      simp only [List.length_cons]
      omega

def readLines : List Char → List (List Char)
  | [] => []
  | c :: rest => (readLine (c :: rest)).1 :: readLines (readLine (c :: rest)).2
termination_by text => text.length
decreasing_by
  have hlength := length_readLine_le (c :: rest)
  simp only [List.length_cons] at hlength ⊢
  omega

def asLines (content : String) : List String :=
  (readLines content.toList).map String.ofList

theorem asLines_empty : asLines "" = [] := by
  simp [asLines, readLines]

theorem filter_readLine (text : List Char) :
    (readLine text).1 ++ (readLine text).2.filter (!isLineBreak ·) =
      text.filter (!isLineBreak ·) := by
  fun_induction readLine text with
  | case1 => rfl
  | case2 rest => rfl
  | case3 c rest hnewline hbreak => simp [hbreak]
  | case4 c rest hnewline hbreak ih => simp [hbreak, ih]

theorem flatten_readLines (text : List Char) :
    (readLines text).flatten = text.filter (!isLineBreak ·) := by
  fun_induction readLines text with
  | case1 => rfl
  | case2 c rest ih => rw [List.flatten_cons, ih, filter_readLine]

/-- The lines of a text are all of it but the line breaks. -/
theorem flatMap_asLines (content : String) :
    (asLines content).flatMap String.toList =
      content.toList.filter (!isLineBreak ·) := by
  simp [asLines, List.flatMap_map, ← flatten_readLines]

/-! ## The logger -/

structure EventId where
  id : BitVec 32
  name : Option String

structure ILogger (m : Type → Type) where
  log {TState : Type} (logLevel : EnumValue LogLevel) (eventId : EventId)
    (state : TState) (exception : Option Exception)
    (formatter : TState → Option Exception → String) : m Unit
  isEnabled : EnumValue LogLevel → m Bool
  /-- Begin a scope, and return what disposes of it. -/
  beginScope {TState : Type} (state : TState) : m (m Unit)

namespace UnpackingExceptionLogger

variable {m : Type → Type} [Monad m] (innerLogger : ILogger m)

mutual

def log {TState : Type} (logLevel : EnumValue LogLevel) (eventId : EventId)
    (state : TState) (exception : Option Exception)
    (formatter : TState → Option Exception → String) : m Unit := do
  innerLogger.log logLevel eventId state none formatter
  match exception with
  | some exception => logException eventId exception ""
  | none => pure ()
termination_by sizeOf exception

def logException (eventId : EventId) (exception : Exception)
    (prefixText : String) : m Unit := do
  let indent := "    "
  log (.ofMember .error) eventId
    (prefixText ++ exception.details.message ++ " (" ++
      exception.details.typeName ++ ")") none fun s _ => s
  (match exception.details.data with
    | some data =>
        forM data fun entry =>
          log (.ofMember .information) eventId
            (prefixText ++ entry.1 ++ " = " ++ entry.2) none fun s _ => s
    | none => pure ())
  (if isNullOrEmpty exception.details.stackTrace then pure ()
    else
      forM (asLines (exception.details.stackTrace.getD "")) fun line =>
        log (.ofMember .debug) eventId (prefixText ++ line) none fun s _ => s)
  -- An aggregate is not asked for its `InnerException` as well.
  match exception with
  | .aggregate _ innerExceptions =>
      forM innerExceptions.attach fun ⟨e, _⟩ =>
        logException eventId e (indent ++ prefixText)
  | .ordinary _ (some innerException) =>
      logException eventId innerException (indent ++ prefixText)
  | .ordinary _ none => pure ()
termination_by sizeOf exception

end

def new : ILogger m where
  log := log innerLogger
  isEnabled := innerLogger.isEnabled
  beginScope := innerLogger.beginScope

/-! ## What is logged -/

/-- A text which is passed to the inner logger. -/
structure Entry where
  logLevel : LogLevel
  text : String
  deriving DecidableEq

def emit (eventId : EventId) (entry : Entry) : m Unit :=
  innerLogger.log (.ofMember entry.logLevel) eventId entry.text none
    fun s _ => s

/-- Four spaces for each level of nesting. -/
def indentation (level : ℕ) : String :=
  String.ofList (List.replicate (4 * level) ' ')

def errorEntry (level : ℕ) (details : ExceptionDetails) : Entry :=
  ⟨.error, indentation level ++ details.message ++ " (" ++
    details.typeName ++ ")"⟩

def dataEntries (level : ℕ) (details : ExceptionDetails) : List Entry :=
  (details.data.getD []).map fun entry =>
    ⟨.information, indentation level ++ entry.1 ++ " = " ++ entry.2⟩

def stackEntries (level : ℕ) (details : ExceptionDetails) : List Entry :=
  (asLines (details.stackTrace.getD "")).map fun line =>
    ⟨.debug, indentation level ++ line⟩

/-- What is logged of one exception. -/
def entries (level : ℕ) (details : ExceptionDetails) : List Entry :=
  errorEntry level details ::
    (dataEntries level details ++ stackEntries level details)

theorem indent_indentation (level : ℕ) :
    "    " ++ indentation level = indentation (level + 1) := by
  have hindent : "    " = String.ofList (List.replicate 4 ' ') := rfl
  rw [hindent, indentation, indentation, ← String.ofList_append,
    List.replicate_append_replicate, Nat.mul_succ, Nat.add_comm]

variable {innerLogger} [LawfulMonad m] {eventId : EventId}

theorem log_none {TState : Type} {logLevel : EnumValue LogLevel}
    {state : TState} {formatter : TState → Option Exception → String} :
    log innerLogger logLevel eventId state none formatter =
      innerLogger.log logLevel eventId state none formatter := by
  rw [log]
  simp

theorem forM_stackEntries {level : ℕ} {details : ExceptionDetails} :
    (if isNullOrEmpty details.stackTrace then pure ()
      else forM (asLines (details.stackTrace.getD "")) fun line =>
        log innerLogger (.ofMember .debug) eventId (indentation level ++ line)
          none fun s _ => s) =
      forM (stackEntries level details) (emit innerLogger eventId) := by
  simp only [log_none, stackEntries, List.forM_map]
  split
  next hempty =>
    have hlines : asLines (details.stackTrace.getD "") = [] := by
      cases hstack : details.stackTrace with
      | none => exact asLines_empty
      | some text =>
          rw [hstack, isNullOrEmpty, beq_iff_eq] at hempty
          rw [hempty]
          exact asLines_empty
    rw [hlines]
    rfl
  next => rfl

theorem forM_dataEntries {level : ℕ} {details : ExceptionDetails} :
    (match details.data with
      | some data => forM data fun entry =>
          log innerLogger (.ofMember .information) eventId
            (indentation level ++ entry.1 ++ " = " ++ entry.2) none fun s _ => s
      | none => pure ()) =
      forM (dataEntries level details) (emit innerLogger eventId) := by
  simp only [log_none, dataEntries, List.forM_map]
  cases details.data <;> rfl

theorem forM_nested (exception : Exception) (logInner : Exception → m Unit) :
    (match exception with
      | .aggregate _ innerExceptions =>
          forM innerExceptions.attach fun inner => logInner inner.val
      | .ordinary _ (some innerException) => logInner innerException
      | .ordinary _ none => pure ()) =
      forM exception.nested logInner := by
  cases exception with
  | aggregate details innerExceptions =>
      have hforM := List.forM_map (l := innerExceptions.attach)
        (g := Subtype.val) (f := logInner)
      rw [List.attach_map_subtype_val] at hforM
      exact hforM.symm
  | ordinary details innerException =>
      cases innerException with
      | none => rfl
      | some innerException => simp [Exception.nested]

/-- An exception is logged before what is inside it. -/
theorem logException_eq (innerLogger : ILogger m) (eventId : EventId)
    (level : ℕ) (exception : Exception) :
    logException innerLogger eventId exception (indentation level) = (do
      forM (entries level exception.details) (emit innerLogger eventId)
      forM exception.nested fun inner =>
        logException innerLogger eventId inner (indentation (level + 1))) := by
  rw [logException.eq_def, entries, List.forM_cons, List.forM_append]
  have hnested := forM_nested exception fun inner =>
    logException innerLogger eventId inner (indentation (level + 1))
  simp only [indent_indentation, forM_dataEntries, forM_stackEntries, hnested,
    bind_assoc]
  rw [log_none]
  rfl

/-- What is logged of all exceptions which are visited. -/
def unpacked (visits : List (List ℕ × Exception)) : List Entry :=
  visits.flatMap fun visit => entries visit.1.length visit.2.details

theorem forM_unpacked (visits : List (List ℕ × Exception)) :
    forM (unpacked visits) (emit innerLogger eventId) =
      forM visits fun visit =>
        forM (entries visit.1.length visit.2.details)
          (emit innerLogger eventId) := by
  induction visits with
  | nil => rfl
  | cons visit visits ih =>
      rw [unpacked, List.flatMap_cons, List.forM_append, ← unpacked, ih,
        List.forM_cons]

theorem logException_eq_forM {exception : Exception}
    {visits : List (List ℕ × Exception)}
    (hvisits : Branching.InPreorder Exception.nested exception visits) :
    logException innerLogger eventId exception "" =
      forM (unpacked visits) (emit innerLogger eventId) := by
  have hwalk := Branching.walk_eq_forM Exception.wellFounded_nested
    (logException_eq innerLogger eventId) hvisits 0
  simp only [Nat.zero_add] at hwalk
  rw [forM_unpacked]
  exact hwalk

theorem filter_entries (level : ℕ) (details : ExceptionDetails) :
    (entries level details).filter (·.logLevel = .error) =
      [errorEntry level details] := by
  simp [entries, errorEntry, dataEntries, stackEntries, List.filter_map,
    Function.comp_def]

theorem filter_unpacked (visits : List (List ℕ × Exception)) :
    (unpacked visits).filter (·.logLevel = .error) =
      visits.map fun visit => errorEntry visit.1.length visit.2.details := by
  rw [unpacked, List.filter_flatMap]
  simp only [filter_entries]
  exact List.map_eq_flatMap.symm

/-- The exception is unpacked by visiting every exception of its tree once and
in pre-order: the entry is forwarded without it, and then each visit logs one
error, and the data and the stack directly after it, indented by the level of
nesting. -/
structure Unpacks (innerLogger : ILogger m) (exception : Exception)
    (visits : List (List ℕ × Exception)) : Prop where
  preorder : Branching.InPreorder Exception.nested exception visits
  logs : ∀ {TState : Type} (logLevel : EnumValue LogLevel) (eventId : EventId)
    (state : TState) (formatter : TState → Option Exception → String),
    (new innerLogger).log logLevel eventId state (some exception) formatter =
      (do
        innerLogger.log logLevel eventId state none formatter
        forM (unpacked visits) (emit innerLogger eventId))
  errors : (unpacked visits).filter (·.logLevel = .error) =
    visits.map fun visit => errorEntry visit.1.length visit.2.details

end UnpackingExceptionLogger

open UnpackingExceptionLogger in
/-- Every nested exception is logged exactly once. -/
theorem log_unpacks {m : Type → Type} [Monad m] [LawfulMonad m]
    (innerLogger : ILogger m) (exception : Exception) :
    ∃ visits, Unpacks innerLogger exception visits := by
  obtain ⟨visits, hvisits⟩ :=
    Branching.exists_inPreorder Exception.wellFounded_nested exception
  refine ⟨visits, hvisits, ?_, filter_unpacked visits⟩
  intro TState logLevel eventId state formatter
  show log innerLogger logLevel eventId state (some exception) formatter = _
  rw [log, logException_eq_forM hvisits]

/-- A logger that collects the messages which it is given. -/
def collectingLogger : ILogger (StateM (List (EnumValue LogLevel × String))) where
  log logLevel _ state exception formatter :=
    modify (· ++ [(logLevel, formatter state exception)])
  isEnabled _ := pure true
  beginScope _ := pure (pure ())

def notThrown (typeName message : String) : ExceptionDetails :=
  ⟨typeName, message, some [], none⟩

def invalidOperationException : Exception :=
  .ordinary (notThrown "InvalidOperationException" "Operation is not valid.")
    none

/-- Three children and one grandchild. -/
def aggregateException : Exception :=
  .aggregate (notThrown "AggregateException" "One or more errors occurred.") [
    invalidOperationException,
    .ordinary (notThrown "ArgumentException" "arg") none,
    .ordinary (notThrown "InvalidOperationException" "Wrapped")
      (some invalidOperationException)]

theorem log_unpacks_aggregate :
    ∃ visits,
      UnpackingExceptionLogger.Unpacks collectingLogger aggregateException
        visits ∧
        visits.map Prod.fst = [[], [0], [1], [2], [2, 0]] := by
  obtain ⟨visits, hunpacks⟩ := log_unpacks collectingLogger aggregateException
  refine ⟨visits, hunpacks, ?_⟩
  have hleaf : ∀ details, Branching.InPreorder Exception.nested
      (.ordinary details none) (([], .ordinary details none) ::
        Branching.below 0 []) :=
    fun details => .node .nil
  have hwrapped : ∀ details, Branching.InPreorder Exception.nested
      (.ordinary details (some invalidOperationException)) _ :=
    fun details => .node (.cons (hleaf _) .nil)
  have hpreorder : Branching.InPreorder Exception.nested aggregateException _ :=
    .node (.cons (hleaf _) (.cons (hleaf _) (.cons (hwrapped _) .nil)))
  rw [hunpacks.preorder.unique hpreorder]
  rfl

end SoftwareEntitlement
