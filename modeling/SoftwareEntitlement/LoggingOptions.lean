import SoftwareEntitlement.EnumParsing
import SoftwareEntitlement.Traversals

/-!
# Logging options

Every command of the test utility takes a level for the console and a level
for the log file.  `ConfigureLogging` parses both and shares its logger only
if neither is rejected; without a shared logger no command runs.  What
`TryParseLogLevel` hands to the parser is the purpose of the level and not the
level, so that a level is accepted only when it is left to its default.
-/

namespace SoftwareEntitlement

namespace ResultCodes

def success : ℤ := 0
def failed : ℤ := -1
def internalError : ℤ := -1000

end ResultCodes

inductive LogLevel where
  | trace
  | debug
  | information
  | warning
  | error
  | critical
  | none
  deriving DecidableEq, Repr

def LogLevel.name : LogLevel → String
  | .trace => "Trace"
  | .debug => "Debug"
  | .information => "Information"
  | .warning => "Warning"
  | .error => "Error"
  | .critical => "Critical"
  | .none => "None"

def LogLevel.value : LogLevel → BitVec 32
  | .trace => 0
  | .debug => 1
  | .information => 2
  | .warning => 3
  | .error => 4
  | .critical => 5
  | .none => 6

instance logLevelEnum : ClrEnum LogLevel where
  typeName := "LogLevel"
  members :=
    [.trace, .debug, .information, .warning, .error, .critical, .none]
  name := LogLevel.name
  value := LogLevel.value
  complete level := by cases level <;> decide
  named level := by cases level <;> decide
  letters level := by cases level <;> decide
  distinct level other := by cases level <;> cases other <;> decide

/-! ## The logger -/

inductive LogEventLevel where
  | verbose
  | debug
  | information
  | warning
  | error
  | fatal
  deriving DecidableEq, Repr

inductive LogSink where
  | coloredConsole (level : LogEventLevel)
  | file (fullName : String) (level : LogEventLevel)
  deriving DecidableEq, Repr

/-- The sinks which have been added to the logger configuration. -/
structure LoggerSetup where
  sinks : List LogSink
  deriving DecidableEq

namespace LoggerSetup

def convertLevel (level : EnumValue LogLevel) : LogEventLevel :=
  if level = .ofMember .critical then .fatal
  else if level = .ofMember .error then .error
  else if level = .ofMember .warning then .warning
  else if level = .ofMember .information then .information
  else if level = .ofMember .debug then .debug
  else .verbose

def new : LoggerSetup := ⟨[]⟩

def sendToConsole (setup : LoggerSetup) (level : EnumValue LogLevel) :
    LoggerSetup :=
  ⟨setup.sinks ++ [.coloredConsole (convertLevel level)]⟩

def sendToFile (setup : LoggerSetup) (logFile : String)
    (level : EnumValue LogLevel) : LoggerSetup :=
  ⟨setup.sinks ++ [.file logFile (convertLevel level)]⟩

end LoggerSetup

/-! ## The options -/

structure CommandLineBase where
  logLevel : Option String
  logFile : Option String
  logFileLevel : Option String

namespace Program

variable (runtime : Runtime) (fullName : String → Throws String)

def unrecognisedLevel (level : Option String) (purpose : String) : ErrorSet :=
  .create ("Failed to recognize " ++ purpose ++ " log level '" ++
    level.getD "" ++
    "'; valid choices are: error, warning, information, and debug.")

def tryParseLogLevel (level : Option String) (purpose : String)
    (defaultLevel : EnumValue LogLevel) :
    Result (EnumValue LogLevel) ErrorSet :=
  if isNullOrEmpty level then .ok defaultLevel
  else
    (ClrEnum.parseEnum runtime LogLevel purpose).onError fun _ =>
      unrecognisedLevel level purpose

/-- The level of the console, when the option for it may be rejected. -/
def actualLevel (consoleLevel : Result (EnumValue LogLevel) ErrorSet) :
    EnumValue LogLevel :=
  (consoleLevel.onError fun _ => .ofMember .information).merge

/-- What `ConfigureLogging` has computed: `shared` is the logger and the
provider which the commands use. -/
structure Logging where
  consoleLevel : Result (EnumValue LogLevel) ErrorSet
  fileLevel : Result (EnumValue LogLevel) ErrorSet
  logSetup : LoggerSetup
  errors : List String
  shared : Option LoggerSetup

def errorsOf {α : Type} : Result α ErrorSet → List String
  | .ok _ => []
  | .error errors => errors.errors.items

/-- Log to the given file too, if there is one and its level is accepted.
`fullName` is the path of a `FileInfo`, which may be refused. -/
def sendToLogFile (logFile : Option String)
    (fileLevel : Result (EnumValue LogLevel) ErrorSet) (setup : LoggerSetup) :
    Throws LoggerSetup :=
  if isNullOrEmpty logFile then .ok setup
  else
    match fileLevel with
    | .ok level => do
        let file ← fullName (logFile.getD "")
        return setup.sendToFile file level
    | .error _ => .ok setup

def configureLogging (commandLine : CommandLineBase) : Throws Logging := do
  let consoleLevel := tryParseLogLevel runtime commandLine.logLevel "console"
    (.ofMember .information)
  let actualLevel := actualLevel consoleLevel
  let console := LoggerSetup.new.sendToConsole actualLevel
  let fileLevel := tryParseLogLevel runtime commandLine.logFileLevel "file"
    actualLevel
  let logSetup ← sendToLogFile fullName commandLine.logFile fileLevel console
  return {
    consoleLevel := consoleLevel
    fileLevel := fileLevel
    logSetup := logSetup
    errors := errorsOf consoleLevel ++ errorsOf fileLevel
    shared := (consoleLevel.with' fileLevel fun _ _ => logSetup).toOption }

/-- `RunCommand`: an exception is logged and becomes an exit code. -/
def runCommand (command : Throws ℤ) : ℤ :=
  match command with
  | .ok exitCode => exitCode
  | .error _ => ResultCodes.internalError

def main (command : LoggerSetup → Throws ℤ) (commandLine : CommandLineBase) :
    Throws ℤ := do
  let logging ← configureLogging runtime fullName commandLine
  match logging.shared with
  | some logger => return runCommand (command logger)
  | none => return ResultCodes.failed

/-! ## What becomes of the options -/

/-- The option is the name of a level, without regard to case. -/
def NamesLevel (option : Option String) : Prop :=
  ∃ text, option = some text ∧
    ∃ level : LogLevel, ClrEnum.Names runtime text level

/-- An option yields the level which it names, or the default if it is missing,
and is rejected if it names no level. -/
structure Honours (option : Option String) (defaultLevel : EnumValue LogLevel)
    (outcome : Result (EnumValue LogLevel) ErrorSet) : Prop where
  named : ∀ text (level : LogLevel), option = some text →
    ClrEnum.Names runtime text level → outcome = .ok (.ofMember level)
  missing : isNullOrEmpty option = true → outcome = .ok defaultLevel
  rejected : ∀ text, option = some text → text ≠ "" →
    (∀ level : LogLevel, ¬ClrEnum.Names runtime text level) →
      ∃ errors, outcome = .error errors

def Runs (commandLine : CommandLineBase) : Prop :=
  ∃ logger, ∀ command, main runtime fullName command commandLine =
    .ok (runCommand (command logger))

def HonoursLogLevels (commandLine : CommandLineBase) : Prop :=
  ∃ logging, configureLogging runtime fullName commandLine = .ok logging ∧
    Honours runtime commandLine.logLevel (.ofMember .information)
      logging.consoleLevel ∧
    Honours runtime commandLine.logFileLevel (actualLevel logging.consoleLevel)
      logging.fileLevel ∧
    (logging.shared.isSome = true ↔
      (∃ level, logging.consoleLevel = .ok level) ∧
        ∃ level, logging.fileLevel = .ok level) ∧
    (Runs runtime fullName commandLine ↔ logging.shared.isSome = true)

variable {runtime fullName} {commandLine : CommandLineBase} {logging : Logging}

theorem tryParse_purpose (hcasing : runtime.InvariantCasing) {purpose : String}
    (hpurpose : purpose = "console" ∨ purpose = "file") :
    ClrEnum.tryParse runtime LogLevel purpose = none := by
  rcases hpurpose with rfl | rfl
  · exact ClrEnum.tryParse_word_eq_none hcasing (by decide)
      (fun level => by cases level <;> decide)
  · exact ClrEnum.tryParse_word_eq_none hcasing (by decide)
      (fun level => by cases level <;> decide)

section Options

variable {option : Option String} {purpose : String}
  {defaultLevel : EnumValue LogLevel}

theorem tryParseLogLevel_of_missing (hmissing : isNullOrEmpty option = true) :
    tryParseLogLevel runtime option purpose defaultLevel = .ok defaultLevel :=
  if_pos hmissing

/-- Whatever is given is rejected: what is parsed is the purpose. -/
theorem tryParseLogLevel_of_given (hcasing : runtime.InvariantCasing)
    (hpurpose : purpose = "console" ∨ purpose = "file")
    (hgiven : isNullOrEmpty option = false) :
    tryParseLogLevel runtime option purpose defaultLevel =
      .error (unrecognisedLevel option purpose) := by
  simp [tryParseLogLevel, hgiven, ClrEnum.onError_parseEnum,
    tryParse_purpose hcasing hpurpose]

theorem isNullOrEmpty_of_namesLevel (hnames : NamesLevel runtime option) :
    isNullOrEmpty option = false := by
  obtain ⟨text, rfl, level, hlevel⟩ := hnames
  have hne := hlevel.ne_nil
  rw [Ne, String.toList_eq_nil_iff] at hne
  exact isNullOrEmpty_eq_false.mpr ⟨text, rfl, hne⟩

theorem honours_iff (hcasing : runtime.InvariantCasing)
    (hpurpose : purpose = "console" ∨ purpose = "file") :
    Honours runtime option defaultLevel
        (tryParseLogLevel runtime option purpose defaultLevel) ↔
      ¬NamesLevel runtime option := by
  constructor
  · intro hhonours hnames
    have herror : tryParseLogLevel runtime option purpose defaultLevel =
        .error (unrecognisedLevel option purpose) :=
      tryParseLogLevel_of_given hcasing hpurpose
        (isNullOrEmpty_of_namesLevel hnames)
    obtain ⟨text, htext, level, hlevel⟩ := hnames
    have hlevel := hhonours.named text level htext hlevel
    rw [herror] at hlevel
    cases hlevel
  · intro hnames
    refine ⟨fun text level htext hlevel => ?_, tryParseLogLevel_of_missing,
      fun text htext hne _ => ?_⟩
    · exact absurd ⟨text, htext, level, hlevel⟩ hnames
    · exact ⟨_, tryParseLogLevel_of_given hcasing hpurpose
        (isNullOrEmpty_eq_false.mpr ⟨text, htext, hne⟩)⟩

end Options

/-- The log file, if one is given without a level of its own, has a path. -/
def FindsLogFile (fullName : String → Throws String)
    (commandLine : CommandLineBase) : Prop :=
  isNullOrEmpty commandLine.logFileLevel = true →
    isNullOrEmpty commandLine.logFile = false →
      ∃ file, fullName (commandLine.logFile.getD "") = .ok file

theorem exists_configureLogging_iff (hcasing : runtime.InvariantCasing) :
    (∃ logging, configureLogging runtime fullName commandLine = .ok logging) ↔
      FindsLogFile fullName commandLine := by
  unfold configureLogging FindsLogFile
  cases hfile : isNullOrEmpty commandLine.logFile with
  | true => simp [sendToLogFile, hfile, bind, Except.bind, pure, Except.pure]
  | false =>
      cases hlevel : isNullOrEmpty commandLine.logFileLevel with
      | true =>
          simp only [tryParseLogLevel_of_missing hlevel, sendToLogFile, hfile]
          cases fullName (commandLine.logFile.getD "") <;>
            simp [bind, Except.bind, pure, Except.pure]
      | false =>
          simp [tryParseLogLevel_of_given hcasing _ hlevel, sendToLogFile,
            hfile, bind, Except.bind, pure, Except.pure]

theorem logging_of_configureLogging
    (hlogging : configureLogging runtime fullName commandLine = .ok logging) :
    logging.consoleLevel = tryParseLogLevel runtime commandLine.logLevel
        "console" (.ofMember .information) ∧
      logging.fileLevel = tryParseLogLevel runtime commandLine.logFileLevel
        "file" (actualLevel logging.consoleLevel) ∧
      logging.shared = (logging.consoleLevel.with' logging.fileLevel
        fun _ _ => logging.logSetup).toOption := by
  simp only [configureLogging] at hlogging
  obtain ⟨logSetup, -, hreturn⟩ := Traversal.bind_eq_ok_iff.mp hlogging
  cases hreturn
  exact ⟨rfl, rfl, rfl⟩

theorem isSome_shared_iff
    (hlogging : configureLogging runtime fullName commandLine = .ok logging) :
    logging.shared.isSome = true ↔
      (∃ level, logging.consoleLevel = .ok level) ∧
        ∃ level, logging.fileLevel = .ok level := by
  rw [(logging_of_configureLogging hlogging).2.2]
  cases logging.consoleLevel <;> cases logging.fileLevel <;>
    simp [Result.with', Except.toOption]

theorem runs_iff
    (hlogging : configureLogging runtime fullName commandLine = .ok logging) :
    Runs runtime fullName commandLine ↔ logging.shared.isSome = true := by
  have hmain : ∀ command, main runtime fullName command commandLine =
      .ok (logging.shared.elim ResultCodes.failed
        fun logger => runCommand (command logger)) := by
    intro command
    rw [main, hlogging]
    cases hshared : logging.shared <;>
      simp [hshared, bind, Except.bind, pure, Except.pure]
  simp only [Runs, hmain, Except.ok.injEq]
  cases logging.shared with
  | none =>
      refine iff_of_false ?_ (by simp)
      rintro ⟨logger, hrun⟩
      have hfailed := hrun fun _ => .ok ResultCodes.success
      exact absurd hfailed (by decide)
  | some logger => exact iff_of_true ⟨logger, fun _ => rfl⟩ rfl

end Program

/-- The options are honoured exactly when none of them names a level and the
log file which is opened has a path. -/
theorem honoursLogLevels_iff (runtime : Runtime)
    (hcasing : runtime.InvariantCasing) (fullName : String → Throws String)
    (commandLine : CommandLineBase) :
    Program.HonoursLogLevels runtime fullName commandLine ↔
      ¬Program.NamesLevel runtime commandLine.logLevel ∧
        ¬Program.NamesLevel runtime commandLine.logFileLevel ∧
        Program.FindsLogFile fullName commandLine := by
  rw [← Program.exists_configureLogging_iff hcasing]
  constructor
  · rintro ⟨logging, hlogging, hconsole, hfile, -, -⟩
    obtain ⟨hconsoleLevel, hfileLevel, -⟩ :=
      Program.logging_of_configureLogging hlogging
    rw [hconsoleLevel] at hconsole
    rw [hfileLevel] at hfile
    exact ⟨(Program.honours_iff hcasing (Or.inl rfl)).mp hconsole,
      (Program.honours_iff hcasing (Or.inr rfl)).mp hfile, logging, hlogging⟩
  · rintro ⟨hconsole, hfile, logging, hlogging⟩
    obtain ⟨hconsoleLevel, hfileLevel, -⟩ :=
      Program.logging_of_configureLogging hlogging
    refine ⟨logging, hlogging, ?_, ?_, Program.isSome_shared_iff hlogging,
      Program.runs_iff hlogging⟩
    · rw [hconsoleLevel]
      exact (Program.honours_iff hcasing (Or.inl rfl)).mpr hconsole
    · rw [hfileLevel]
      exact (Program.honours_iff hcasing (Or.inr rfl)).mpr hfile

/-- A text which names no level is rejected, also when there is a log file. -/
theorem honoursLogLevels_iff_unnamed :
    Program.HonoursLogLevels .reference (fun name => .ok ("/logs/" ++ name))
      ⟨some "verbose", some "sestest.log", none⟩ := by
  refine (honoursLogLevels_iff .reference Runtime.invariantCasing_reference
    _ _).mpr ⟨?_, ?_, fun _ _ => ⟨_, rfl⟩⟩
  · rintro ⟨text, htext, level, hlevel⟩
    obtain rfl := Option.some.inj htext
    revert hlevel
    cases level <;> decide
  · rintro ⟨text, htext, -⟩
    cases htext

/-- The level which the walk-through asks for is rejected. -/
theorem not_honoursLogLevels_debug :
    ¬Program.HonoursLogLevels .reference Except.ok
      ⟨some "debug", none, none⟩ := by
  rintro ⟨logging, hlogging, hconsole, -⟩
  have hlevel := hconsole.named "debug" .debug rfl (by decide)
  rw [(Program.logging_of_configureLogging hlogging).1,
    Program.tryParseLogLevel_of_given Runtime.invariantCasing_reference
      (Or.inl rfl) rfl] at hlevel
  cases hlevel

end SoftwareEntitlement
