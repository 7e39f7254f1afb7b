import SoftwareEntitlement.ResponseContract
import SoftwareEntitlement.TokenDisclosure

/-!
# The native command

`sesclient.native` reads pairs of parameters from its command line, adds the
certificate which they name to the pins and asks for one entitlement.  Its exit
code says whether the entitlement was granted.
-/

namespace SoftwareEntitlement

open RetryLoop TracedOutcome

/-! ## Parameters -/

/-- `std::unordered_map`, with its elements in the order of an iteration. -/
structure UnorderedMap (κ α : Type) where
  elements : List (κ × α)
  nodupKeys : (elements.map Prod.fst).Nodup

namespace UnorderedMap

variable {κ α : Type} [DecidableEq κ]

def empty : UnorderedMap κ α := ⟨[], List.nodup_nil⟩

def find (map : UnorderedMap κ α) (key : κ) : Option α :=
  map.elements.lookup key

/-- A key which is in the map keeps its value. -/
def emplace (map : UnorderedMap κ α) (key : κ) (value : α) :
    UnorderedMap κ α :=
  if hkey : key ∈ map.elements.map Prod.fst then map
  else ⟨(key, value) :: map.elements, List.nodup_cons.mpr ⟨hkey, map.nodupKeys⟩⟩

theorem find_isSome_iff {map : UnorderedMap κ α} {key : κ} :
    (map.find key).isSome = true ↔ key ∈ map.elements.map Prod.fst := by
  simp [find, List.lookup_isSome_iff]

theorem find_eq_some_iff {map : UnorderedMap κ α} {key : κ} {value : α} :
    map.find key = some value ↔ (key, value) ∈ map.elements := by
  unfold find
  constructor
  · intro hfind
    obtain ⟨before, after, helements, -⟩ := List.lookup_eq_some_iff.mp hfind
    simp [helements]
  · intro hmem
    obtain ⟨before, after, helements⟩ := List.append_of_mem hmem
    refine List.lookup_eq_some_iff.mpr ⟨before, after, helements, ?_⟩
    intro pair hpair
    have hnodup := map.nodupKeys
    rw [helements, List.map_append, List.map_cons] at hnodup
    have hne := (List.nodup_append.mp hnodup).2.2 pair.1
      (List.mem_map_of_mem hpair) key List.mem_cons_self
    simpa using hne.symm

theorem find_emplace (map : UnorderedMap κ α) (key other : κ) (value : α) :
    (map.emplace key value).find other =
      (map.find other).or (if other = key then some value else none) := by
  unfold emplace
  split
  · rename_i hkey
    split
    · rename_i hother
      subst hother
      obtain ⟨held, hheld⟩ :=
        Option.isSome_iff_exists.mp (find_isSome_iff.mpr hkey)
      simp [hheld]
    · simp
  · rename_i hkey
    unfold find
    rw [List.lookup_cons]
    split
    · rename_i hother
      obtain rfl := eq_of_beq hother
      have hnone : map.elements.lookup other = none := by
        by_contra hsome
        exact hkey (find_isSome_iff.mp (Option.isSome_iff_ne_none.mpr hsome))
      simp [hnone]
    · rename_i hother
      simp [ne_of_beq_false hother]

theorem find_foldl_emplace (map : UnorderedMap κ α) (pairs : List (κ × α))
    (key : κ) :
    (pairs.foldl (fun map pair => map.emplace pair.1 pair.2) map).find key =
      (map.find key).or (pairs.lookup key) := by
  induction pairs generalizing map with
  | nil => simp
  | cons pair pairs ih =>
      rw [List.foldl_cons, ih, find_emplace, Option.or_assoc, List.lookup_cons]
      by_cases hkey : key = pair.1
      · simp [hkey]
      · simp [hkey, beq_false_of_ne hkey]

end UnorderedMap

namespace SesclientNative

def mandatoryParameterNames : List String :=
  ["--url", "--token", "--application"]

def optionalParameterNames : List String := ["--thumbprint", "--common-name"]

def usage (exeName : String) : List String :=
  [exeName ++ ":",
    "Contacts the specified Azure Batch software entitlement server to " ++
      "verify the provided token.",
    "",
    "Mandatory parameters:",
    "    --url <software entitlement server URL>",
    "    --token <software entitlement token to pass to the server>",
    "    --application <name of the license ID being requested>",
    "",
    "Optional parameters:",
    "    --thumbprint <thumbprint of a certificate expected in the server's " ++
      "SSL certificate chain>",
    "    --common-name <common name of the certificate with the specified " ++
      "thumbprint>"]

structure ParameterParser where
  hasConfigurationError : Bool
  parameters : UnorderedMap String String
  /-- What has been written to `std::cerr`. -/
  complaints : List String

namespace ParameterParser

def new : ParameterParser := ⟨false, .empty, []⟩

/-- The loop over the arguments from their end: a value, and its name before
it. -/
def collect (parameters : UnorderedMap String String) :
    List String → UnorderedMap String String
  | value :: key :: rest => collect (parameters.emplace key value) rest
  | _ => parameters

variable (parser : ParameterParser)

def complain (message : String) : ParameterParser :=
  { parser with
    hasConfigurationError := true
    complaints := parser.complaints ++ [message] }

def checkForMandatoryParameters : ParameterParser :=
  mandatoryParameterNames.foldl
    (fun parser param =>
      if (parser.parameters.find param).isNone then
        parser.complain ("Missing mandatory parameter " ++ param)
      else parser)
    parser

def checkForExtraParameters : ParameterParser :=
  parser.parameters.elements.foldl
    (fun parser parameter =>
      if mandatoryParameterNames.contains parameter.1 then parser
      else if optionalParameterNames.contains parameter.1 then parser
      else
        parser.complain ("Unexpected additional parameter: " ++ parameter.1 ++
          " " ++ parameter.2))
    parser

/-- Whether to show the usage; `argc` counts the name of the command, too. -/
def parse (arguments : List String) : Bool × ParameterParser :=
  let argc := arguments.length + 1
  let parser :=
    if argc % 2 = 1 then
      { parser with
        parameters := collect parser.parameters arguments.reverse }
    else parser
  if parser.parameters.elements.length = 0 then (true, parser)
  else
    (false, parser.checkForMandatoryParameters.checkForExtraParameters)

def contains (name : String) : Bool := (parser.parameters.find name).isSome

def find (name : String) : String := (parser.parameters.find name).getD ""

end ParameterParser

/-! ## The command -/

/-- The machine on which the command runs, and what answers it. -/
structure Platform where
  json : JsonLibraries
  windows : Bool
  /-- What `curl_global_init` returns. -/
  globalInit : ℤ
  /-- What `std::getline` reads. -/
  standardInput : Option String
  exchanges : ℕ → Exchange

def einval : ℤ := 22

/-- What the command has done when it ends. -/
structure Run where
  exitCode : ℤ
  output : List String
  errors : List String
  call : Option ClientCall

/-- An exception is caught at the end of `main`. -/
def Run.caught (what : String) (call : Option ClientCall) : Run :=
  ⟨-1, [], [what], call⟩

def initializer (platform : Platform) : Except String (List CertInfo) :=
  if platform.globalInit ≠ 0 then
    .error ("Microsoft::Azure::Batch::SoftwareEntitlement::Init failed with " ++
      "error " ++ toString platform.globalInit)
  else
    .ok (PinCall.init.apply [])

/-- The pins when the connection is configured, or the complaint. -/
def configureConnection (parameters : ParameterParser)
    (sslCerts : List CertInfo) : Native (Except String (List CertInfo)) :=
  if !parameters.contains "--thumbprint" && !parameters.contains "--common-name"
  then
    .ok (.ok sslCerts)
  else if !parameters.contains "--thumbprint" then
    .ok (.error
      "--thumbprint must also be used when --common-name is used")
  else if !parameters.contains "--common-name" then
    .ok (.error
      "--common-name must also be used when --thumbprint is used")
  else do
    let extended ← (PinCall.addSslCertificate (parameters.find "--thumbprint")
      (parameters.find "--common-name")).perform sslCerts
    return .ok extended

def readToken (platform : Platform) (parameters : ParameterParser) :
    Except String String :=
  let token := parameters.find "--token"
  if token = "-" then
    match platform.standardInput with
    | none => .error "Failed to read token from stdin"
    | some token => .ok token
  else
    .ok token

end SesclientNative

/-- The result of the call, if it returns. -/
def ClientCall.getEntitlement (call : ClientCall) (exchanges : ℕ → Exchange) :
    Option (Native Entitlement) :=
  match call.progress exchanges (call.retries.toNat + 1) with
  | .finished outcome => some outcome
  | _ => none

namespace SesclientNative

/-- How `main` ends once `GetEntitlement` has returned or thrown. -/
def Run.ofResult (call : ClientCall) : Native Entitlement → Run
  | .error exception => .caught (exception.what) (some call)
  | .ok entitlement => ⟨0, [entitlement.id], [], some call⟩

/-- `main` from the call of `GetEntitlement` on, if it returns. -/
def request (platform : Platform) (call : ClientCall) : Option Run :=
  (call.getEntitlement platform.exchanges).map (.ofResult call)

/-- `main` from the call of `readToken` on, if it returns. -/
def submit (platform : Platform) (parser : ParameterParser)
    (sslCerts : List CertInfo) : Option Run :=
  match readToken platform parser with
  | .error what => some (.caught what none)
  | .ok token =>
      match configureConnection parser sslCerts with
      | .error exception => some (.caught (exception.what) none)
      | .ok (.error complaint) => some ⟨-einval, [], [complaint], none⟩
      | .ok (.ok sslCerts) =>
          request platform {
            json := platform.json
            windows := platform.windows
            sslCerts := sslCerts
            url := parser.find "--url"
            entitlementToken := token
            requestedEntitlement := parser.find "--application"
            retries := 5 }

/-- `main`, if it returns. -/
def main (platform : Platform) (exeName : String) (arguments : List String) :
    Option Run :=
  match initializer platform with
  | .error what => some (.caught what none)
  | .ok sslCerts =>
      let (shouldShowUsage, parser) := ParameterParser.new.parse arguments
      if shouldShowUsage then
        some ⟨-1, [], usage exeName, none⟩
      else if parser.hasConfigurationError then
        some ⟨-einval, [], parser.complaints, none⟩
      else
        submit platform parser sslCerts

/-! ## What the command line says -/

def argumentsOf (parameters : List (String × String)) : List String :=
  parameters.flatMap fun parameter => [parameter.1, parameter.2]

/-- The value of a parameter; of several, the last one. -/
def Gives (parameters : List (String × String)) (name value : String) : Prop :=
  ∃ before after, parameters = before ++ (name, value) :: after ∧
    ∀ parameter ∈ after, parameter.1 ≠ name

def Omits (parameters : List (String × String)) (name : String) : Prop :=
  ∀ parameter ∈ parameters, parameter.1 ≠ name

/-- What is wrong with the names of the parameters. -/
inductive Problem (parameters : List (String × String)) : String → Prop
  | missing {name : String} (hname : name ∈ mandatoryParameterNames)
      (homits : Omits parameters name) :
      Problem parameters ("Missing mandatory parameter " ++ name)
  | unexpected {name value : String} (hgives : Gives parameters name value)
      (hname : name ∉ mandatoryParameterNames ++ optionalParameterNames) :
      Problem parameters
        ("Unexpected additional parameter: " ++ name ++ " " ++ value)

/-- The library is initialised, and the arguments are these parameters. -/
structure Reads (platform : Platform) (arguments : List String)
    (parameters : List (String × String)) : Prop where
  initialised : platform.globalInit = 0
  arguments : arguments = argumentsOf parameters
  nonempty : parameters ≠ []

structure Accepts (platform : Platform) (arguments : List String)
    (parameters : List (String × String)) : Prop
    extends Reads platform arguments parameters where
  names : ∀ message, ¬Problem parameters message

/-- The token is on the command line, or a line of the standard input. -/
inductive Presents (platform : Platform)
    (parameters : List (String × String)) : String → Prop
  | given {token : String} (hgives : Gives parameters "--token" token)
      (hne : token ≠ "-") : Presents platform parameters token
  | read {token : String} (hgives : Gives parameters "--token" "-")
      (hread : platform.standardInput = some token) :
      Presents platform parameters token

/-- The pins of the connection. -/
inductive Pins (parameters : List (String × String)) : List CertInfo → Prop
  | builtIn (hthumbprint : Omits parameters "--thumbprint")
      (hcommonName : Omits parameters "--common-name") :
      Pins parameters microsoftIntermediateCerts
  | added {text commonName : String} {thumbprint : SHA256Thumbprint}
      (hthumbprint : Gives parameters "--thumbprint" text)
      (hcommonName : Gives parameters "--common-name" commonName)
      (hparse : thumbprintToBinary text = .ok thumbprint) :
      Pins parameters (microsoftIntermediateCerts ++
        [{ thumbprint := thumbprint, commonName := commonName }])

/-- The call which the command line asks for. -/
structure Calls (platform : Platform) (parameters : List (String × String))
    (call : ClientCall) : Prop where
  json : call.json = platform.json
  windows : call.windows = platform.windows
  pins : Pins parameters call.sslCerts
  url : Gives parameters "--url" call.url
  token : Presents platform parameters call.entitlementToken
  application : Gives parameters "--application" call.requestedEntitlement
  retries : call.retries = 5

end SesclientNative

/-! ## What the server says -/

/-- An attempt which ends with an entitlement: the transfer succeeds, the chain
is pinned, and the response has status 200 and the two strings. -/
structure Exchange.Entitles (exchange : Exchange) (call : ClientCall)
    (url : String) (entitlement : Entitlement) : Prop
    extends exchange.Transfers where
  performed : exchange.performed = 0
  certInfo : exchange.certInfo.code = 0
  pinned : verifyIntermediateCertificate url call.sslCerts
    exchange.certInfo.value = .ok ()
  responseCode : exchange.responseCode = ⟨0, 200⟩
  id : HasString call.json exchange.response "id" entitlement.id
  vmId : HasString call.json exchange.response "vmid" entitlement.vmId

/-- One of the attempts which the call makes ends with the entitlement. -/
def ClientCall.Obtains (call : ClientCall) (exchanges : ℕ → Exchange)
    (entitlement : Entitlement) : Prop :=
  ∃ url n, checkUrl call.url = .ok url ∧ call.Makes url exchanges n ∧
    (exchanges n).Entitles call url entitlement

namespace SesclientNative

/-- How the command ends.  The cases exclude each other, and only in the last
two has a request been made. -/
inductive Ends (platform : Platform) (exeName : String)
    (arguments : List String) : Run → Prop
  | initialiserFails (hinit : platform.globalInit ≠ 0) :
      Ends platform exeName arguments
        (.caught ("Microsoft::Azure::Batch::SoftwareEntitlement::Init failed " ++
          "with error " ++ toString platform.globalInit) none)
  | showsUsage (hinit : platform.globalInit = 0)
      (hnone : ¬∃ parameters, Reads platform arguments parameters) :
      Ends platform exeName arguments ⟨-1, [], usage exeName, none⟩
  | misnamed {parameters : List (String × String)} {complaints : List String}
      (hreads : Reads platform arguments parameters)
      (hproblem : ∃ message, Problem parameters message)
      (hcomplaints : ∀ message,
        message ∈ complaints ↔ Problem parameters message) :
      Ends platform exeName arguments ⟨-22, [], complaints, none⟩
  | tokenUnread {parameters : List (String × String)}
      (haccepts : Accepts platform arguments parameters)
      (htoken : Gives parameters "--token" "-")
      (hinput : platform.standardInput = none) :
      Ends platform exeName arguments
        (.caught "Failed to read token from stdin" none)
  | halfPin {parameters : List (String × String)} {token missing given : String}
      (haccepts : Accepts platform arguments parameters)
      (htoken : Presents platform parameters token)
      (hpair : [missing, given].Perm optionalParameterNames)
      (hmissing : Omits parameters missing)
      (hgiven : ¬Omits parameters given) :
      Ends platform exeName arguments
        ⟨-22, [], [missing ++ " must also be used when " ++ given ++ " is used"],
          none⟩
  | malformedThumbprint {parameters : List (String × String)}
      {token text commonName : String} {exception : NativeException}
      (haccepts : Accepts platform arguments parameters)
      (htoken : Presents platform parameters token)
      (hthumbprint : Gives parameters "--thumbprint" text)
      (hcommonName : Gives parameters "--common-name" commonName)
      (hparse : thumbprintToBinary text = .error exception) :
      Ends platform exeName arguments
        (.caught (exception.what) none)
  | refused {parameters : List (String × String)} {call : ClientCall}
      {exception : NativeException}
      (haccepts : Accepts platform arguments parameters)
      (hcalls : Calls platform parameters call)
      (hreturns : call.getEntitlement platform.exchanges =
        some (.error exception))
      (hnone : ∀ entitlement, ¬call.Obtains platform.exchanges entitlement) :
      Ends platform exeName arguments
        (.caught (exception.what) (some call))
  | entitled {parameters : List (String × String)} {call : ClientCall}
      {entitlement : Entitlement}
      (haccepts : Accepts platform arguments parameters)
      (hcalls : Calls platform parameters call)
      (hobtains : call.Obtains platform.exchanges entitlement) :
      Ends platform exeName arguments ⟨0, [entitlement.id], [], some call⟩

/-! ## Reading the parameters -/

section Parameters

variable {parameters : List (String × String)} {name value : String}

theorem lookup_reverse_eq_some_iff :
    parameters.reverse.lookup name = some value ↔
      Gives parameters name value := by
  rw [List.lookup_eq_some_iff]
  constructor
  · rintro ⟨after, before, hparameters, hafter⟩
    refine ⟨before.reverse, after.reverse, ?_, ?_⟩
    · rw [← List.reverse_reverse parameters, hparameters]
      simp
    · intro parameter hparameter
      have hne := hafter parameter (List.mem_reverse.mp hparameter)
      simpa using Ne.symm (bne_iff_ne.mp hne)
  · rintro ⟨before, after, rfl, hafter⟩
    refine ⟨after.reverse, before.reverse, by simp, ?_⟩
    intro parameter hparameter
    simpa using Ne.symm (hafter parameter (List.mem_reverse.mp hparameter))

theorem lookup_reverse_eq_none_iff :
    parameters.reverse.lookup name = none ↔ Omits parameters name := by
  rw [List.lookup_eq_none_iff]
  simp only [List.mem_reverse, bne_iff_ne, ne_comm (a := name)]
  rfl

theorem exists_gives_of_not_omits (hgiven : ¬Omits parameters name) :
    ∃ value, Gives parameters name value := by
  rw [← lookup_reverse_eq_none_iff] at hgiven
  obtain ⟨value, hvalue⟩ := Option.ne_none_iff_exists'.mp hgiven
  exact ⟨value, lookup_reverse_eq_some_iff.mp hvalue⟩

theorem exists_argumentsOf :
    ∀ arguments : List String, arguments.length % 2 = 0 →
      ∃ parameters, arguments = argumentsOf parameters
  | [], _ => ⟨[], rfl⟩
  | [_], hpaired => by simp at hpaired
  | name :: value :: rest, hpaired => by
      simp only [List.length_cons] at hpaired
      obtain ⟨parameters, rfl⟩ := exists_argumentsOf rest (by omega)
      exact ⟨(name, value) :: parameters, rfl⟩

theorem length_argumentsOf (parameters : List (String × String)) :
    (argumentsOf parameters).length = 2 * parameters.length := by
  induction parameters with
  | nil => rfl
  | cons parameter parameters ih =>
      simp only [argumentsOf, List.flatMap_cons, List.length_append,
        List.length_cons, List.length_nil] at ih ⊢
      omega

theorem collect_reverse (map : UnorderedMap String String)
    (parameters : List (String × String)) :
    ParameterParser.collect map (argumentsOf parameters).reverse =
      parameters.reverse.foldl
        (fun map parameter => map.emplace parameter.1 parameter.2) map := by
  have hreverse : (argumentsOf parameters).reverse =
      parameters.reverse.flatMap fun parameter =>
        [parameter.2, parameter.1] := by
    simp [argumentsOf, List.reverse_flatMap, Function.comp_def]
  rw [hreverse]
  generalize parameters.reverse = reversed
  induction reversed generalizing map with
  | nil => rfl
  | cons parameter reversed ih =>
      rw [List.flatMap_cons, List.foldl_cons, ← ih]
      rfl

/-- What the parser makes of the parameters. -/
structure Parses (parameters : List (String × String))
    (map : UnorderedMap String String) : Prop where
  gives : ∀ name value,
    map.find name = some value ↔ Gives parameters name value
  omits : ∀ name, map.find name = none ↔ Omits parameters name

theorem parses_collect (parameters : List (String × String)) :
    Parses parameters
      (ParameterParser.collect .empty (argumentsOf parameters).reverse) := by
  have hfind : ∀ name, (ParameterParser.collect .empty
      (argumentsOf parameters).reverse).find name =
        parameters.reverse.lookup name := by
    intro name
    rw [collect_reverse, UnorderedMap.find_foldl_emplace]
    rfl
  exact ⟨fun name value => by rw [hfind, lookup_reverse_eq_some_iff],
    fun name => by rw [hfind, lookup_reverse_eq_none_iff]⟩

theorem Parses.elements_eq_nil_iff {map : UnorderedMap String String}
    (hparses : Parses parameters map) :
    map.elements = [] ↔ parameters = [] := by
  constructor
  · intro hempty
    refine List.eq_nil_iff_forall_not_mem.mpr fun parameter hmem => ?_
    have homits := (hparses.omits parameter.1).mp
      (by simp [UnorderedMap.find, hempty])
    exact homits parameter hmem rfl
  · rintro rfl
    refine List.eq_nil_iff_forall_not_mem.mpr fun element hmem => ?_
    have hfind := UnorderedMap.find_eq_some_iff.mpr hmem
    obtain ⟨before, after, hnil, -⟩ := (hparses.gives _ _).mp hfind
    simp at hnil

end Parameters

/-! ## Complaints -/

/-- Between two states of the parser, these complaints are made. -/
structure ParameterParser.Complains (before after : ParameterParser)
    (message : String → Prop) : Prop where
  parameters : after.parameters = before.parameters
  complaints : ∀ complaint, complaint ∈ after.complaints ↔
    complaint ∈ before.complaints ∨ message complaint
  flagged : after.hasConfigurationError = true ↔
    before.hasConfigurationError = true ∨ ∃ complaint, message complaint

namespace ParameterParser.Complains

variable {before middle after : ParameterParser}
  {message other : String → Prop}

theorem refl (hnone : ∀ complaint, ¬message complaint) :
    before.Complains before message :=
  ⟨rfl, by simp [hnone], by simp [hnone]⟩

theorem trans (hfirst : before.Complains middle message)
    (hsecond : middle.Complains after other) :
    before.Complains after
      fun complaint => message complaint ∨ other complaint where
  parameters := hsecond.parameters.trans hfirst.parameters
  complaints complaint := by
    rw [hsecond.complaints, hfirst.complaints, or_assoc]
  flagged := by
    rw [hsecond.flagged, hfirst.flagged, or_assoc, exists_or]

theorem complain {complaint : String}
    (hmessage : ∀ other, message other ↔ other = complaint) :
    before.Complains (before.complain complaint) message where
  parameters := rfl
  complaints := by simp [ParameterParser.complain, hmessage]
  flagged := by simp [ParameterParser.complain, hmessage]

theorem congr (hcomplains : before.Complains after message)
    (hmessage : ∀ complaint, message complaint ↔ other complaint) :
    before.Complains after other where
  parameters := hcomplains.parameters
  complaints complaint := by rw [hcomplains.complaints, hmessage]
  flagged := by simp only [hcomplains.flagged, hmessage]

/-- A loop which leaves the parameters as they are makes the complaints of its
items. -/
theorem foldl {α : Type} (items : List α)
    (step : ParameterParser → α → ParameterParser)
    (complaint : α → String → Prop)
    (hstep : ∀ parser : ParameterParser,
      parser.parameters = before.parameters → ∀ item,
        parser.Complains (step parser item) (complaint item)) :
    before.Complains (items.foldl step before)
      fun message => ∃ item ∈ items, complaint item message := by
  suffices hfold : ∀ parser : ParameterParser,
      parser.parameters = before.parameters →
        parser.Complains (items.foldl step parser)
          fun message => ∃ item ∈ items, complaint item message from
    hfold before rfl
  induction items with
  | nil => exact fun parser _ => refl (by simp)
  | cons item items ih =>
      intro parser hparameters
      have hitem := hstep parser hparameters item
      refine (hitem.trans (ih _ (hitem.parameters.trans hparameters))).congr ?_
      simp

end ParameterParser.Complains

section Checks

variable {parameters : List (String × String)} {parser : ParameterParser}

theorem checkForMandatoryParameters_complains
    (hparses : Parses parameters parser.parameters) :
    parser.Complains parser.checkForMandatoryParameters fun message =>
      ∃ name ∈ mandatoryParameterNames, Omits parameters name ∧
        message = "Missing mandatory parameter " ++ name := by
  refine ParameterParser.Complains.foldl _ _
    (fun name message => Omits parameters name ∧
      message = "Missing mandatory parameter " ++ name) ?_
  intro current hcurrent name
  cases hfind : parser.parameters.find name with
  | none =>
      simp only [hcurrent, hfind, Option.isNone_none, if_true]
      exact .complain fun other => and_iff_right ((hparses.omits name).mp hfind)
  | some value =>
      simp only [hcurrent, hfind, Option.isNone_some, Bool.false_eq_true,
        if_false]
      refine .refl fun message hcomplaint => ?_
      rw [← hparses.omits, hfind] at hcomplaint
      cases hcomplaint.1

theorem checkForExtraParameters_complains
    (hparses : Parses parameters parser.parameters) :
    parser.Complains parser.checkForExtraParameters fun message =>
      ∃ name value, Gives parameters name value ∧
        name ∉ mandatoryParameterNames ++ optionalParameterNames ∧
          message = "Unexpected additional parameter: " ++ name ++ " " ++
            value := by
  refine (ParameterParser.Complains.foldl parser.parameters.elements _
    (fun parameter message =>
      parameter.1 ∉ mandatoryParameterNames ++ optionalParameterNames ∧
        message = "Unexpected additional parameter: " ++ parameter.1 ++ " " ++
          parameter.2) ?_).congr ?_
  · intro current _ parameter
    by_cases hmandatory : parameter.1 ∈ mandatoryParameterNames
    · simp only [List.contains_iff_mem, hmandatory, if_true]
      exact .refl fun message hcomplaint =>
        hcomplaint.1 (List.mem_append_left _ hmandatory)
    · by_cases hoptional : parameter.1 ∈ optionalParameterNames
      · simp only [List.contains_iff_mem, hmandatory, hoptional, if_true,
          if_false]
        exact .refl fun message hcomplaint =>
          hcomplaint.1 (List.mem_append_right _ hoptional)
      · simp only [List.contains_iff_mem, hmandatory, hoptional, if_false]
        exact .complain fun other => and_iff_right (by
          simp [hmandatory, hoptional])
  · intro message
    simp only [Prod.exists, ← UnorderedMap.find_eq_some_iff, hparses.gives]

theorem checks_complain (hparses : Parses parameters parser.parameters) :
    parser.Complains
      parser.checkForMandatoryParameters.checkForExtraParameters
      (Problem parameters) := by
  have hmandatory := checkForMandatoryParameters_complains hparses
  have hextra := checkForExtraParameters_complains
    (hmandatory.parameters.symm ▸ hparses)
  refine (hmandatory.trans hextra).congr fun message => ⟨?_, ?_⟩
  · rintro (⟨name, hname, homits, rfl⟩ | ⟨name, value, hgives, hname, rfl⟩)
    · exact .missing hname homits
    · exact .unexpected hgives hname
  · rintro (⟨hname, homits⟩ | ⟨hgives, hname⟩)
    · exact .inl ⟨_, hname, homits, rfl⟩
    · exact .inr ⟨_, _, hgives, hname, rfl⟩

end Checks

section Parsing

variable {platform : Platform} {arguments : List String}
  {parameters : List (String × String)}

theorem parse_of_reads (hreads : Reads platform arguments parameters) :
    ∃ parser, ParameterParser.new.parse arguments = (false, parser) ∧
      Parses parameters parser.parameters ∧
        (∀ message,
          message ∈ parser.complaints ↔ Problem parameters message) ∧
        (parser.hasConfigurationError = true ↔
          ∃ message, Problem parameters message) := by
  obtain ⟨-, rfl, hnonempty⟩ := hreads
  let collected : ParameterParser := { ParameterParser.new with
    parameters := ParameterParser.collect ParameterParser.new.parameters
      (argumentsOf parameters).reverse }
  have hparses : Parses parameters collected.parameters :=
    parses_collect parameters
  have hcomplains := checks_complain hparses
  have hargc : ((argumentsOf parameters).length + 1) % 2 = 1 := by
    rw [length_argumentsOf]
    omega
  have hsize : ¬collected.parameters.elements.length = 0 := fun hsize =>
    hnonempty (hparses.elements_eq_nil_iff.mp (List.length_eq_zero_iff.mp hsize))
  refine ⟨_, ?_, hcomplains.parameters.symm ▸ hparses, fun message => ?_, ?_⟩
  · simp only [ParameterParser.parse, hargc, if_true]
    exact if_neg hsize
  · simpa [collected, ParameterParser.new] using hcomplains.complaints message
  · simpa [collected, ParameterParser.new] using hcomplains.flagged

theorem parse_of_not_reads (hinit : platform.globalInit = 0)
    (hnone : ¬∃ parameters, Reads platform arguments parameters) :
    (ParameterParser.new.parse arguments).1 = true := by
  unfold ParameterParser.parse
  by_cases hargc : (arguments.length + 1) % 2 = 1
  · obtain ⟨parameters, rfl⟩ := exists_argumentsOf arguments (by omega)
    have hnil : parameters = [] := by
      by_contra hnonempty
      exact hnone ⟨parameters, hinit, rfl, hnonempty⟩
    subst hnil
    rfl
  · simp only [hargc, if_false]
    rfl

variable {parser : ParameterParser}

theorem find_of_gives (hparses : Parses parameters parser.parameters)
    {name value : String} (hgives : Gives parameters name value) :
    parser.find name = value := by
  simp [ParameterParser.find, (hparses.gives name value).mpr hgives]

theorem contains_eq_false_iff (hparses : Parses parameters parser.parameters)
    (name : String) :
    parser.contains name = false ↔ Omits parameters name := by
  rw [← hparses.omits]
  simp [ParameterParser.contains]

theorem Accepts.exists_gives (haccepts : Accepts platform arguments parameters)
    (name : String) (hname : name ∈ mandatoryParameterNames) :
    ∃ value, Gives parameters name value :=
  exists_gives_of_not_omits fun homits =>
    haccepts.names _ (.missing hname homits)

theorem readToken_cases (haccepts : Accepts platform arguments parameters)
    (hparses : Parses parameters parser.parameters) :
    (∃ token, readToken platform parser = .ok token ∧
      Presents platform parameters token) ∨
    (readToken platform parser = .error "Failed to read token from stdin" ∧
      Gives parameters "--token" "-" ∧ platform.standardInput = none) := by
  obtain ⟨token, hgives⟩ := haccepts.exists_gives "--token" (by decide)
  unfold readToken
  simp only [find_of_gives hparses hgives]
  by_cases hdash : token = "-"
  · subst hdash
    cases hread : platform.standardInput with
    | none => exact .inr ⟨rfl, hgives, rfl⟩
    | some token => exact .inl ⟨token, rfl, .read hgives hread⟩
  · rw [if_neg hdash]
    exact .inl ⟨token, rfl, .given hgives hdash⟩

/-- What the two parameters for a pin do. -/
inductive Configures (parameters : List (String × String)) :
    Native (Except String (List CertInfo)) → Prop
  | pins {sslCerts : List CertInfo} (hpins : Pins parameters sslCerts) :
      Configures parameters (.ok (.ok sslCerts))
  | half {missing given : String}
      (hpair : [missing, given].Perm optionalParameterNames)
      (hmissing : Omits parameters missing)
      (hgiven : ¬Omits parameters given) :
      Configures parameters
        (.ok (.error (missing ++ " must also be used when " ++ given ++
          " is used")))
  | malformed {text commonName : String} {exception : NativeException}
      (hthumbprint : Gives parameters "--thumbprint" text)
      (hcommonName : Gives parameters "--common-name" commonName)
      (hparse : thumbprintToBinary text = .error exception) :
      Configures parameters (.error exception)

theorem configureConnection_configures
    (hparses : Parses parameters parser.parameters) :
    Configures parameters
      (configureConnection parser microsoftIntermediateCerts) := by
  unfold configureConnection
  cases hthumbprint : parser.contains "--thumbprint" with
  | false =>
      have homits := (contains_eq_false_iff hparses _).mp hthumbprint
      cases hcommonName : parser.contains "--common-name" with
      | false =>
          exact .pins (.builtIn homits
            ((contains_eq_false_iff hparses _).mp hcommonName))
      | true =>
          have hgiven : ¬Omits parameters "--common-name" := fun homits => by
            rw [← contains_eq_false_iff hparses, hcommonName] at homits
            cases homits
          have hhalf := Configures.half
            (List.Perm.refl optionalParameterNames) homits hgiven
          exact hhalf
  | true =>
      have hgiven : ¬Omits parameters "--thumbprint" := fun homits => by
        rw [← contains_eq_false_iff hparses, hthumbprint] at homits
        cases homits
      cases hcommonName : parser.contains "--common-name" with
      | false =>
          have hhalf := Configures.half
            (List.Perm.swap "--thumbprint" "--common-name" [])
            ((contains_eq_false_iff hparses _).mp hcommonName) hgiven
          exact hhalf
      | true =>
          have hgiven' : ¬Omits parameters "--common-name" := fun homits => by
            rw [← contains_eq_false_iff hparses, hcommonName] at homits
            cases homits
          obtain ⟨text, htext⟩ := exists_gives_of_not_omits hgiven
          obtain ⟨commonName, hname⟩ := exists_gives_of_not_omits hgiven'
          simp only [find_of_gives hparses htext, find_of_gives hparses hname,
            PinCall.perform]
          cases hparse : thumbprintToBinary text with
          | error exception => exact .malformed htext hname hparse
          | ok thumbprint => exact .pins (.added htext hname hparse)

end Parsing

end SesclientNative

/-! ## The call -/

section Calls

variable {call : ClientCall} {url : String} {exchange : Exchange}
  {exchanges : ℕ → Exchange} {entitlement : Entitlement}

theorem HasString.unique {json : JsonLibraries}
    {body key first second : String} (hfirst : HasString json body key first)
    (hsecond : HasString json body key second) : first = second := by
  have hboth := (extractValue_eq_ok_iff.mpr hfirst).symm.trans
    (extractValue_eq_ok_iff.mpr hsecond)
  exact Except.ok.inj hboth

theorem Entitlement.ofResponse_eq_ok_iff {json : JsonLibraries} {body : String} :
    Entitlement.ofResponse json body = .ok entitlement ↔
      HasString json body "id" entitlement.id ∧
        HasString json body "vmid" entitlement.vmId := by
  unfold Entitlement.ofResponse
  rw [← extractValue_eq_ok_iff, ← extractValue_eq_ok_iff]
  rcases extractValue json body "id" with exception | id
  · simp [bind, Except.bind]
  · rcases extractValue json body "vmid" with exception | vmId
    · simp [bind, Except.bind]
    · obtain ⟨id', vmId'⟩ := entitlement
      simp [bind, Except.bind, pure, Except.pure]

theorem interpretResponse_eq_ok_iff {json : JsonLibraries} {code : ℕ}
    {response : String} :
    interpretResponse json code response = .ok entitlement ↔
      code = 200 ∧ HasString json response "id" entitlement.id ∧
        HasString json response "vmid" entitlement.vmId := by
  unfold interpretResponse
  split
  · rename_i hcode
    simp [hcode, Entitlement.ofResponse_eq_ok_iff]
  · rename_i hcode
    simp [hcode]

theorem Curl.afterTransfer_eq_ok_iff {json : JsonLibraries}
    {sslCerts : List CertInfo} :
    (afterTransfer exchange json sslCerts url).outcome = .ok entitlement ↔
      exchange.performed = 0 ∧ exchange.certInfo.code = 0 ∧
        verifyIntermediateCertificate url sslCerts exchange.certInfo.value =
            .ok () ∧
          exchange.responseCode.code = 0 ∧
            interpretResponse json exchange.responseCode.value
              exchange.response = .ok entitlement := by
  unfold afterTransfer verifyChain readEntitlement
  by_cases hperformed : exchange.performed = 0
  · by_cases hcertInfo : exchange.certInfo.code = 0
    · simp only [hperformed, hcertInfo, throwIfCurlError_zero,
        Traced.pure_bind, Traced.bind_assoc]
      cases hverify : verifyIntermediateCertificate url sslCerts
          exchange.certInfo.value with
      | error exception =>
          simp [Traced.lift]
      | ok accepted =>
          by_cases hresponse : exchange.responseCode.code = 0
          · simp only [hresponse, throwIfCurlError_zero, Traced.pure_bind,
              true_and]
            exact Iff.rfl
          · simp only [throwIfCurlError_of_ne hresponse, hresponse,
              false_and, and_false, iff_false]
            intro hok
            cases hok
    · simp only [hperformed, throwIfCurlError_zero, Traced.pure_bind,
        throwIfCurlError_of_ne hcertInfo, hcertInfo, false_and, and_false,
        iff_false]
      intro hok
      cases hok
  · simp only [throwIfCurlError_of_ne hperformed, hperformed, false_and,
      iff_false]
    intro hok
    cases hok

theorem ClientCall.attempt_eq_ok_iff :
    (call.attempt url exchange).outcome = .ok entitlement ↔
      exchange.Entitles call url entitlement := by
  by_cases htransfers : exchange.Transfers
  · rw [attempt, Curl.outcome_of_transfers htransfers,
      Curl.afterTransfer_eq_ok_iff, interpretResponse_eq_ok_iff]
    constructor
    · rintro ⟨hperformed, hcertInfo, hpinned, hcode, hstatus, hid, hvmId⟩
      refine ⟨htransfers, hperformed, hcertInfo, hpinned, ?_, hid, hvmId⟩
      rw [← hcode, ← hstatus]
    · rintro ⟨-, hperformed, hcertInfo, hpinned, hresponse, hid, hvmId⟩
      exact ⟨hperformed, hcertInfo, hpinned, by rw [hresponse],
        by rw [hresponse], hid, hvmId⟩
  · obtain ⟨exception, hattempt, -⟩ :=
      Curl.getEntitlement_of_not_transfers htransfers
    rw [attempt, hattempt]
    exact iff_of_false (fun hok => nomatch hok)
      fun hentitles => htransfers hentitles.toTransfers

theorem ClientCall.inLoop_eq_ok_iff :
    call.inLoop url exchange = some (.ok entitlement) ↔
      (call.attempt url exchange).outcome = .ok entitlement := by
  unfold inLoop
  rcases (call.attempt url exchange).outcome with
    (message | ⟨code, message⟩ | message | code) | obtained
  case error.curlException =>
    by_cases htimeout : code = operationTimedOut
    · simp [htimeout]
    · by_cases hcaCert : call.windows = true ∧ code = sslCaCert
      · cases hpopulate : exchange.rootCerts <;> simp [hcaCert]
      · simp [htimeout, hcaCert]
  all_goals simp

theorem ClientCall.getEntitlement_of_unchecked {exception : NativeException}
    (hchecked : checkUrl call.url = .error exception) :
    call.getEntitlement exchanges = some (.error exception) := by
  simp only [getEntitlement, progress, hchecked]

/-- A bound which the counter can exceed ends the call. -/
theorem ClientCall.exists_getEntitlement (call : ClientCall)
    (exchanges : ℕ → Exchange) (hbound : call.retries.toNat ≠ 2 ^ 32 - 1) :
    ∃ outcome, call.getEntitlement exchanges = some outcome := by
  cases hchecked : checkUrl call.url with
  | error exception => exact ⟨_, getEntitlement_of_unchecked hchecked⟩
  | ok url =>
      have hfinished : ¬(call.loop url exchanges
          (call.retries.toNat + 1)).Unfinished := fun hunfinished => by
        have hpermits := (unfinished_iff.mp hunfinished).2
        unfold Permits at hpermits
        omega
      simp only [getEntitlement, progress, hchecked]
      cases hloop : call.loop url exchanges (call.retries.toNat + 1) with
      | finished outcome => exact ⟨outcome, rfl⟩
      | attempting retry => exact absurd (hloop ▸ trivial) hfinished
      | last => exact absurd (hloop ▸ trivial) hfinished

theorem ClientCall.getEntitlement_eq_ok_iff
    (hbound : call.retries.toNat ≠ 2 ^ 32 - 1) :
    call.getEntitlement exchanges = some (.ok entitlement) ↔
      call.Obtains exchanges entitlement := by
  cases hchecked : checkUrl call.url with
  | error exception =>
      rw [getEntitlement_of_unchecked hchecked]
      refine iff_of_false (by simp) ?_
      rintro ⟨url, n, hok, -⟩
      cases hchecked.symm.trans hok
  | ok url =>
      have hloop : call.getEntitlement exchanges = some (.ok entitlement) ↔
          call.loop url exchanges (call.retries.toNat + 1) =
            .finished (.ok entitlement) := by
        simp only [getEntitlement, progress, hchecked]
        cases call.loop url exchanges (call.retries.toNat + 1) <;> simp
      have hobtains : call.Obtains exchanges entitlement ↔
          ∃ n, call.Makes url exchanges n ∧
            (exchanges n).Entitles call url entitlement := by
        constructor
        · rintro ⟨other, n, hok, hmakes⟩
          obtain rfl := Except.ok.inj (hchecked.symm.trans hok)
          exact ⟨n, hmakes⟩
        · exact fun ⟨n, hmakes⟩ => ⟨url, n, hchecked, hmakes⟩
      rw [hloop, loop, finished_iff hbound, hobtains]
      simp only [← attempt_eq_ok_iff, Makes, Permits, inLoop_eq_ok_iff, hbound,
        or_false, inLoop_eq_none_iff]
      constructor
      · rintro (⟨n, hn, hretried, hok⟩ | ⟨hretried, hok⟩)
        · exact ⟨n, ⟨hretried, hn.le⟩, hok⟩
        · exact ⟨_, ⟨hretried, le_rfl⟩, hok⟩
      · rintro ⟨n, ⟨hretried, hn⟩, hok⟩
        rcases hn.lt_or_eq with hlt | rfl
        · exact .inl ⟨n, hlt, hretried, hok⟩
        · exact .inr ⟨hretried, hok⟩

end Calls

namespace SesclientNative

section Ending

variable {platform : Platform} {exeName : String} {arguments : List String}
  {parameters : List (String × String)} {parser : ParameterParser}

theorem request_ends (haccepts : Accepts platform arguments parameters)
    {call : ClientCall} (hcalls : Calls platform parameters call) :
    ∃ run, request platform call = some run ∧
      Ends platform exeName arguments run := by
  have hbound : call.retries.toNat ≠ 2 ^ 32 - 1 := by
    rw [hcalls.retries]
    decide
  unfold request
  obtain ⟨exception | entitlement, hreturns⟩ :=
    call.exists_getEntitlement platform.exchanges hbound
  · refine ⟨_, by rw [hreturns]; rfl, .refused haccepts hcalls hreturns ?_⟩
    intro entitlement hobtains
    rw [(ClientCall.getEntitlement_eq_ok_iff hbound).mpr hobtains] at hreturns
    cases hreturns
  · exact ⟨_, by rw [hreturns]; rfl, .entitled haccepts hcalls
      ((ClientCall.getEntitlement_eq_ok_iff hbound).mp hreturns)⟩

theorem submit_ends (haccepts : Accepts platform arguments parameters)
    (hparses : Parses parameters parser.parameters) :
    ∃ run, submit platform parser microsoftIntermediateCerts = some run ∧
      Ends platform exeName arguments run := by
  unfold submit
  rcases readToken_cases haccepts hparses with ⟨token, hread, hpresents⟩ |
    ⟨hunread, htoken, hinput⟩
  · have hconfigures := configureConnection_configures hparses
    simp only [hread]
    generalize configureConnection parser microsoftIntermediateCerts =
      configured at hconfigures
    cases hconfigures with
    | pins hpins =>
        obtain ⟨url, hurl⟩ := haccepts.exists_gives "--url" (by decide)
        obtain ⟨application, happlication⟩ :=
          haccepts.exists_gives "--application" (by decide)
        exact request_ends haccepts {
          json := rfl
          windows := rfl
          pins := hpins
          url := (find_of_gives hparses hurl).symm ▸ hurl
          token := hpresents
          application :=
            (find_of_gives hparses happlication).symm ▸ happlication
          retries := rfl }
    | half hpair hmissing hgiven =>
        exact ⟨_, rfl, .halfPin haccepts hpresents hpair hmissing hgiven⟩
    | malformed hthumbprint hcommonName hparse =>
        exact ⟨_, rfl, .malformedThumbprint haccepts hpresents hthumbprint
          hcommonName hparse⟩
  · rw [hunread]
    exact ⟨_, rfl, .tokenUnread haccepts htoken hinput⟩

end Ending

/-- For every command line and whatever answers it, the command ends, and ends
with the exit code which is due to it. -/
theorem main_ends (platform : Platform) (exeName : String)
    (arguments : List String) :
    ∃ run, main platform exeName arguments = some run ∧
      Ends platform exeName arguments run := by
  unfold main initializer
  by_cases hinit : platform.globalInit = 0
  · simp only [hinit, ne_eq, not_true_eq_false, if_false]
    by_cases hreads : ∃ parameters, Reads platform arguments parameters
    · obtain ⟨parameters, hreads⟩ := hreads
      obtain ⟨parser, hparse, hparses, hcomplaints, hflag⟩ :=
        parse_of_reads hreads
      simp only [hparse, Bool.false_eq_true, if_false]
      by_cases hproblem : ∃ message, Problem parameters message
      · rw [if_pos (hflag.mpr hproblem)]
        exact ⟨_, rfl, .misnamed hreads hproblem hcomplaints⟩
      · rw [if_neg (mt hflag.mp hproblem)]
        have haccepts : Accepts platform arguments parameters :=
          ⟨hreads, fun message hmessage => hproblem ⟨message, hmessage⟩⟩
        exact submit_ends haccepts hparses
    · simp only [parse_of_not_reads hinit hreads, if_true]
      exact ⟨_, rfl, .showsUsage hinit hreads⟩
  · simp only [hinit, ne_eq, not_false_eq_true, if_true]
    exact ⟨_, rfl, .initialiserFails hinit⟩

end SesclientNative

end SoftwareEntitlement
