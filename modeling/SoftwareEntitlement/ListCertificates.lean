import SoftwareEntitlement.CertificateStores
import SoftwareEntitlement.LoggingOptions

/-!
# Listing certificates

`list-certificates` prints tables of the certificates with private keys.  Which
of the seven tables are printed depends on the `--show` option, and their
columns on `--extra-columns`.
-/

namespace SoftwareEntitlement

/-! ## Options -/

inductive ShowCertificates where
  | nonExpired
  | forSigning
  | forEncrypting
  | forServerAuth
  | expired
  | all
  deriving DecidableEq, Repr

def ShowCertificates.name : ShowCertificates → String
  | .nonExpired => "NonExpired"
  | .forSigning => "ForSigning"
  | .forEncrypting => "ForEncrypting"
  | .forServerAuth => "ForServerAuth"
  | .expired => "Expired"
  | .all => "All"

def ShowCertificates.value : ShowCertificates → BitVec 32
  | .nonExpired => 1
  | .forSigning => 2
  | .forEncrypting => 4
  | .forServerAuth => 8
  | .expired => 16
  | .all => 1 ||| 16 ||| 2 ||| 4 ||| 8

instance showCertificatesEnum : ClrEnum ShowCertificates where
  typeName := "ShowCertificates"
  members :=
    [.nonExpired, .forSigning, .forEncrypting, .forServerAuth, .expired, .all]
  name := ShowCertificates.name
  value := ShowCertificates.value
  complete mode := by cases mode <;> decide
  named mode := by cases mode <;> decide
  letters mode := by cases mode <;> decide
  distinct mode other := by cases mode <;> cases other <;> decide

inductive ExtraColumn where
  | subjectName
  | friendlyName
  deriving DecidableEq, Repr

def ExtraColumn.name : ExtraColumn → String
  | .subjectName => "SubjectName"
  | .friendlyName => "FriendlyName"

def ExtraColumn.value : ExtraColumn → BitVec 32
  | .subjectName => 0
  | .friendlyName => 1

instance extraColumnEnum : ClrEnum ExtraColumn where
  typeName := "ExtraColumn"
  members := [.subjectName, .friendlyName]
  name := ExtraColumn.name
  value := ExtraColumn.value
  complete column := by cases column <;> decide
  named column := by cases column <;> decide
  letters column := by cases column <;> decide
  distinct column other := by cases column <;> cases other <;> decide

/-! ## Certificates -/

inductive X509Extension where
  | keyUsage (keyUsages : BitVec 32)
  | enhancedKeyUsage (oids : List String)
  | other (oid : String)
  deriving DecidableEq, Repr

namespace X509KeyUsageFlags

def dataEncipherment : BitVec 32 := 16
def digitalSignature : BitVec 32 := 128

end X509KeyUsageFlags

/-- A certificate with what is shown of it and what decides where. -/
structure StoredCertificate extends X509Certificate2 where
  issuer : String
  serialNumber : String
  rawData : Option (List UInt8)
  /-- `GetNameInfo(X509NameType.DnsName, forIssuer: false)`. -/
  dnsName : String
  subjectName : String
  friendlyName : String
  notBefore : DateTime
  notAfter : DateTime
  extensions : List X509Extension
  /-- What `Verify()` returns. -/
  verify : Bool

namespace StoredCertificate

variable (certificate : StoredCertificate)

def keyUsages : List (BitVec 32) :=
  certificate.extensions.filterMap fun
    | .keyUsage keyUsages => some keyUsages
    | _ => none

def supportsUse (use : BitVec 32) : Bool :=
  match certificate.keyUsages.head? with
  | some keyUsages => keyUsages &&& use == use
  | none => true

def serverAuthenticationOid : String := "1.3.6.1.5.5.7.3.1"

def ekuExtensions : List (List String) :=
  certificate.extensions.filterMap fun
    | .enhancedKeyUsage oids => some oids
    | _ => none

def supportsServerAuthentication : Bool :=
  if certificate.ekuExtensions.isEmpty then true
  else certificate.ekuExtensions.flatten.any (· == serverAuthenticationOid)

/-- `X509Certificate.Equals` compares the issuer and the serial number. -/
def equals (other : StoredCertificate) : Bool :=
  certificate.issuer == other.issuer &&
    certificate.serialNumber == other.serialNumber

/-- `X509Certificate.GetHashCode` takes the first four bytes of the thumbprint,
here in hexadecimal digits. -/
def hashCode : List Char :=
  certificate.thumbprint.toList.take 8

/-- `Distinct()` keeps the first of equal certificates, if they have the same
hash code too. -/
def distinct : List StoredCertificate → List StoredCertificate
  | [] => []
  | certificate :: rest =>
      certificate :: (distinct rest).filter fun other =>
        !(certificate.hashCode == other.hashCode && certificate.equals other)

end StoredCertificate

/-! ## Tables -/

/-- A row of a table, with the certificate which it describes. -/
structure TableRow where
  certificate : StoredCertificate
  cells : List String

structure CertificateTable where
  title : String
  headers : List String
  rows : List TableRow

/-- The platform as the command sees it.  The clock is read twice for each row
of a table, to find the status of its certificate. -/
structure ListingPlatform where
  runtime : Runtime
  /-- `DateTime.ToString("s")` in the invariant culture. -/
  formatSortable : DateTime → String
  /-- The readings for a certificate in the table with this heading. -/
  statusClock : String → StoredCertificate → DateTime × DateTime

namespace ListCertificatesCommand

def unexpectedColumn (extraColumn : EnumValue ExtraColumn) : ClrException :=
  .invalidOperation
    ("Unexpected ExtraColumn value: " ++ toString extraColumn.value.toInt)

/-- The switch over the columns, which throws in its default branch. -/
def switchColumn (subjectName friendlyName : String)
    (extraColumn : EnumValue ExtraColumn) : Throws String :=
  if extraColumn = .ofMember .subjectName then .ok subjectName
  else if extraColumn = .ofMember .friendlyName then .ok friendlyName
  else .error (unexpectedColumn extraColumn)

def extraHeader : EnumValue ExtraColumn → Throws String :=
  switchColumn "Subject Name" "Friendly Name"

def extraCell (cert : StoredCertificate) :
    EnumValue ExtraColumn → Throws String :=
  switchColumn cert.subjectName cert.friendlyName

variable (platform : ListingPlatform)

def describeStatus (readings : DateTime × DateTime) (cert : StoredCertificate) :
    String :=
  if cert.notAfter.ticks < readings.1.ticks then "(expired)"
  else if readings.2.ticks < cert.notBefore.ticks then "(not yet active)"
  else ""

def describeCertificate (heading : String) (cert : StoredCertificate)
    (extraColumns : List (EnumValue ExtraColumn)) : Throws TableRow := do
  let extraCells ← extraColumns.mapM (extraCell cert)
  return {
    certificate := cert
    cells :=
      [cert.dnsName, cert.thumbprint, platform.formatSortable cert.notBefore,
        platform.formatSortable cert.notAfter] ++ extraCells ++
        [describeStatus (platform.statusClock heading cert) cert] }

def tableOf (heading : String) (rows : List TableRow)
    (extraHeaders : List String) : CertificateTable where
  title := "Found " ++ toString rows.length ++ " " ++ heading
  headers :=
    ["DNS Name", "Thumbprint", "Not Before", "Not After"] ++ extraHeaders
  rows := rows

/-- The table which is printed, if any: without certificates there is nothing
to log. -/
def logCertificates (heading : String) (certificates : List StoredCertificate)
    (extraColumns : List (EnumValue ExtraColumn)) :
    Throws (List CertificateTable) := do
  let rows ← certificates.mapM fun c =>
    describeCertificate platform heading c extraColumns
  if rows.isEmpty then return []
  let extraHeaders ← extraColumns.mapM extraHeader
  return [tableOf heading rows extraHeaders]

/-- One of the tables: the modes in which it is printed, and the certificates
which it contains. -/
structure TableChoice where
  modes : List ShowCertificates
  heading : String
  includes : StoredCertificate → Bool

def unexpired (now : DateTime) (cert : StoredCertificate) : Bool :=
  now.ticks < cert.notAfter.ticks

def signs (cert : StoredCertificate) : Bool :=
  cert.supportsUse X509KeyUsageFlags.digitalSignature

def encrypts (cert : StoredCertificate) : Bool :=
  cert.supportsUse X509KeyUsageFlags.dataEncipherment

/-- The tables, in the order in which they are printed. -/
def tableChoices (now : DateTime) : List TableChoice := [
  { modes := [.all, .forEncrypting, .forSigning, .nonExpired]
    heading := "non-expired certificates with private keys that allow both " ++
      "encryption and signing"
    includes := fun c => unexpired now c && signs c && encrypts c },
  { modes := [.all, .forSigning, .nonExpired]
    heading := "non-expired certificates with private keys that allow " ++
      "signing but not encryption"
    includes := fun c => unexpired now c && signs c && !encrypts c },
  { modes := [.all, .forEncrypting, .nonExpired]
    heading := "non-expired certificates with private keys that allow " ++
      "encryption but not signing"
    includes := fun c => unexpired now c && !signs c && encrypts c },
  { modes := [.all, .nonExpired]
    heading := "non-expired certificates with private keys that allow " ++
      "neither encryption nor signing"
    includes := fun c => unexpired now c && !signs c && !encrypts c },
  { modes := [.all, .forServerAuth, .nonExpired]
    heading := "non-expired certificates with private keys that allow " ++
      "server authentication and are verified"
    includes := fun c =>
      unexpired now c && c.supportsServerAuthentication && c.verify },
  { modes := [.all, .forServerAuth, .nonExpired]
    heading := "non-expired certificates with private keys that allow " ++
      "server authentication and are NOT verified"
    includes := fun c =>
      unexpired now c && c.supportsServerAuthentication && !c.verify },
  { modes := [.all]
    heading := "expired certificates"
    includes := fun c => !unexpired now c } ]

def isOneOf (modes : List ShowCertificates)
    (showCerts : EnumValue ShowCertificates) : Bool :=
  modes.any fun mode => showCerts == .ofMember mode

def showTables (now : DateTime) (showCerts : EnumValue ShowCertificates)
    (extraColumns : List (EnumValue ExtraColumn))
    (candidates : List StoredCertificate) :
    Throws (List CertificateTable) := do
  let tables ← (tableChoices now).mapM fun choice =>
    if isOneOf choice.modes showCerts then
      logCertificates platform choice.heading
        (candidates.filter choice.includes) extraColumns
    else return []
  return tables.flatten

/-! ## The command -/

/-- The certificates which have a private key, each once. -/
def candidates (found : List StoredCertificate) : List StoredCertificate :=
  StoredCertificate.distinct
    (found.filter fun c => c.hasPrivateKey && c.rawData.isSome)

def unrecognisedShow (show' : String) : String :=
  "Failed to recognize '" ++ show' ++ "'; valid choices are: " ++
    "`nonexpired` (default), 'forsigning', 'forencrypting', " ++
    "'forserverauth', 'expired', and 'all'."

def tryParseShow (runtime : Runtime) (show' : Option String) :
    Result (EnumValue ShowCertificates) ErrorSet :=
  if isNullOrEmpty show' then .ok (.ofMember .nonExpired)
  else
    (ClrEnum.parseEnum runtime ShowCertificates (show'.getD "")).onError
      fun _ => .create (unrecognisedShow (show'.getD ""))

def unrecognisedColumn (colName : String) : String :=
  "Failed to recognize '" ++ colName ++
    "'; valid choices are: 'subjectname' and 'friendlyname'."

def tryParseExtraColumn (runtime : Runtime) (colName : String) :
    Result (EnumValue ExtraColumn) ErrorSet :=
  (ClrEnum.parseEnum runtime ExtraColumn colName).onError fun _ =>
    .create (unrecognisedColumn colName)

def tryParseExtraColumns (runtime : Runtime) (extraColumnNames : List String) :
    Result (List (EnumValue ExtraColumn)) ErrorSet :=
  Result.reduce (extraColumnNames.map (tryParseExtraColumn runtime))

/-- What the command has logged, and its exit code. -/
structure Listing where
  errors : List String
  tables : List CertificateTable
  exitCode : ℤ

def execute (stores : X509Stores StoredCertificate) (now : DateTime)
    (show' : Option String) (extraColumns : List String) : Throws Listing :=
  match (tryParseShow platform.runtime show').join
      (tryParseExtraColumns platform.runtime extraColumns) with
  | .ok (showCerts, extraColumns) => do
      let found ← CertificateStore.findAll stores
      let tables ← showTables platform now showCerts extraColumns
        (candidates found)
      return ⟨[], tables, ResultCodes.success⟩
  | .error errors => .ok ⟨errors.errors.items, [], ResultCodes.failed⟩

/-! ## What is printed -/

/-- The certificate has a row in one of the tables. -/
def Printed (tables : List CertificateTable) (cert : StoredCertificate) :
    Prop :=
  ∃ table ∈ tables, ∃ row ∈ table.rows, row.certificate = cert

/-- Printing does not throw, and prints the certificates which satisfy `P`. -/
def Prints (printing : Throws (List CertificateTable))
    (P : StoredCertificate → Prop) : Prop :=
  ∃ tables, printing = .ok tables ∧ ∀ cert, Printed tables cert ↔ P cert

def Declared (extraColumn : EnumValue ExtraColumn) : Prop :=
  ∃ member, extraColumn = .ofMember member

variable {platform : ListingPlatform} {heading : String} {now : DateTime}
  {extraColumns : List (EnumValue ExtraColumn)}

theorem switchColumn_of_declared {extraColumn : EnumValue ExtraColumn}
    (hdeclared : Declared extraColumn) (subjectName friendlyName : String) :
    ∃ text, switchColumn subjectName friendlyName extraColumn = .ok text := by
  obtain ⟨member, rfl⟩ := hdeclared
  cases member with
  | subjectName => exact ⟨subjectName, rfl⟩
  | friendlyName => exact ⟨friendlyName, rfl⟩

theorem switchColumns_of_declared
    (hdeclared : ∀ extraColumn ∈ extraColumns, Declared extraColumn)
    (subjectName friendlyName : String) :
    ∃ texts, extraColumns.mapM (switchColumn subjectName friendlyName) =
      .ok texts :=
  Traversal.exists_mapM_iff.mpr fun extraColumn hmem =>
    switchColumn_of_declared (hdeclared extraColumn hmem) _ _

theorem certificate_of_describeCertificate {cert : StoredCertificate}
    {row : TableRow}
    (hrow : describeCertificate platform heading cert extraColumns = .ok row) :
    row.certificate = cert := by
  obtain ⟨extraCells, -, hreturn⟩ := Traversal.bind_eq_ok_iff.mp hrow
  cases hreturn
  rfl

theorem describeCertificate_of_declared
    (hdeclared : ∀ extraColumn ∈ extraColumns, Declared extraColumn)
    (cert : StoredCertificate) :
    ∃ row, describeCertificate platform heading cert extraColumns = .ok row := by
  obtain ⟨extraCells, hcells⟩ := switchColumns_of_declared hdeclared
    cert.subjectName cert.friendlyName
  exact ⟨_, Traversal.bind_eq_ok_iff.mpr ⟨extraCells, hcells, rfl⟩⟩

theorem certificates_of_rows {certificates : List StoredCertificate}
    {rows : List TableRow}
    (hrows : (certificates.mapM fun c =>
      describeCertificate platform heading c extraColumns) = .ok rows) :
    rows.map TableRow.certificate = certificates := by
  have hall := Traversal.mapM_eq_ok_iff.mp hrows
  clear hrows
  induction hall with
  | nil => rfl
  | cons hrow _ ih =>
      rw [List.map_cons, certificate_of_describeCertificate hrow, ih]

/-- A table of declared columns shows the certificates which it is about. -/
theorem logCertificates_prints
    (hdeclared : ∀ extraColumn ∈ extraColumns, Declared extraColumn)
    (certificates : List StoredCertificate) :
    Prints (logCertificates platform heading certificates extraColumns)
      fun cert => cert ∈ certificates := by
  obtain ⟨rows, hrows⟩ := Traversal.exists_mapM_iff.mpr
    fun cert (_ : cert ∈ certificates) =>
      describeCertificate_of_declared hdeclared cert
  obtain ⟨extraHeaders, hheaders⟩ := switchColumns_of_declared hdeclared
    "Subject Name" "Friendly Name"
  have hheaders : extraColumns.mapM extraHeader = .ok extraHeaders := hheaders
  unfold Prints logCertificates
  rw [hrows, ← certificates_of_rows hrows]
  cases rows with
  | nil => exact ⟨[], rfl, fun cert => by simp [Printed]⟩
  | cons row rows =>
      refine ⟨[tableOf heading (row :: rows) extraHeaders], ?_, fun cert => ?_⟩
      · simp [hheaders, bind, Except.bind, pure, Except.pure]
      · simp only [Printed, List.mem_singleton, exists_eq_left, tableOf,
          List.mem_map]

theorem Prints.mapM {choices : List TableChoice}
    {print : TableChoice → Throws (List CertificateTable)}
    {P : TableChoice → StoredCertificate → Prop}
    (hprints : ∀ choice ∈ choices, Prints (print choice) (P choice)) :
    Prints (do
      let tables ← choices.mapM print
      return tables.flatten) fun cert => ∃ choice ∈ choices, P choice cert := by
  obtain ⟨tables, htables⟩ := Traversal.exists_mapM_iff.mpr
    fun choice hchoice =>
      (hprints choice hchoice).imp fun _ hprinting => hprinting.1
  refine ⟨tables.flatten,
    Traversal.bind_eq_ok_iff.mpr ⟨tables, htables, rfl⟩, fun cert => ?_⟩
  have hflatten : Printed tables.flatten cert ↔
      ∃ printed ∈ tables, Printed printed cert := by
    simp only [Printed, List.mem_flatten]
    constructor
    · rintro ⟨table, ⟨printed, hprinted, htable⟩, hrow⟩
      exact ⟨printed, hprinted, table, htable, hrow⟩
    · rintro ⟨printed, hprinted, table, htable, hrow⟩
      exact ⟨table, ⟨printed, hprinted, htable⟩, hrow⟩
  simp only [hflatten, Traversal.mem_iff_of_mapM htables]
  constructor
  · rintro ⟨printed, ⟨choice, hchoice, hprint⟩, hcert⟩
    obtain ⟨tables', hprint', hshown⟩ := hprints choice hchoice
    obtain rfl : tables' = printed := Except.ok.inj (hprint'.symm.trans hprint)
    exact ⟨choice, hchoice, (hshown cert).mp hcert⟩
  · rintro ⟨choice, hchoice, hcert⟩
    obtain ⟨printed, hprint, hshown⟩ := hprints choice hchoice
    exact ⟨printed, ⟨choice, hchoice, hprint⟩, (hshown cert).mpr hcert⟩

/-- The certificates in the tables of declared columns: the candidates which
one of the tables of the mode includes. -/
theorem showTables_prints
    (hdeclared : ∀ extraColumn ∈ extraColumns, Declared extraColumn)
    (showCerts : EnumValue ShowCertificates)
    (candidates : List StoredCertificate) :
    Prints (showTables platform now showCerts extraColumns candidates)
      fun cert => ∃ choice ∈ tableChoices now,
        isOneOf choice.modes showCerts = true ∧
          cert ∈ candidates.filter choice.includes := by
  refine Prints.mapM fun choice _ => ?_
  cases isOneOf choice.modes showCerts with
  | true =>
      have hprints : Prints (logCertificates platform choice.heading
          (candidates.filter choice.includes) extraColumns) _ :=
        logCertificates_prints hdeclared _
      obtain ⟨tables, hprint, hshown⟩ := hprints
      exact ⟨tables, hprint, fun cert => by simp [hshown]⟩
  | false => exact ⟨[], rfl, fun cert => by simp [Printed]⟩

end ListCertificatesCommand

def ListingPlatform.reference : ListingPlatform where
  runtime := .reference
  formatSortable time := toString time.ticks
  statusClock _ _ := (.minValue, .minValue)

def certificateUntil (notAfter : DateTime) : StoredCertificate where
  thumbprint := "97EFF302"
  publicKey := "sample key pair"
  hasPrivateKey := true
  rsaPrivateKey := .ok ⟨"sample key pair"⟩
  issuer := "CN=sample"
  serialNumber := "01"
  rawData := some []
  dnsName := "sample"
  subjectName := "CN=sample"
  friendlyName := "Sample"
  notBefore := .minValue
  notAfter := notAfter
  extensions := []
  verify := false

end SoftwareEntitlement
