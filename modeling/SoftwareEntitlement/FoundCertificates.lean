import SoftwareEntitlement.ExceptionLogging
import SoftwareEntitlement.LoggedTables

/-!
# Finding the certificates which are listed

`list-certificates` prints the thumbprints of the certificates with private
keys, and `find-certificate` prints the details of the certificate with a
thumbprint.  What the first prints, the second finds.
-/

namespace SoftwareEntitlement

def X509Stores.map {α β : Type} (stores : X509Stores α) (f : α → β) :
    X509Stores β where
  certificates name location :=
    (stores.certificates name location).map (List.map f)
  unsupported := by
    intro name location exception hthrows
    refine stores.unsupported name location exception ?_
    cases hstore : stores.certificates name location with
    | error thrown => simpa [hstore, Except.map] using hthrows
    | ok certificates => simp [hstore, Except.map] at hthrows

def hexadecimalDigits : List Char := "0123456789ABCDEF".toList

def IsHexadecimal (text : String) : Prop :=
  text ≠ "" ∧ ∀ c ∈ text.toList, c ∈ hexadecimalDigits

/-- The platform as both commands see it. -/
structure CertificatePlatform where
  runtime : TextRuntime
  formatSortable : DateTime → String
  statusClock : String → StoredCertificate → DateTime × DateTime
  /-- `X509Certificate2.ToString()`. -/
  describe : X509Certificate2 → String
  stores : X509Stores StoredCertificate
  /-- A thumbprint is a hash, in upper-case hexadecimal digits. -/
  hexadecimal : ∀ name location certificates,
    stores.certificates name location = .ok certificates →
      ∀ certificate ∈ certificates, IsHexadecimal certificate.thumbprint
  isLetterOrDigit : ∀ c ∈ hexadecimalDigits, runtime.isLetterOrDigit c = true
  toUpperInvariant : ∀ c ∈ hexadecimalDigits, runtime.toUpperInvariant c = c

/-- What a command has logged, and its exit code. -/
structure CommandOutput where
  information : List String
  errors : List String
  exitCode : ℤ

def Result.logIfFailed (result : Result CommandOutput ErrorSet)
    (valueIfFailed : ℤ) : CommandOutput :=
  match result with
  | .ok output => output
  | .error errors => ⟨[], errors.errors.items, valueIfFailed⟩

variable (platform : CertificatePlatform)

def CertificatePlatform.listing : ListingPlatform where
  runtime := platform.runtime.toRuntime
  formatSortable := platform.formatSortable
  statusClock := platform.statusClock

/-! ## Commands -/

namespace ListCertificatesCommand

def logTable (table : CertificateTable) : Throws (List String) := do
  let lines ← LoggerExtensions.logInformationTable
    (table.headers :: table.rows.map TableRow.cells)
  return ["", table.title, ""] ++ lines

def foundLine (candidates : List StoredCertificate) : String :=
  "Found " ++ toString candidates.length ++ " certificates with private keys"

/-- `Execute`, with the lines which it logs. -/
def output (now : DateTime) (show' : Option String)
    (extraColumns : List String) : Throws CommandOutput :=
  match (tryParseShow platform.listing.runtime show').join
      (tryParseExtraColumns platform.listing.runtime extraColumns) with
  | .ok (showCerts, extraColumns) => do
      let found ← CertificateStore.findAll platform.stores
      let tables ← showTables platform.listing now showCerts extraColumns
        (candidates found)
      let blocks ← tables.mapM logTable
      return ⟨foundLine (candidates found) :: blocks.flatten, [],
        ResultCodes.success⟩
  | .error errors => .ok ⟨[], errors.errors.items, ResultCodes.failed⟩

end ListCertificatesCommand

namespace FindCertificateCommand

def showCertificate (certificate : X509Certificate2) : CommandOutput where
  information := asLines (platform.describe certificate)
  errors := []
  exitCode := ResultCodes.success

def execute (thumbprint : Option String) : Throws CommandOutput := do
  let thumbprint ← CertificateThumbprint.new platform.runtime thumbprint
  let found ← CertificateStore.findByThumbprint platform.runtime
    (platform.stores.map StoredCertificate.toX509Certificate2) "required"
    thumbprint
  return Result.logIfFailed (found.map (showCertificate platform))
    ResultCodes.failed

end FindCertificateCommand

/-- The exit code of `find-certificate`. -/
def Program.findCertificate (thumbprint : Option String) : ℤ :=
  runCommand do
    let output ← FindCertificateCommand.execute platform thumbprint
    return output.exitCode

/-! ## Lookups -/

namespace CertificatePlatform

def Stores (certificate : StoredCertificate) : Prop :=
  ∃ name location certificates,
    platform.stores.certificates name location = .ok certificates ∧
      certificate ∈ certificates

/-- No supported store holds several certificates with the thumbprint. -/
def Single (thumbprint : String) : Prop :=
  ∀ name location certificates,
    platform.stores.certificates name location = .ok certificates →
      (certificates.filter fun certificate =>
        certificate.thumbprint == thumbprint).length ≤ 1

/-- `find-certificate` shows a certificate with this thumbprint and a private
key, unless a store holds several. -/
structure Finds (thumbprint : String) : Prop where
  shown : platform.Single thumbprint →
    ∃ certificate, platform.Stores certificate ∧
      certificate.thumbprint = thumbprint ∧
      certificate.hasPrivateKey = true ∧
      FindCertificateCommand.execute platform (some thumbprint) =
        .ok (FindCertificateCommand.showCertificate platform
          certificate.toX509Certificate2)
  ambiguous : ¬platform.Single thumbprint →
    Program.findCertificate platform (some thumbprint) =
      ResultCodes.internalError

variable {platform}

theorem sanitizeThumbprint_eq {text : String} (hhex : IsHexadecimal text) :
    CertificateThumbprint.sanitizeThumbprint platform.runtime text = text := by
  rw [CertificateThumbprint.sanitizeThumbprint, List.filter_eq_self.mpr
    fun c hc => platform.isLetterOrDigit c (hhex.2 c hc)]
  rw [List.map_congr_left fun c hc =>
    platform.toUpperInvariant c (hhex.2 c hc), List.map_id', String.ofList_toList]

theorem matchesThumbprint_eq {text other : String} (hhex : IsHexadecimal text)
    (hother : IsHexadecimal other) :
    CertificateThumbprint.matchesThumbprint platform.runtime ⟨text⟩
      (some other) = (other == text) := by
  have hupper : ∀ {text : String}, IsHexadecimal text →
      text.toList.map platform.runtime.toUpperInvariant = text.toList := by
    intro text hhex
    rw [List.map_congr_left fun c hc =>
      platform.toUpperInvariant c (hhex.2 c hc), List.map_id']
  rw [Bool.eq_iff_iff, CertificateThumbprint.matchesThumbprint,
    Runtime.equalsOrdinalIgnoreCase_iff, Option.getD_some,
    sanitizeThumbprint_eq hother, hupper hhex, hupper hother,
    String.toList_inj, beq_iff_eq, eq_comm]

theorem find_eq_filter {thumbprint : String} (hhex : IsHexadecimal thumbprint)
    {certificates : List StoredCertificate}
    (hall : ∀ certificate ∈ certificates,
      IsHexadecimal certificate.thumbprint) :
    CertificateStore.find platform.runtime
        (certificates.map StoredCertificate.toX509Certificate2) ⟨thumbprint⟩ =
      (certificates.filter fun certificate =>
        certificate.thumbprint == thumbprint).map
          StoredCertificate.toX509Certificate2 := by
  rw [CertificateStore.find, List.filter_map]
  congr 1
  exact List.filter_congr fun certificate hmem =>
    matchesThumbprint_eq hhex (hall certificate hmem)

theorem certificates_map_eq_ok_iff {name : StoreName} {location : StoreLocation}
    {certificates : List X509Certificate2} :
    (platform.stores.map StoredCertificate.toX509Certificate2).certificates name
        location = .ok certificates ↔
      ∃ stored, platform.stores.certificates name location = .ok stored ∧
        stored.map StoredCertificate.toX509Certificate2 = certificates := by
  simp only [X509Stores.map]
  cases platform.stores.certificates name location <;> simp [Except.map]

theorem single_iff {thumbprint : String} (hhex : IsHexadecimal thumbprint) :
    (∀ name location certificates,
      (platform.stores.map StoredCertificate.toX509Certificate2).certificates
          name location = .ok certificates →
        (CertificateStore.find platform.runtime certificates
          ⟨thumbprint⟩).length ≤ 1) ↔
      platform.Single thumbprint := by
  refine forall₂_congr fun name location => ?_
  simp only [certificates_map_eq_ok_iff, forall_exists_index, and_imp]
  rw [forall_comm]
  refine forall_congr' fun stored => ?_
  rw [forall_comm]
  refine imp_congr_right fun hstored => ?_
  rw [forall_eq', find_eq_filter hhex
    (platform.hexadecimal name location stored hstored), List.length_map]

theorem holds_iff {thumbprint : String} (hhex : IsHexadecimal thumbprint)
    {certificate : X509Certificate2} :
    CertificateStore.Holds platform.runtime
        (platform.stores.map StoredCertificate.toX509Certificate2) ⟨thumbprint⟩
        certificate ↔
      ∃ stored, platform.Stores stored ∧ stored.thumbprint = thumbprint ∧
        stored.toX509Certificate2 = certificate := by
  simp only [CertificateStore.Holds, certificates_map_eq_ok_iff]
  constructor
  · rintro ⟨name, location, _, ⟨stored, hstored, rfl⟩, hmem⟩
    rw [find_eq_filter hhex (platform.hexadecimal name location stored hstored)]
      at hmem
    obtain ⟨entry, hentry, rfl⟩ := List.mem_map.mp hmem
    obtain ⟨hmem, hthumbprint⟩ := List.mem_filter.mp hentry
    exact ⟨entry, ⟨name, location, stored, hstored, hmem⟩,
      eq_of_beq hthumbprint, rfl⟩
  · rintro ⟨entry, ⟨name, location, stored, hstored, hmem⟩, hthumbprint, rfl⟩
    refine ⟨name, location, _, ⟨stored, hstored, rfl⟩, ?_⟩
    rw [find_eq_filter hhex (platform.hexadecimal name location stored hstored)]
    exact List.mem_map_of_mem
      (List.mem_filter.mpr ⟨hmem, beq_iff_eq.mpr hthumbprint⟩)

end CertificatePlatform

section Texts

variable {text : String}

theorem not_isWhiteSpace_of_hexadecimal {c : Char}
    (hdigit : c ∈ hexadecimalDigits) : isWhiteSpace c = false := by
  have hall : hexadecimalDigits.all (fun c => !isWhiteSpace c) = true := by
    decide
  simpa using List.all_eq_true.mp hall c hdigit

theorem new_of_hexadecimal {platform : CertificatePlatform}
    (hhex : IsHexadecimal text) :
    CertificateThumbprint.new platform.runtime (some text) = .ok ⟨text⟩ := by
  obtain ⟨c, hc⟩ := List.exists_mem_of_ne_nil text.toList
    (mt String.toList_eq_nil_iff.mp hhex.1)
  have hblank : isNullOrWhiteSpace (some text) = false := by
    refine List.all_eq_false.mpr ⟨c, hc, ?_⟩
    simp [not_isWhiteSpace_of_hexadecimal (hhex.2 c hc)]
  rw [CertificateThumbprint.new_of_not_blank hblank,
    CertificatePlatform.sanitizeThumbprint_eq hhex]

theorem trimEnd_of_hexadecimal (hhex : IsHexadecimal text) :
    LoggerExtensions.trimEnd text = text := by
  rw [LoggerExtensions.trimEnd, List.rdropWhile_eq_self_iff.mpr,
    String.ofList_toList]
  intro hne
  simp [not_isWhiteSpace_of_hexadecimal
    (hhex.2 _ (List.getLast_mem hne))]

end Texts

namespace CertificatePlatform

variable {platform}

theorem execute_of_hexadecimal {thumbprint : String}
    (hhex : IsHexadecimal thumbprint) :
    FindCertificateCommand.execute platform (some thumbprint) = (do
      let found ← CertificateStore.findByThumbprint platform.runtime
        (platform.stores.map StoredCertificate.toX509Certificate2) "required"
        ⟨thumbprint⟩
      return Result.logIfFailed
        (found.map (FindCertificateCommand.showCertificate platform))
        ResultCodes.failed) := by
  rw [FindCertificateCommand.execute, new_of_hexadecimal hhex]
  rfl

theorem hexadecimal_of_stores {certificate : StoredCertificate}
    (hstores : platform.Stores certificate) :
    IsHexadecimal certificate.thumbprint := by
  obtain ⟨name, location, certificates, hstore, hmem⟩ := hstores
  exact platform.hexadecimal name location certificates hstore certificate hmem

theorem finds_of_stores {certificate : StoredCertificate}
    (hstores : platform.Stores certificate)
    (hkey : certificate.hasPrivateKey = true) :
    platform.Finds certificate.thumbprint := by
  have hhex := hexadecimal_of_stores hstores
  have hreturns : _ ↔ platform.Single certificate.thumbprint :=
    (CertificateStore.exists_findByThumbprint_iff "required").trans
      (single_iff hhex)
  have hholds := (holds_iff hhex).mpr ⟨certificate, hstores, rfl, rfl⟩
  constructor
  · intro hsingle
    obtain ⟨result, hresult⟩ := hreturns.mpr hsingle
    obtain ⟨result', hresult', hfinds, hbest⟩ :=
      CertificateStore.completeLookup_of_returns hresult
    obtain rfl := Except.ok.inj (hresult'.symm.trans hresult)
    obtain ⟨shown, rfl⟩ := hfinds.mpr ⟨_, hholds⟩
    obtain ⟨hshown, hprivate⟩ := hbest shown rfl
    obtain ⟨stored, hstored, hthumbprint, rfl⟩ := (holds_iff hhex).mp hshown
    refine ⟨stored, hstored, hthumbprint, hprivate ⟨_, hholds, hkey⟩, ?_⟩
    rw [execute_of_hexadecimal hhex, hresult]
    rfl
  · intro hseveral
    -- the exception of `SingleOrDefault` ends the command
    rw [Program.findCertificate, execute_of_hexadecimal hhex]
    cases hfind : CertificateStore.findByThumbprint platform.runtime
        (platform.stores.map StoredCertificate.toX509Certificate2) "required"
        ⟨certificate.thumbprint⟩ with
    | ok result => exact absurd (hreturns.mp ⟨result, hfind⟩) hseveral
    | error exception => rfl

end CertificatePlatform

/-! ## Tables -/

section Tables

/-- The table is about some of the certificates, by their thumbprints. -/
structure CertificateTable.Lists (certificates : List StoredCertificate)
    (table : CertificateTable) : Prop where
  header : table.headers[1]? = some "Thumbprint"
  rows : ∀ row ∈ table.rows, row.certificate ∈ certificates ∧
    row.cells[1]? = some row.certificate.thumbprint

namespace ListCertificatesCommand

variable {listing : ListingPlatform} {heading : String} {now : DateTime}
  {extraColumns : List (EnumValue ExtraColumn)}

theorem logCertificates_lists {certificates : List StoredCertificate}
    {tables : List CertificateTable}
    (hlog : logCertificates listing heading certificates extraColumns =
      .ok tables) :
    ∀ table ∈ tables, table.Lists certificates := by
  obtain ⟨rows, hrows, hrest⟩ := Traversal.bind_eq_ok_iff.mp hlog
  have hcertificates := certificates_of_rows hrows
  split at hrest
  · cases hrest
    exact nofun
  · obtain ⟨extraHeaders, -, hreturn⟩ := Traversal.bind_eq_ok_iff.mp hrest
    cases hreturn
    simp only [List.mem_singleton, forall_eq]
    refine ⟨rfl, fun row hrow => ⟨?_, ?_⟩⟩
    · rw [← hcertificates]
      exact List.mem_map_of_mem hrow
    · obtain ⟨certificate, -, hdescribe⟩ :=
        (Traversal.mem_iff_of_mapM hrows).mp hrow
      obtain ⟨extraCells, -, hreturn⟩ := Traversal.bind_eq_ok_iff.mp hdescribe
      cases hreturn
      rfl

theorem showTables_lists {showCerts : EnumValue ShowCertificates}
    {candidates : List StoredCertificate} {tables : List CertificateTable}
    (hshow : showTables listing now showCerts extraColumns candidates =
      .ok tables) :
    ∀ table ∈ tables, table.Lists candidates := by
  obtain ⟨printed, hprinted, hreturn⟩ := Traversal.bind_eq_ok_iff.mp hshow
  cases hreturn
  intro table htable
  obtain ⟨tables, htables, hmem⟩ := List.mem_flatten.mp htable
  obtain ⟨choice, -, hchoice⟩ := (Traversal.mem_iff_of_mapM hprinted).mp htables
  split at hchoice
  · have hlists := logCertificates_lists hchoice table hmem
    exact ⟨hlists.header, fun row hrow =>
      ⟨List.mem_of_mem_filter (hlists.rows row hrow).1,
        (hlists.rows row hrow).2⟩⟩
  · cases hchoice
    cases hmem

theorem mem_of_mem_distinct {certificate : StoredCertificate}
    {certificates : List StoredCertificate}
    (hmem : certificate ∈ StoredCertificate.distinct certificates) :
    certificate ∈ certificates := by
  induction certificates with
  | nil => exact hmem
  | cons first rest ih =>
      rw [StoredCertificate.distinct, List.mem_cons] at hmem
      rcases hmem with rfl | hrest
      · exact List.mem_cons_self
      · exact List.mem_cons_of_mem first (ih (List.mem_of_mem_filter hrest))

theorem mem_of_mem_candidates {certificate : StoredCertificate}
    {found : List StoredCertificate} (hmem : certificate ∈ candidates found) :
    certificate ∈ found ∧ certificate.hasPrivateKey = true := by
  obtain ⟨hfound, hkey⟩ := List.mem_filter.mp (mem_of_mem_distinct hmem)
  rw [Bool.and_eq_true] at hkey
  exact ⟨hfound, hkey.1⟩

end ListCertificatesCommand

variable {platform}

theorem CertificatePlatform.stores_of_findAll {found : List StoredCertificate}
    (hfound : CertificateStore.findAll platform.stores = .ok found)
    {certificate : StoredCertificate} (hmem : certificate ∈ found) :
    platform.Stores certificate := by
  obtain ⟨lists, hlists, hreturn⟩ := Traversal.bind_eq_ok_iff.mp hfound
  cases hreturn
  obtain ⟨certificates, hcertificates, hmem⟩ := List.mem_flatten.mp hmem
  obtain ⟨⟨name, location⟩, -, hplace⟩ :=
    (Traversal.mem_iff_of_mapM hlists).mp hcertificates
  unfold CertificateStore.findAllIn at hplace
  cases hstore : platform.stores.certificates name location with
  | ok stored =>
      simp only [hstore, Except.ok.injEq] at hplace
      subst hplace
      exact ⟨name, location, stored, hstore, hmem⟩
  | error exception =>
      simp only [hstore, platform.stores.unsupported name location exception
        hstore, if_true, Except.ok.injEq] at hplace
      subst hplace
      cases hmem

end Tables

/-! ## What is listed can be found -/

namespace CertificatePlatform

open LoggerExtensions

/-- The line shows the row, and what it shows as the thumbprint is found. -/
structure Shows (widths : List ℕ) (row : TableRow) (line : String) : Prop where
  cells : columns widths line = legible widths row.cells
  thumbprint : (columns widths line)[1]? = some row.certificate.thumbprint
  finds : platform.Finds row.certificate.thumbprint

/-- The lines of a table, in columns the second of which is headed
`Thumbprint`. -/
inductive Prints (table : CertificateTable) : List String → Prop
  | block {widths : List ℕ} {header : String} {lines : List String}
      (hheader : (columns widths header)[1]? = some "Thumbprint")
      (hlines : List.Forall₂ (platform.Shows widths) table.rows lines) :
      Prints table (["", table.title, ""] ++ header :: lines)

variable {platform}

theorem exists_logTable {certificates : List StoredCertificate}
    {table : CertificateTable} (hlists : table.Lists certificates)
    (hfinds : ∀ certificate ∈ certificates,
      IsHexadecimal certificate.thumbprint ∧
        platform.Finds certificate.thumbprint) :
    ∃ block, ListCertificatesCommand.logTable table = .ok block ∧
      platform.Prints table block := by
  obtain ⟨widths, hlogged, hgap⟩ :=
    exists_widths (List.cons_ne_nil table.headers (table.rows.map (·.cells)))
  have hread : ∀ {row : List String} {text : String},
      row ∈ table.headers :: table.rows.map (·.cells) →
        row[1]? = some text → trimEnd text = text →
          (columns widths (tableLine widths row))[1]? = some text := by
    intro row text hrow htext htrim
    obtain ⟨hlength, -⟩ := List.getElem?_eq_some_iff.mp htext
    rw [columns_tableLine (hgap row hrow), legible, List.getElem?_append_left
      (by simpa using hlength), List.getElem?_map, htext, Option.map_some, htrim]
  have hlines : List.Forall₂ (platform.Shows widths) table.rows
      (table.rows.map fun row => tableLine widths row.cells) := by
    rw [List.forall₂_map_right_iff, List.forall₂_same]
    intro row hrow
    have hcells := List.mem_cons_of_mem table.headers
      (List.mem_map_of_mem (f := (·.cells)) hrow)
    obtain ⟨hmem, hthumbprint⟩ := hlists.rows row hrow
    obtain ⟨hhex, hfound⟩ := hfinds row.certificate hmem
    exact ⟨columns_tableLine (hgap row.cells hcells),
      hread hcells hthumbprint (trimEnd_of_hexadecimal hhex), hfound⟩
  have hheader := hread List.mem_cons_self hlists.header (by decide)
  refine ⟨_, ?_, .block hheader hlines⟩
  rw [ListCertificatesCommand.logTable, hlogged]
  simp [bind, Except.bind, pure, Except.pure, Function.comp_def]

theorem exists_logTables {certificates : List StoredCertificate}
    {tables : List CertificateTable}
    (hlists : ∀ table ∈ tables, table.Lists certificates)
    (hfinds : ∀ certificate ∈ certificates,
      IsHexadecimal certificate.thumbprint ∧
        platform.Finds certificate.thumbprint) :
    ∃ blocks, tables.mapM ListCertificatesCommand.logTable = .ok blocks ∧
      List.Forall₂ platform.Prints tables blocks := by
  obtain ⟨blocks, hblocks⟩ := Traversal.exists_mapM_iff.mpr
    fun table htable =>
      (exists_logTable (hlists table htable) hfinds).imp fun _ hlog => hlog.1
  refine ⟨blocks, hblocks, List.forall₂_iff_get.mpr ?_⟩
  have hall := Traversal.mapM_eq_ok_iff.mp hblocks
  refine ⟨hall.length_eq, fun index htables hindex => ?_⟩
  obtain ⟨block, hlog, hprints⟩ :=
    exists_logTable (hlists _ (List.get_mem tables ⟨index, htables⟩)) hfinds
  obtain rfl := Except.ok.inj (hlog.symm.trans (hall.get htables hindex))
  exact hprints

end CertificatePlatform

/-- A successful listing prints its tables so that the thumbprint of every row
can be read from its line and, given to `find-certificate`, finds a certificate
with that thumbprint and a private key. -/
theorem finds_listed (platform : CertificatePlatform) (now : DateTime)
    (show' : Option String) (extraColumns : List String)
    {listing : ListCertificatesCommand.Listing}
    (hlisting : ListCertificatesCommand.execute platform.listing platform.stores
      now show' extraColumns = .ok listing)
    (hsuccess : listing.exitCode = ResultCodes.success) :
    ∃ found blocks, CertificateStore.findAll platform.stores = .ok found ∧
      ListCertificatesCommand.output platform now show' extraColumns = .ok {
        information := ListCertificatesCommand.foundLine
          (ListCertificatesCommand.candidates found) :: blocks.flatten
        errors := []
        exitCode := ResultCodes.success } ∧
      List.Forall₂ platform.Prints listing.tables blocks := by
  unfold ListCertificatesCommand.execute at hlisting
  unfold ListCertificatesCommand.output
  cases harguments :
      (ListCertificatesCommand.tryParseShow platform.listing.runtime show').join
        (ListCertificatesCommand.tryParseExtraColumns platform.listing.runtime
          extraColumns) with
  | error errors =>
      rw [harguments] at hlisting
      cases hlisting
      cases hsuccess
  | ok arguments =>
      obtain ⟨showCerts, extraColumns⟩ := arguments
      simp only [harguments] at hlisting
      obtain ⟨found, hfound, hrest⟩ := Traversal.bind_eq_ok_iff.mp hlisting
      obtain ⟨tables, htables, hreturn⟩ := Traversal.bind_eq_ok_iff.mp hrest
      cases hreturn
      have hlists := ListCertificatesCommand.showTables_lists htables
      obtain ⟨blocks, hblocks, hprints⟩ :=
        CertificatePlatform.exists_logTables hlists fun certificate hmem => by
          obtain ⟨hmem, hkey⟩ :=
            ListCertificatesCommand.mem_of_mem_candidates hmem
          have hstores := CertificatePlatform.stores_of_findAll hfound hmem
          exact ⟨CertificatePlatform.hexadecimal_of_stores hstores,
            CertificatePlatform.finds_of_stores hstores hkey⟩
      refine ⟨found, blocks, hfound, ?_, hprints⟩
      simp only [hfound, htables, hblocks, bind, Except.bind, pure, Except.pure]

/-- The personal store of the user holds one certificate. -/
def CertificatePlatform.reference : CertificatePlatform where
  runtime := .reference
  formatSortable := ListingPlatform.reference.formatSortable
  statusClock := ListingPlatform.reference.statusClock
  describe certificate := "[Thumbprint]\n  " ++ certificate.thumbprint
  stores := {
    certificates
      | .my, .currentUser => .ok [certificateUntil referenceMoment.utcDateTime]
      | _, _ => .ok []
    unsupported := by
      intro name location exception hthrows
      cases name <;> cases location <;> cases hthrows }
  hexadecimal := by
    intro name location certificates hstore certificate hmem
    cases name <;> cases location <;> cases hstore <;> cases hmem
    · have hdigits : "97EFF302".toList.all
          (fun c => hexadecimalDigits.contains c) = true := by decide
      exact ⟨by decide, fun c hc =>
        List.contains_iff_mem.mp (List.all_eq_true.mp hdigits c hc)⟩
    · rename_i hmem
      cases hmem
  isLetterOrDigit := by
    have hdigits : hexadecimalDigits.all
        TextRuntime.reference.isLetterOrDigit = true := by decide
    exact List.all_eq_true.mp hdigits
  toUpperInvariant := by
    have hdigits : hexadecimalDigits.all (fun c =>
        TextRuntime.reference.toUpperInvariant c == c) = true := by decide
    exact fun c hc => eq_of_beq (List.all_eq_true.mp hdigits c hc)

/-- The certificate appears in two of the tables. -/
theorem finds_listed_reference :
    ∃ listing found blocks,
      ListCertificatesCommand.execute CertificatePlatform.reference.listing
          CertificatePlatform.reference.stores .minValue none
          ["friendlyname"] = .ok listing ∧
        listing.tables.length = 2 ∧
        ListCertificatesCommand.output .reference .minValue none
            ["friendlyname"] = .ok {
          information := ListCertificatesCommand.foundLine
            (ListCertificatesCommand.candidates found) :: blocks.flatten
          errors := []
          exitCode := ResultCodes.success } ∧
        List.Forall₂ (CertificatePlatform.Prints .reference) listing.tables
          blocks := by
  obtain ⟨listing, hlisting, hsuccess, htables⟩ :
      ∃ listing, ListCertificatesCommand.execute
          CertificatePlatform.reference.listing
          CertificatePlatform.reference.stores .minValue none
          ["friendlyname"] = .ok listing ∧
        listing.exitCode = ResultCodes.success ∧ listing.tables.length = 2 :=
    ⟨_, rfl, rfl, rfl⟩
  obtain ⟨found, blocks, -, houtput, hprints⟩ :=
    finds_listed .reference .minValue none ["friendlyname"] hlisting hsuccess
  exact ⟨listing, found, blocks, hlisting, htables, houtput, hprints⟩

end SoftwareEntitlement
