import SoftwareEntitlement.ListCertificates

/-!
# Extra columns

What `TryParseExtraColumns` lets through, `DescribeCertificate` and
`LogCertificates` have to print.  The parser of the platform lets through more
than the names of the two columns: numerals which stand for no column, and
names with white space or other names around them.
-/

namespace SoftwareEntitlement

namespace ListCertificatesCommand

/-- Each column is declared, and is the one which the text at its place names,
without regard to case. -/
def NamesColumns (runtime : Runtime) (names : List String)
    (extraColumns : List (EnumValue ExtraColumn)) : Prop :=
  List.Forall₂ (fun colName extraColumn => ∃ member : ExtraColumn,
    extraColumn = .ofMember member ∧ ClrEnum.Names runtime colName member)
    names extraColumns

/-- The option admits only what can be printed: the names are parsed to the
columns which they name, printing them does not throw, and a list which is
rejected is answered with an error that quotes a name of no column. -/
structure HandlesColumns (platform : ListingPlatform) (names : List String) :
    Prop where
  admitted : ∀ extraColumns,
    tryParseExtraColumns platform.runtime names = .ok extraColumns →
      NamesColumns platform.runtime names extraColumns
  prints : ∀ extraColumns,
    tryParseExtraColumns platform.runtime names = .ok extraColumns →
      ∀ now showCerts candidates, ∃ tables,
        showTables platform now showCerts extraColumns candidates = .ok tables
  reported : ∀ stores now show', ∃ listing,
    execute platform stores now show' names = .ok listing ∧
      ((∀ extraColumns, tryParseExtraColumns platform.runtime names ≠
          .ok extraColumns) →
        listing.exitCode = ResultCodes.failed ∧
          ∃ colName ∈ names, unrecognisedColumn colName ∈ listing.errors ∧
            ∀ member : ExtraColumn,
              ¬ClrEnum.Names platform.runtime colName member)

variable {platform : ListingPlatform} {runtime : Runtime} {names : List String}
  {extraColumns : List (EnumValue ExtraColumn)}

theorem tryParseExtraColumn_eq_ok_iff {colName : String}
    {extraColumn : EnumValue ExtraColumn} :
    tryParseExtraColumn runtime colName = .ok extraColumn ↔
      ClrEnum.tryParse runtime ExtraColumn colName = some extraColumn := by
  rw [tryParseExtraColumn, ClrEnum.onError_parseEnum]
  cases ClrEnum.tryParse runtime ExtraColumn colName <;> simp

theorem tryParseExtraColumns_eq_ok_iff :
    tryParseExtraColumns runtime names = .ok extraColumns ↔
      List.Forall₂ (fun colName extraColumn =>
        ClrEnum.tryParse runtime ExtraColumn colName = some extraColumn)
        names extraColumns := by
  rw [tryParseExtraColumns, Result.reduce_eq_ok_iff, ← List.forall₂_eq_eq_eq,
    List.forall₂_map_left_iff, List.forall₂_map_right_iff]
  simp only [tryParseExtraColumn_eq_ok_iff]

theorem reports_tryParseExtraColumns {message : String} :
    (tryParseExtraColumns runtime names).Reports message ↔
      ∃ colName ∈ names, ClrEnum.tryParse runtime ExtraColumn colName = none ∧
        message = unrecognisedColumn colName := by
  have hname : ∀ colName,
      (tryParseExtraColumn runtime colName).Reports message ↔
        ClrEnum.tryParse runtime ExtraColumn colName = none ∧
          message = unrecognisedColumn colName := by
    intro colName
    rw [tryParseExtraColumn, ClrEnum.onError_parseEnum]
    cases ClrEnum.tryParse runtime ExtraColumn colName <;>
      simp [Result.Reports, ErrorSet.create]
  simp [tryParseExtraColumns, Result.reports_reduce, hname]

theorem exists_tryParseExtraColumns_iff (hcasing : runtime.InvariantCasing) :
    (∃ extraColumns, tryParseExtraColumns runtime names = .ok extraColumns) ↔
      ∀ colName ∈ names, ClrEnum.Accepts runtime ExtraColumn colName := by
  simp only [tryParseExtraColumns_eq_ok_iff,
    ← ClrEnum.tryParse_isSome_iff hcasing, Option.isSome_iff_exists]
  induction names with
  | nil => simp
  | cons colName names ih =>
      simp only [List.forall₂_cons_left_iff, List.forall_mem_cons, ← ih]
      constructor
      · rintro ⟨_, extraColumn, extraColumns, hhead, htail, -⟩
        exact ⟨⟨extraColumn, hhead⟩, extraColumns, htail⟩
      · rintro ⟨⟨extraColumn, hhead⟩, extraColumns, htail⟩
        exact ⟨_, extraColumn, extraColumns, hhead, htail, rfl⟩

theorem namesColumns_of_tryParse (hcasing : runtime.InvariantCasing)
    (hparse : tryParseExtraColumns runtime names = .ok extraColumns)
    (hnames : ∀ colName ∈ names,
      ∃ member : ExtraColumn, ClrEnum.Names runtime colName member) :
    NamesColumns runtime names extraColumns := by
  have hall := tryParseExtraColumns_eq_ok_iff.mp hparse
  clear hparse
  induction hall with
  | nil => exact .nil
  | cons hhead _ ih =>
      obtain ⟨⟨member, hmember⟩, hrest⟩ := List.forall_mem_cons.mp hnames
      rw [ClrEnum.tryParse_of_names hcasing hmember, Option.some.injEq] at hhead
      exact .cons ⟨member, hhead.symm, hmember⟩ (ih hrest)

theorem NamesColumns.declared (hall : NamesColumns runtime names extraColumns) :
    ∀ extraColumn ∈ extraColumns, Declared extraColumn := by
  induction hall with
  | nil => simp
  | cons hhead _ ih =>
      obtain ⟨member, hmember, -⟩ := hhead
      exact List.forall_mem_cons.mpr ⟨⟨member, hmember⟩, ih⟩

theorem NamesColumns.named (hall : NamesColumns runtime names extraColumns) :
    ∀ colName ∈ names,
      ∃ member : ExtraColumn, ClrEnum.Names runtime colName member := by
  induction hall with
  | nil => simp
  | cons hhead _ ih =>
      obtain ⟨member, -, hmember⟩ := hhead
      exact List.forall_mem_cons.mpr ⟨⟨member, hmember⟩, ih⟩

theorem execute_of_rejected (hcasing : platform.runtime.InvariantCasing)
    (hrejected : ∀ extraColumns,
      tryParseExtraColumns platform.runtime names ≠ .ok extraColumns)
    (stores : X509Stores StoredCertificate) (now : DateTime)
    (show' : Option String) :
    ∃ listing, execute platform stores now show' names = .ok listing ∧
      listing.exitCode = ResultCodes.failed ∧
        ∃ colName ∈ names, unrecognisedColumn colName ∈ listing.errors ∧
          ∀ member : ExtraColumn,
            ¬ClrEnum.Names platform.runtime colName member := by
  have hrefused : ∃ colName ∈ names,
      ¬ClrEnum.Accepts platform.runtime ExtraColumn colName := by
    by_contra haccepted
    push Not at haccepted
    obtain ⟨extraColumns, hparse⟩ :=
      (exists_tryParseExtraColumns_iff hcasing).mpr haccepted
    exact hrejected extraColumns hparse
  obtain ⟨colName, hmem, hcolumn⟩ := hrefused
  rw [← ClrEnum.tryParse_isSome_iff hcasing, Bool.not_eq_true,
    Option.isSome_eq_false_iff, Option.isNone_iff_eq_none] at hcolumn
  have hreports : ((tryParseShow platform.runtime show').join
      (tryParseExtraColumns platform.runtime names)).Reports
        (unrecognisedColumn colName) :=
    Result.reports_join.mpr (Or.inr
      (reports_tryParseExtraColumns.mpr ⟨colName, hmem, hcolumn, rfl⟩))
  obtain ⟨errors, herrors, hmessage⟩ := hreports
  refine ⟨⟨errors.errors.items, [], ResultCodes.failed⟩, ?_, rfl, colName, hmem,
    hmessage, fun member hnames => ?_⟩
  · rw [execute, herrors]
  · rw [ClrEnum.tryParse_of_names hcasing hnames] at hcolumn
    cases hcolumn

theorem execute_of_printing
    (hprints : ∀ extraColumns,
      tryParseExtraColumns platform.runtime names = .ok extraColumns →
        ∀ now showCerts candidates, ∃ tables,
          showTables platform now showCerts extraColumns candidates =
            .ok tables)
    (stores : X509Stores StoredCertificate) (now : DateTime)
    (show' : Option String) :
    ∃ listing, execute platform stores now show' names = .ok listing := by
  unfold execute
  cases hparse : (tryParseShow platform.runtime show').join
      (tryParseExtraColumns platform.runtime names) with
  | error errors => exact ⟨_, rfl⟩
  | ok parsed =>
      obtain ⟨-, hcolumns⟩ := Result.join_eq_ok_iff.mp hparse
      obtain ⟨found, hfound⟩ := CertificateStore.exists_findAll stores
      obtain ⟨tables, htables⟩ := hprints parsed.2 hcolumns now parsed.1
        (candidates found)
      refine ⟨⟨[], tables, ResultCodes.success⟩, ?_⟩
      simp [hfound, htables, bind, Except.bind, pure, Except.pure]

end ListCertificatesCommand

open ListCertificatesCommand in
/-- The option admits only what can be printed exactly when one of the names
is refused, or each of them is the name of a column. -/
theorem handlesColumns_iff (platform : ListingPlatform)
    (hcasing : platform.runtime.InvariantCasing) (names : List String) :
    HandlesColumns platform names ↔
      (∃ colName ∈ names,
        ¬ClrEnum.Accepts platform.runtime ExtraColumn colName) ∨
      ∀ colName ∈ names, ∃ member : ExtraColumn,
        ClrEnum.Names platform.runtime colName member := by
  constructor
  · intro hhandles
    by_cases haccepted : ∀ colName ∈ names,
        ClrEnum.Accepts platform.runtime ExtraColumn colName
    · right
      obtain ⟨extraColumns, hparse⟩ :=
        (exists_tryParseExtraColumns_iff hcasing).mpr haccepted
      exact (hhandles.admitted extraColumns hparse).named
    · left
      push Not at haccepted
      exact haccepted
  · intro hcondition
    have hadmitted : ∀ extraColumns,
        tryParseExtraColumns platform.runtime names = .ok extraColumns →
          NamesColumns platform.runtime names extraColumns := by
      intro extraColumns hparse
      rcases hcondition with ⟨colName, hmem, hrefused⟩ | hnames
      · exact absurd ((exists_tryParseExtraColumns_iff hcasing).mp
          ⟨extraColumns, hparse⟩ colName hmem) hrefused
      · exact namesColumns_of_tryParse hcasing hparse hnames
    have hprints : ∀ extraColumns,
        tryParseExtraColumns platform.runtime names = .ok extraColumns →
          ∀ now showCerts candidates, ∃ tables,
            showTables platform now showCerts extraColumns candidates =
              .ok tables := by
      intro extraColumns hparse now showCerts candidates
      obtain ⟨tables, htables, -⟩ := showTables_prints
        (hadmitted extraColumns hparse).declared showCerts candidates
      exact ⟨tables, htables⟩
    refine ⟨hadmitted, hprints, fun stores now show' => ?_⟩
    by_cases hrejected : ∀ extraColumns,
        tryParseExtraColumns platform.runtime names ≠ .ok extraColumns
    · obtain ⟨listing, hlisting, hreported⟩ :=
        execute_of_rejected hcasing hrejected stores now show'
      exact ⟨listing, hlisting, fun _ => hreported⟩
    · obtain ⟨listing, hlisting⟩ :=
        execute_of_printing hprints stores now show'
      exact ⟨listing, hlisting, fun h => absurd h hrejected⟩

theorem handlesColumns_iff_names :
    ListCertificatesCommand.HandlesColumns .reference
        ["subjectname", "FRIENDLYNAME"] ∧
      ListCertificatesCommand.HandlesColumns .reference ["issuer", "7"] := by
  constructor
  · refine (handlesColumns_iff .reference Runtime.invariantCasing_reference
      _).mpr (Or.inr ?_)
    simp only [List.forall_mem_cons, List.not_mem_nil, false_implies,
      implies_true, and_true]
    exact ⟨⟨.subjectName, by decide⟩, ⟨.friendlyName, by decide⟩⟩
  · refine (handlesColumns_iff .reference Runtime.invariantCasing_reference
      _).mpr (Or.inl ⟨"issuer", by simp, ?_⟩)
    change ¬ClrEnum.Accepts Runtime.reference ExtraColumn "issuer"
    rw [← ClrEnum.tryParse_isSome_iff Runtime.invariantCasing_reference]
    decide

/-- A numeral stands for no column: the default branch is reached. -/
theorem not_handlesColumns_numeral :
    ¬ListCertificatesCommand.HandlesColumns .reference ["7"] := by
  intro hhandles
  have hparse : ListCertificatesCommand.tryParseExtraColumns .reference ["7"] =
      .ok [⟨7⟩] := rfl
  obtain ⟨tables, htables⟩ := hhandles.prints [⟨7⟩] hparse .minValue
    (.ofMember .all) [certificateUntil .minValue]
  have hthrows : ListCertificatesCommand.showTables .reference .minValue
      (.ofMember .all) [⟨7⟩] [certificateUntil .minValue] =
        .error (.invalidOperation "Unexpected ExtraColumn value: 7") := rfl
  rw [hthrows] at htables
  cases htables

end SoftwareEntitlement
