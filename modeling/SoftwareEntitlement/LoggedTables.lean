import SoftwareEntitlement.ColumnLayout
import SoftwareEntitlement.ListCertificates

/-!
# Tables in the log

`LogInformationTable` logs the rows of a table as lines of text with aligned
columns.  The rows of `list-certificates` are longer than their header, whose
last column has no name.
-/

namespace SoftwareEntitlement

/-! ## Lines -/

namespace LoggerExtensions

def columnGap : ℕ := 3

/-- `Max`. -/
def max (items : List ℕ) : Throws ℕ :=
  match items.max? with
  | some item => .ok item
  | none => .error (.invalidOperation "Sequence contains no elements")

def codeUnitCount (c : Char) : ℕ := if c.toNat < 0x10000 then 1 else 2

/-- `Length` counts UTF-16 code units. -/
def length (text : String) : ℕ := (codeUnits text).length

def columnWidth (rows : List (List String)) (columnIndex : ℕ) : Throws ℕ := do
  let widest ← max (rows.map fun r =>
    match r[columnIndex]? with
    | some cell => length cell
    | none => 0)
  return widest + columnGap

def padRight (cell : String) (totalWidth : ℕ) : String :=
  cell ++ String.ofList (List.replicate (totalWidth - length cell) ' ')

def trimEnd (text : String) : String :=
  String.ofList (text.toList.rdropWhile isWhiteSpace)

/-- No row has more cells than there are widths. -/
def tableLine (widths : List ℕ) (row : List String) : String :=
  trimEnd (String.join (List.zipWith padRight row widths))

/-- The messages which are logged. -/
def logInformationTable (rows : List (List String)) : Throws (List String) := do
  let columnCount ← max (rows.map List.length)
  let widths ← (List.range columnCount).mapM (columnWidth rows)
  return rows.map (tableLine widths)

/-- What stands in the columns of a logged line. -/
def columns (widths : List ℕ) (line : String) : List String :=
  (ColumnLayout.columns codeUnitCount isWhiteSpace widths line.toList).map
    String.ofList

/-- The row as far as it can be read from its line, in as many columns. -/
def legible (widths : List ℕ) (row : List String) : List String :=
  row.map trimEnd ++ List.replicate (widths.length - row.length) ""

/-- Every cell of the row has a column, which leaves a gap after it. -/
def Spaced (widths : List ℕ) (row : List String) : Prop :=
  ∀ (index : ℕ) (cell : String), row[index]? = some cell →
    ∃ width, widths[index]? = some width ∧ length cell + columnGap ≤ width

theorem exists_max_map {α : Type} {items : List α} (hne : items ≠ [])
    (f : α → ℕ) :
    ∃ greatest, max (items.map f) = .ok greatest ∧
      ∀ item ∈ items, f item ≤ greatest := by
  cases hmax : (items.map f).max? with
  | none => exact absurd (List.max?_eq_none_iff.mp hmax) (by simpa using hne)
  | some greatest =>
      refine ⟨greatest, by simp [max, hmax], fun item hitem => ?_⟩
      exact (List.max?_eq_some_iff.mp hmax).2 _ (List.mem_map_of_mem hitem)

theorem length_eq_extent (text : String) :
    length text = ColumnLayout.extent codeUnitCount text.toList := by
  unfold length codeUnits
  induction text.toList with
  | nil => rfl
  | cons c text ih =>
      rw [List.flatMap_cons, List.length_append, ih, ColumnLayout.extent,
        codeUnitCount]
      split <;> rfl

theorem toList_tableLine (widths : List ℕ) (row : List String) :
    (tableLine widths row).toList =
      ColumnLayout.line codeUnitCount ' ' isWhiteSpace widths
        (row.map String.toList) := by
  have hpad : ∀ width cell, (padRight cell width).toList =
      ColumnLayout.padRight codeUnitCount ' ' width cell.toList := by
    intro width cell
    simp [padRight, ColumnLayout.padRight, length_eq_extent]
  rw [tableLine, trimEnd, String.toList_ofList, String.toList_join,
    ColumnLayout.line, ColumnLayout.padded, List.flatMap_def,
    List.map_zipWith, List.zipWith_comm, List.zipWith_map_right]
  simp only [hpad]

section Rows

variable {rows : List (List String)}

theorem exists_columnWidth (hne : rows ≠ []) (columnIndex : ℕ) :
    ∃ width, columnWidth rows columnIndex = .ok width ∧
      ∀ row ∈ rows, ∀ cell, row[columnIndex]? = some cell →
        length cell + columnGap ≤ width := by
  obtain ⟨widest, hwidest, hle⟩ := exists_max_map hne fun r =>
    match r[columnIndex]? with
    | some cell => length cell
    | none => 0
  refine ⟨widest + columnGap, ?_, fun row hrow cell hcell => ?_⟩
  · rw [columnWidth, hwidest]
    rfl
  · have hlength := hle row hrow
    simp only [hcell] at hlength
    omega

theorem exists_widths (hne : rows ≠ []) :
    ∃ widths, logInformationTable rows = .ok (rows.map (tableLine widths)) ∧
      ∀ row ∈ rows, Spaced widths row := by
  obtain ⟨columnCount, hcount, hlength⟩ := exists_max_map hne List.length
  obtain ⟨widths, hwidths⟩ := Traversal.exists_mapM_iff.mpr
    fun index (_ : index ∈ List.range columnCount) =>
      (exists_columnWidth hne index).imp fun _ hwidth => hwidth.1
  refine ⟨widths, ?_, fun row hrow index cell hcell => ?_⟩
  · rw [logInformationTable, hcount]
    simp only [bind, Except.bind, hwidths]
    rfl
  · -- the longest row decides how many widths there are
    have hindex : index < columnCount :=
      (List.getElem?_eq_some_iff.mp hcell).1.trans_le (hlength row hrow)
    have hall := Traversal.mapM_eq_ok_iff.mp hwidths
    have hget : index < widths.length := by
      rw [← hall.length_eq, List.length_range]
      exact hindex
    obtain ⟨width, hwidth, hgap⟩ := exists_columnWidth hne index
    have hsame : columnWidth rows index = .ok widths[index] := by
      have hat := hall.get (by simpa using hindex) hget
      simpa using hat
    obtain rfl := Except.ok.inj (hwidth.symm.trans hsame)
    exact ⟨_, List.getElem?_eq_getElem hget, hgap row hrow cell hcell⟩

theorem columns_tableLine {widths : List ℕ} {row : List String}
    (hgap : Spaced widths row) :
    columns widths (tableLine widths row) = legible widths row := by
  have hfits : ColumnLayout.Fits codeUnitCount widths
      (row.map String.toList) := by
    refine .of_getElem? fun index text htext => ?_
    rw [List.getElem?_map, Option.map_eq_some_iff] at htext
    obtain ⟨cell, hcell, rfl⟩ := htext
    obtain ⟨width, hwidth, hlength⟩ := hgap index cell hcell
    rw [length_eq_extent] at hlength
    exact ⟨width, hwidth, by omega⟩
  have hsize : ∀ c, 0 < codeUnitCount c := by
    intro c
    unfold codeUnitCount
    split <;> decide
  rw [columns, toList_tableLine,
    ColumnLayout.columns_line hsize (by decide) (by decide) hfits]
  simp [ColumnLayout.trimmed, legible, trimEnd]

end Rows

end LoggerExtensions

open LoggerExtensions in
/-- The lines of a table have common columns, in which every cell of a row can
be read from its line.  A gap follows each cell. -/
theorem logInformationTable_legible (rows : List (List String))
    (hne : rows ≠ []) :
    ∃ widths lines, logInformationTable rows = .ok lines ∧
      List.Forall₂ (fun row line =>
        Spaced widths row ∧ columns widths line = legible widths row)
        rows lines := by
  obtain ⟨widths, hlogged, hgap⟩ := exists_widths hne
  refine ⟨widths, _, hlogged, ?_⟩
  rw [List.forall₂_map_right_iff, List.forall₂_same]
  exact fun row hrow => ⟨hgap row hrow, columns_tableLine (hgap row hrow)⟩

/-- A row which is longer than its header. -/
theorem logInformationTable_legible_status :
    ∃ widths lines,
      LoggerExtensions.logInformationTable
          [["DNS Name", "Thumbprint"], ["sample", "97EFF302", "(expired)"]] =
        .ok lines ∧
      List.Forall₂ (fun row line =>
        LoggerExtensions.Spaced widths row ∧
          LoggerExtensions.columns widths line =
            LoggerExtensions.legible widths row)
        [["DNS Name", "Thumbprint"], ["sample", "97EFF302", "(expired)"]]
        lines :=
  logInformationTable_legible _ (List.cons_ne_nil _ _)

end SoftwareEntitlement
