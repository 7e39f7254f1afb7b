import Mathlib.Data.List.DropRight

/-!
# Columns of text

The cells of a row are written side by side, each padded with blanks to the
width of its column, and the blanks at the end of the line are dropped.  Whoever
knows the widths cuts the line at the same places, drops the blanks at the end
of each piece, and has the cells again.  Characters need not have the same size.
-/

namespace ColumnLayout

variable {α : Type*} (size : α → ℕ) (blank : α) (isBlank : α → Bool)

def extent : List α → ℕ
  | [] => 0
  | c :: text => size c + extent text

def padRight (width : ℕ) (cell : List α) : List α :=
  cell ++ List.replicate (width - extent size cell) blank

def padded (widths : List ℕ) (cells : List (List α)) : List α :=
  (List.zipWith (padRight size blank) widths cells).flatten

def line (widths : List ℕ) (cells : List (List α)) : List α :=
  (padded size blank widths cells).rdropWhile isBlank

/-- The first characters of a text, as many as fit within the width, and the
rest of it. -/
def cut : ℕ → List α → List α × List α
  | _, [] => ([], [])
  | width, c :: text =>
      if size c ≤ width then
        (c :: (cut (width - size c) text).1, (cut (width - size c) text).2)
      else ([], c :: text)

/-- What stands in the columns of a line. -/
def columns : List ℕ → List α → List (List α)
  | [], _ => []
  | width :: widths, text =>
      (cut size width text).1.rdropWhile isBlank ::
        columns widths (cut size width text).2

/-- There is a column for every cell, and the cell is not wider. -/
inductive Fits : List ℕ → List (List α) → Prop
  | nil (widths : List ℕ) : Fits widths []
  | cons {width : ℕ} {widths : List ℕ} {cell : List α} {cells : List (List α)}
      (hcell : extent size cell ≤ width) (hcells : Fits widths cells) :
      Fits (width :: widths) (cell :: cells)

/-- The cells of all columns, without the blanks at their ends.  A row may be
shorter than others: then the remaining columns are empty. -/
def trimmed (widths : List ℕ) (cells : List (List α)) : List (List α) :=
  cells.map (List.rdropWhile isBlank) ++
    List.replicate (widths.length - cells.length) []

variable {size blank isBlank}

theorem Fits.of_getElem? {widths : List ℕ} {cells : List (List α)}
    (hfits : ∀ (index : ℕ) (cell : List α), cells[index]? = some cell →
      ∃ width, widths[index]? = some width ∧ extent size cell ≤ width) :
    Fits size widths cells := by
  induction cells generalizing widths with
  | nil => exact .nil widths
  | cons cell cells ih =>
      obtain ⟨width, hwidth, hcell⟩ := hfits 0 cell rfl
      match widths, hwidth with
      | _ :: widths, rfl =>
          exact .cons hcell (ih fun index cell => hfits (index + 1) cell)

theorem extent_append (text other : List α) :
    extent size (text ++ other) = extent size text + extent size other := by
  induction text with
  | nil => simp [extent]
  | cons c text ih => simp [extent, ih, Nat.add_assoc]

theorem extent_replicate (hblank : size blank = 1) (count : ℕ) :
    extent size (List.replicate count blank) = count := by
  induction count with
  | zero => rfl
  | succ count ih =>
      rw [List.replicate_succ, extent, ih, hblank, Nat.add_comm]

theorem extent_padRight (hblank : size blank = 1) {width : ℕ} {cell : List α}
    (hcell : extent size cell ≤ width) :
    extent size (padRight size blank width cell) = width := by
  rw [padRight, extent_append, extent_replicate hblank]
  omega

/-- A cut at the end of a piece separates it from what follows. -/
theorem cut_append (hsize : ∀ c, 0 < size c) (piece text : List α) :
    cut size (extent size piece) (piece ++ text) = (piece, text) := by
  induction piece with
  | nil =>
      cases text with
      | nil => rfl
      | cons c text =>
          have hc := hsize c
          simp [cut, extent, hc.ne']
  | cons c piece ih =>
      have hextent : extent size (c :: piece) - size c = extent size piece := by
        simp [extent]
      have hfits : size c ≤ extent size (c :: piece) := by simp [extent]
      rw [List.cons_append, cut, if_pos hfits, hextent, ih]

theorem rdropWhile_append_blanks {text blanks : List α}
    (hblanks : ∀ c ∈ blanks, isBlank c = true) :
    (text ++ blanks).rdropWhile isBlank = text.rdropWhile isBlank := by
  rw [List.rdropWhile, List.reverse_append,
    List.dropWhile_append_of_pos (by simpa using hblanks), List.rdropWhile]

theorem cut_subset (size : α → ℕ) (width : ℕ) (text : List α) :
    (cut size width text).1 ⊆ text ∧ (cut size width text).2 ⊆ text := by
  fun_induction cut size width text with
  | case1 => simp
  | case2 width c text hfits ih =>
      exact ⟨List.cons_subset_cons c ih.1, fun _ hmem =>
        List.mem_cons_of_mem c (ih.2 hmem)⟩
  | case3 => simp

/-- Blanks after a text remain blanks after both parts of it. -/
theorem cut_append_blanks (size : α → ℕ) {blanks : List α}
    (hblanks : ∀ c ∈ blanks, isBlank c = true) (width : ℕ) (text : List α) :
    ∃ first second : List α,
      (∀ c ∈ first, isBlank c = true) ∧ (∀ c ∈ second, isBlank c = true) ∧
        cut size width (text ++ blanks) =
          ((cut size width text).1 ++ first,
            (cut size width text).2 ++ second) := by
  fun_induction cut size width text with
  | case1 width =>
      obtain ⟨hfirst, hsecond⟩ := cut_subset size width blanks
      exact ⟨_, _, fun c hc => hblanks c (hfirst hc),
        fun c hc => hblanks c (hsecond hc), rfl⟩
  | case2 width c text hfits ih =>
      obtain ⟨first, second, hfirst, hsecond, hcut⟩ := ih
      refine ⟨first, second, hfirst, hsecond, ?_⟩
      rw [List.cons_append, cut, if_pos hfits, hcut]
      rfl
  | case3 width c text hfits =>
      refine ⟨[], blanks, nofun, hblanks, ?_⟩
      rw [List.cons_append, cut, if_neg hfits]
      rfl

theorem columns_append_blanks {blanks : List α}
    (hblanks : ∀ c ∈ blanks, isBlank c = true) (widths : List ℕ)
    (text : List α) :
    columns size isBlank widths (text ++ blanks) =
      columns size isBlank widths text := by
  induction widths generalizing text blanks with
  | nil => rfl
  | cons width widths ih =>
      obtain ⟨first, second, hfirst, hsecond, hcut⟩ :=
        cut_append_blanks size hblanks width text
      rw [columns, hcut, rdropWhile_append_blanks hfirst, ih hsecond, columns]

theorem columns_rdropWhile (widths : List ℕ) (text : List α) :
    columns size isBlank widths (text.rdropWhile isBlank) =
      columns size isBlank widths text := by
  have hblanks : columns size isBlank widths
      (text.rdropWhile isBlank ++ text.rtakeWhile isBlank) =
        columns size isBlank widths (text.rdropWhile isBlank) :=
    columns_append_blanks (fun _ hc => List.mem_rtakeWhile_imp hc) _ _
  rw [← hblanks, List.rdropWhile_append_rtakeWhile]

theorem columns_nil (widths : List ℕ) :
    columns size isBlank widths [] = List.replicate widths.length [] := by
  induction widths with
  | nil => rfl
  | cons width widths ih => simp [columns, cut, ih, List.replicate_succ]

/-- Reading the columns of a line gives back the cells. -/
theorem columns_line (hsize : ∀ c, 0 < size c) (hblank : size blank = 1)
    (hisBlank : isBlank blank = true) {widths : List ℕ}
    {cells : List (List α)} (hfits : Fits size widths cells) :
    columns size isBlank widths (line size blank isBlank widths cells) =
      trimmed isBlank widths cells := by
  rw [line, columns_rdropWhile]
  -- each column cuts off one padded cell and leaves the padded rest
  induction hfits with
  | nil widths => simp [padded, columns_nil, trimmed]
  | @cons width widths cell cells hcell hcells ih =>
      have hcut : cut size width
          (padded size blank (width :: widths) (cell :: cells)) =
            (padRight size blank width cell, padded size blank widths cells) := by
        have hcut := cut_append hsize (padRight size blank width cell)
          (padded size blank widths cells)
        rwa [extent_padRight hblank hcell] at hcut
      have hcell : (padRight size blank width cell).rdropWhile isBlank =
          cell.rdropWhile isBlank :=
        rdropWhile_append_blanks fun c hc =>
          (List.eq_of_mem_replicate hc).symm ▸ hisBlank
      rw [columns, hcut, hcell, ih]
      simp [trimmed]

end ColumnLayout
