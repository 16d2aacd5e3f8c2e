import Mathlib.Tactic.Common

/-!
# A scrolling screen as a window on an unbounded sheet

A text screen of `h` rows and `w` columns writes cells at a cursor, goes on in the next row at the
end of a row, and scrolls by one row when the cursor would leave the last one.  A *sheet* is the
same without a last row, so it never scrolls and nothing on it is ever lost.

Both keep a flag saying that the last cell written ended a row: a new line that follows at once is
then already there and is not begun twice.

* `Window h w blank scr sht` — the screen shows the first `h` rows of the sheet, or those that end
  in the cursor's row once the cursor has left the first `h`.
* `Window.step` — whatever is written on both, one step keeps the screen the window of the sheet.
-/

set_option autoImplicit false

universe u

namespace Sheet

/-- Cells in rows and columns, with a cursor.  Whether they are those of a screen or of a sheet is
decided by the operations used on them. -/
structure Grid (α : Type u) where
  /-- The contents. -/
  cell : ℕ → ℕ → α
  /-- The row of the cursor. -/
  row : ℕ
  /-- The column of the cursor. -/
  col : ℕ
  /-- The last cell written was the last one of a row. -/
  wrapped : Bool

/-- What is written: a cell, or a new line. -/
inductive Item (α : Type u) where
  | cell (v : α)
  | newline

variable {α : Type u}

/-- The contents moved up by a row, above a blank row `h - 1`. -/
def shiftUp (h : ℕ) (blank : α) (f : ℕ → ℕ → α) : ℕ → ℕ → α := fun r c ↦
  if r + 1 < h then f (r + 1) c else blank

/-! ## The sheet -/

namespace Grid

/-- Replace the cell at the cursor. -/
def set (g : Grid α) (v : α) : Grid α :=
  { g with cell := fun r c ↦ if r = g.row ∧ c = g.col then v else g.cell r c }

/-- Write a cell on a sheet with `w` columns. -/
def sheetPut (w : ℕ) (g : Grid α) (v : α) : Grid α :=
  if g.col + 1 = w then { g.set v with row := g.row + 1, col := 0, wrapped := true }
  else { g.set v with col := g.col + 1, wrapped := false }

/-- Begin a new line on a sheet, unless it has just begun by itself. -/
def sheetNewline (g : Grid α) : Grid α :=
  if g.wrapped then { g with wrapped := false } else { g with row := g.row + 1, col := 0 }

/-- Write an item on a sheet. -/
def sheetWrite (w : ℕ) (g : Grid α) : Item α → Grid α
  | .cell v => g.sheetPut w v
  | .newline => g.sheetNewline

/-! ## The screen -/

/-- Move the cursor to the row below, scrolling when there is none. -/
def nextRow (h : ℕ) (blank : α) (g : Grid α) : Grid α :=
  if g.row + 1 = h then { g with cell := shiftUp h blank g.cell, col := 0 }
  else { g with row := g.row + 1, col := 0 }

/-- Write a cell on a screen with `h` rows and `w` columns. -/
def screenPut (h w : ℕ) (blank : α) (g : Grid α) (v : α) : Grid α :=
  if g.col + 1 = w then { nextRow h blank (g.set v) with wrapped := true }
  else { g.set v with col := g.col + 1, wrapped := false }

/-- Begin a new line on a screen, unless it has just begun by itself. -/
def screenNewline (h : ℕ) (blank : α) (g : Grid α) : Grid α :=
  if g.wrapped then { g with wrapped := false } else nextRow h blank g

/-- Write an item on a screen. -/
def screenWrite (h w : ℕ) (blank : α) (g : Grid α) : Item α → Grid α
  | .cell v => g.screenPut h w blank v
  | .newline => g.screenNewline h blank

/-- A cursor inside the screen. -/
def InBounds (h w : ℕ) (g : Grid α) : Prop := g.row < h ∧ g.col < w

/-- The same on a screen: the same cells in its rows and columns, and the same cursor. -/
structure EqOn (h w : ℕ) (g g' : Grid α) : Prop where
  cell : ∀ r < h, ∀ c < w, g.cell r c = g'.cell r c
  row : g.row = g'.row
  col : g.col = g'.col
  wrapped : g.wrapped = g'.wrapped

end Grid

/-- Going to the next row does not look at the column or the flag. -/
theorem Grid.nextRow_with (h : ℕ) (blank : α) (g : Grid α) (c : ℕ) (b : Bool) :
    nextRow h blank { g with col := c, wrapped := b }
      = { nextRow h blank g with wrapped := b } := by
  rw [nextRow, nextRow]
  split <;> rfl

theorem Grid.nextRow_wrapped (h : ℕ) (blank : α) (g : Grid α) :
    (nextRow h blank g).wrapped = g.wrapped := by
  rw [nextRow]
  split <;> rfl

open Grid

/-! ## The window -/

/-- The screen shows the rows of the sheet from `top` on, which are the last ones the cursor has
reached; what is below them is blank. -/
structure Window (h w : ℕ) (blank : α) (scr sht : Grid α) : Prop where
  /-- The cells shown. -/
  cell : ∀ r < h, ∀ c < w, scr.cell r c = sht.cell (sht.row + 1 - h + r) c
  /-- The cursor's row. -/
  row : scr.row = sht.row - (sht.row + 1 - h)
  /-- The cursor's column. -/
  col : scr.col = sht.col
  /-- The flag. -/
  wrapped : scr.wrapped = sht.wrapped
  /-- Below the window nothing has been written. -/
  below : ∀ r, h ≤ r → sht.row < r → ∀ c, sht.cell r c = blank
  /-- The cursor's column exists. -/
  col_lt : sht.col < w

variable {h w : ℕ} {blank : α} {scr sht : Grid α}

/-- What a window shows depends on the rows and columns of the screen only. -/
theorem Window.of_eqOn {scr' : Grid α} (heq : EqOn h w scr' scr) (hwin : Window h w blank scr sht) :
    Window h w blank scr' sht where
  cell r hr c hc := (heq.cell r hr c hc).trans (hwin.cell r hr c hc)
  row := heq.row.trans hwin.row
  col := heq.col.trans hwin.col
  wrapped := heq.wrapped.trans hwin.wrapped
  below := hwin.below
  col_lt := hwin.col_lt

/-- A cell written on both at their cursors. -/
theorem Window.set (hwin : Window h w blank scr sht) (hh : 0 < h) (v : α) :
    Window h w blank (scr.set v) (sht.set v) where
  cell r hr c hc := by
    have hrow := hwin.row
    have hcell := hwin.cell r hr c hc
    have hcol := hwin.col
    simp only [Grid.set]
    by_cases hcur : r = scr.row ∧ c = scr.col
    · rw [if_pos hcur, if_pos (by omega)]
    · rw [if_neg hcur, if_neg (by omega), hcell]
  row := hwin.row
  col := hwin.col
  wrapped := hwin.wrapped
  below r hr hlt c := by
    have hbelow := hwin.below r hr hlt c
    simp only [Grid.set] at hlt ⊢
    rw [if_neg (by omega), hbelow]
  col_lt := hwin.col_lt

/-- **Scrolling keeps the window**: the row that appears is a blank one of the sheet. -/
theorem Window.nextRow (hwin : Window h w blank scr sht) (hh : 0 < h) :
    Window h w blank (nextRow h blank scr) { sht with row := sht.row + 1, col := 0 } := by
  have hrow := hwin.row
  have hcol := hwin.col_lt
  rw [Grid.nextRow]
  split
  · rename_i hlast
    refine ⟨fun r hr c hc ↦ ?_, ?_, rfl, hwin.wrapped, ?_, by dsimp only; omega⟩
    · simp only [shiftUp]
      split
      · rw [hwin.cell (r + 1) (by omega) c hc]
        exact congrArg (sht.cell · c) (by omega)
      · exact (hwin.below _ (by omega) (by omega) c).symm
    · dsimp only
      omega
    · exact fun r hr hlt c ↦ hwin.below r hr (by dsimp only at hlt; omega) c
  · rename_i hlast
    refine ⟨fun r hr c hc ↦ ?_, ?_, rfl, hwin.wrapped, ?_, by dsimp only; omega⟩
    · rw [hwin.cell r hr c hc]
      exact congrArg (sht.cell · c) (by dsimp only; omega)
    · dsimp only
      omega
    · exact fun r hr hlt c ↦ hwin.below r hr (by dsimp only at hlt; omega) c

theorem Window.setWrapped (hwin : Window h w blank scr sht) (b : Bool) :
    Window h w blank { scr with wrapped := b } { sht with wrapped := b } :=
  ⟨hwin.cell, hwin.row, hwin.col, rfl, hwin.below, hwin.col_lt⟩

theorem Window.screenPut (hwin : Window h w blank scr sht) (hh : 0 < h) (v : α) :
    Window h w blank (scr.screenPut h w blank v) (sht.sheetPut w v) := by
  have hset := hwin.set hh v
  have hcol := hwin.col_lt
  rw [Grid.screenPut, sheetPut, hwin.col]
  split
  · exact (hset.nextRow hh).setWrapped true
  · exact ⟨hset.cell, hset.row, rfl, rfl, hset.below, by dsimp only; omega⟩

theorem Window.screenNewline (hwin : Window h w blank scr sht) (hh : 0 < h) :
    Window h w blank (scr.screenNewline h blank) sht.sheetNewline := by
  rw [Grid.screenNewline, sheetNewline, hwin.wrapped]
  split
  · exact hwin.setWrapped false
  · exact hwin.nextRow hh

/-- **One step**: what is written on the screen and on the sheet keeps the one a window of the
other. -/
theorem Window.step (hwin : Window h w blank scr sht) (hh : 0 < h) (x : Item α) :
    Window h w blank (scr.screenWrite h w blank x) (sht.sheetWrite w x) := by
  cases x with
  | cell v => exact hwin.screenPut hh v
  | newline => exact hwin.screenNewline hh

/-- A sheet of which what has not been reached is blank in another way. -/
def Grid.reblank (h : ℕ) (blank : α) (g : Grid α) : Grid α :=
  { g with cell := fun r c ↦ if h ≤ r ∧ g.row < r then blank else g.cell r c }

/-- The screen does not show where the next rows come from. -/
theorem Window.reblank (hwin : Window h w blank scr sht) (blank' : α) :
    Window h w blank' scr (sht.reblank h blank') where
  cell r hr c hc := by
    simp only [Grid.reblank]
    rw [if_neg (by omega)]
    exact hwin.cell r hr c hc
  row := hwin.row
  col := hwin.col
  wrapped := hwin.wrapped
  below _ hr hlt _ := if_pos ⟨hr, hlt⟩
  col_lt := hwin.col_lt

/-! ## The first window -/

/-- The sheet a screen is the first window of: blank below its last row. -/
def ofScreen (h : ℕ) (blank : α) (scr : Grid α) : Grid α :=
  { scr with cell := fun r c ↦ if r < h then scr.cell r c else blank }

theorem window_ofScreen (hin : scr.InBounds h w) : Window h w blank scr (ofScreen h blank scr) := by
  obtain ⟨hrow, hcol⟩ := hin
  have htop : scr.row + 1 - h = 0 := by omega
  refine ⟨fun r hr c hc ↦ ?_, ?_, rfl, rfl, fun r hr _ c ↦ if_neg (by omega), hcol⟩
  · simp only [ofScreen, htop, Nat.zero_add, if_pos hr]
  · simp only [ofScreen, htop, Nat.sub_zero]

end Sheet
