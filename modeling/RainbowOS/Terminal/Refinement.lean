import RainbowOS.Terminal.Basic
import RainbowOS.Lib.Sheet

/-!
# What the terminal shows

The 25 rows of cells in video memory are a scrolling screen in the sense of `Lib/Sheet.lean`, and
so a window on an unbounded sheet.

* `read16_scroll` and the lemmas before it say what the loops of the terminal do to the cells.
* `putchar_eqOn` — `putchar` does to the cells, the cursor and the flag what the abstract screen
  does.
* `writeString_window` — a text printed from any state with a valid cursor shows the window of the
  sheet on which the text has been laid out.
-/

set_option autoImplicit false

namespace RainbowOS

open Sheet Sheet.Grid

namespace FramebufferTerminal

variable {m : Mem} {t : FramebufferTerminal}

/-- What every constructor and member function keeps: a cursor on the screen, and the pointer to
the video memory. -/
structure Valid (t : FramebufferTerminal) : Prop where
  row : t.row.toNat < vga_height
  column : t.column.toNat < vga_width
  buffer : t.buffer = FRAMEBUFFER_LOCATION

theorem valid_new : Valid new := ⟨by decide, by decide, rfl⟩

theorem valid_setColor (ht : Valid t) (fg bg : VgaColor) : Valid (t.setColor fg bg) :=
  ⟨ht.row, ht.column, ht.buffer⟩

theorem valid_reset (t : FramebufferTerminal) : Valid t.reset :=
  ⟨Nat.zero_lt_succ _, Nat.zero_lt_succ _, rfl⟩

theorem valid_setCursor (ht : Valid t) (row column : Byte) : Valid (t.setCursor row column).1 := by
  rw [setCursor]
  split
  · exact ht
  · rename_i hin
    rw [not_or, Nat.not_le, Nat.not_le] at hin
    refine ⟨?_, ?_, ht.buffer⟩ <;> simp only [BitVec.toNat_setWidth] <;> omega

/-! ## The cells -/

/-- A cell as the video hardware reads it: the character is its low byte, the colour its high
byte. -/
def cellWord (c color : Byte) : BitVec 16 := color ++ c

/-- `vga_entry` makes such cells. -/
theorem vga_entry_eq (uc tColor : Byte) : vga_entry uc tColor = cellWord uc tColor := by
  rw [vga_entry, cellWord, BitVec.or_comm]
  refine BitVec.eq_of_getLsbD_eq fun i hi ↦ ?_
  simp only [BitVec.getLsbD_or, BitVec.getLsbD_shiftLeft, BitVec.getLsbD_setWidth,
    BitVec.getLsbD_append]
  by_cases hlow : i < 8
  · simp [hlow, hi]
  · simp [hlow, hi, show i - 8 < 16 by omega, BitVec.getLsbD_of_ge uc i (by omega)]

/-- The contents of a blank cell. -/
def blank (t : FramebufferTerminal) : BitVec 16 := cellWord 0x20 t.color

/-- A store into a cell, seen from all the cells. -/
theorem read16_write16 {i j : ℕ} (hi : i < 2000) (hj : j < 2000) (v : BitVec 16) :
    (m.write16 (t.cellAddr i) v).read16 (t.cellAddr j)
      = if j = i then v else m.read16 (t.cellAddr j) := by
  split
  · rename_i h
    rw [h]
    exact Mem.readLE_writeLE (n := 2) m (by omega) _ v
  · rename_i h
    refine Mem.readLE_write_of_disjoint (n := 2) (k := 2) fun k hk ↦ ?_
    rw [cellAddr, cellAddr]
    bv_omega

theorem read16_clearRow {y j : ℕ} (hy : y < 25) (hj : j < 2000) :
    (t.clearRow m y).read16 (t.cellAddr j)
      = if y * 80 ≤ j ∧ j < y * 80 + 80 then t.blank
        else m.read16 (t.cellAddr j) := by
  -- after the first `k` columns
  suffices h : ∀ k ≤ 80, ((List.range k).foldl (fun m x ↦ m.write16
      (t.cellAddr (y * vga_width + x)) (vga_entry 0x20 t.color)) m).read16 (t.cellAddr j)
      = if y * 80 ≤ j ∧ j < y * 80 + k then t.blank else m.read16 (t.cellAddr j) from
    h 80 (Nat.le_refl _)
  intro k hk
  induction k with
  | zero => rw [if_neg (by omega)]; rfl
  | succ k ih =>
    rw [List.range_succ, List.foldl_append, List.foldl_cons, List.foldl_nil, vga_width,
      read16_write16 (by omega) hj]
    by_cases hjk : j = y * 80 + k
    · rw [if_pos hjk, if_pos (by omega), vga_entry_eq, blank]
    · rw [if_neg hjk]
      refine (ih (by omega)).trans ?_
      by_cases hin : y * 80 ≤ j ∧ j < y * 80 + k
      · rw [if_pos hin, if_pos (by omega)]
      · rw [if_neg hin, if_neg (by omega)]

theorem read16_clearRows {y n j : ℕ} (hy : y + n ≤ 25) (hj : j < 2000) :
    ((List.range' y n).foldl t.clearRow m).read16 (t.cellAddr j)
      = if y * 80 ≤ j ∧ j < (y + n) * 80 then t.blank
        else m.read16 (t.cellAddr j) := by
  induction n generalizing y m with
  | zero => rw [if_neg (by omega)]; rfl
  | succ n ih =>
    rw [List.range'_succ, List.foldl_cons, ih (by omega), read16_clearRow (by omega) hj]
    by_cases hin : (y + 1) * 80 ≤ j ∧ j < (y + 1 + n) * 80
    · rw [if_pos hin, if_pos (by omega)]
    · rw [if_neg hin]
      by_cases hrow : y * 80 ≤ j ∧ j < y * 80 + 80
      · rw [if_pos hrow, if_pos (by omega)]
      · rw [if_neg hrow, if_neg (by omega)]

theorem toNat_cellAddr (hbuf : t.buffer = FRAMEBUFFER_LOCATION) {i : ℕ} (hi : i ≤ 2000) :
    (t.cellAddr i).toNat = 0xb8000 + 2 * i := by
  rw [cellAddr, hbuf, FRAMEBUFFER_LOCATION]
  bv_omega

/-- **`scroll` moves the rows up**, although source and destination overlap, and blanks those at
the bottom. -/
theorem read16_scroll {lines j : ℕ} (hbuf : t.buffer = FRAMEBUFFER_LOCATION) (hlines : lines < 25)
    (hj : j < 2000) :
    (scroll m t lines).1.read16 (t.cellAddr j)
      = if j < (25 - lines) * 80 then m.read16 (t.cellAddr (j + 80 * lines))
        else t.blank := by
  have hsrc := toNat_cellAddr hbuf (show 80 * lines ≤ 2000 by omega)
  have hb : t.buffer.toNat = 0xb8000 := by rw [hbuf]; rfl
  rw [scroll, if_neg (by rw [vga_height]; omega)]
  simp only [vga_height, vga_width]
  rw [read16_clearRows (by omega) hj,
    memmove_eq_write (by omega) (by omega)]
  by_cases hj' : j < (25 - lines) * 80
  · rw [if_neg (by omega), if_pos hj']
    refine Mem.readLE_congr (n := 2) fun k hk ↦ ?_
    have hin : t.cellAddr j + BitVec.ofNat 32 k = t.buffer + BitVec.ofNat 32 (2 * j + k) := by
      rw [cellAddr, BitVec.ofNat_add, BitVec.add_assoc]
    rw [hin, Mem.write_add (by omega) (by omega)]
    refine congrArg m ?_
    rw [cellAddr, cellAddr]
    bv_omega
  · rw [if_pos (by omega), if_neg hj']

/-! ## The screen -/

/-- The cells and the cursor as a screen. -/
def grid (m : Mem) (t : FramebufferTerminal) : Grid (BitVec 16) where
  cell r c := m.read16 (t.cellAddr (r * 80 + c))
  row := t.row.toNat
  col := t.column.toNat
  wrapped := t.fullLine

/-- What printing a character means. -/
def charItem (t : FramebufferTerminal) (c : Byte) : Item (BitVec 16) :=
  if c = 0x0a then .newline else .cell (cellWord c t.color)

/-- The characters `putchar` accepts, besides the newline. -/
def Printable (c : Byte) : Prop := 20 ≤ c.toNat ∧ c.toNat ≤ 126

instance (c : Byte) : Decidable (Printable c) := inferInstanceAs (Decidable (_ ∧ _))

theorem Printable.in_range {c : Byte} (hc : Printable c) : ¬ (c.toInt < 20 ∨ 126 < c.toInt) := by
  have hle := hc.2
  have hint : c.toInt = c.toNat := BitVec.toInt_eq_toNat_of_lt (by omega)
  rw [hint]
  have := hc.1
  omega

/-! ## The branches of `putchar` -/

theorem incrementRow_of_last (m : Mem) (h : t.row.toNat + 1 = 25) :
    incrementRow m t = ((scroll m { t with row := t.row + 1 } 1).1, t) := by
  have hsucc : (t.row + 1).toNat = vga_height := by
    rw [vga_height]
    bv_omega
  rw [incrementRow]
  dsimp only
  rw [if_pos hsucc, BitVec.add_sub_cancel]

theorem incrementRow_of_ne (m : Mem) (h : t.row.toNat + 1 ≠ 25) :
    incrementRow m t = (m, { t with row := t.row + 1 }) := by
  have hsucc : ¬ (t.row + 1).toNat = vga_height := by
    rw [vga_height]
    bv_omega
  rw [incrementRow]
  dsimp only
  rw [if_neg hsucc]

/-- The terminal after a character that is not a newline, where it is printed. -/
def putcharCell (m : Mem) (t : FramebufferTerminal) (c : Byte) : Mem :=
  m.write16 (t.cellAddr (t.row.toNat * vga_width + t.column.toNat)) (vga_entry c t.color)

theorem putchar_newline (m : Mem) (h : t.fullLine = false) :
    (putchar m t 0x0a).1 = incrementRow m { t with column := 0 } := by
  rw [putchar, if_pos rfl, if_neg (by simp [h])]

theorem putchar_newline_full (m : Mem) (h : t.fullLine = true) :
    (putchar m t 0x0a).1 = (m, { t with fullLine := false }) := by
  rw [putchar, if_pos rfl, if_pos h]

theorem putchar_of_out_of_range (m : Mem) {c : Byte} (hnl : c ≠ 0x0a)
    (hc : c.toInt < 20 ∨ 126 < c.toInt) :
    putchar m t c = ((m, { t with fullLine := false }), 1) := by
  rw [putchar, if_neg hnl]
  dsimp only
  rw [if_pos hc]

theorem putchar_of_last (m : Mem) {c : Byte} (hnl : c ≠ 0x0a)
    (hc : ¬ (c.toInt < 20 ∨ 126 < c.toInt)) (h : t.column.toNat + 1 = 80) :
    (putchar m t c).1
      = incrementRow (putcharCell m t c) { t with column := 0, fullLine := true } := by
  have hsucc : (t.column + 1).toNat = vga_width := by
    rw [vga_width]
    bv_omega
  rw [putchar, if_neg hnl]
  dsimp only
  rw [if_neg hc, if_pos hsucc]
  rfl

theorem putchar_of_ne (m : Mem) {c : Byte} (hnl : c ≠ 0x0a)
    (hc : ¬ (c.toInt < 20 ∨ 126 < c.toInt)) (h : t.column.toNat + 1 ≠ 80) :
    (putchar m t c).1
      = (putcharCell m t c, { t with column := t.column + 1, fullLine := false }) := by
  have hsucc : ¬ (t.column + 1).toNat = vga_width := by
    rw [vga_width]
    bv_omega
  rw [putchar, if_neg hnl]
  dsimp only
  rw [if_neg hc, if_neg hsucc]
  rfl

/-! ## What a character does to the object -/

theorem valid_incrementRow (m : Mem) (ht : Valid t) : Valid (incrementRow m t).2 := by
  have hrow := ht.row
  rw [vga_height] at hrow
  by_cases hlast : t.row.toNat + 1 = 25
  · rw [incrementRow_of_last m hlast]
    exact ht
  · rw [incrementRow_of_ne m hlast]
    refine ⟨?_, ht.column, ht.buffer⟩
    rw [vga_height]
    dsimp only
    bv_omega

theorem incrementRow_color (m : Mem) (t : FramebufferTerminal) :
    (incrementRow m t).2.color = t.color := by
  rw [incrementRow]
  dsimp only
  split <;> rfl

theorem fullLine_incrementRow (m : Mem) (t : FramebufferTerminal) :
    (incrementRow m t).2.fullLine = t.fullLine := by
  rw [incrementRow]
  dsimp only
  split <;> rfl

theorem fullLine_putchar_newline (m : Mem) (t : FramebufferTerminal) :
    (putchar m t 0x0a).1.2.fullLine = false := by
  cases hfull : t.fullLine with
  | true => rw [putchar_newline_full m hfull]
  | false =>
    rw [putchar_newline m hfull, fullLine_incrementRow]
    exact hfull

/-- **`putchar` keeps the cursor on the screen**, whatever the character. -/
theorem valid_putchar (m : Mem) (ht : Valid t) (c : Byte) : Valid (putchar m t c).1.2 := by
  have hcol := ht.column
  rw [vga_width] at hcol
  by_cases hnl : c = 0x0a
  · subst hnl
    cases hfull : t.fullLine with
    | true =>
      rw [putchar_newline_full m hfull]
      exact ⟨ht.row, ht.column, ht.buffer⟩
    | false =>
      rw [putchar_newline m hfull]
      exact valid_incrementRow m ⟨ht.row, Nat.zero_lt_succ _, ht.buffer⟩
  · by_cases hc : c.toInt < 20 ∨ 126 < c.toInt
    · rw [putchar_of_out_of_range m hnl hc]
      exact ⟨ht.row, ht.column, ht.buffer⟩
    · by_cases hlast : t.column.toNat + 1 = 80
      · rw [putchar_of_last m hnl hc hlast]
        exact valid_incrementRow _ ⟨ht.row, Nat.zero_lt_succ _, ht.buffer⟩
      · rw [putchar_of_ne m hnl hc hlast]
        refine ⟨ht.row, ?_, ht.buffer⟩
        rw [vga_width]
        dsimp only
        bv_omega

theorem putchar_color (m : Mem) (t : FramebufferTerminal) (c : Byte) :
    (putchar m t c).1.2.color = t.color := by
  rw [putchar]
  split
  · split
    · rfl
    · exact incrementRow_color _ _
  · dsimp only
    split
    · rfl
    · split
      · exact incrementRow_color _ _
      · rfl

/-! ## What a character does to the screen -/

theorem incrementRow_eqOn {g : Grid (BitVec 16)} (ht : Valid t) (hg : EqOn 25 80 (grid m t) g)
    (hcol : t.column = 0) :
    EqOn 25 80 (grid (incrementRow m t).1 (incrementRow m t).2) (nextRow 25 t.blank g) := by
  have hrow := ht.row
  rw [vga_height] at hrow
  have hgrow : t.row.toNat = g.row := hg.row
  have hzero : t.column.toNat = 0 := by rw [hcol]; rfl
  by_cases hlast : t.row.toNat + 1 = 25
  · rw [incrementRow_of_last m hlast, nextRow, if_pos (by omega)]
    refine ⟨fun r hr c hc ↦ ?_, hg.row, hzero, hg.wrapped⟩
    have hscroll := @read16_scroll m { t with row := t.row + 1 } 1 (r * 80 + c) ht.buffer (by omega)
      (by omega)
    refine hscroll.trans ?_
    dsimp only
    rw [shiftUp]
    by_cases hr' : r + 1 < 25
    · rw [if_pos hr', if_pos (by omega), show r * 80 + c + 80 * 1 = (r + 1) * 80 + c by omega]
      exact hg.cell (r + 1) hr' c hc
    · rw [if_neg hr', if_neg (by omega)]
      rfl
  · rw [incrementRow_of_ne m hlast, nextRow, if_neg (by omega)]
    refine ⟨hg.cell, ?_, hzero, hg.wrapped⟩
    show (t.row + 1).toNat = g.row + 1
    bv_omega

/-- A character stored at the cursor. -/
theorem putcharCell_eqOn (ht : Valid t) (c : Byte) :
    EqOn 25 80 (grid (putcharCell m t c) t) ((grid m t).set (cellWord c t.color)) := by
  have hrow := ht.row
  have hcol := ht.column
  rw [vga_height] at hrow
  rw [vga_width] at hcol
  refine ⟨fun r hr c' hc ↦ ?_, rfl, rfl, rfl⟩
  rw [putcharCell, vga_width]
  refine (read16_write16 (by omega) (by omega) _).trans ?_
  show _ = if r = t.row.toNat ∧ c' = t.column.toNat then _ else _
  by_cases hcur : r = t.row.toNat ∧ c' = t.column.toNat
  · rw [if_pos hcur, if_pos (by omega), vga_entry_eq]
  · rw [if_neg hcur, if_neg (by omega)]
    rfl

/-- The newline that follows a full line is left out, any other one ends the line. -/
theorem putchar_newline_eqOn (ht : Valid t) :
    EqOn 25 80 (grid (putchar m t 0x0a).1.1 (putchar m t 0x0a).1.2)
      (screenNewline 25 t.blank (grid m t)) := by
  rw [screenNewline]
  cases hfull : t.fullLine with
  | true =>
    rw [putchar_newline_full m hfull, if_pos (show (grid m t).wrapped = true from hfull)]
    exact ⟨fun r _ c _ ↦ rfl, rfl, rfl, rfl⟩
  | false =>
    have hg : EqOn 25 80 (grid m { t with column := 0 })
        { grid m t with col := 0, wrapped := t.fullLine } :=
      ⟨fun _ _ _ _ ↦ rfl, rfl, rfl, rfl⟩
    have hnext := incrementRow_eqOn (t := { t with column := 0 })
      ⟨ht.row, Nat.zero_lt_succ _, ht.buffer⟩ hg rfl
    rw [nextRow_with] at hnext
    rw [putchar_newline m hfull, if_neg (show ¬ (grid m t).wrapped = true by simp [grid, hfull])]
    have hwrapped : t.fullLine = (nextRow 25 t.blank (grid m t)).wrapped :=
      (nextRow_wrapped 25 t.blank (grid m t)).symm
    exact ⟨hnext.cell, hnext.row, hnext.col, hnext.wrapped.trans hwrapped⟩

/-- Another character that is let through goes into its cell, and the cursor to the next one. -/
theorem putchar_print_eqOn {c : Byte} (ht : Valid t) (hnl : c ≠ 0x0a)
    (hprint : ¬ (c.toInt < 20 ∨ 126 < c.toInt)) :
    EqOn 25 80 (grid (putchar m t c).1.1 (putchar m t c).1.2)
      (screenPut 25 80 t.blank (grid m t) (cellWord c t.color)) := by
  have hcol := ht.column
  rw [vga_width] at hcol
  have hset := @putcharCell_eqOn m t ht c
  rw [screenPut]
  by_cases hlast : t.column.toNat + 1 = 80
  · have hg : EqOn 25 80 (grid (putcharCell m t c) { t with column := 0, fullLine := true })
        { (grid m t).set (cellWord c t.color) with col := 0, wrapped := true } :=
      ⟨hset.cell, hset.row, rfl, rfl⟩
    have hnext := incrementRow_eqOn (t := { t with column := 0, fullLine := true })
      ⟨ht.row, Nat.zero_lt_succ _, ht.buffer⟩ hg rfl
    rw [nextRow_with] at hnext
    rw [putchar_of_last m hnl hprint hlast, if_pos (show (grid m t).col + 1 = 80 from hlast)]
    exact hnext
  · rw [putchar_of_ne m hnl hprint hlast, if_neg (show ¬ (grid m t).col + 1 = 80 from hlast)]
    refine ⟨hset.cell, hset.row, ?_, rfl⟩
    show (t.column + 1).toNat = t.column.toNat + 1
    bv_omega

/-- **`putchar` refines the screen**: for every character it accepts it does to the cells, the
cursor and the flag what the abstract screen does. -/
theorem putchar_eqOn {c : Byte} (ht : Valid t) (hc : c = 0x0a ∨ Printable c) :
    EqOn 25 80 (grid (putchar m t c).1.1 (putchar m t c).1.2)
      ((grid m t).screenWrite 25 80 t.blank (t.charItem c)) := by
  rw [charItem]
  by_cases hnl : c = 0x0a
  · subst hnl
    rw [if_pos rfl, screenWrite]
    exact putchar_newline_eqOn ht
  · rw [if_neg hnl, screenWrite]
    exact putchar_print_eqOn ht hnl (hc.resolve_left hnl).in_range

/-! ## Whole texts -/

theorem valid_writeString (m : Mem) (ht : Valid t) (str : List Byte) :
    Valid (writeString m t str).2 := by
  induction str generalizing m t with
  | nil => exact ht
  | cons c str ih => exact ih _ (valid_putchar m ht c)

theorem writeString_color (m : Mem) (t : FramebufferTerminal) (str : List Byte) :
    (writeString m t str).2.color = t.color := by
  induction str generalizing m t with
  | nil => rfl
  | cons c str ih => exact (ih _ _).trans (putchar_color m t c)

/-- The unlimited sheet whose first rows are the screen; below them it is blank. -/
def sheet (m : Mem) (t : FramebufferTerminal) : Grid (BitVec 16) := ofScreen 25 t.blank (grid m t)

/-- **The terminal shows the window of a sheet**, and a text keeps it the window of the sheet on
which the text is laid out. -/
theorem writeString_window {sht : Grid (BitVec 16)} (ht : Valid t)
    (hwin : Window 25 80 t.blank (grid m t) sht) {str : List Byte}
    (hstr : ∀ c ∈ str, c = 0x0a ∨ Printable c) :
    Window 25 80 t.blank (grid (writeString m t str).1 (writeString m t str).2)
      ((str.map t.charItem).foldl (sheetWrite 80) sht) := by
  induction str generalizing m t sht with
  | nil => exact hwin
  | cons c str ih =>
    have hcolor := putchar_color m t c
    have hstep : Window 25 80 t.blank (grid (putchar m t c).1.1 (putchar m t c).1.2)
        (sht.sheetWrite 80 (t.charItem c)) :=
      (hwin.step (by decide) _).of_eqOn (putchar_eqOn ht (hstr c (by simp)))
    have hblank : (putchar m t c).1.2.blank = t.blank := by rw [blank, hcolor, blank]
    have hitem : (putchar m t c).1.2.charItem = t.charItem := by
      funext c'
      rw [charItem, hcolor, charItem]
    rw [← hblank] at hstep
    have hrest := ih (valid_putchar m ht c) hstep fun d hd ↦ hstr d (by simp [hd])
    rw [hblank, hitem] at hrest
    exact hrest

/-- **Terminal output refines an unbounded sheet.**  From every state with a valid cursor, after
every text of printable characters and newlines, the screen shows the rows of the sheet on which
the text has been laid out that end in the cursor's row, or the first 25 while the cursor has not
left them; and the cursor is the sheet's, shifted by as many rows. -/
theorem writeString_refines_sheet (m : Mem) {t : FramebufferTerminal}
    (hrow : t.row.toNat < vga_height) (hcol : t.column.toNat < vga_width)
    (hbuf : t.buffer = FRAMEBUFFER_LOCATION) {str : List Byte}
    (hstr : ∀ c ∈ str, c = 0x0a ∨ Printable c) :
    let sht := (str.map t.charItem).foldl (sheetWrite vga_width) (sheet m t)
    let s := writeString m t str
    (∀ r < vga_height, ∀ c < vga_width,
      s.1.read16 (s.2.cellAddr (r * vga_width + c)) = sht.cell (sht.row - 24 + r) c) ∧
    s.2.row.toNat = sht.row - (sht.row - 24) ∧ s.2.column.toNat = sht.col := by
  intro sht s
  have hfirst : Window 25 80 t.blank (grid m t) (sheet m t) := window_ofScreen ⟨hrow, hcol⟩
  have hwin := writeString_window ⟨hrow, hcol, hbuf⟩ hfirst hstr
  exact ⟨hwin.cell, hwin.row, hwin.col⟩

/-- One line on the screen of a terminal that has just been set up. -/
theorem writeString_refines_sheet_line :
    (writeString (fun _ ↦ 0) new [0x41, 0x0a]).1.read16 (new.cellAddr 0) = 0x0741 ∧
      (writeString (fun _ ↦ 0) new [0x41, 0x0a]).2.row.toNat = 1 ∧
      (writeString (fun _ ↦ 0) new [0x41, 0x0a]).2.column.toNat = 0 := by
  have hstr : ∀ c ∈ ([0x41, 0x0a] : List Byte), c = 0x0a ∨ Printable c := by decide
  obtain ⟨hcell, hrow, hcol⟩ := writeString_refines_sheet (fun _ ↦ 0) (t := new) (by decide)
    (by decide) rfl hstr
  exact ⟨hcell 0 (by decide) 0 (by decide), hrow, hcol⟩

end FramebufferTerminal

end RainbowOS
