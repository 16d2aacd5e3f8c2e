import RainbowOS.Terminal.Handover
import RainbowOS.Terminal.Scroll

/-!
# Output on the terminal, piece by piece

A program writes to the terminal in pieces, in several colours, and to other parts of the memory in
between.  The screen stays the window of a sheet all the time: a text is laid out on it behind what
is there, and a colour is also that of the rows that have not been reached.

* `eqOff_writeString` — a text is written to the screen only.
* `Shows.writeString`, `Shows.setColor`, `Shows.congr` — what keeps the screen the window of a
  sheet.
-/

set_option autoImplicit false

namespace RainbowOS.FramebufferTerminal

open Sheet Sheet.Grid

variable {m m' : Mem} {t : FramebufferTerminal} {sht : Grid (BitVec 16)} {s s' : List Byte}

/-! ## What is written -/

theorem eqOff_incrementRow (m : Mem) (ht : Valid t) :
    Mem.EqOff m (incrementRow m t).1 0xb8000 0xb8fa0 := by
  rw [incrementRow]
  dsimp only
  split
  · exact eqOff_scroll m ht.buffer 1
  · exact .refl _ _ _

theorem eqOff_putcharCell (m : Mem) (ht : Valid t) (c : Byte) :
    Mem.EqOff m (putcharCell m t c) 0xb8000 0xb8fa0 := by
  have hrow := ht.row
  have hcol := ht.column
  rw [vga_height] at hrow
  rw [vga_width] at hcol
  exact eqOff_writeCell m ht.buffer (by rw [vga_width]; omega) _

theorem eqOff_putchar (m : Mem) (ht : Valid t) (c : Byte) :
    Mem.EqOff m (putchar m t c).1.1 0xb8000 0xb8fa0 := by
  by_cases hnl : c = 0x0a
  · subst hnl
    cases hfull : t.fullLine with
    | true =>
      rw [putchar_newline_full m hfull]
      exact .refl _ _ _
    | false =>
      rw [putchar_newline m hfull]
      exact eqOff_incrementRow m ⟨ht.row, Nat.zero_lt_succ _, ht.buffer⟩
  · by_cases hout : c.toInt < 20 ∨ 126 < c.toInt
    · rw [putchar_of_out_of_range m hnl hout]
      exact .refl _ _ _
    · by_cases hlast : t.column.toNat + 1 = 80
      · rw [putchar_of_last m hnl hout hlast]
        exact (eqOff_putcharCell m ht c).trans
          (eqOff_incrementRow _ ⟨ht.row, Nat.zero_lt_succ _, ht.buffer⟩)
      · rw [putchar_of_ne m hnl hout hlast]
        exact eqOff_putcharCell m ht c

/-- **A text is written to the screen only.** -/
theorem eqOff_writeString (m : Mem) (ht : Valid t) (s : List Byte) :
    Mem.EqOff m (writeString m t s).1 0xb8000 0xb8fa0 := by
  induction s generalizing m t with
  | nil => exact .refl _ _ _
  | cons c s ih => exact (eqOff_putchar m ht c).trans (ih _ (valid_putchar m ht c))

/-! ## The sheet -/

/-- What a character means in a colour. -/
def coloured (color c : Byte) : Item (BitVec 16) :=
  if c = 0x0a then .newline else .cell (cellWord c color)

/-- A text behind what is on a sheet. -/
def layOut (color : Byte) (s : List Byte) (sht : Grid (BitVec 16)) : Grid (BitVec 16) :=
  (s.map (coloured color)).foldl (sheetWrite 80) sht

theorem layOut_append (color : Byte) (s s' : List Byte) (sht : Grid (BitVec 16)) :
    layOut color (s ++ s') sht = layOut color s' (layOut color s sht) := by
  rw [layOut, List.map_append, List.foldl_append]
  rfl

/-- The characters of a text. -/
def Legible (s : List Byte) : Prop := ∀ c ∈ s, c = 0x0a ∨ Printable c

instance (s : List Byte) : Decidable (Legible s) := inferInstanceAs (Decidable (∀ c ∈ s, _))

theorem Legible.append (h : Legible s) (h' : Legible s') : Legible (s ++ s') := fun c hc ↦
  (List.mem_append.mp hc).elim (h c) (h' c)

/-- The terminal's screen is the window of a sheet. -/
structure Shows (m : Mem) (t : FramebufferTerminal) (sht : Grid (BitVec 16)) : Prop where
  valid : Valid t
  window : Window 25 80 t.blank (grid m t) sht

theorem shows_sheet (m : Mem) (ht : Valid t) : Shows m t (sheet m t) :=
  ⟨ht, window_ofScreen ⟨ht.row, ht.column⟩⟩

namespace Shows

/-- A text is laid out behind what is there. -/
theorem writeString (h : Shows m t sht) (hs : Legible s) :
    Shows (writeString m t s).1 (writeString m t s).2 (layOut t.color s sht) := by
  refine ⟨valid_writeString m h.valid s, ?_⟩
  have hblank : (FramebufferTerminal.writeString m t s).2.blank = t.blank := by
    rw [blank, writeString_color, blank]
  rw [hblank]
  exact writeString_window h.valid h.window hs

/-- The rows that have not been reached get the new colour. -/
theorem setColor (h : Shows m t sht) (fg bg : VgaColor) :
    Shows m (t.setColor fg bg) (sht.reblank 25 (t.setColor fg bg).blank) :=
  ⟨valid_setColor h.valid fg bg, h.window.reblank _⟩

/-- The rest of the memory does not matter. -/
theorem congr (h : Shows m t sht)
    (hscreen : ∀ x : Addr, 0xb8000 ≤ x.toNat → x.toNat < 0xb8fa0 → m' x = m x) :
    Shows m' t sht := by
  have heq : Grid.EqOn 25 80 (grid m' t) (grid m t) := by
    refine ⟨fun r hr c hc ↦ ?_, rfl, rfl, rfl⟩
    have haddr := toNat_cellAddr h.valid.buffer (show r * 80 + c ≤ 2000 by omega)
    refine Mem.readLE_congr (n := 2) fun i hi ↦ hscreen _ ?_ ?_
    · bv_omega
    · bv_omega
  exact ⟨h.valid, h.window.of_eqOn heq⟩

end Shows

end RainbowOS.FramebufferTerminal
