import RainbowOS.Terminal.Refinement

/-!
# Scrolling by several lines

`scroll` moves the rows up with a `memmove` on bytes and clears the rows at the bottom with stores
of cells.  `scroll_scroll` says that two scrolls are one by the sum of the line counts, in the whole
memory and not only on the screen, and `read16_scroll_row` which rows are where.
-/

set_option autoImplicit false

namespace RainbowOS.FramebufferTerminal

variable {m : Mem} {t : FramebufferTerminal} {lines a b y n : ℕ}

/-! ## Outside the screen -/

theorem eqOff_writeCell (m : Mem) (hbuf : t.buffer = FRAMEBUFFER_LOCATION) {i : ℕ} (hi : i < 2000)
    (v : BitVec 16) : Mem.EqOff m (m.write16 (t.cellAddr i) v) 0xb8000 0xb8fa0 := by
  have haddr := toNat_cellAddr hbuf (Nat.le_of_lt hi)
  exact (Mem.eqOff_write m _ _ (by omega)).mono (by omega) (by omega)

theorem eqOff_clearRow (m : Mem) (hbuf : t.buffer = FRAMEBUFFER_LOCATION) (hy : y < 25) :
    Mem.EqOff m (t.clearRow m y) 0xb8000 0xb8fa0 := by
  suffices h : ∀ k ≤ 80, Mem.EqOff m ((List.range k).foldl
      (fun m x ↦ m.write16 (t.cellAddr (y * vga_width + x)) (vga_entry 0x20 t.color)) m)
      0xb8000 0xb8fa0 from h 80 (Nat.le_refl _)
  intro k hk
  induction k with
  | zero => exact .refl _ _ _
  | succ k ih =>
    rw [List.range_succ, List.foldl_append]
    refine (ih (by omega)).trans (eqOff_writeCell _ hbuf ?_ _)
    rw [vga_width]
    omega

theorem eqOff_clearRows (m : Mem) (hbuf : t.buffer = FRAMEBUFFER_LOCATION) (hyn : y + n ≤ 25) :
    Mem.EqOff m ((List.range' y n).foldl t.clearRow m) 0xb8000 0xb8fa0 := by
  induction n generalizing y m with
  | zero => exact .refl _ _ _
  | succ n ih =>
    rw [List.range'_succ, List.foldl_cons]
    exact (eqOff_clearRow m hbuf (by omega)).trans (ih _ (by omega))

/-- `scroll` writes to the screen only. -/
theorem eqOff_scroll (m : Mem) (hbuf : t.buffer = FRAMEBUFFER_LOCATION) (lines : ℕ) :
    Mem.EqOff m (scroll m t lines).1 0xb8000 0xb8fa0 := by
  rw [scroll]
  split
  · exact .refl _ _ _
  · rename_i hlines
    rw [vga_height] at hlines
    have hbase : t.buffer.toNat = 0xb8000 := by rw [hbuf]; rfl
    have hsrc := toNat_cellAddr hbuf (show vga_width * lines ≤ 2000 by rw [vga_width]; omega)
    simp only [vga_height, vga_width] at hsrc ⊢
    rw [memmove_eq_write (by omega) (by omega)]
    refine .trans ?_ (eqOff_clearRows _ hbuf (by omega))
    exact (Mem.eqOff_write m _ _ (by omega)).mono (by omega) (by omega)

/-! ## The whole memory -/

/-- A memory is known from the cells of the screen and from what is outside. -/
theorem eq_of_cells {m₁ m₂ : Mem} (hbuf : t.buffer = FRAMEBUFFER_LOCATION)
    (h₁ : Mem.EqOff m m₁ 0xb8000 0xb8fa0) (h₂ : Mem.EqOff m m₂ 0xb8000 0xb8fa0)
    (hcells : ∀ j < 2000, m₁.read16 (t.cellAddr j) = m₂.read16 (t.cellAddr j)) : m₁ = m₂ := by
  funext x
  by_cases hout : x.toNat < 0xb8000 ∨ 0xb8fa0 ≤ x.toNat
  · rw [h₁ x hout, h₂ x hout]
  · have hj : (x.toNat - 0xb8000) / 2 < 2000 := by omega
    have haddr := toNat_cellAddr hbuf (Nat.le_of_lt hj)
    obtain ⟨hhigh, hlow⟩ := Mem.eq_of_read16_eq (hcells _ hj)
    obtain hx | hx : x = t.cellAddr ((x.toNat - 0xb8000) / 2) ∨
        x = t.cellAddr ((x.toNat - 0xb8000) / 2) + 1 := by
      rw [← BitVec.toNat_inj, ← BitVec.toNat_inj, BitVec.toNat_add, haddr,
        show (1 : Addr).toNat = 1 from rfl]
      omega
    · rw [hx]
      exact hlow
    · rw [hx]
      exact hhigh

/-- Two scrolls are one, cell by cell. -/
theorem read16_scroll_scroll (hbuf : t.buffer = FRAMEBUFFER_LOCATION) (hab : a + b < 25) {j : ℕ}
    (hj : j < 2000) : (scroll (scroll m t a).1 t b).1.read16 (t.cellAddr j) =
      (scroll m t (a + b)).1.read16 (t.cellAddr j) := by
  rw [read16_scroll hbuf (by omega) hj, read16_scroll hbuf hab hj]
  by_cases hb : j < (25 - b) * 80
  · rw [if_pos hb, read16_scroll hbuf (by omega) (by omega)]
    by_cases ha : j + 80 * b < (25 - a) * 80
    · rw [if_pos ha, if_pos (by omega), show j + 80 * b + 80 * a = j + 80 * (a + b) by omega]
    · rw [if_neg ha, if_neg (by omega)]
  · rw [if_neg hb, if_neg (by omega)]

/-- Which rows are where after a scroll. -/
theorem read16_scroll_row (hbuf : t.buffer = FRAMEBUFFER_LOCATION) (hlines : lines < 25) {r c : ℕ}
    (hr : r < 25) (hc : c < 80) : (scroll m t lines).1.read16 (t.cellAddr (r * 80 + c)) =
      if r < 25 - lines then m.read16 (t.cellAddr ((r + lines) * 80 + c)) else t.blank := by
  rw [read16_scroll hbuf hlines (by omega)]
  by_cases hrow : r < 25 - lines
  · rw [if_pos hrow, if_pos (by omega),
      show r * 80 + c + 80 * lines = (r + lines) * 80 + c by omega]
  · rw [if_neg hrow, if_neg (by omega)]

theorem scroll_returns (m : Mem) (t : FramebufferTerminal) (hlines : lines < vga_height) :
    (scroll m t lines).2 = 0 := by
  rw [scroll, if_neg (Nat.not_le.mpr hlines)]

theorem scroll_of_le (m : Mem) (t : FramebufferTerminal) (hlines : vga_height ≤ lines) :
    scroll m t lines = (m, 1) := by
  rw [scroll, if_pos hlines]

/-- **Scrolling composes.**  Whatever is on the screen: scrolling by `a` and then by `b` lines,
fewer than 25 in all, leaves the memory as scrolling by `a + b` does, with each row `a + b` rows
further up and blank rows at the bottom; and 25 or more lines are refused and change nothing. -/
theorem scroll_scroll (m : Mem) {t : FramebufferTerminal} (hbuf : t.buffer = FRAMEBUFFER_LOCATION)
    (a b : ℕ) :
    (a + b < vga_height →
      ((scroll m t a).2 = 0 ∧ (scroll (scroll m t a).1 t b).2 = 0 ∧ (scroll m t (a + b)).2 = 0) ∧
      (scroll (scroll m t a).1 t b).1 = (scroll m t (a + b)).1 ∧
      ∀ r < vga_height, ∀ c < vga_width,
        (scroll m t (a + b)).1.read16 (t.cellAddr (r * vga_width + c)) =
          if r < vga_height - a - b then m.read16 (t.cellAddr ((r + a + b) * vga_width + c))
          else t.blank) ∧
    ∀ lines, vga_height ≤ lines → scroll m t lines = (m, 1) := by
  refine ⟨fun hab ↦ ⟨⟨?_, ?_, scroll_returns m t hab⟩, ?_, fun r hr c hc ↦ ?_⟩,
    fun lines hlines ↦ scroll_of_le m t hlines⟩
  · exact scroll_returns m t (Nat.lt_of_le_of_lt (Nat.le_add_right a b) hab)
  · exact scroll_returns _ t (Nat.lt_of_le_of_lt (Nat.le_add_left b a) hab)
  · have htwice := (eqOff_scroll m hbuf a).trans (eqOff_scroll _ hbuf b)
    exact eq_of_cells hbuf htwice (eqOff_scroll m hbuf (a + b)) fun j hj ↦
      read16_scroll_scroll hbuf hab hj
  · rw [Nat.sub_sub, Nat.add_assoc]
    exact read16_scroll_row hbuf hab hr hc

/-- A new terminal, scrolled by one line and by two more: the first cell is that of row 3. -/
theorem scroll_scroll_new : let m : Mem := fun x ↦ x.setWidth 8
    (scroll (scroll m new 1).1 new 2).1 = (scroll m new 3).1 ∧
      (scroll m new 3).1.read16 (new.cellAddr 0) = m.read16 (new.cellAddr 240) := by
  obtain ⟨hcompose, -⟩ := scroll_scroll (fun x ↦ x.setWidth 8) (t := new) rfl 1 2
  obtain ⟨-, hmem, hcell⟩ := hcompose (by decide)
  exact ⟨hmem, hcell 0 (by decide) 0 (by decide)⟩

end RainbowOS.FramebufferTerminal
