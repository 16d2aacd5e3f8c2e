import RainbowOS.Lib.Traced
import RainbowOS.Terminal.Refinement

/-!
# What the terminal accesses

The member functions of the terminal once more, on a memory that keeps a log of its accesses: each
is the function of `Terminal/Basic.lean` with a load or a store where that reads or writes a byte.
The `memmove` in `scroll` accesses both of its ranges byte by byte.

`accesses_onScreen` says that after any operations on a new terminal the log has bytes of the 2000
cells only.
-/

set_option autoImplicit false

namespace RainbowOS

/-! ## The functions with a log -/

/-- A round of the loops of `memmove`. -/
def tracedCopy (dst src : Addr) (s : Traced) (i : ℕ) : Traced :=
  (s.load8 (src + addr i)).2.store8 (dst + addr i) (s.load8 (src + addr i)).1

/-- `memmove(dst, src, size)`. -/
def tracedMemmove (s : Traced) (dst src : Addr) (size : ℕ) : Traced :=
  if dst < src then (List.range size).foldl (tracedCopy dst src) s
  else (List.range size).reverse.foldl (tracedCopy dst src) s

namespace FramebufferTerminal

/-- The inner loop that clears row `y`. -/
def tracedClearRow (t : FramebufferTerminal) (s : Traced) (y : ℕ) : Traced :=
  (List.range vga_width).foldl
    (fun s x ↦ s.store16 (t.cellAddr (y * vga_width + x)) (vga_entry 0x20 t.color)) s

/-- `clear()`. -/
def tracedClear (s : Traced) (t : FramebufferTerminal) : Traced :=
  (List.range vga_height).foldl t.tracedClearRow s

/-- `scroll(lines)`. -/
def tracedScroll (s : Traced) (t : FramebufferTerminal) (lines : ℕ) : Traced × ℤ :=
  if vga_height ≤ lines then (s, 1)
  else
    let size := vga_width * (vga_height - lines) * 2
    let s := tracedMemmove s t.buffer (t.cellAddr (vga_width * lines)) size
    ((List.range' (vga_height - lines) lines).foldl t.tracedClearRow s, 0)

/-- `if (++_row == vga_height) { scroll(1); _row--; }`. -/
def tracedIncrementRow (s : Traced) (t : FramebufferTerminal) : Traced × FramebufferTerminal :=
  let t := { t with row := t.row + 1 }
  if t.row.toNat = vga_height then ((tracedScroll s t 1).1, { t with row := t.row - 1 }) else (s, t)

/-- `putchar(c)`. -/
def tracedPutchar (s : Traced) (t : FramebufferTerminal) (c : Byte) :
    (Traced × FramebufferTerminal) × ℤ :=
  if c = 0x0a then
    if t.fullLine then ((s, { t with fullLine := false }), 0)
    else (tracedIncrementRow s { t with column := 0 }, 0)
  else
    let t := { t with fullLine := false }
    let index := t.row.toNat * vga_width + t.column.toNat
    if c.toInt < 20 ∨ 126 < c.toInt then ((s, t), 1)
    else
      let s := s.store16 (t.cellAddr index) (vga_entry c t.color)
      let t := { t with column := t.column + 1 }
      if t.column.toNat = vga_width then
        (tracedIncrementRow s { t with column := 0, fullLine := true }, 0)
      else ((s, t), 0)

/-- A call of a member function. -/
inductive Operation where
  | putchar (c : Byte)
  | scroll (lines : ℕ)
  | clear
  | setColor (fg bg : VgaColor)
  | setCursor (row column : Byte)
  | reset
  deriving DecidableEq, Repr

/-- What a call does to the memory and to the object. -/
def Operation.exec (s : Mem × FramebufferTerminal) : Operation → Mem × FramebufferTerminal
  | .putchar c => (FramebufferTerminal.putchar s.1 s.2 c).1
  | .scroll lines => ((FramebufferTerminal.scroll s.1 s.2 lines).1, s.2)
  | .clear => (FramebufferTerminal.clear s.1 s.2, s.2)
  | .setColor fg bg => (s.1, s.2.setColor fg bg)
  | .setCursor row column => (s.1, (s.2.setCursor row column).1)
  | .reset => (s.1, s.2.reset)

/-- The same with the log. -/
def Operation.trace (s : Traced × FramebufferTerminal) : Operation → Traced × FramebufferTerminal
  | .putchar c => (tracedPutchar s.1 s.2 c).1
  | .scroll lines => ((tracedScroll s.1 s.2 lines).1, s.2)
  | .clear => (tracedClear s.1 s.2, s.2)
  | .setColor fg bg => (s.1, s.2.setColor fg bg)
  | .setCursor row column => (s.1, (s.2.setCursor row column).1)
  | .reset => (s.1, s.2.reset)

/-- A byte of one of the 25 × 80 cells. -/
def OnScreen (a : Addr) : Prop := ∃ index < vga_height * vga_width,
  a = FRAMEBUFFER_LOCATION + addr (2 * index) ∨ a = FRAMEBUFFER_LOCATION + addr (2 * index) + 1

variable {t : FramebufferTerminal} {lines y : ℕ}

/-! ## What each of them accesses -/

theorem onScreen_byte {i : ℕ} (hi : i < 4000) : OnScreen (FRAMEBUFFER_LOCATION + addr i) := by
  refine ⟨i / 2, by rw [vga_height, vga_width]; omega, ?_⟩
  rcases Nat.mod_two_eq_zero_or_one i with h | h
  · left
    rw [show 2 * (i / 2) = i by omega]
  · right
    rw [BitVec.add_assoc]
    exact congrArg (FRAMEBUFFER_LOCATION + ·) (by bv_omega)

theorem onScreen_cell (hbuf : t.buffer = FRAMEBUFFER_LOCATION) {i : ℕ} (hi : i < 2000) :
    OnScreen (t.cellAddr i) ∧ OnScreen (t.cellAddr i + 1) := by
  rw [cellAddr, hbuf]
  exact ⟨⟨i, hi, .inl rfl⟩, ⟨i, hi, .inr rfl⟩⟩

theorem accesses_store (hbuf : t.buffer = FRAMEBUFFER_LOCATION) {i : ℕ} (hi : i < 2000)
    (v : BitVec 16) :
    Traced.Accesses OnScreen (·.write16 (t.cellAddr i) v) (·.store16 (t.cellAddr i) v) :=
  .store16 (onScreen_cell hbuf hi).1 (onScreen_cell hbuf hi).2 v

theorem accesses_clearRow (hbuf : t.buffer = FRAMEBUFFER_LOCATION) (hy : y < 25) :
    Traced.Accesses OnScreen (t.clearRow · y) (t.tracedClearRow · y) := by
  refine Traced.Accesses.foldl fun x hx ↦ accesses_store hbuf ?_ _
  rw [List.mem_range, vga_width] at hx
  rw [vga_width]
  omega

theorem accesses_clear (hbuf : t.buffer = FRAMEBUFFER_LOCATION) :
    Traced.Accesses OnScreen (clear · t) (tracedClear · t) :=
  Traced.Accesses.foldl fun _ hy ↦ accesses_clearRow hbuf (List.mem_range.mp hy)

/-- Both ranges of the `memmove` are on the screen. -/
theorem accesses_memmove (hbuf : t.buffer = FRAMEBUFFER_LOCATION) (hlines : lines < 25) :
    Traced.Accesses OnScreen
      (memmove · t.buffer (t.cellAddr (vga_width * lines)) (vga_width * (vga_height - lines) * 2))
      (tracedMemmove · t.buffer (t.cellAddr (vga_width * lines))
        (vga_width * (vga_height - lines) * 2)) := by
  have hcopy : ∀ i < vga_width * (vga_height - lines) * 2, Traced.Accesses OnScreen
      (fun m ↦ m.write8 (t.buffer + addr i) (m (t.cellAddr (vga_width * lines) + addr i)))
      (tracedCopy t.buffer (t.cellAddr (vga_width * lines)) · i) := by
    intro i hi
    rw [vga_width, vga_height] at hi
    refine .copy8 ?_ ?_
    · rw [cellAddr, hbuf, add_addr_addr]
      refine onScreen_byte ?_
      rw [vga_width]
      omega
    · rw [hbuf]
      exact onScreen_byte (by omega)
  simp only [memmove, tracedMemmove]
  split
  · exact .foldl fun i hi ↦ hcopy i (List.mem_range.mp hi)
  · exact .foldl fun i hi ↦ hcopy i (List.mem_range.mp (List.mem_reverse.mp hi))

theorem accesses_scroll (hbuf : t.buffer = FRAMEBUFFER_LOCATION) (lines : ℕ) :
    Traced.Accesses OnScreen (fun m ↦ (scroll m t lines).1)
      (fun s ↦ (tracedScroll s t lines).1) := by
  simp only [scroll, tracedScroll]
  split
  · exact .id
  · rename_i hlines
    rw [vga_height] at hlines
    have hclear : Traced.Accesses OnScreen
        ((List.range' (vga_height - lines) lines).foldl t.clearRow)
        ((List.range' (vga_height - lines) lines).foldl t.tracedClearRow) := by
      refine .foldl fun y hy ↦ accesses_clearRow hbuf ?_
      rw [List.mem_range'_1, vga_height] at hy
      omega
    exact hclear.comp (accesses_memmove hbuf (by omega))

theorem accesses_incrementRow (hbuf : t.buffer = FRAMEBUFFER_LOCATION) :
    Traced.Accesses OnScreen (fun m ↦ (incrementRow m t).1) (fun s ↦ (tracedIncrementRow s t).1) ∧
      ∀ s, (tracedIncrementRow s t).2 = (incrementRow s.mem t).2 := by
  simp only [incrementRow, tracedIncrementRow]
  split
  · exact ⟨accesses_scroll hbuf 1, fun _ ↦ rfl⟩
  · exact ⟨.id, fun _ ↦ rfl⟩

theorem accesses_putchar (ht : Valid t) (c : Byte) :
    Traced.Accesses OnScreen (fun m ↦ (putchar m t c).1.1) (fun s ↦ (tracedPutchar s t c).1.1) ∧
      ∀ s, (tracedPutchar s t c).1.2 = (putchar s.mem t c).1.2 := by
  have hrow := ht.row
  have hcol := ht.column
  rw [vga_height] at hrow
  rw [vga_width] at hcol
  have hstore : Traced.Accesses OnScreen
      (·.write16 (t.cellAddr (t.row.toNat * vga_width + t.column.toNat)) (vga_entry c t.color))
      (·.store16 (t.cellAddr (t.row.toNat * vga_width + t.column.toNat))
        (vga_entry c t.color)) := by
    refine accesses_store ht.buffer ?_ _
    rw [vga_width]
    omega
  simp only [putchar, tracedPutchar]
  split
  · split
    · exact ⟨.id, fun _ ↦ rfl⟩
    · exact accesses_incrementRow ht.buffer
  · split
    · exact ⟨.id, fun _ ↦ rfl⟩
    · split
      · obtain ⟨hacc, hterm⟩ := @accesses_incrementRow
          { t with column := 0, fullLine := true } ht.buffer
        exact ⟨hacc.comp hstore, fun s ↦ hterm _⟩
      · exact ⟨hstore, fun _ ↦ rfl⟩

/-! ## Whole runs -/

theorem valid_exec {s : Mem × FramebufferTerminal} (ht : Valid s.2) (op : Operation) :
    Valid (op.exec s).2 := by
  cases op with
  | putchar c => exact valid_putchar s.1 ht c
  | scroll lines => exact ht
  | clear => exact ht
  | setColor fg bg => exact valid_setColor ht fg bg
  | setCursor row column => exact valid_setCursor ht row column
  | reset => exact valid_reset s.2

/-- **One operation**: it does what it does without the log, and accesses the screen only. -/
theorem trace_step {s : Traced × FramebufferTerminal} (ht : Valid s.2)
    (hlog : ∀ a ∈ s.1.log, OnScreen a) (op : Operation) :
    ((op.trace s).1.mem, (op.trace s).2) = op.exec (s.1.mem, s.2) ∧
      ∀ a ∈ (op.trace s).1.log, OnScreen a := by
  cases op with
  | putchar c =>
    obtain ⟨hacc, hterm⟩ := accesses_putchar ht c
    exact ⟨Prod.ext (hacc.mem s.1) (hterm s.1), hacc.log s.1 hlog⟩
  | scroll lines =>
    have hacc := accesses_scroll ht.buffer lines
    exact ⟨Prod.ext (hacc.mem s.1) rfl, hacc.log s.1 hlog⟩
  | clear =>
    have hacc := accesses_clear ht.buffer
    have hmem : (tracedClear s.1 s.2).mem = clear s.1.mem s.2 := hacc.mem s.1
    simp only [Operation.trace, Operation.exec, hmem]
    exact ⟨trivial, hacc.log s.1 hlog⟩
  | setColor fg bg => exact ⟨rfl, hlog⟩
  | setCursor row column => exact ⟨rfl, hlog⟩
  | reset => exact ⟨rfl, hlog⟩

theorem trace_run {s : Traced × FramebufferTerminal} (ht : Valid s.2)
    (hlog : ∀ a ∈ s.1.log, OnScreen a) (ops : List Operation) :
    ((ops.foldl Operation.trace s).1.mem, (ops.foldl Operation.trace s).2) =
        ops.foldl Operation.exec (s.1.mem, s.2) ∧
      Valid (ops.foldl Operation.trace s).2 ∧
      ∀ a ∈ (ops.foldl Operation.trace s).1.log, OnScreen a := by
  induction ops generalizing s with
  | nil => exact ⟨rfl, ht, hlog⟩
  | cons op ops ih =>
    obtain ⟨hexec, hlog'⟩ := trace_step ht hlog op
    have hvalid : Valid (op.trace s).2 := by
      rw [show (op.trace s).2 = (op.exec (s.1.mem, s.2)).2 from congrArg Prod.snd hexec]
      exact valid_exec ht op
    obtain ⟨hrun, hvalid', hlog''⟩ := ih hvalid hlog'
    rw [hexec] at hrun
    exact ⟨hrun, hvalid', hlog''⟩

/-- **The terminal never leaves the screen.**  After any operations on a new terminal, with any
arguments, the cursor is on the screen and every byte that has been read or written is one of the
25 × 80 cells; what has been done to the memory and to the object is what the operations do. -/
theorem accesses_onScreen (m : Mem) (ops : List Operation) :
    let s := ops.foldl Operation.trace (⟨m, []⟩, new)
    (s.1.mem, s.2) = ops.foldl Operation.exec (m, new) ∧
      s.2.row.toNat < vga_height ∧ s.2.column.toNat < vga_width ∧ ∀ a ∈ s.1.log, OnScreen a := by
  intro s
  obtain ⟨hrun, hvalid, hlog⟩ := @trace_run (⟨m, []⟩, new) valid_new (by simp) ops
  exact ⟨hrun, hvalid.row, hvalid.column, hlog⟩

end FramebufferTerminal

end RainbowOS
