import RainbowOS.Terminal.Refinement

/-!
# The terminal's hand-over from the loader to the kernel

`_stage1Main` passes the cursor to the kernel as one number, and `kmain` sets up a terminal of its
own over the same video memory.  Of the state of the old terminal only the cursor gets through: the
flag `_fullLine` is not passed on, and the colour is set anew.

* `kmain_restore` — the cursor that `kmain` decodes is the one `_stage1Main` encoded.
* `handOver_seamless` — after a text that ends in a newline nothing is lost: what the kernel prints
  looks as if the loader had printed it.
-/

set_option autoImplicit false

namespace RainbowOS

open FramebufferTerminal

/-- `MULTIBOOT_CUSTOM_BOOTLOADER_MAGIC`. -/
def MULTIBOOT_CUSTOM_BOOTLOADER_MAGIC : BitVec 32 := 0x2BADB003

/-- The registers that matter when the kernel is entered. -/
structure KernelEntry where
  /-- The multiboot flag. -/
  eax : BitVec 32
  /-- The multiboot information. -/
  ebx : BitVec 32
  /-- The address jumped to. -/
  ecx : BitVec 32
  /-- The terminal index. -/
  edx : BitVec 32
  deriving DecidableEq, Repr

/-- `jumpKernel(initAddr, mbInfo, termIndex)`. -/
def jumpKernel (initAddr mbInfo termIndex : BitVec 32) : KernelEntry where
  eax := 0x2BADB003
  ebx := mbInfo
  ecx := initAddr
  edx := termIndex

namespace FramebufferTerminal

/-- The `index` that `_stage1Main` computes from `getRow()` and `getColumn()`. -/
def terminalIndex (t : FramebufferTerminal) : BitVec 32 :=
  t.row.setWidth 32 * BitVec.ofNat 32 vga_width + t.column.setWidth 32

end FramebufferTerminal

/-- The beginning of `kmain`, up to the first `setColor`, on the registers with which the kernel
was entered: a terminal with the cursor restored, or a cleared screen. -/
def kmainTerminal (m : Mem) (entry : KernelEntry) : Mem × FramebufferTerminal :=
  let initTerminal := FramebufferTerminal.new
  if entry.eax = MULTIBOOT_CUSTOM_BOOTLOADER_MAGIC then
    let row := (entry.edx / BitVec.ofNat 32 vga_width).setWidth 8
    let column := (entry.edx - row.setWidth 32 * BitVec.ofNat 32 vga_width).setWidth 8
    (m, (initTerminal.setCursor row column).1)
  else (initTerminal.clear m, initTerminal)

variable {m : Mem} {t : FramebufferTerminal}

/-- A text that ends in a newline leaves the flag clear, also when its last line is exactly as long
as a row. -/
theorem writeString_fullLine (m : Mem) (t : FramebufferTerminal) (s : List Byte) :
    (writeString m t (s ++ [0x0a])).2.fullLine = false := by
  rw [writeString, List.foldl_append]
  exact fullLine_putchar_newline _ _

theorem writeString_append (m : Mem) (t : FramebufferTerminal) (s s' : List Byte) :
    writeString m t (s ++ s') = writeString (writeString m t s).1 (writeString m t s).2 s' := by
  rw [writeString, List.foldl_append]
  rfl

theorem toNat_terminalIndex (ht : Valid t) :
    t.terminalIndex.toNat = t.row.toNat * 80 + t.column.toNat := by
  have hrow := ht.row
  have hcol := ht.column
  rw [vga_height] at hrow
  rw [vga_width] at hcol
  rw [terminalIndex, vga_width]
  bv_omega

/-- **The cursor survives**: what `kmain` decodes is what `_stage1Main` encoded. -/
theorem kmain_restore (m : Mem) (ht : Valid t) (initAddr mbInfo : BitVec 32) :
    kmainTerminal m (jumpKernel initAddr mbInfo t.terminalIndex) =
      (m, { t with color := 0x07, fullLine := false }) := by
  have hrow := ht.row
  have hcol := ht.column
  have hidx := toNat_terminalIndex ht
  rw [vga_height] at hrow
  rw [vga_width] at hcol
  have hmagic : (jumpKernel initAddr mbInfo t.terminalIndex).eax
      = MULTIBOOT_CUSTOM_BOOTLOADER_MAGIC := rfl
  rw [kmainTerminal, if_pos hmagic]
  dsimp only [jumpKernel]
  obtain ⟨r, hr⟩ : ∃ r, r = (t.terminalIndex / BitVec.ofNat 32 vga_width).setWidth 8 := ⟨_, rfl⟩
  have hrn : r.toNat = t.row.toNat := by
    rw [hr, vga_width, BitVec.toNat_setWidth, BitVec.toNat_udiv, hidx,
      show (BitVec.ofNat 32 80).toNat = 80 from rfl]
    omega
  rw [← hr]
  obtain ⟨c, hc⟩ : ∃ c,
      c = (t.terminalIndex - r.setWidth 32 * BitVec.ofNat 32 vga_width).setWidth 8 := ⟨_, rfl⟩
  have hcn : c.toNat = t.column.toNat := by
    rw [hc, vga_width]
    bv_omega
  rw [← hc, setCursor, if_neg (by rw [vga_height, vga_width]; omega)]
  have hrow' : r.setWidth 16 = t.row := by
    bv_omega
  have hcol' : c.setWidth 16 = t.column := by
    bv_omega
  rw [hrow', hcol', FramebufferTerminal.new, ← ht.buffer]

/-- **The hand-over loses nothing.**  From every terminal of the loader with a valid cursor and for
all texts, of which the first ends in a newline: the kernel's terminal, set up from the index the
loader passed and printing in the same colour, ends with the memory and the state with which the
loader's terminal ends when it prints both texts. -/
theorem handOver_seamless (m : Mem) {t : FramebufferTerminal} (hrow : t.row.toNat < vga_height)
    (hcol : t.column.toNat < vga_width) (hbuf : t.buffer = FRAMEBUFFER_LOCATION)
    (fg bg : VgaColor) (initAddr mbInfo : BitVec 32) (s text : List Byte) :
    let stage1 := writeString m (t.setColor fg bg) (s ++ [0x0a])
    let entry := jumpKernel initAddr mbInfo stage1.2.terminalIndex
    let kernel := kmainTerminal stage1.1 entry
    writeString kernel.1 (kernel.2.setColor fg bg) text
      = writeString m (t.setColor fg bg) (s ++ [0x0a] ++ text) := by
  intro stage1 entry kernel
  have hvalid : Valid stage1.2 := valid_writeString m (valid_setColor ⟨hrow, hcol, hbuf⟩ fg bg) _
  have hfull : stage1.2.fullLine = false := writeString_fullLine m _ s
  have hcolor : stage1.2.color = vga_entry_color fg bg := writeString_color m _ _
  have hkernel : kernel = (stage1.1, { stage1.2 with color := 0x07, fullLine := false }) :=
    kmain_restore stage1.1 hvalid initAddr mbInfo
  have hsame : kernel.2.setColor fg bg = stage1.2 := by
    rw [hkernel, setColor, ← hcolor, ← hfull]
  rw [writeString_append, hsame, hkernel]

/-- A line of the loader in a colour of its own, and one of the kernel. -/
theorem handOver_seamless_line :
    let stage1 := writeString (fun _ ↦ 0) (new.setColor .lightGrey .blue) ([0x41] ++ [0x0a])
    let kernel := kmainTerminal stage1.1 (jumpKernel 0x100000 0x8000 stage1.2.terminalIndex)
    writeString kernel.1 (kernel.2.setColor .lightGrey .blue) [0x42]
      = writeString (fun _ ↦ 0) (new.setColor .lightGrey .blue) ([0x41] ++ [0x0a] ++ [0x42]) :=
  handOver_seamless _ (by decide) (by decide) rfl .lightGrey .blue 0x100000 0x8000 [0x41] [0x42]

end RainbowOS
