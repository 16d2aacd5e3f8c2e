import Mathlib.Data.Int.Notation
import RainbowOS.StdlibC.Memmove

/-!
# `io::framebuffer_terminal`

The text terminal of the loader and of the kernel: 25 rows of 80 cells in the video memory at
`0xb8000`, each cell a character in its low byte and a colour in its high byte.  The object itself
holds the cursor, the colour, a pointer to the cells, and the flag `_fullLine`, which is set when
the last character ended a row.

The member functions below take the memory and the object and give both back.  Their index
arithmetic is done in `size_t`, where it does not overflow; the `uint16_t` cursor wraps.
-/

set_option autoImplicit false

namespace RainbowOS

/-- `io::FRAMEBUFFER_LOCATION`. -/
def FRAMEBUFFER_LOCATION : Addr := 0xb8000

/-- `enum class vga_color`. -/
inductive VgaColor where
  | black | blue | green | cyan | red | magenta | brown | lightGrey
  | darkGrey | lightBlue | lightGreen | lightCyan | lightRed | lightMagenta | lightBrown | white
  deriving DecidableEq, Repr

/-- The value of an enumerator. -/
def VgaColor.toByte (c : VgaColor) : Byte := BitVec.ofNat 8 c.ctorIdx

/-- The data members of `io::framebuffer_terminal`. -/
structure FramebufferTerminal where
  /-- `_row`. -/
  row : BitVec 16
  /-- `_column`. -/
  column : BitVec 16
  /-- `_color`. -/
  color : Byte
  /-- `_fullLine`. -/
  fullLine : Bool
  /-- `_buffer`. -/
  buffer : Addr
  deriving DecidableEq, Repr

namespace FramebufferTerminal

/-- `vga_height`. -/
def vga_height : ℕ := 25

/-- `vga_width`. -/
def vga_width : ℕ := 80

/-- The constructor. -/
def new : FramebufferTerminal := ⟨0, 0, 0x07, false, FRAMEBUFFER_LOCATION⟩

/-- `vga_entry_color(fg, bg)`. -/
def vga_entry_color (fg bg : VgaColor) : Byte := fg.toByte ||| bg.toByte <<< 4

/-- `vga_entry(uc, tColor)`. -/
def vga_entry (uc tColor : Byte) : BitVec 16 := uc.setWidth 16 ||| tColor.setWidth 16 <<< 8

/-- `setColor(fg, bg)`. -/
def setColor (t : FramebufferTerminal) (fg bg : VgaColor) : FramebufferTerminal :=
  { t with color := vga_entry_color fg bg }

/-- `setCursor(row, column)`; the cursor stays where it is if the position does not exist. -/
def setCursor (t : FramebufferTerminal) (row column : Byte) : FramebufferTerminal × Bool :=
  if vga_height ≤ row.toNat ∨ vga_width ≤ column.toNat then (t, false)
  else ({ t with row := row.setWidth 16, column := column.setWidth 16 }, true)

/-- `reset()`. -/
def reset (t : FramebufferTerminal) : FramebufferTerminal :=
  setColor { t with buffer := FRAMEBUFFER_LOCATION, row := 0, column := 0, fullLine := false }
    .lightGrey .black

/-- The address of `_buffer[index]`. -/
def cellAddr (t : FramebufferTerminal) (index : ℕ) : Addr := t.buffer + addr (2 * index)

/-- The inner loop that clears row `y`. -/
def clearRow (t : FramebufferTerminal) (m : Mem) (y : ℕ) : Mem :=
  (List.range vga_width).foldl
    (fun m x ↦ m.write16 (t.cellAddr (y * vga_width + x)) (vga_entry 0x20 t.color)) m

/-- `clear()`. -/
def clear (m : Mem) (t : FramebufferTerminal) : Mem := (List.range vga_height).foldl t.clearRow m

/-- `scroll(lines)`, with its return value. -/
def scroll (m : Mem) (t : FramebufferTerminal) (lines : ℕ) : Mem × ℤ :=
  if vga_height ≤ lines then (m, 1)
  else
    let size := vga_width * (vga_height - lines) * 2
    let m := memmove m t.buffer (t.cellAddr (vga_width * lines)) size
    ((List.range' (vga_height - lines) lines).foldl t.clearRow m, 0)

/-- `if (++_row == vga_height) { scroll(1); _row--; }`. -/
def incrementRow (m : Mem) (t : FramebufferTerminal) : Mem × FramebufferTerminal :=
  let t := { t with row := t.row + 1 }
  if t.row.toNat = vga_height then ((scroll m t 1).1, { t with row := t.row - 1 }) else (m, t)

/-- `putchar(c)`, with its return value.  `char` is signed. -/
def putchar (m : Mem) (t : FramebufferTerminal) (c : Byte) : (Mem × FramebufferTerminal) × ℤ :=
  if c = 0x0a then
    if t.fullLine then ((m, { t with fullLine := false }), 0)
    else (incrementRow m { t with column := 0 }, 0)
  else
    let t := { t with fullLine := false }
    let index := t.row.toNat * vga_width + t.column.toNat
    if c.toInt < 20 ∨ 126 < c.toInt then ((m, t), 1)
    else
      let m := m.write16 (t.cellAddr index) (vga_entry c t.color)
      let t := { t with column := t.column + 1 }
      if t.column.toNat = vga_width then
        (incrementRow m { t with column := 0, fullLine := true }, 0)
      else ((m, t), 0)

/-- `writeString(str)` of the output stream: `putchar` for each character. -/
def writeString (m : Mem) (t : FramebufferTerminal) (str : List Byte) : Mem × FramebufferTerminal :=
  str.foldl (fun s c ↦ (putchar s.1 s.2 c).1) (m, t)

end FramebufferTerminal

end RainbowOS
