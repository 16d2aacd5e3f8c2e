import RainbowOS.Klib.Decimal
import RainbowOS.Terminal.Output

/-!
# The output stream: `io::_outstream`

The stream of `klib/io.hpp` over the text terminal.  A string is read from memory character by
character while the screen is written.  A number is formatted by `xtoa`, in the base that the stream
is set to, into an array on the stack, and then it is a string like any other.

* `writeString_eq` — a string in memory is printed as a whole: nothing of it is on the screen, so
  nothing of it is overwritten meanwhile.
* `Denotes.exec` — one `<<`, of a string, a number, a pointer, or a change of the base.
* `insertAll_prints` — any sequence of them.
-/

set_option autoImplicit false

namespace RainbowOS

open FramebufferTerminal

/-! ## The functions -/

/-- A round of the loop of `strlen`. -/
def strlenStep (m : Mem) (str : Addr) (len : ℕ) : LoopStep ℕ ℕ :=
  if m (str + addr len) = 0 then .done len else .next (len + 1)

/-- `strlen(str)`, in memory. -/
def strlenAt (fuel : ℕ) (m : Mem) (str : Addr) : Option ℕ := Loop.run (strlenStep m str) fuel 0

/-- `io::_outstream<io::framebuffer_terminal>`, with the terminal that `_backEnd` points to. -/
structure Outstream where
  backEnd : FramebufferTerminal
  /-- `_base`. -/
  base : ℤ
  deriving DecidableEq, Repr

/-- The memory and the stream. -/
abbrev Console := Mem × Outstream

namespace Outstream

/-- `init(aaaa)`. -/
def init (aaaa : FramebufferTerminal) : Outstream := ⟨aaaa, 10⟩

/-- `hex()`. -/
def hex (out : Outstream) : Outstream := { out with base := 16 }

/-- `dec()`. -/
def dec (out : Outstream) : Outstream := { out with base := 10 }

/-- `base(num)`. -/
def setBase (num : ℤ) (out : Outstream) : Outstream :=
  if num < 2 ∨ 16 < num then out else { out with base := num }

/-- `_backEnd->putchar(*(str++))`, with `str` at character `i`. -/
def putNext (str : Addr) (s : Console) (i : ℕ) : Console :=
  let r := (putchar s.1 s.2.backEnd (s.1 (str + addr i))).1
  (r.1, { s.2 with backEnd := r.2 })

/-- `writeString(str)`. -/
def writeString (fuel : ℕ) (str : Addr) (s : Console) : Option Console :=
  (strlenAt fuel s.1 str).map fun size ↦ (List.range size).foldl (putNext str) s

/-- `writeNum(num)`, where `str` is the array. -/
def writeNum (T : IntType) (fuel : ℕ) (num : BitVec T.width) (str : Addr) (s : Console) :
    Option Console :=
  (xtoa T fuel s.1 num str s.2.base).bind fun (m, _) ↦ writeString fuel str (m, s.2)

end Outstream

/-- What is put on the stream with `<<`, or done to it in between.  A number has an array on the
stack. -/
inductive Insertion where
  | str (a : Addr)
  | num (T : IntType) (v : BitVec T.width) (array : Addr)
  | ptr (p array : Addr)
  | hex
  | dec
  | base (n : ℤ)

/-- `out << x`, and the functions that set the base.  The compiler extends a pointer with its
sign when it is converted to a `uint64_t`. -/
def Insertion.exec (fuel : ℕ) (s : Console) : Insertion → Option Console
  | .str a => Outstream.writeString fuel a s
  | .num T v array => Outstream.writeNum T fuel v array s
  | .ptr p array => Outstream.writeNum .uint64 fuel (p.signExtend 64) array s
  | .hex => some (s.1, s.2.hex)
  | .dec => some (s.1, s.2.dec)
  | .base n => some (s.1, s.2.setBase n)

/-- One after the other. -/
def insertAll (fuel : ℕ) : List Insertion → Console → Option Console
  | [], s => some s
  | op :: ops, s => (op.exec fuel s).bind (insertAll fuel ops)

/-! ## What is printed -/

/-- A piece of output. -/
inductive Piece where
  | text (s : List Byte)
  | num (z : ℤ)
  | base (n : ℤ)

/-- The base behind a piece. -/
def Piece.baseAfter (b : ℕ) : Piece → ℕ
  | .base n => if n < 2 ∨ 16 < n then b else n.toNat
  | _ => b

/-- What is on the screen for a piece. -/
def Piece.rendered (b : ℕ) : Piece → List Byte
  | .text s => s
  | .num z => printed b z
  | .base _ => []

/-- What is on the screen for a sequence of pieces. -/
def rendered : ℕ → List Piece → List Byte
  | _, [] => []
  | b, p :: ps => p.rendered b ++ rendered (p.baseAfter b) ps

/-- `uint32_t`. -/
abbrev IntType.uint32 : IntType := ⟨32, false, by decide, by decide⟩

/-- The characters of a string literal. -/
def ascii (s : String) : List Byte := s.toList.map fun c ↦ BitVec.ofNat 8 c.toNat

/-- `earlyPanic(str)`, up to the `hang()` at its end, which does not return.  `lit s` is where the
string literal `s` is.  The change of the colour in front of that is only compiled with `__is32__`
or `__is64__`, which nothing defines. -/
def earlyPanic (fuel : ℕ) (lit : String → Addr) (str : Addr) (s : Console) : Option Console :=
  insertAll fuel [.str (lit "earlyPanic(): "), .str str] s

/-! ## Strings in memory -/

/-- Not in the memory of the screen. -/
def OffScreen (x : Addr) : Prop := x.toNat < 0xb8000 ∨ 0xb8fa0 ≤ x.toNat

/-- The string is at `a`, with its terminator. -/
structure StringAt (m : Mem) (a : Addr) (s : List Byte) : Prop where
  zero_not_mem : 0 ∉ s
  byte : ∀ i ≤ s.length, m (a + addr i) = (s ++ [0]).getD i 0

variable {m m' m₀ : Mem} {a str : Addr} {s : List Byte} {fuel b : ℕ} {T : IntType} {z : ℤ}
  {scratch : Addr → Prop} {sht : Sheet.Grid (BitVec 16)} {color : Byte} {out : Outstream}

theorem StringAt.getElem (h : StringAt m a s) {i : ℕ} (hi : i < s.length) :
    m (a + addr i) = s[i] := by
  rw [h.byte i (Nat.le_of_lt hi), List.getD_append _ _ _ _ hi, List.getD_eq_getElem _ _ hi]

theorem StringAt.terminator (h : StringAt m a s) : m (a + addr s.length) = 0 := by
  rw [h.byte _ (Nat.le_refl _), List.getD_append_right _ _ _ _ (Nat.le_refl _), Nat.sub_self]
  rfl

theorem StringAt.congr (h : StringAt m a s)
    (heq : ∀ i ≤ s.length, m' (a + addr i) = m (a + addr i)) : StringAt m' a s :=
  ⟨h.zero_not_mem, fun i hi ↦ (heq i hi).trans (h.byte i hi)⟩

theorem stringAt_writeList (m : Mem) (a : Addr) (hs : 0 ∉ s) (hlen : s.length < 2 ^ 32) :
    StringAt (m.writeList a (s ++ [0])) a s := by
  have hlen' : (s ++ [0]).length = s.length + 1 := by simp
  exact ⟨hs, fun i hi ↦ Mem.writeList_add (by omega) (by omega)⟩

/-- **`strlen`** finds the terminator. -/
theorem strlenAt_eq (h : StringAt m str s) (hfuel : s.length < fuel) :
    strlenAt fuel m str = some s.length := by
  have hpath : ∀ j < s.length, strlenStep m str j = .next (j + 1) := by
    intro j hj
    have hne : m (str + addr j) ≠ 0 := by
      rw [h.getElem hj]
      exact fun hzero ↦ h.zero_not_mem (hzero ▸ List.getElem_mem hj)
    rw [strlenStep, if_neg hne]
  have hdone : strlenStep m str s.length = .done s.length := by
    rw [strlenStep, if_pos h.terminator]
  obtain ⟨n, rfl⟩ := Nat.exists_eq_add_of_lt hfuel
  rw [strlenAt, Nat.add_assoc]
  exact (Loop.run_of_path (f := id) hpath _).trans (Loop.run_succ_of_done hdone _)

/-! ## One string -/

/-- **A string in memory is printed as a whole.** -/
theorem writeString_eq {c : Console} (hvalid : Valid c.2.backEnd) (h : StringAt c.1 str s)
    (hoff : ∀ i < s.length, OffScreen (str + addr i)) (hfuel : s.length < fuel) :
    Outstream.writeString fuel str c =
      some ((FramebufferTerminal.writeString c.1 c.2.backEnd s).1,
        { c.2 with backEnd := (FramebufferTerminal.writeString c.1 c.2.backEnd s).2 }) := by
  have hprefix : ∀ k ≤ s.length, (List.range k).foldl (Outstream.putNext str) c =
      ((FramebufferTerminal.writeString c.1 c.2.backEnd (s.take k)).1,
        { c.2 with
          backEnd := (FramebufferTerminal.writeString c.1 c.2.backEnd (s.take k)).2 }) := by
    intro k hk
    induction k with
    | zero => rfl
    | succ k ih =>
      -- the next character is still there
      have hchar : (FramebufferTerminal.writeString c.1 c.2.backEnd (s.take k)).1 (str + addr k) =
          s[k] := by
        rw [eqOff_writeString c.1 hvalid _ _ (hoff k hk), h.getElem hk]
      rw [List.range_succ, List.foldl_append, ih (Nat.le_of_succ_le hk), List.foldl_cons,
        List.foldl_nil, Outstream.putNext, hchar, List.take_succ_eq_append_getElem hk,
        writeString_append]
      rfl
  have hwhole := hprefix s.length (Nat.le_refl _)
  rw [List.take_length] at hwhole
  rw [Outstream.writeString, strlenAt_eq h hfuel, Option.map_some, hwhole]

/-! ## Numbers -/

/-- A number fits in the array, with its terminator. -/
theorem length_printed_lt (hb : 2 ≤ b) (h : T.Represents z) :
    (printed b z).length < MAX_NUM_STR_SIZE := by
  have hwidth := T.width_le
  have hwidth' := T.width_ge
  have hdigits := length_digits_le hb h
  rw [MAX_NUM_STR_SIZE]
  by_cases hsign : b = 10 ∧ z < 0
  · obtain ⟨rfl, hneg⟩ := hsign
    have hsigned : T.signed = true := by
      by_contra hT
      rw [IntType.Represents, if_neg hT] at h
      omega
    have hlen := length_printed_ten hsigned h
    omega
  · rw [printed, if_neg hsign, List.nil_append]
    split
    · decide
    · rw [List.length_reverse, length_digitChars]
      omega

theorem legible_printed (hb : 2 ≤ b) (hb' : b ≤ 16) (z : ℤ) : Legible (printed b z) := by
  intro c hc
  right
  rw [printed] at hc
  obtain hsign | hdigits := List.mem_append.mp hc
  · split at hsign
    · rw [List.mem_singleton.mp hsign]
      decide
    · cases hsign
  · by_cases hz : z = 0
    · rw [if_pos hz, List.mem_singleton] at hdigits
      rw [hdigits]
      decide
    · rw [if_neg hz] at hdigits
      obtain ⟨d, hd, rfl⟩ := List.mem_map.mp (List.mem_reverse.mp hdigits)
      have hd' := Nat.lt_of_lt_of_le (Nat.digits_lt_base hb hd) hb'
      have hall : ∀ d < 16, Printable (digitChar (1 * (d : ℕ))) ∧
          Printable (digitChar (-1 * (d : ℕ))) := by decide
      obtain hσ | hσ := sign_eq_or hz
      · rw [hσ]
        exact (hall d hd').1
      · rw [hσ]
        exact (hall d hd').2

/-! ## Insertions -/

/-- A string that may be printed: it is neither on the screen nor in an array of the stream. -/
structure Literal (fuel : ℕ) (scratch : Addr → Prop) (m : Mem) (a : Addr) (s : List Byte) :
    Prop where
  string : StringAt m a s
  legible : Legible s
  length_lt : s.length < fuel
  offScreen : ∀ i ≤ s.length, OffScreen (a + addr i)
  apart : ∀ i ≤ s.length, ¬ scratch (a + addr i)

/-- An array of `n` bytes on the stack. -/
def InScratch (scratch : Addr → Prop) (array : Addr) (n : ℕ) : Prop :=
  ∀ x, Mem.Range array n x → scratch x ∧ OffScreen x

/-- What is put on the stream, and the piece of output that it is. -/
inductive Denotes (fuel : ℕ) (scratch : Addr → Prop) (m : Mem) : Insertion → Piece → Prop
  | str {a : Addr} {s : List Byte} (h : Literal fuel scratch m a s) :
    Denotes fuel scratch m (.str a) (.text s)
  | num (T : IntType) (v : BitVec T.width) {array : Addr}
    (h : InScratch scratch array MAX_NUM_STR_SIZE) :
    Denotes fuel scratch m (.num T v array) (.num (T.toInt v))
  | ptr (p : Addr) {array : Addr} (h : InScratch scratch array MAX_NUM_STR_SIZE) :
    Denotes fuel scratch m (.ptr p array) (.num (p.signExtend 64).toNat)
  | hex : Denotes fuel scratch m .hex (.base 16)
  | dec : Denotes fuel scratch m .dec (.base 10)
  | base (n : ℤ) : Denotes fuel scratch m (.base n) (.base n)

/-- The screen, the colour and the base during output, and all memory but the screen and the arrays
as it was. -/
structure Printing (scratch : Addr → Prop) (m₀ : Mem) (color : Byte)
    (sht : Sheet.Grid (BitVec 16)) (b : ℕ) (c : Console) : Prop where
  shows : Shows c.1 c.2.backEnd sht
  color : c.2.backEnd.color = color
  base : c.2.base = b
  base_ge : 2 ≤ b
  base_le : b ≤ 16
  frame : Mem.EqOn (fun x ↦ OffScreen x ∧ ¬ scratch x) m₀ c.1

variable {c : Console}

theorem Printing.literal (hc : Printing scratch m₀ color sht b c)
    (h : Literal fuel scratch m₀ a s) : StringAt c.1 a s :=
  h.string.congr fun i hi ↦ hc.frame _ ⟨h.offScreen i hi, h.apart i hi⟩

/-- The arrays may be written at any time. -/
theorem Printing.write (hc : Printing scratch m₀ color sht b c)
    (hm : ∀ x, ¬ (scratch x ∧ OffScreen x) → m x = c.1 x) :
    Printing scratch m₀ color sht b (m, c.2) := by
  refine ⟨hc.shows.congr fun x hlo hhi ↦ hm x fun h ↦ ?_, hc.color, hc.base, hc.base_ge,
    hc.base_le, fun x hx ↦ (hm x fun h ↦ hx.2 h.1).trans (hc.frame x hx)⟩
  obtain ⟨-, hlt | hge⟩ := h
  · omega
  · omega

/-- A text on the screen, behind what is there. -/
theorem Printing.writeString (hc : Printing scratch m₀ color sht b c) (hs : Legible s) :
    Printing scratch m₀ color (layOut color s sht) b
      ((FramebufferTerminal.writeString c.1 c.2.backEnd s).1,
        { c.2 with backEnd := (FramebufferTerminal.writeString c.1 c.2.backEnd s).2 }) where
  shows := hc.color ▸ hc.shows.writeString hs
  color := (writeString_color _ _ _).trans hc.color
  base := hc.base
  base_ge := hc.base_ge
  base_le := hc.base_le
  frame x hx := (eqOff_writeString c.1 hc.shows.valid s x hx.1).trans (hc.frame x hx)

/-- **A number is printed**: `xtoa` writes to the array only. -/
theorem Printing.writeNum (hc : Printing scratch m₀ color sht b c) (hfuel : 64 < fuel)
    (v : BitVec T.width) {array : Addr}
    (harray : InScratch scratch array MAX_NUM_STR_SIZE) :
    ∃ c', Outstream.writeNum T fuel v array c = some c' ∧
      Printing scratch m₀ color (layOut color (printed b (T.toInt v)) sht) b c' := by
  have hwidth := T.width_le
  have hlen := length_printed_lt hc.base_ge (T.represents_toInt v)
  have hzero := zero_not_mem_printed hc.base_ge hc.base_le (T.toInt v)
  have hlegible := legible_printed hc.base_ge hc.base_le (T.toInt v)
  rw [Outstream.writeNum, hc.base, xtoa_spec hc.base_ge hc.base_le _ _ _ (by omega),
    Option.bind_some]
  dsimp only
  generalize printed b (T.toInt v) = s at hlen hzero hlegible ⊢
  rw [MAX_NUM_STR_SIZE] at hlen
  have hrange : ∀ x, Mem.Range array (s ++ [0]).length x → scratch x ∧ OffScreen x := by
    intro x hx
    refine harray x (Nat.lt_of_lt_of_le hx ?_)
    rw [List.length_append, List.length_singleton, MAX_NUM_STR_SIZE]
    omega
  have hin : ∀ i < s.length, scratch (array + addr i) ∧ OffScreen (array + addr i) := fun i hi ↦
    hrange _ (Mem.range_add (by simp; omega) (by simp; omega))
  obtain ⟨m, hm⟩ : ∃ m, m = c.1.writeList array (s ++ [0]) := ⟨_, rfl⟩
  have hstring : StringAt m array s := hm ▸ stringAt_writeList c.1 array hzero (by omega)
  have hout : ∀ x, ¬ (scratch x ∧ OffScreen x) → m x = c.1 x := fun x hx ↦
    hm ▸ Mem.write_of_not_mem fun hlt ↦ hx (hrange x hlt)
  have hc' : Printing scratch m₀ color sht b (m, c.2) := hc.write hout
  rw [← hm, writeString_eq (c := (m, c.2)) hc'.shows.valid hstring (fun i hi ↦ (hin i hi).2)
    (by omega)]
  exact ⟨_, rfl, hc'.writeString hlegible⟩

theorem Printing.setBase (hc : Printing scratch m₀ color sht b c) (n : ℤ) :
    Printing scratch m₀ color sht ((Piece.base n).baseAfter b) (c.1, c.2.setBase n) := by
  rw [Piece.baseAfter, Outstream.setBase]
  split
  · exact hc
  · rename_i hn
    exact ⟨hc.shows, hc.color, by dsimp only; omega, by omega, by omega, hc.frame⟩

/-- **One insertion** prints its piece. -/
theorem Denotes.exec {op : Insertion} {p : Piece} (h : Denotes fuel scratch m₀ op p)
    (hfuel : 64 < fuel) (hc : Printing scratch m₀ color sht b c) :
    ∃ c', op.exec fuel c = some c' ∧
      Printing scratch m₀ color (layOut color (p.rendered b) sht) (p.baseAfter b) c' := by
  cases h with
  | str h =>
    exact ⟨_, writeString_eq hc.shows.valid (hc.literal h)
      (fun i hi ↦ h.offScreen i (Nat.le_of_lt hi)) h.length_lt, hc.writeString h.legible⟩
  | num T v h => exact hc.writeNum hfuel v h
  | ptr p h => exact hc.writeNum (T := .uint64) hfuel (p.signExtend 64) h
  | hex => exact ⟨_, rfl, hc.setBase 16⟩
  | dec => exact ⟨_, rfl, hc.setBase 10⟩
  | base n => exact ⟨_, rfl, hc.setBase n⟩

/-- Any sequence of insertions. -/
theorem Printing.insertAll {ops : List Insertion} {ps : List Piece}
    (hops : List.Forall₂ (Denotes fuel scratch m₀) ops ps) (hfuel : 64 < fuel)
    (hc : Printing scratch m₀ color sht b c) :
    ∃ c', insertAll fuel ops c = some c' ∧ Printing scratch m₀ color
      (layOut color (rendered b ps) sht) (ps.foldl Piece.baseAfter b) c' := by
  induction hops generalizing sht b c with
  | nil => exact ⟨c, rfl, hc⟩
  | @cons op p ops ps hop _ ih =>
    obtain ⟨c₁, hexec, hc₁⟩ := hop.exec hfuel hc
    obtain ⟨c', hrest, hc'⟩ := ih hc₁
    rw [← layOut_append] at hc'
    exact ⟨c', by rw [RainbowOS.insertAll, hexec, Option.bind_some, hrest], hc'⟩

theorem Printing.setColor (hc : Printing scratch m₀ color sht b c) (fg bg : VgaColor) :
    Printing scratch m₀ (vga_entry_color fg bg)
      (sht.reblank 25 (cellWord 0x20 (vga_entry_color fg bg))) b
      (c.1, { c.2 with backEnd := c.2.backEnd.setColor fg bg }) where
  shows := hc.shows.setColor fg bg
  color := rfl
  base := hc.base
  base_ge := hc.base_ge
  base_le := hc.base_le
  frame := hc.frame

/-- A sheet behind a panic. -/
def panicSheet (color : Byte) (message : List Byte) (sht : Sheet.Grid (BitVec 16)) :
    Sheet.Grid (BitVec 16) :=
  layOut color (ascii "earlyPanic(): " ++ message) sht

/-- **`earlyPanic`** shows its message. -/
theorem Printing.earlyPanic (hc : Printing scratch m₀ color sht b c) {lit : String → Addr}
    (hlit : Literal fuel scratch m₀ (lit "earlyPanic(): ") (ascii "earlyPanic(): "))
    (hstr : StringAt c.1 str s) (hs : Legible s) (hoff : ∀ i ≤ s.length, OffScreen (str + addr i))
    (hfuel : s.length < fuel) :
    ∃ c', earlyPanic fuel lit str c = some c' ∧
      Printing scratch m₀ color (panicSheet color s sht) b c' := by
  have hfirst := hc.writeString hlit.legible
  have hexec := writeString_eq hc.shows.valid (hc.literal hlit)
    (fun i hi ↦ hlit.offScreen i (Nat.le_of_lt hi)) hlit.length_lt
  have hmem := eqOff_writeString c.1 hc.shows.valid (ascii "earlyPanic(): ")
  generalize FramebufferTerminal.writeString c.1 c.2.backEnd (ascii "earlyPanic(): ") = r
    at hfirst hexec hmem
  have hstr₁ : StringAt r.1 str s := hstr.congr fun i hi ↦ hmem _ (hoff i hi)
  have hexec' := writeString_eq (c := (r.1, { c.2 with backEnd := r.2 })) hfirst.shows.valid hstr₁
    (fun i hi ↦ hoff i (Nat.le_of_lt hi)) hfuel
  have hsecond := hfirst.writeString hs
  rw [← layOut_append] at hsecond
  refine ⟨_, ?_, hsecond⟩
  rw [RainbowOS.earlyPanic, RainbowOS.insertAll]
  change (Outstream.writeString fuel _ c).bind _ = _
  rw [hexec, Option.bind_some, RainbowOS.insertAll]
  change (Outstream.writeString fuel _ _).bind _ = _
  rw [hexec']
  rfl

end RainbowOS
