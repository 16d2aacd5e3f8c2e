import RainbowOS.Kernel.Interrupts
import RainbowOS.Klib.Outstream

/-!
# What an interrupt does: `interruptHandler`

The C++ function behind the stubs of `interruptHandler.S`.  It returns from one vector, that of
spurious interrupts; every other one ends in a panic whose message names the vector.

The message is put together in an array: the last three characters of a text are overwritten with
the first three of the vector's numeral.

* `Printing.interruptHandler` — what is on the screen behind the function.
* `interrupt_outcome` — the whole way, from the interrupted program through the stub.
-/

set_option autoImplicit false

namespace RainbowOS

open X86 FramebufferTerminal

/-! ## The function -/

/-- How a function of the kernel ends: it returns, or it hangs. -/
inductive Fate where
  | returned (s : Console)
  | hung (s : Console)

/-- `msg[i] = tempNum[j]`. -/
def copyChar (msg tempNum : Addr) (m : Mem) (i j : ℕ) : Mem :=
  m.write8 (msg + addr i) (m (tempNum + addr j))

/-- The message of a panic: the array `msg`, filled with the help of `tempNum`. -/
def vectorMessage (fuel : ℕ) (msg tempNum : Addr) (vector : BitVec 32) (m : Mem) : Option Mem :=
  let m := m.writeList msg (ascii "Interrupt called with vector xxx" ++ [0])
  (xtoa .uint32 fuel m vector tempNum 16).map fun (m, _) ↦
    let m := copyChar msg tempNum m 29 0
    let m := copyChar msg tempNum m 30 1
    copyChar msg tempNum m 31 2

/-- `interruptHandler(isr_frame)`, with its arrays and the one of the stream. -/
def interruptHandler (fuel : ℕ) (lit : String → Addr) (msg tempNum array : Addr)
    (isr_frame : IsrFrame) (s : Console) : Option Fate :=
  let vector := isr_frame.intNumber
  if vector = 0xff then
    (insertAll fuel [.str (lit "Warning: Spurious interrupt caught\n")] s).map .returned
  else
    (insertAll fuel [.str (lit " INFO: Interrupt called with vector 0x"),
      .num .uint32 vector array, .str (lit "\n")] s).bind fun s ↦
    (vectorMessage fuel msg tempNum vector s.1).bind fun m ↦
    (earlyPanic fuel lit msg (m, s.2)).map .hung

variable {m m₀ : Mem} {fuel b : ℕ} {scratch : Addr → Prop} {color : Byte}
  {sht : Sheet.Grid (BitVec 16)} {c : Console} {lit : String → Addr} {msg tempNum array : Addr}
  {s : List Byte}

/-! ## The message -/

/-- The text of the message. -/
def vectorText (vector : BitVec 32) : List Byte :=
  ascii "Interrupt called with vector " ++ (printed 16 vector.toNat).take 3

/-- The arrays of the function are apart from each other. -/
structure Arrays (scratch : Addr → Prop) (msg tempNum array : Addr) : Prop where
  inMsg : InScratch scratch msg 33
  inTempNum : InScratch scratch tempNum MAX_NUM_STR_SIZE
  inArray : InScratch scratch array MAX_NUM_STR_SIZE
  apart : ∀ x, Mem.Range msg 33 x → ¬ Mem.Range tempNum MAX_NUM_STR_SIZE x

theorem printed_ne_nil (b : ℕ) (z : ℤ) : printed b z ≠ [] := by
  rw [printed]
  refine List.append_ne_nil_of_right_ne_nil _ ?_
  split
  · decide
  · rename_i hz
    exact mt List.reverse_eq_nil_iff.mp (digitChars_ne_nil z.sign b (Int.natAbs_ne_zero.mpr hz))

/-- Three characters of an array are overwritten with the first three of another one. -/
theorem copyChars (ha : ∀ x, Mem.Range msg 33 x → ¬ Mem.Range tempNum MAX_NUM_STR_SIZE x) (m : Mem)
    {i : ℕ} (hi : i < 33) :
    copyChar msg tempNum (copyChar msg tempNum (copyChar msg tempNum m 29 0) 30 1) 31 2
        (msg + addr i) =
      if 29 ≤ i ∧ i < 32 then m (tempNum + addr (i - 29)) else m (msg + addr i) := by
  have hne : ∀ i j, i < 33 → j < 65 → tempNum + addr j ≠ msg + addr i := by
    intro i j hi hj heq
    have hrange : Mem.Range tempNum MAX_NUM_STR_SIZE (tempNum + addr j) :=
      Mem.range_add hj (by decide)
    rw [heq] at hrange
    exact ha _ (Mem.range_add hi (by decide)) hrange
  have hne' : ∀ i j, i < 33 → j < 33 → i ≠ j → msg + addr i ≠ msg + addr j := by
    intro i j hi hj hij
    bv_omega
  rw [copyChar, copyChar, copyChar, Mem.write8_of_ne (hne 30 2 (by decide) (by decide)),
    Mem.write8_of_ne (hne 29 2 (by decide) (by decide)),
    Mem.write8_of_ne (hne 29 1 (by decide) (by decide))]
  by_cases h31 : i = 31
  · subst h31
    exact Mem.write8_self _ _ _
  · rw [Mem.write8_of_ne (hne' _ _ hi (by decide) h31)]
    by_cases h30 : i = 30
    · subst h30
      exact Mem.write8_self _ _ _
    · rw [Mem.write8_of_ne (hne' _ _ hi (by decide) h30)]
      by_cases h29 : i = 29
      · subst h29
        exact Mem.write8_self _ _ _
      · rw [Mem.write8_of_ne (hne' _ _ hi (by decide) h29), if_neg (by omega)]

/-- **The message** is a string that ends in the vector's numeral, or in its first three
characters. -/
theorem vectorMessage_spec (ha : Arrays scratch msg tempNum array) (hfuel : 32 < fuel)
    (vector : BitVec 32) (m : Mem) :
    ∃ m', vectorMessage fuel msg tempNum vector m = some m' ∧
      StringAt m' msg (vectorText vector) ∧ ∀ x, ¬ (scratch x ∧ OffScreen x) → m' x = m x := by
  obtain ⟨p, hp⟩ : ∃ p, p = printed 16 vector.toNat := ⟨_, rfl⟩
  have hzero : 0 ∉ p := hp ▸ zero_not_mem_printed (by decide) (by decide) _
  have hlen : p.length < MAX_NUM_STR_SIZE :=
    hp ▸ length_printed_lt (by decide) (IntType.represents_toInt .uint32 vector)
  have hpos := List.length_pos_of_ne_nil (hp ▸ printed_ne_nil 16 vector.toNat)
  rw [MAX_NUM_STR_SIZE] at hlen
  obtain ⟨m₁, hm₁⟩ : ∃ m₁, m₁ = m.writeList msg (ascii "Interrupt called with vector xxx" ++ [0]) :=
    ⟨_, rfl⟩
  obtain ⟨m₂, hm₂⟩ : ∃ m₂, m₂ = m₁.writeList tempNum (p ++ [0]) := ⟨_, rfl⟩
  have hxtoa : xtoa .uint32 fuel m₁ vector tempNum (16 : ℕ) = some (m₂, tempNum) := by
    rw [hm₂, hp]
    exact xtoa_spec (T := .uint32) (by decide) (by decide) m₁ vector tempNum hfuel
  have hstring : StringAt m₂ tempNum p := hm₂ ▸ stringAt_writeList m₁ tempNum hzero (by omega)
  obtain ⟨m₃, hm₃⟩ : ∃ m₃, m₃ = copyChar msg tempNum (copyChar msg tempNum
    (copyChar msg tempNum m₂ 29 0) 30 1) 31 2 := ⟨_, rfl⟩
  -- the text of the array, and the numeral next to it
  have hbyte : ∀ i < 33, m₂ (msg + addr i) =
      (ascii "Interrupt called with vector xxx" ++ [0]).getD i 0 := by
    intro i hi
    have hlength : (ascii "Interrupt called with vector xxx" ++ [0]).length = 33 := by decide
    have hout : ¬ Mem.Range tempNum (p ++ [0]).length (msg + addr i) := by
      refine fun hin ↦ ha.apart _ (Mem.range_add hi (by decide)) (Nat.lt_of_lt_of_le hin ?_)
      rw [List.length_append, List.length_singleton, MAX_NUM_STR_SIZE]
      omega
    rw [hm₂]
    refine (Mem.write_of_not_mem hout).trans ?_
    rw [hm₁]
    exact Mem.writeList_add (by rw [hlength]; exact hi) (by decide)
  refine ⟨m₃, ?_, ?_, fun x hx ↦ ?_⟩
  · rw [vectorMessage]
    dsimp only
    rw [← hm₁]
    change (xtoa .uint32 fuel m₁ vector tempNum (16 : ℕ)).map _ = _
    rw [hxtoa, hm₃]
    rfl
  · have hpre : (ascii "Interrupt called with vector ").length = 29 := by decide
    have hpre_zero : 0 ∉ ascii "Interrupt called with vector " := by decide
    have hfront : ∀ i < 29, (ascii "Interrupt called with vector xxx" ++ [0]).getD i 0 =
        (ascii "Interrupt called with vector ").getD i 0 := by decide
    have hend : (ascii "Interrupt called with vector xxx" ++ [0]).getD 32 0 = 0 := by decide
    have htake : (p.take 3).length = min 3 p.length := List.length_take
    rw [vectorText, ← hp]
    generalize ascii "Interrupt called with vector " = pre at hpre hpre_zero hfront
    refine ⟨fun hmem ↦ ?_, fun i hi ↦ ?_⟩
    · exact (List.mem_append.mp hmem).elim hpre_zero fun h ↦ hzero (List.mem_of_mem_take h)
    · rw [List.length_append, hpre, htake] at hi
      rw [hm₃, copyChars ha.apart _ (by omega), List.append_assoc]
      by_cases hi29 : i < 29
      · rw [if_neg (by omega), hbyte i (by omega), hfront i hi29,
          List.getD_append _ _ _ _ (by omega)]
      · rw [List.getD_append_right _ _ _ _ (by omega), hpre]
        by_cases hi32 : i < 32
        · rw [if_pos ⟨by omega, hi32⟩, hstring.byte _ (by omega)]
          by_cases hlt : i - 29 < p.length
          · rw [List.getD_append _ _ _ _ hlt, List.getD_append _ _ _ _ (by omega),
              List.getD_eq_getElem _ _ hlt, List.getD_eq_getElem _ _ (by omega),
              List.getElem_take]
          · have hlast : i - 29 = p.length := by omega
            have hlast' : i - 29 = (p.take 3).length := by omega
            rw [List.getD_append_right _ _ _ _ (by omega),
              List.getD_append_right _ _ _ _ (by omega), ← hlast, ← hlast']
        · obtain rfl : i = 32 := by omega
          rw [if_neg (by omega), hbyte 32 (by decide), hend,
            List.getD_append_right _ _ _ _ (by omega), htake]
          have hthree : 32 - 29 - min 3 p.length = 0 := by omega
          rw [hthree]
          rfl
  · have hmsg : ∀ i < 33, x ≠ msg + addr i := fun i hi heq ↦
      hx (heq ▸ ha.inMsg _ (Mem.range_add hi (by decide)))
    rw [hm₃, copyChar, copyChar, copyChar, Mem.write8_of_ne (hmsg 31 (by decide)),
      Mem.write8_of_ne (hmsg 30 (by decide)), Mem.write8_of_ne (hmsg 29 (by decide)), hm₂]
    refine (Mem.write_of_not_mem fun hin ↦ hx (ha.inTempNum x (Nat.lt_of_lt_of_le hin ?_))).trans ?_
    · rw [List.length_append, List.length_singleton, MAX_NUM_STR_SIZE]
      omega
    · rw [hm₁]
      refine Mem.write_of_not_mem fun hin ↦ hx (ha.inMsg x ?_)
      have hlength : (ascii "Interrupt called with vector xxx" ++ [0]).length = 33 := by decide
      rwa [hlength] at hin

theorem legible_vectorText (vector : BitVec 32) : Legible (vectorText vector) := by
  have hpre : Legible (ascii "Interrupt called with vector ") := by decide
  have hnumeral := legible_printed (b := 16) (by decide) (by decide) vector.toNat
  exact hpre.append fun c hc ↦ hnumeral c (List.mem_of_mem_take hc)

theorem length_vectorText_le (vector : BitVec 32) : (vectorText vector).length ≤ 32 := by
  have hpre : (ascii "Interrupt called with vector ").length = 29 := by decide
  rw [vectorText, List.length_append, hpre, List.length_take]
  omega

/-! ## What is on the screen -/

/-- The strings of the function. -/
def handlerStrings : List String :=
  ["Warning: Spurious interrupt caught\n", " INFO: Interrupt called with vector 0x", "\n",
    "earlyPanic(): "]

/-- What is printed for a spurious interrupt. -/
def spuriousLine : List Byte := ascii "Warning: Spurious interrupt caught\n"

/-- What is printed for another interrupt, in the base of the stream, in front of the panic. -/
def infoLine (b : ℕ) (vector : BitVec 32) : List Byte :=
  rendered b [.text (ascii " INFO: Interrupt called with vector 0x"), .num vector.toNat,
    .text (ascii "\n")]

/-- **The function** returns from a spurious interrupt behind a line on the screen, and hangs in a
panic that names the vector of any other one. -/
theorem Printing.interruptHandler (hc : Printing scratch m₀ color sht b c)
    (hlit : ∀ s ∈ handlerStrings, Literal fuel scratch m₀ (lit s) (ascii s))
    (ha : Arrays scratch msg tempNum array) (hfuel : 64 < fuel) (f : IsrFrame) :
    (f.intNumber = 0xff → ∃ c', interruptHandler fuel lit msg tempNum array f c =
        some (.returned c') ∧ Printing scratch m₀ color (layOut color spuriousLine sht) b c') ∧
      (f.intNumber ≠ 0xff → ∃ c', interruptHandler fuel lit msg tempNum array f c =
        some (.hung c') ∧ Printing scratch m₀ color
          (panicSheet color (vectorText f.intNumber) (layOut color (infoLine b f.intNumber) sht))
          b c') := by
  obtain ⟨vector, hvector⟩ : ∃ vector, vector = f.intNumber := ⟨_, rfl⟩
  rw [RainbowOS.interruptHandler, ← hvector]
  constructor
  · intro hff
    obtain ⟨c', hrun, hc'⟩ := hc.insertAll (.cons (.str
      (hlit "Warning: Spurious interrupt caught\n" (by simp [handlerStrings]))) .nil) hfuel
    have hline : rendered b [.text (ascii "Warning: Spurious interrupt caught\n")] = spuriousLine :=
      List.append_nil _
    rw [hline] at hc'
    rw [if_pos hff, hrun]
    exact ⟨c', rfl, hc'⟩
  · intro hff
    obtain ⟨c₁, hrun, hc₁⟩ := hc.insertAll
      (.cons (.str (hlit " INFO: Interrupt called with vector 0x" (by simp [handlerStrings])))
        (.cons (.num .uint32 vector ha.inArray)
          (.cons (.str (hlit "\n" (by simp [handlerStrings]))) .nil))) hfuel
    obtain ⟨m', hmessage, hstring, hframe⟩ :=
      vectorMessage_spec ha (show 32 < fuel by omega) vector c₁.1
    have hc₂ : Printing scratch m₀ color (layOut color (infoLine b vector) sht) b (m', c₁.2) :=
      hc₁.write hframe
    have hlength := length_vectorText_le vector
    have hoff : ∀ i ≤ (vectorText vector).length, OffScreen (msg + addr i) := fun i hi ↦
      (ha.inMsg _ (Mem.range_add (by omega) (by decide))).2
    obtain ⟨c', hpanic, hc'⟩ := hc₂.earlyPanic (hlit "earlyPanic(): " (by simp [handlerStrings]))
      hstring (legible_vectorText vector) hoff (by omega)
    refine ⟨c', ?_, hc'⟩
    rw [if_neg hff, hrun, Option.bind_some, hmessage, Option.bind_some, hpanic]
    rfl

/-! ## From the interrupted program and back -/

/-- The function as it has been compiled: when it returns, its stack pointer is that of its caller,
and the memory is what the function has left, but for the stack below. -/
def CompiledHandler (interruptHandler' : Cpu → Cpu) (fuel : ℕ) (lit : String → Addr)
    (msg tempNum array : Addr) (out : Outstream) (scratch : Addr → Prop) (called : Cpu) : Prop :=
  ∀ c', interruptHandler fuel lit msg tempNum array
      (readIsrFrame called.mem (called.regs.esp + 4)) (called.mem, out) = some (.returned c') →
    (interruptHandler' called).regs.esp = called.regs.esp + 4 ∧
      ∀ x, ¬ scratch x → (interruptHandler' called).mem x = c'.1 x

/-- The `n` bytes below the stack. -/
def BelowStack (s : Cpu) (n : ℕ) : Addr → Prop := Mem.Range (s.regs.esp - addr n) n

variable {ctx : Context}

/-- What a stub has pushed when it calls the function. -/
theorem pushed_called (interruptHandler' : Cpu → Cpu) (returnAddr : Addr) {t : Cpu} {k : ℕ}
    {s : Cpu} (h : Cpu.Pushed k s t) (hk : k + 36 < 2 ^ 32) :
    Cpu.Pushed (k + 36) s (handlerStub interruptHandler' returnAddr t).called :=
  (h.trans (.pushal t) (by omega)).snoc returnAddr (by omega)

theorem pushed_err (s : Cpu) (ctx : Context) (number code : BitVec 32) :
    Cpu.Pushed 20 s ((s.interrupt ctx (some code)).push number) := by
  have h := ((Cpu.Pushed.push s ctx.eflags).snoc ctx.cs (by decide)).snoc ctx.eip (by decide)
  exact (h.snoc code (by decide)).snoc number (by decide)

theorem pushed_noErr (s : Cpu) (ctx : Context) (number : BitVec 32) :
    Cpu.Pushed 20 s (((s.interrupt ctx none).push 0).push number) := by
  have h := ((Cpu.Pushed.push s ctx.eflags).snoc ctx.cs (by decide)).snoc ctx.eip (by decide)
  exact (h.snoc 0 (by decide)).snoc number (by decide)

/-- In the numeral of a vector there are no more than two digits. -/
theorem vectorText_setWidth (v : BitVec 8) : vectorText (v.setWidth 32) =
    ascii "Interrupt called with vector " ++ (Numeral.digits 16 v.toNat).map symbol := by
  have hv : (v.setWidth 32).toNat = v.toNat := by
    rw [BitVec.toNat_setWidth]
    omega
  have hlength : (Numeral.digits 16 v.toNat).length ≤ 2 :=
    Numeral.length_digits_le (by decide) (by decide) v.isLt
  rw [vectorText, hv, printed_natCast (by decide) (by decide), List.take_of_length_le]
  rw [List.length_map]
  omega

/-- The assumptions on an interrupt: the screen, the stack with its arrays, which is not on the
screen, and the strings, which are neither on the screen nor on the stack. -/
structure Prepared (fuel depth : ℕ) (lit : String → Addr) (msg tempNum array : Addr)
    (out : Outstream) (b : ℕ) (sht : Sheet.Grid (BitVec 16)) (s : Cpu) : Prop where
  fuel_gt : 64 < fuel
  base : out.base = b
  base_ge : 2 ≤ b
  base_le : b ≤ 16
  shows : Shows s.mem out.backEnd sht
  depth_lt : 56 + depth < 2 ^ 32
  stack : ∀ x, BelowStack s (56 + depth) x → OffScreen x
  arrays : Arrays (Mem.Range (s.regs.esp - addr (56 + depth)) depth) msg tempNum array
  strings : ∀ t ∈ handlerStrings,
    Literal fuel (BelowStack s (56 + depth)) s.mem (lit t) (ascii t)

theorem readIsrFrame_congr {m m' : Mem} {p : Addr}
    (h : ∀ i < 52, m' (p + addr i) = m (p + addr i)) : readIsrFrame m' p = readIsrFrame m p := by
  refine readIsrFrame_eq_iff.mpr fun i hi ↦ ?_
  rw [← readIsrFrame_eq_iff.mp rfl i hi]
  have hi' : i < 13 := hi
  refine Mem.readLE_congr (n := 4) fun j hj ↦ ?_
  rw [add_addr_addr]
  exact h _ (by omega)

section

variable {depth : ℕ} {out : Outstream} {s t called : Cpu} {interruptHandler' : Cpu → Cpu}
  {returnAddr : Addr} {number errorCode : BitVec 32}

/-- What is on the stack is not on the screen. -/
theorem Prepared.offScreen (hp : Prepared fuel depth lit msg tempNum array out b sht s) {x : Addr}
    (hx : Mem.Range (s.regs.esp - addr (56 + depth)) depth x) : OffScreen x :=
  hp.stack x (Nat.lt_of_lt_of_le hx (Nat.le_add_left depth 56))

/-- The console when the function is called. -/
theorem Prepared.printing (hp : Prepared fuel depth lit msg tempNum array out b sht s)
    (hcalled : Cpu.Pushed 56 s called) :
    Printing (Mem.Range (s.regs.esp - addr (56 + depth)) depth) called.mem out.backEnd.color sht b
        (called.mem, out) ∧
      ∀ t ∈ handlerStrings, Literal fuel (Mem.Range (s.regs.esp - addr (56 + depth)) depth)
        called.mem (lit t) (ascii t) := by
  have hmem : ∀ x, ¬ BelowStack s (56 + depth) x → called.mem x = s.mem x := fun x hx ↦
    hcalled.mem x fun hrange ↦ hx (Cpu.range_below_add hp.depth_lt hrange)
  refine ⟨⟨hp.shows.congr fun x hlo hhi ↦ hmem x fun hx ↦ ?_, rfl, hp.base, hp.base_ge, hp.base_le,
    fun _ _ ↦ rfl⟩, fun t ht ↦ ?_⟩
  · obtain hlt | hge := hp.stack x hx
    · omega
    · omega
  · have h := hp.strings t ht
    exact ⟨h.string.congr fun i hi ↦ hmem _ (h.apart i hi), h.legible, h.length_lt, h.offScreen,
      fun i hi hrange ↦ h.apart i hi (Nat.lt_of_lt_of_le hrange (Nat.le_add_left depth 56))⟩

/-- **From the stub and back**: behind a spurious interrupt the program goes on, with a line on the
screen; any other one ends in a panic. -/
theorem stub_outcome (hp : Prepared fuel depth lit msg tempNum array out b sht s)
    (hentered : StubEntered s t number errorCode ctx) (hpushed : Cpu.Pushed 20 s t)
    (hcompiled : ∀ called, Cpu.Pushed 56 s called → CompiledHandler interruptHandler' fuel lit msg
      tempNum array out (Mem.Range (s.regs.esp - addr (56 + depth)) depth) called)
    {run : StubRun} (hrun : run = handlerStub interruptHandler' returnAddr t) :
    (number = 0xff → ∃ out' : Outstream, run.resumed.1 = ctx ∧ run.resumed.2.regs = s.regs ∧
      Shows run.resumed.2.mem out'.backEnd (layOut out.backEnd.color spuriousLine sht) ∧
      ∀ x, OffScreen x → ¬ BelowStack s (56 + depth) x → run.resumed.2.mem x = s.mem x) ∧
    (number ≠ 0xff → ∃ c', interruptHandler fuel lit msg tempNum array
        (readIsrFrame run.called.mem (run.called.regs.esp + 4)) (run.called.mem, out) =
          some (.hung c') ∧
      Shows c'.1 c'.2.backEnd (panicSheet out.backEnd.color (vectorText number)
        (layOut out.backEnd.color (infoLine b number) sht))) := by
  have hcalled : Cpu.Pushed 56 s run.called := hrun ▸ pushed_called _ _ hpushed (by decide)
  obtain ⟨hc, hlit⟩ := hp.printing hcalled
  obtain ⟨⟨esp, hframe⟩, hback⟩ :=
    @StubEntered.run s interruptHandler' returnAddr ctx t number errorCode hentered
  rw [← hrun] at hframe hback
  have hnumber : (readIsrFrame run.called.mem (run.called.regs.esp + 4)).intNumber = number := by
    rw [hframe]
  obtain ⟨hspurious, hother⟩ := hc.interruptHandler hlit hp.arrays hp.fuel_gt
    (readIsrFrame run.called.mem (run.called.regs.esp + 4))
  rw [hnumber] at hspurious hother
  constructor
  · intro hff
    obtain ⟨c', hreturned, hc'⟩ := hspurious hff
    obtain ⟨hesp, hmem⟩ := hcompiled _ hcalled c' hreturned
    -- the structure is above the arrays, and not on the screen
    have hleaves : LeavesFrame interruptHandler' run.called := by
      refine ⟨hesp, readIsrFrame_congr fun i hi ↦ ?_⟩
      have hdepth := hp.depth_lt
      have hbelow : BelowStack s (56 + depth) (run.called.regs.esp + 4 + addr i) := by
        refine Cpu.range_below_add hdepth ?_
        rw [hcalled.esp, Mem.Range]
        bv_omega
      have hapart : ¬ Mem.Range (s.regs.esp - addr (56 + depth)) depth
          (run.called.regs.esp + 4 + addr i) := by
        rw [hcalled.esp, Mem.Range]
        bv_omega
      exact (hmem _ hapart).trans (hc'.frame _ ⟨hp.stack _ hbelow, hapart⟩)
    obtain ⟨-, -, hctx, hregs⟩ := hback hleaves
    have hresumed : run.resumed.2.mem = (interruptHandler' run.called).mem := by
      rw [hrun]
      rfl
    refine ⟨c'.2, hctx, hregs, hc'.shows.congr fun x hlo hhi ↦ ?_, fun x hoff hx ↦ ?_⟩
    · rw [hresumed]
      refine hmem x fun hrange ↦ ?_
      obtain hlt | hge := hp.offScreen hrange
      · omega
      · omega
    · have hapart : ¬ Mem.Range (s.regs.esp - addr (56 + depth)) depth x := fun hrange ↦
        hx (Nat.lt_of_lt_of_le hrange (Nat.le_add_left depth 56))
      rw [hresumed, hmem x hapart, hc'.frame x ⟨hoff, hapart⟩]
      exact hcalled.mem x fun hrange ↦ hx (Cpu.range_below_add hp.depth_lt hrange)
  · intro hff
    obtain ⟨c', hhung, hc'⟩ := hother hff
    exact ⟨c', hhung, hc'.shows⟩

end

/-- **What an interrupt does.**  From every state, with the screen, the stack and the strings apart
from each other: behind a spurious interrupt the interrupted program goes on in its context with all
its registers, and nothing in memory has changed but the stack below it and a line on the screen;
every other vector ends in a panic, and what is on the screen then names the vector in
hexadecimal. -/
theorem interrupt_outcome (v : BitVec 8) (ctx : Context) (code : BitVec 32) (s : Cpu)
    {fuel b depth : ℕ} {lit : String → Addr} {msg tempNum array : Addr} {out : Outstream}
    {sht : Sheet.Grid (BitVec 16)}
    (hp : Prepared fuel depth lit msg tempNum array out b sht s) {interruptHandler' : Cpu → Cpu}
    (hcompiled : ∀ called, Cpu.Pushed 56 s called → CompiledHandler interruptHandler' fuel lit msg
      tempNum array out (Mem.Range (s.regs.esp - addr (56 + depth)) depth) called)
    (returnErr returnNoErr : Addr) :
    ∃ handler, handlerOf v = some handler ∧ ∃ run,
      run = handlerCode interruptHandler' returnErr returnNoErr handler (deliver v ctx code s) ∧
      (v = 0xff → ∃ out' : Outstream, run.resumed.1 = ctx ∧ run.resumed.2.regs = s.regs ∧
        Shows run.resumed.2.mem out'.backEnd (layOut out.backEnd.color spuriousLine sht) ∧
        ∀ x, OffScreen x → ¬ BelowStack s (56 + depth) x → run.resumed.2.mem x = s.mem x) ∧
      (v ≠ 0xff → ∃ c', interruptHandler fuel lit msg tempNum array
          (readIsrFrame run.called.mem (run.called.regs.esp + 4)) (run.called.mem, out) =
            some (.hung c') ∧
        Shows c'.1 c'.2.backEnd (panicSheet out.backEnd.color
          (ascii "Interrupt called with vector " ++ (Numeral.digits 16 v.toNat).map symbol)
          (layOut out.backEnd.color (infoLine b (v.setWidth 32)) sht))) := by
  have hff : v.setWidth 32 = (0xff : BitVec 32) ↔ v = 0xff := by
    constructor
    · intro h
      have hv := v.isLt
      bv_omega
    · rintro rfl
      rfl
  refine ⟨_, handlerOf_eq v, ?_⟩
  obtain ⟨run, hrun⟩ : ∃ run, run = handlerCode interruptHandler' returnErr returnNoErr
    (if hasErrorCode v then .err else .noErr, v.toNat) (deliver v ctx code s) := ⟨_, rfl⟩
  refine ⟨run, hrun, ?_⟩
  rw [← vectorText_setWidth, ne_eq, ← hff, ← BitVec.ofNat_toNat]
  rw [deliver] at hrun
  cases hcode : hasErrorCode v with
  | true =>
    rw [hcode] at hrun
    exact stub_outcome hp (stubEntered_err s ctx (BitVec.ofNat 32 v.toNat) code)
      (pushed_err s ctx _ code) hcompiled hrun
  | false =>
    rw [hcode] at hrun
    exact stub_outcome hp (stubEntered_noErr s ctx (BitVec.ofNat 32 v.toNat))
      (pushed_noErr s ctx _) hcompiled hrun

/-- A spurious interrupt on a screen that has just been set up, with the stack at `0x7000`, the
arrays at its lower end, and a function that does what it has been compiled from. -/
theorem interrupt_outcome_spurious :
    let lit : String → Addr := fun t ↦
      if t = "Warning: Spurious interrupt caught\n" then 0x1000
      else if t = " INFO: Interrupt called with vector 0x" then 0x1100
      else if t = "\n" then 0x1200 else 0x1300
    let m : Mem := handlerStrings.foldl (fun m t ↦ m.writeList (lit t) (ascii t ++ [0])) fun _ ↦ 0
    let s : Cpu := ⟨⟨1, 2, 3, 4, 0x7000, 6, 7, 8⟩, m⟩
    let out := Outstream.init new
    let interruptHandler' : Cpu → Cpu := fun called ↦
      match interruptHandler 65 lit 0x6f00 0x6f30 0x6f80
          (readIsrFrame called.mem (called.regs.esp + 4)) (called.mem, out) with
      | some (.returned c') => ⟨{ called.regs with esp := called.regs.esp + 4 }, c'.1⟩
      | _ => called
    ∃ handler, handlerOf 0xff = some handler ∧ ∃ run,
      run = handlerCode interruptHandler' 0 0 handler (deliver 0xff ⟨0x9000, 8, 0x202⟩ 0 s) ∧
      ∃ out' : Outstream, run.resumed.1 = ⟨0x9000, 8, 0x202⟩ ∧ run.resumed.2.regs = s.regs ∧
        Shows run.resumed.2.mem out'.backEnd (layOut 0x07 spuriousLine (sheet m new)) := by
  intro lit m s out interruptHandler'
  have hbottom : s.regs.esp - addr (56 + 208) = 0x6ef8 := by decide
  have harray : ∀ p n, 0x6ef8 ≤ p → p + n ≤ 0x6fc8 →
      InScratch (Mem.Range (s.regs.esp - addr (56 + 208)) 208) (addr p) n := by
    intro p n hp hn x hx
    rw [hbottom, Mem.Range, OffScreen]
    rw [Mem.Range] at hx
    exact ⟨by bv_omega, .inl (by bv_omega)⟩
  have hstrings : ∀ t ∈ handlerStrings, ∀ i ≤ (ascii t).length,
      m (lit t + addr i) = (ascii t ++ [0]).getD i 0 ∧ (lit t + addr i).toNat < 0x2000 := by
    decide
  have hascii : ∀ t ∈ handlerStrings, 0 ∉ ascii t ∧ Legible (ascii t) ∧ (ascii t).length < 65 := by
    decide
  have hp : Prepared 65 208 lit 0x6f00 0x6f30 0x6f80 out 10 (sheet m new) s := by
    refine ⟨by decide, rfl, by decide, by decide, shows_sheet m valid_new, by decide,
      fun x hx ↦ .inl ?_, ⟨harray 0x6f00 33 (by decide) (by decide),
        harray 0x6f30 MAX_NUM_STR_SIZE (by decide) (by decide),
        harray 0x6f80 MAX_NUM_STR_SIZE (by decide) (by decide), fun x hx hx' ↦ ?_⟩,
      fun t ht ↦ ?_⟩
    · rw [BelowStack, hbottom, Mem.Range] at hx
      bv_omega
    · rw [Mem.Range] at hx
      rw [Mem.Range, MAX_NUM_STR_SIZE] at hx'
      bv_omega
    · obtain ⟨hzero, hlegible, hlength⟩ := hascii t ht
      refine ⟨⟨hzero, fun i hi ↦ (hstrings t ht i hi).1⟩, hlegible, hlength, fun i hi ↦ .inl ?_,
        fun i hi hrange ↦ ?_⟩
      · have hlow := (hstrings t ht i hi).2
        omega
      · have hlow := (hstrings t ht i hi).2
        rw [BelowStack, hbottom, Mem.Range] at hrange
        bv_omega
  have hcompiled : ∀ called, Cpu.Pushed 56 s called → CompiledHandler interruptHandler' 65 lit
      0x6f00 0x6f30 0x6f80 out (Mem.Range (s.regs.esp - addr (56 + 208)) 208) called := by
    intro called _ c' hc'
    have hrun : interruptHandler' called =
        ⟨{ called.regs with esp := called.regs.esp + 4 }, c'.1⟩ := by
      change (match interruptHandler 65 lit 0x6f00 0x6f30 0x6f80
          (readIsrFrame called.mem (called.regs.esp + 4)) (called.mem, out) with
        | some (.returned c') =>
          (⟨{ called.regs with esp := called.regs.esp + 4 }, c'.1⟩ : Cpu)
        | _ => called) = _
      rw [hc']
    rw [hrun]
    exact ⟨rfl, fun _ _ ↦ rfl⟩
  obtain ⟨handler, hhandler, run, hrun, hspurious, -⟩ :=
    interrupt_outcome 0xff ⟨0x9000, 8, 0x202⟩ 0 s hp hcompiled 0 0
  obtain ⟨out', hctx, hregs, hshows, -⟩ := hspurious rfl
  exact ⟨handler, hhandler, run, hrun, out', hctx, hregs, hshows⟩

end RainbowOS
