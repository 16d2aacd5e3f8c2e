import Mathlib.Logic.Function.Iterate
import RainbowOS.EarlyLib.DiskRead
import RainbowOS.Lib.Board

/-!
# The boot sector: `stage0.S`

The BIOS loads the first sector of the disk to `0x7c00` and jumps there.  The code in it moves
itself down to `0x0800`, so that it is not in the way, and reads stage1 to `0x1010`: one sector
first, which tells how many there are, then all of them.

The upper half of the sector number is a part of the request that is never written.

* `movsw_iterate` — the boot sector is copied word by word.
* `stage0_loads` — stage0 jumps to stage1 just if the disk has it and the BIOS could read it, and
  all of it is in memory then.
-/

set_option autoImplicit false

namespace RainbowOS

open X86 Pc

variable {δ : Type}

/-! ## Messages -/

section

-- `site n` is the address behind the `call` with that number
variable (B : Board δ) (site : ℕ → BitVec 16)

/-- A character of `write_loop`, in teletype mode. -/
def teletype (s : Pc δ) (c : Char) : Pc δ :=
  B.int10 ((s.setBh 0).setAx ((0x0e : Byte) ++ BitVec.ofNat 8 c.toNat))

/-- `write_loop`, up to its `ret`.  The characters are those at `%si`, up to the 0 behind them; they
are an argument here and not read from memory, so that `int 10h` need not keep `%si` and the
register does not move along. -/
def write_loop (message : String) (s : Pc δ) : Pc δ :=
  ((message.toList.foldl (teletype B) s).setBh 0).setAl 0

/-- `write_loop`, with the message at `%si`. -/
def printing (message : String) (s : Pc δ) : Except (Stopped δ) (Pc δ × BitVec 16) :=
  .ok ((write_loop B message s).ret B)

/-- `error`, with the message at `%si`. -/
def error {α : Type} (message : String) (s : Pc δ) : Except (Stopped δ) α := do
  let s ← s.call B (site 0) (printing B message)
  throw (.halted message s.cli)

/-! ## The code -/

/-- `movsw`. -/
def movsw (s : Pc δ) : Pc δ :=
  let step : BitVec 16 := if s.direction then -2 else 2
  ((s.store16 B s.es s.di (s.load16 B s.ds s.si)).setSi (s.si + step)).setDi (s.di + step)

/-- `rep movsw`. -/
def repMovsw (s : Pc δ) : Pc δ := ((movsw B)^[s.cx.toNat] s).setCx 0

/-- From `_start` to the long jump: the segments are set to 0, and the sector is copied. -/
def relocate (s : Pc δ) : Pc δ :=
  let s := s.cli
  let s := s.setAx 0
  let s := { s with toSystem := s.toSystem.loadDataSegments s.ax }
  let s := ((s.setCx 0x0100).setSi 0x7c00).setDi 0x0800
  { repMovsw B s with cs := 0 }

/-- A byte at `%di`, and `add $1, %di`. -/
def put8 (v : Byte) (s : Pc δ) : Pc δ := (s.store8 B s.ds s.di v).setDi (s.di + 1)

/-- A word at `%di`, and `add $2, %di`. -/
def put16 (v : BitVec 16) (s : Pc δ) : Pc δ := (s.store16 B s.ds s.di v).setDi (s.di + 2)

/-- The request of `lba_read`, at `%di`.  Its last four bytes are not set up. -/
def fillRequest (s : Pc δ) : Pc δ :=
  let s := put8 B 0x10 s
  let s := put8 B 0 s
  let s := put16 B s.cx s
  let s := put16 B s.fs s
  let s := put16 B s.es s
  let s := s.store32 B s.ds s.di s.regs.ebx
  s.setDi (s.di - 8)

/-- `lba_read`. -/
def lba_read (s : Pc δ) : Except (Stopped δ) (Pc δ × BitVec 16) :=
  let s := fillRequest B s
  let s := s.setSi s.di
  let s := B.int13 (s.setAh 0x42)
  if s.carry then error B site "Error: Read" s else .ok (s.ret B)

/-- `low_memory`, up to the second read. -/
def loadStage1 (s : Pc δ) : Except (Stopped δ) (Pc δ) := do
  let s := s.setDi 0x1000
  let s := s.setAx 0x1010
  let s := s.setFs s.ax
  let s := (s.setCx 1).setEbx 1
  let s ← s.call B (site 1) (lba_read B site)
  let s := s.setBx 0x1010
  let s := s.setAx (s.load16 B s.ds s.bx)
  let s := s.setBx 0x3141
  if s.ax ≠ s.bx then error B site "Error: Stage1 magic not found" s
  else
    let s := s.setBx 0x1012
    let s := s.setCx (s.load16 B s.ds s.bx)
    let s := s.setEbx 1
    s.call B (site 2) (lba_read B site)

/-- `_start` of stage0: the state in which it jumps to stage1, and where it jumps. -/
def stage0 (s : Pc δ) : Except (Stopped δ) (Pc δ × BitVec 16) := do
  let s := relocate B s
  let s := s.setAx 0x07ff
  let s := (s.setSp s.ax).setBp s.ax
  let s := s.sti
  let s := B.int13 (s.setAh 0)
  if s.carry then error B site "Error: Reset controller failed" s
  else
    let s ← loadStage1 B site s
    let s := s.setAx (s.ax ^^^ s.ax)
    let s := s.setFs s.ax
    let s := s.setAx 0x1014
    return (s, s.ax)

end

/-! ## Printing -/

/-- The data of the BIOS at the end of the low memory, and what is behind. -/
def High (x : Addr) : Prop := 0x80000 ≤ x.toNat

/-- The BIOS leaves the stack and the memory alone when it prints, and the gate as well. -/
structure Prints (B : Board δ) : Prop where
  int10 : ∀ s : Pc δ, s.ss = 0 → 0x500 ≤ s.sp.toNat → Keeps High s (B.int10 s) ∧
    B.a20 (B.int10 s).devices = B.a20 s.devices

variable {B : Board δ} {s t u : Pc δ} {touched : Addr → Prop} {returnAddr : BitVec 16}
  {site : ℕ → BitVec 16} {halted : String → Pc δ → Prop}
  {waiting : (Byte → Bool) → Pc δ → Prop}

theorem High.above {x : Addr} (h : High x) : s.sp.toNat ≤ x.toNat :=
  Nat.le_trans (Nat.le_of_lt s.sp.isLt) (Nat.le_trans (by decide) h)

theorem keeps_write_loop (hB : Prints B) (hss : s.ss = 0) (hroom : 0x500 ≤ s.sp.toNat)
    (message : String) : Keeps High s (write_loop B message s) ∧
      B.a20 (write_loop B message s).devices = B.a20 s.devices := by
  have hloop : ∀ (cs : List Char) (t : Pc δ), Keeps High s t → B.a20 t.devices = B.a20 s.devices →
      Keeps High s (cs.foldl (teletype B) t) ∧
        B.a20 (cs.foldl (teletype B) t).devices = B.a20 s.devices := by
    intro cs
    induction cs with
    | nil => exact fun t hkeeps hgate ↦ ⟨hkeeps, hgate⟩
    | cons c cs ih =>
      intro t hkeeps hgate
      obtain ⟨u, hu⟩ : ∃ u, u = (t.setBh 0).setAx ((0x0e : Byte) ++ BitVec.ofNat 8 c.toNat) :=
        ⟨_, rfl⟩
      have hkeeps_u : Keeps High s u := hkeeps.trans (hu ▸ .of_eq rfl rfl rfl rfl rfl rfl)
      obtain ⟨hkeeps', hgate'⟩ := hB.int10 u (hkeeps_u.ss.trans hss) (hkeeps_u.sp_eq ▸ hroom)
      rw [List.foldl_cons, teletype, ← hu]
      refine ih _ (hkeeps_u.trans hkeeps') (hgate'.trans ?_)
      rw [hu]
      exact hgate
  obtain ⟨hkeeps, hgate⟩ := hloop message.toList s (.refl _ s) rfl
  exact ⟨hkeeps.trans (.of_eq rfl rfl rfl rfl rfl rfl), hgate⟩

theorem ends_call_printing (hB : Prints B) (hss : s.ss = 0) (hroom : 0x502 ≤ s.sp.toNat)
    (message : String) :
    Stopped.Ends (fun t ↦ Keeps High s t ∧ B.a20 t.devices = B.a20 s.devices) halted waiting
      (s.call B returnAddr (printing B message)) := by
  have hsp := toNat_sp_push (B := B) (show 2 ≤ s.sp.toNat by omega) returnAddr
  obtain ⟨hkeeps, hgate⟩ := keeps_write_loop (s := s.push B returnAddr) hB hss (by omega) message
  exact .call (P := fun t ↦ B.a20 t.devices = B.a20 s.devices) hss (by omega) (fun _ ↦ High.above)
    (fun _ h ↦ h) ⟨_, rfl, hkeeps, hgate⟩

/-! ## The move -/

/-- The words that have been moved. -/
structure Moved (s t : Pc δ) (n : ℕ) : Prop where
  mem : t.mem = s.mem.write 0x0800 (2 * n) fun i ↦ s.mem (0x7c00 + addr i)
  si : t.si = 0x7c00 + BitVec.ofNat 16 (2 * n)
  di : t.di = 0x0800 + BitVec.ofNat 16 (2 * n)
  flags : t.flags = s.flags
  ds : t.ds = 0
  es : t.es = 0
  ss : t.ss = s.ss
  esp : t.regs.esp = s.regs.esp
  edx : t.regs.edx = s.regs.edx

theorem Moved.movsw {n : ℕ} (h : Moved s t n) (hn : n < 256) (hdf : s.direction = false) :
    Moved s (movsw B t) (n + 1) := by
  have hdf' : t.direction = false := by rw [direction, h.flags, ← direction, hdf]
  have hsrc : t.address B t.ds t.si = 0x7c00 + addr (2 * n) := by
    rw [h.ds, h.si, address_zero]
    bv_omega
  have hdst : t.address B t.es t.di = 0x0800 + addr (2 * n) := by
    rw [h.es, h.di, address_zero]
    bv_omega
  obtain ⟨u, hu⟩ : ∃ u, u = t.store16 B t.es t.di (t.load16 B t.ds t.si) := ⟨_, rfl⟩
  have hmem_u : u.mem =
      t.mem.write16 (0x0800 + addr (2 * n)) (t.mem.read16 (0x7c00 + addr (2 * n))) := by
    rw [hu, ← hsrc, ← hdst]
    rfl
  have hmovsw : RainbowOS.movsw B t = (u.setSi (t.si + 2)).setDi (t.di + 2) := by
    rw [RainbowOS.movsw, hdf', ← hu]
    rfl
  rw [hmovsw]
  refine ⟨?_, ?_, ?_, ?_, ?_, ?_, ?_, ?_, ?_⟩
  · change u.mem = _
    rw [hmem_u, h.mem]
    refine (Mem.write_write_append _ _ (k := 2) (by omega) _ _).trans
      (Mem.write_congr fun i hi ↦ ?_)
    split
    · rfl
    · rename_i hlast
      have hbyte : 0x7c00 + addr (2 * n) + BitVec.ofNat 32 (i - 2 * n) = 0x7c00 + addr i := by
        bv_omega
      rw [Mem.byteOf_readLE _ (by omega), hbyte]
      -- what is read has not been written
      exact Mem.write_of_not_mem (by bv_omega)
  · have hsi : ((u.setSi (t.si + 2)).setDi (t.di + 2)).si = t.si + 2 := setWidth_withLow _ _
    rw [hsi, h.si]
    bv_omega
  · have hdi : ((u.setSi (t.si + 2)).setDi (t.di + 2)).di = t.di + 2 := setWidth_withLow _ _
    rw [hdi, h.di]
    bv_omega
  · rw [← h.flags, hu]
    rfl
  · rw [← h.ds, hu]
    rfl
  · rw [← h.es, hu]
    rfl
  · rw [← h.ss, hu]
    rfl
  · rw [← h.esp, hu]
    rfl
  · rw [← h.edx, hu]
    rfl

/-- **The boot sector is copied word by word.** -/
theorem movsw_iterate (hds : s.ds = 0) (hes : s.es = 0) (hsi : s.si = 0x7c00) (hdi : s.di = 0x0800)
    (hdf : s.direction = false) {n : ℕ} (hn : n ≤ 256) : Moved s ((movsw B)^[n] s) n := by
  induction n with
  | zero =>
    exact ⟨(Mem.write_zero _ _ _).symm, by simpa using hsi, by simpa using hdi, rfl, hds, hes, rfl,
      rfl, rfl⟩
  | succ n ih =>
    rw [Function.iterate_succ_apply']
    exact (ih (by omega)).movsw (by omega) hdf

/-- What `relocate` leaves: the boot sector in its place, and all segments at 0. -/
structure Relocated (s t : Pc δ) : Prop where
  mem : t.mem = s.mem.write 0x0800 512 fun i ↦ s.mem (0x7c00 + addr i)
  cs : t.cs = 0
  ds : t.ds = 0
  es : t.es = 0
  ss : t.ss = 0
  esp : t.regs.esp = s.regs.esp
  edx : t.regs.edx = s.regs.edx
  direction : t.direction = false

theorem relocate_spec (hdf : s.direction = false) : Relocated s (relocate B s) := by
  obtain ⟨t, ht⟩ : ∃ t, t = s.cli.setAx 0 := ⟨_, rfl⟩
  have hax : t.ax = 0 := ht ▸ setWidth_withLow _ _
  obtain ⟨t', ht'⟩ : ∃ t' : Pc δ, t' = { t with toSystem := t.toSystem.loadDataSegments 0 } :=
    ⟨_, rfl⟩
  obtain ⟨u, hu⟩ : ∃ u, u = ((t'.setCx 0x0100).setSi 0x7c00).setDi 0x0800 := ⟨_, rfl⟩
  have hdf_u : u.direction = false := by
    have hflags : u.flags = s.flags &&& ~~~0x200 := by
      rw [hu, ht', ht]
      rfl
    rw [direction, hflags, BitVec.getLsbD_and, ← direction, hdf, Bool.false_and]
  have hcx : u.cx = 0x0100 := hu ▸ setWidth_withLow _ _
  have hsi : u.si = 0x7c00 := hu ▸ setWidth_withLow _ _
  have hdi : u.di = 0x0800 := hu ▸ setWidth_withLow _ _
  have hds : u.ds = 0 := by rw [hu, ht']; rfl
  have hes : u.es = 0 := by rw [hu, ht']; rfl
  have hss : u.ss = 0 := by rw [hu, ht']; rfl
  have hmem : u.mem = s.mem := by rw [hu, ht', ht]; rfl
  have hesp : u.regs.esp = s.regs.esp := by rw [hu, ht', ht]; rfl
  have hedx : u.regs.edx = s.regs.edx := by rw [hu, ht', ht]; rfl
  have hmoved : Moved u ((movsw B)^[256] u) 256 :=
    movsw_iterate hds hes hsi hdi hdf_u (Nat.le_refl _)
  have hrelocate : relocate B s = { ((movsw B)^[256] u).setCx 0 with cs := 0 } := by
    rw [relocate, ← ht, hax, ← ht', ← hu, repMovsw, hcx]
    rfl
  obtain ⟨w, hw⟩ : ∃ w, w = (movsw B)^[256] u := ⟨_, rfl⟩
  rw [← hw] at hmoved hrelocate
  rw [hrelocate]
  refine ⟨?_, rfl, hmoved.ds, hmoved.es, hmoved.ss.trans hss, hmoved.esp.trans hesp,
    hmoved.edx.trans hedx, ?_⟩
  · rw [← hmem]
    exact hmoved.mem
  · rw [← hdf_u]
    exact congrArg (·.getLsbD 10) hmoved.flags

/-! ## Requests -/

/-- What is stored for a request. -/
def requestMem (m : Mem) (count offset segment : BitVec 16) (LBA : BitVec 32) : Mem :=
  let m := (m.write8 0x1000 0x10).write8 0x1001 0
  let m := ((m.write16 0x1002 count).write16 0x1004 offset).write16 0x1006 segment
  m.write32 0x1008 LBA

/-- The upper half of the sector number is what was in memory. -/
theorem readDAP_requestMem (m : Mem) (count offset segment : BitVec 16) (LBA : BitVec 32) :
    readDAP (requestMem m count offset segment LBA) =
      ⟨0x10, 0, count, segment ++ offset, m.read32 0x100c ++ LBA⟩ := by
  rw [readDAP, DAP.mk.injEq, requestMem]
  refine ⟨?_, ?_, ?_, ?_, ?_⟩
  · refine (Mem.write_of_not_mem (by decide)).trans ((Mem.write_of_not_mem (by decide)).trans
      ((Mem.write_of_not_mem (by decide)).trans ((Mem.write_of_not_mem (by decide)).trans
        ((Mem.write_of_not_mem (by decide)).trans ?_))))
    exact Mem.write8_self _ _ _
  · refine (Mem.write_of_not_mem (by decide)).trans ((Mem.write_of_not_mem (by decide)).trans
      ((Mem.write_of_not_mem (by decide)).trans ((Mem.write_of_not_mem (by decide)).trans ?_)))
    exact Mem.write8_self _ _ _
  · refine (Mem.readLE_write_of_disjoint (by decide)).trans
      ((Mem.readLE_write_of_disjoint (by decide)).trans
        ((Mem.readLE_write_of_disjoint (by decide)).trans ?_))
    exact Mem.readLE_writeLE (n := 2) _ (by decide) _ _
  · refine (Mem.readLE_write_of_disjoint (by decide)).trans ((Mem.read32_eq _ _).trans ?_)
    refine congrArg₂ (· ++ ·) (Mem.readLE_writeLE (n := 2) _ (by decide) _ _) ?_
    refine (Mem.readLE_write_of_disjoint (by decide)).trans ?_
    exact Mem.readLE_writeLE (n := 2) _ (by decide) _ _
  · refine (Mem.read64_eq _ _).trans (congrArg₂ (· ++ ·) ?_ ?_)
    · refine (Mem.readLE_write_of_disjoint (by decide)).trans
        ((Mem.readLE_write_of_disjoint (by decide)).trans
          ((Mem.readLE_write_of_disjoint (by decide)).trans
            ((Mem.readLE_write_of_disjoint (by decide)).trans
              ((Mem.readLE_write_of_disjoint (by decide)).trans ?_))))
      exact Mem.readLE_write_of_disjoint (by decide)
    · exact Mem.readLE_writeLE (n := 4) _ (by decide) _ _

theorem requestMem_of_not_mem (m : Mem) (count offset segment : BitVec 16) (LBA : BitVec 32)
    {x : Addr} (hx : 12 ≤ (x - dap_memory_location).toNat) :
    requestMem m count offset segment LBA x = m x := by
  rw [dap_memory_location] at hx
  rw [requestMem]
  refine (Mem.write_of_not_mem ?_).trans ((Mem.write_of_not_mem ?_).trans
    ((Mem.write_of_not_mem ?_).trans ((Mem.write_of_not_mem ?_).trans
      ((Mem.write_of_not_mem ?_).trans (Mem.write_of_not_mem ?_)))))
  all_goals bv_omega

/-- A state with another `%di` and another memory. -/
def atDi (s : Pc δ) (di : BitVec 16) (m : Mem) : Pc δ := { s.setDi di with mem := m }

theorem di_atDi (s : Pc δ) (di : BitVec 16) (m : Mem) : (atDi s di m).di = di :=
  setWidth_withLow _ _

theorem atDi_atDi (s : Pc δ) (di di' : BitVec 16) (m m' : Mem) :
    atDi (atDi s di m) di' m' = atDi s di' m' := by
  change ({ s with regs := { s.regs with edi := withLow (withLow _ _) _ }, mem := m' } : Pc δ) = _
  rw [withLow_withLow]
  rfl

theorem put8_atDi (hds : s.ds = 0) (di : BitVec 16) (m : Mem) (v : Byte) :
    put8 B v (atDi s di m) = atDi s (di + 1) (m.write8 (addr di.toNat) v) := by
  change atDi (atDi s di m) ((atDi s di m).di + 1)
    (m.write8 ((atDi s di m).address B s.ds (atDi s di m).di) v) = _
  rw [di_atDi, atDi_atDi, hds, address_zero]

theorem put16_atDi (hds : s.ds = 0) (di : BitVec 16) (m : Mem) (v : BitVec 16) :
    put16 B v (atDi s di m) = atDi s (di + 2) (m.write16 (addr di.toNat) v) := by
  change atDi (atDi s di m) ((atDi s di m).di + 2)
    (m.write16 ((atDi s di m).address B s.ds (atDi s di m).di) v) = _
  rw [di_atDi, atDi_atDi, hds, address_zero]

/-- **A request is set up**, and `%di` is back where it was. -/
theorem fillRequest_eq (hds : s.ds = 0) (hdi : s.di = 0x1000) : fillRequest B s =
    { s with mem := requestMem s.mem s.cx s.fs s.es s.regs.ebx } := by
  have hstart : s = atDi s 0x1000 s.mem := by
    rw [← hdi, atDi, setDi, di, withLow_self]
  have hput : fillRequest B s = atDi s 0x1000 (requestMem s.mem s.cx s.fs s.es s.regs.ebx) := by
    obtain ⟨m₁, hm₁⟩ : ∃ m₁, m₁ = s.mem.write8 0x1000 0x10 := ⟨_, rfl⟩
    obtain ⟨m₂, hm₂⟩ : ∃ m₂, m₂ = m₁.write8 0x1001 0 := ⟨_, rfl⟩
    obtain ⟨m₃, hm₃⟩ : ∃ m₃, m₃ = m₂.write16 0x1002 s.cx := ⟨_, rfl⟩
    obtain ⟨m₄, hm₄⟩ : ∃ m₄, m₄ = m₃.write16 0x1004 s.fs := ⟨_, rfl⟩
    obtain ⟨m₅, hm₅⟩ : ∃ m₅, m₅ = m₄.write16 0x1006 s.es := ⟨_, rfl⟩
    have h₁ : put8 B 0x10 s = atDi s 0x1001 m₁ := by
      rw [hm₁]
      exact (congrArg (put8 B 0x10) hstart).trans (put8_atDi hds 0x1000 s.mem 0x10)
    have h₂ : put8 B 0 (atDi s 0x1001 m₁) = atDi s 0x1002 m₂ := hm₂ ▸ put8_atDi hds 0x1001 m₁ 0
    have h₃ : put16 B s.cx (atDi s 0x1002 m₂) = atDi s 0x1004 m₃ :=
      hm₃ ▸ put16_atDi hds 0x1002 m₂ s.cx
    have h₄ : put16 B s.fs (atDi s 0x1004 m₃) = atDi s 0x1006 m₄ :=
      hm₄ ▸ put16_atDi hds 0x1004 m₃ s.fs
    have h₅ : put16 B s.es (atDi s 0x1006 m₄) = atDi s 0x1008 m₅ :=
      hm₅ ▸ put16_atDi hds 0x1006 m₄ s.es
    have h₆ : (atDi s 0x1008 m₅).store32 B s.ds 0x1008 s.regs.ebx =
        atDi s 0x1008 (m₅.write32 0x1008 s.regs.ebx) := by
      have haddr : (atDi s 0x1008 m₅).address B s.ds 0x1008 = 0x1008 := by
        rw [hds, address_zero]
        rfl
      change ({ atDi s 0x1008 m₅ with
        mem := m₅.write32 ((atDi s 0x1008 m₅).address B s.ds 0x1008) s.regs.ebx } : Pc δ) = _
      rw [haddr]
      rfl
    have hfill : fillRequest B s =
        (((atDi s 0x1008 m₅).store32 B s.ds (atDi s 0x1008 m₅).di s.regs.ebx).setDi
          ((atDi s 0x1008 m₅).di - 8)) := by
      rw [fillRequest, h₁, h₂]
      change _ = _ at h₃ h₄ h₅
      rw [show (atDi s 0x1002 m₂).cx = s.cx from rfl, h₃]
      rw [show (atDi s 0x1004 m₃).fs = s.fs from rfl, h₄]
      rw [show (atDi s 0x1006 m₄).es = s.es from rfl, h₅]
      rfl
    rw [hfill, di_atDi, h₆, requestMem, ← hm₁, ← hm₂, ← hm₃, ← hm₄, ← hm₅]
    exact atDi_atDi s 0x1008 0x1000 m₅ _
  rw [hput, ← hdi, atDi, setDi, di, withLow_self]

/-! ## What the BIOS does with a request -/

/-- The registers that the BIOS gives back as they were. -/
structure Rest (s t : Pc δ) : Prop where
  cs : t.cs = s.cs
  fs : t.fs = s.fs
  edi : t.regs.edi = s.regs.edi
  edx : t.regs.edx = s.regs.edx

theorem Rest.trans (h : Rest s t) (h' : Rest t u) : Rest s u :=
  ⟨h'.cs.trans h.cs, h'.fs.trans h.fs, h'.edi.trans h.edi, h'.edx.trans h.edx⟩

/-- The memory of a request: the sectors, and in the request the count, where the BIOS says how many
sectors it has read. -/
def Requested (r : DAP) (x : Addr) : Prop :=
  High x ∨ (x - addr r.start).toNat < 512 * r.numSectors.toNat ∨ (x - 0x1002).toNat < 2

/-- A BIOS that reads from the disks it has: byte `i` of the sector `LBA` of the disk `dl` is
`disk dl LBA i`.  It need not succeed. -/
structure ReadsDisk (B : Board δ) (disk : Byte → BitVec 64 → ℕ → Byte) : Prop extends
    Prints B where
  reset : ∀ s : Pc δ, s.ss = 0 → 0x500 ≤ s.sp.toNat → s.ah = 0 →
    Keeps High s (B.int13 s) ∧ Rest s (B.int13 s)
  read : ∀ (s : Pc δ) (r : DAP), s.ss = 0 → 0x500 ≤ s.sp.toNat → s.ah = 0x42 → s.ds = 0 →
    s.si = 0x1000 → readDAP s.mem = r → r.size = 0x10 → r.numSectors.toNat ≤ 127 →
    (r.buffer &&& 0xffff).toNat + 512 * r.numSectors.toNat ≤ 0x10000 →
      Keeps (Requested r) s (B.int13 s) ∧ Rest s (B.int13 s) ∧
        ((B.int13 s).carry = false → ∀ i < 512 * r.numSectors.toNat,
          (B.int13 s).mem (addr (r.start + i)) =
            disk s.dl (r.LBA + BitVec.ofNat 64 (i / 512)) (i % 512))

variable {disk : Byte → BitVec 64 → ℕ → Byte}

theorem ends_error {α : Type} {returned : α → Prop} (hB : Prints B) (hss : s.ss = 0)
    (hroom : 0x502 ≤ s.sp.toNat) {message : String} (hhalted : ∀ t, halted message t) :
    Stopped.Ends returned halted waiting (error B site message s) :=
  (ends_call_printing hB hss hroom message).bind fun _ _ ↦ hhalted _

/-- What `lba_read` may change: video memory and above, its request but for the last four bytes,
and the sectors. -/
def Touched (n : ℕ) (x : Addr) : Prop :=
  High x ∨ (x - 0x1000).toNat < 12 ∨ (x - 0x1010).toNat < 512 * n

/-- **`lba_read`** returns with the sectors in memory, or it halts. -/
theorem ends_lba_read (hB : ReadsDisk B disk) (hss : s.ss = 0) (hds : s.ds = 0) (hes : s.es = 0)
    (hroom : 0x502 ≤ s.sp.toNat) (hdi : s.di = 0x1000) (hfs : s.fs = 0x1010)
    (hcx : s.cx.toNat ≤ 119) (hhalted : ∀ t, halted "Error: Read" t) :
    Stopped.Ends (fun q ↦ ∃ t, q = t.ret B ∧ Keeps (Touched s.cx.toNat) s t ∧ Rest s t ∧
        ∀ i < 512 * s.cx.toNat, t.mem (0x1010 + addr i) =
          disk s.dl (s.mem.read32 0x100c ++ s.regs.ebx + BitVec.ofNat 64 (i / 512)) (i % 512))
      halted waiting (lba_read B site s) := by
  obtain ⟨r, hr⟩ : ∃ r : DAP, r =
      ⟨0x10, 0, s.cx, (0 : BitVec 16) ++ (0x1010 : BitVec 16), s.mem.read32 0x100c ++ s.regs.ebx⟩ :=
    ⟨_, rfl⟩
  have hbuffer : r.buffer = 0x1010 := by
    rw [hr]
    rfl
  have hstart : r.start = 0x1010 := by
    rw [DAP.start, hbuffer]
    decide
  have hnum : r.numSectors = s.cx := hr ▸ rfl
  have hoffset : (r.buffer &&& 0xffff).toNat = 0x1010 := by
    rw [hbuffer]
    decide
  obtain ⟨u, hu⟩ : ∃ u, u =
    (({ s with mem := requestMem s.mem s.cx s.fs s.es s.regs.ebx } : Pc δ).setSi s.di).setAh 0x42 :=
    ⟨_, rfl⟩
  have hmem_u : u.mem = requestMem s.mem s.cx s.fs s.es s.regs.ebx := hu ▸ rfl
  have hdap : readDAP u.mem = r := by
    rw [hmem_u, readDAP_requestMem, hfs, hes, hr]
  have hah : u.ah = 0x42 := hu ▸ ah_setAh _ _
  have hsi : u.si = 0x1000 := by
    rw [hu]
    exact (setWidth_withLow _ _).trans hdi
  have hsp_u : u.sp = s.sp := hu ▸ rfl
  obtain ⟨hkeeps, hrest, hread⟩ := hB.read u r (hu ▸ hss) (by rw [hsp_u]; omega) hah (hu ▸ hds) hsi
    hdap (hr ▸ rfl) (by rw [hnum]; omega) (by rw [hnum, hoffset]; omega)
  have hkeeps_u : Keeps (Touched s.cx.toNat) s u := by
    refine ⟨hu ▸ rfl, hu ▸ rfl, hu ▸ rfl, hu ▸ rfl, hu ▸ rfl, fun x _ hx ↦ ?_⟩
    rw [hmem_u]
    refine requestMem_of_not_mem _ _ _ _ _ (Nat.le_of_not_lt fun hlt ↦ hx (.inr (.inl hlt)))
  obtain ⟨t, ht⟩ : ∃ t, t = B.int13 u := ⟨_, rfl⟩
  have hkeeps_t : Keeps (Touched s.cx.toNat) s t := by
    refine hkeeps_u.trans (ht ▸ hkeeps.mono fun x hx ↦ ?_)
    rw [Requested, hstart, hnum] at hx
    obtain hx | hx | hx := hx
    · exact .inl hx
    · exact .inr (.inr hx)
    · exact .inr (.inl (by bv_omega))
  have hrest_t : Rest s t := by
    rw [← ht] at hrest
    exact ⟨hrest.cs.trans (hu ▸ rfl), hrest.fs.trans (hu ▸ rfl), hrest.edi.trans (hu ▸ rfl),
      hrest.edx.trans (hu ▸ rfl)⟩
  have hlba : lba_read B site s =
      if t.carry then error B site "Error: Read" t else .ok (t.ret B) := by
    rw [lba_read, fillRequest_eq hds hdi, ht, hu]
    rfl
  rw [hlba]
  cases hcarry : t.carry with
  | true =>
    rw [if_pos rfl]
    exact ends_error hB.toPrints (hkeeps_t.ss.trans hss) (by rw [hkeeps_t.sp_eq]; exact hroom)
      hhalted
  | false =>
    rw [if_neg Bool.false_ne_true]
    refine ⟨t, rfl, hkeeps_t, hrest_t, fun i hi ↦ ?_⟩
    have hbyte := hread (ht ▸ hcarry) i (by rw [hnum]; exact hi)
    have haddr : addr (r.start + i) = 0x1010 + addr i := by
      rw [hstart]
      bv_omega
    have hdl : u.dl = s.dl := hu ▸ rfl
    rw [haddr, ← ht, hdl] at hbyte
    rw [hbyte, hr]

/-! ## The whole of it -/

/-- The state of stage0 behind the move: the segments, the stack, the drive, its own code and the
bytes of the sector number that it does not write. -/
structure Settled (s t : Pc δ) : Prop where
  cs : t.cs = 0
  ds : t.ds = 0
  es : t.es = 0
  ss : t.ss = 0
  esp : t.regs.esp = withLow s.regs.esp 0x07ff
  edx : t.regs.edx = s.regs.edx
  code : ∀ i < 512, t.mem (0x0800 + addr i) = s.mem (0x7c00 + addr i)
  upper : t.mem.read32 0x100c = s.mem.read32 0x100c

theorem Settled.sp (h : Settled s t) : t.sp = 0x07ff := by
  rw [Pc.sp, h.esp, setWidth_withLow]

/-- Settled are a state and another one that scratch registers tell apart from it. -/
theorem Settled.scratch (h : Settled s t) (fs : BitVec 16) (a b c d : BitVec 32) :
    Settled s { t with fs := fs, regs := { t.regs with eax := a, ebx := b, ecx := c, edi := d } } :=
  ⟨h.cs, h.ds, h.es, h.ss, h.esp, h.edx, h.code, h.upper⟩

/-- A load from where `%bx` has just been set to. -/
theorem Settled.load_setBx (h : Settled s t) (B : Board δ) (b : BitVec 16) :
    (t.setBx b).load16 B (t.setBx b).ds (t.setBx b).bx = t.mem.read16 (addr b.toNat) := by
  have hbx : (t.setBx b).bx = b := setWidth_withLow _ _
  have hds : (t.setBx b).ds = 0 := h.ds
  rw [load16, hbx, hds, address_zero]
  rfl

theorem Settled.of_keeps (h : Settled s t) (hkeeps : Keeps touched t u) (hrest : Rest t u)
    (htouched : ∀ x, touched x → 0x1010 ≤ x.toNat ∨ (x - 0x1000).toNat < 12) : Settled s u := by
  have hsp : t.sp.toNat = 0x07ff := by rw [h.sp]; rfl
  refine ⟨hrest.cs.trans h.cs, hkeeps.ds.trans h.ds, hkeeps.es.trans h.es, hkeeps.ss.trans h.ss,
    hkeeps.esp.trans h.esp, hrest.edx.trans h.edx, fun i hi ↦ ?_, ?_⟩
  · refine (hkeeps.mem _ (by bv_omega) fun htouch ↦ ?_).trans (h.code i hi)
    have hout := htouched _ htouch
    bv_omega
  · refine (Mem.readLE_congr fun i hi ↦ hkeeps.mem _ (by bv_omega) fun htouch ↦ ?_).trans h.upper
    have hout := htouched _ htouch
    bv_omega

/-- The number of the first sector that is read: its upper half is what the memory held. -/
def firstLBA (s : Pc δ) : BitVec 64 := s.mem.read32 0x100c ++ (1 : BitVec 32)

/-- A word of the header of stage1, as it is on the disk. -/
def stage1Header (disk : Byte → BitVec 64 → ℕ → Byte) (s : Pc δ) (n : ℕ) : BitVec 16 :=
  disk s.dl (firstLBA s) (2 * n + 1) ++ disk s.dl (firstLBA s) (2 * n)

/-- The sectors from the first one on are in memory. -/
def SectorsAt (disk : Byte → BitVec 64 → ℕ → Byte) (s t : Pc δ) (n : ℕ) : Prop :=
  ∀ i < 512 * n, t.mem (0x1010 + addr i) =
    disk s.dl (firstLBA s + BitVec.ofNat 64 (i / 512)) (i % 512)

theorem SectorsAt.read16 {n k : ℕ} (h : SectorsAt disk s t n) (hn : 1 ≤ n) (hk : k < 2) :
    t.mem.read16 (0x1010 + addr (2 * k)) = stage1Header disk s k := by
  have hbyte : ∀ i < 512, t.mem (0x1010 + addr i) = disk s.dl (firstLBA s) i := fun i hi ↦ by
    rw [h i (by omega), Nat.div_eq_of_lt hi, Nat.mod_eq_of_lt hi]
    simp
  have hnext : (0x1010 + addr (2 * k) + 1 : Addr) = 0x1010 + addr (2 * k + 1) := by bv_omega
  rw [Mem.read16_eq, hnext, hbyte _ (by omega), hbyte _ (by omega), stage1Header]

/-- What stage0 leaves to stage1: the boot sector in its new place, the registers, and the sectors
of stage1, the first of which begins with the magic word. -/
structure Stage1Loaded (disk : Byte → BitVec 64 → ℕ → Byte) (s t : Pc δ) : Prop extends
    Settled s t where
  fs : t.fs = 0
  magic : stage1Header disk s 0 = 0x3141
  sectors : SectorsAt disk s t (max 1 (stage1Header disk s 1).toNat)

/-- How stage0 may halt. -/
inductive Stage0Halt (disk : Byte → BitVec 64 → ℕ → Byte) (s : Pc δ) : String → Prop
  | reset : Stage0Halt disk s "Error: Reset controller failed"
  | read : Stage0Halt disk s "Error: Read"
  | magic (h : stage1Header disk s 0 ≠ 0x3141) : Stage0Halt disk s "Error: Stage1 magic not found"

/-- A read of `lba_read`, from the sector behind the first one on. -/
theorem ends_call_lba_read (hB : ReadsDisk B disk) (ht : Settled s t) (hdi : t.di = 0x1000)
    (hfs : t.fs = 0x1010) (hebx : t.regs.ebx = 1) {n : ℕ} (hcx : t.cx.toNat = n) (hn : n ≤ 119)
    (site : ℕ → BitVec 16) (returnAddr : BitVec 16) :
    Stopped.Ends (fun u ↦ Settled s u ∧ Keeps (Touched n) t u ∧ Rest t u ∧ SectorsAt disk s u n)
      (fun message _ ↦ Stage0Halt disk s message) (fun _ _ ↦ False)
      (t.call B returnAddr (lba_read B site)) := by
  have hsp : t.sp.toNat = 0x07ff := by rw [ht.sp]; rfl
  have hsp' := toNat_sp_push (B := B) (show 2 ≤ t.sp.toNat by omega) returnAddr
  have hupper : (t.push B returnAddr).mem.read32 0x100c = s.mem.read32 0x100c := by
    refine (Mem.readLE_congr fun i hi ↦ ?_).trans ht.upper
    refine mem_push_of_not_below ht.ss (by omega) ?_
    rw [Below]
    bv_omega
  have hedx : t.dl = s.dl := by rw [dl, ht.edx, dl]
  have htouched : ∀ x, Touched n x → t.sp.toNat ≤ x.toNat := by
    rintro x (hx | hx | hx)
    · exact hx.above
    · bv_omega
    · bv_omega
  refine (Stopped.Ends.call (P := fun u ↦ Rest t u ∧ SectorsAt disk s u n)
    ht.ss (by omega) htouched (fun u h ↦ ⟨⟨h.1.cs, h.1.fs, h.1.edi, h.1.edx⟩, h.2⟩)
    ((ends_lba_read (s := t.push B returnAddr) hB ht.ss ht.ds ht.es (by omega) hdi hfs
      (hcx ▸ hn) fun _ ↦ .read).mono ?_ (fun _ _ h ↦ h) fun _ _ h ↦ h)).mono ?_
        (fun _ _ h ↦ h) fun _ _ h ↦ h
  · rintro - ⟨u, rfl, hkeeps, hrest, hsectors⟩
    refine ⟨u, rfl, ?_, ⟨hrest.cs, hrest.fs, hrest.edi, hrest.edx⟩, fun i hi ↦ ?_⟩
    · rw [← hcx]
      exact hkeeps
    · have hbyte := hsectors i (by rw [← hcx] at hi; exact hi)
      rw [hupper] at hbyte
      change _ = disk t.dl (_ ++ t.regs.ebx + _) _ at hbyte
      rw [hbyte, hedx, hebx, firstLBA]
  · rintro u ⟨hkeeps, hrest, hsectors⟩
    refine ⟨ht.of_keeps hkeeps hrest fun x hx ↦ ?_, hkeeps, hrest, hsectors⟩
    obtain hx | hx | hx := hx
    · exact .inl (Nat.le_trans (by decide) hx)
    · exact .inr hx
    · left
      bv_omega

/-- Behind the first sector, the read of all of them. -/
theorem ends_readSectors (hB : ReadsDisk B disk) (ht : Settled s t) (hdi : t.di = 0x1000)
    (hfs : t.fs = 0x1010) (hsector : SectorsAt disk s t 1) {count : BitVec 16}
    (hcount : count.toNat ≤ 119) (site : ℕ → BitVec 16) (returnAddr : BitVec 16) :
    Stopped.Ends (fun u ↦ Settled s u ∧ SectorsAt disk s u (max 1 count.toNat))
      (fun message _ ↦ Stage0Halt disk s message) (fun _ _ ↦ False)
      (((t.setCx count).setEbx 1).call B returnAddr (lba_read B site)) := by
  obtain ⟨w, hw⟩ : ∃ w, w = (t.setCx count).setEbx 1 := ⟨_, rfl⟩
  have hsettled_w : Settled s w := by
    rw [hw]
    exact ht.scratch _ _ _ _ _
  have hcx : w.cx = count := hw ▸ setWidth_withLow _ _
  have hmem : w.mem = t.mem := hw ▸ rfl
  rw [← hw]
  refine (ends_call_lba_read hB hsettled_w (hw ▸ hdi) (hw ▸ hfs) (hw ▸ rfl) (congrArg _ hcx)
    hcount site returnAddr).mono ?_ (fun _ _ h ↦ h) fun _ _ h ↦ h
  rintro u ⟨hsettled, hkeeps, -, hsectors⟩
  refine ⟨hsettled, ?_⟩
  obtain hzero | hpos := Nat.eq_zero_or_pos count.toNat
  · -- nothing is read the second time
    rw [hzero] at hkeeps ⊢
    intro i hi
    rw [← hsector i hi, ← hmem]
    refine hkeeps.mem _ ?_ ?_
    · rw [hsettled_w.sp]
      bv_omega
    · rw [Touched, High]
      bv_omega
  · rw [Nat.max_eq_right hpos]
    exact hsectors

/-- **Stage1 is read**, behind the move and the reset. -/
theorem ends_loadStage1 (hB : ReadsDisk B disk) (ht : Settled s t)
    (hcount : stage1Header disk s 0 = 0x3141 → (stage1Header disk s 1).toNat ≤ 119) :
    Stopped.Ends (fun u ↦ Settled s u ∧ stage1Header disk s 0 = 0x3141 ∧
        SectorsAt disk s u (max 1 (stage1Header disk s 1).toNat))
      (fun message _ ↦ Stage0Halt disk s message) (fun _ _ ↦ False) (loadStage1 B site t) := by
  -- the first sector
  obtain ⟨u₀, hu₀⟩ : ∃ u₀, u₀ = (t.setDi 0x1000).setAx 0x1010 := ⟨_, rfl⟩
  obtain ⟨u, hu⟩ : ∃ u, u = ((u₀.setFs u₀.ax).setCx 1).setEbx 1 := ⟨_, rfl⟩
  have hsettled_u : Settled s u := by
    rw [hu, hu₀]
    exact ht.scratch _ _ _ _ _
  have hdi : u.di = 0x1000 := by
    rw [hu, hu₀]
    exact setWidth_withLow _ _
  have hfs : u.fs = 0x1010 := by
    rw [hu, hu₀]
    exact setWidth_withLow _ _
  have hcx : u.cx = 1 := hu ▸ setWidth_withLow _ _
  have hfirst := ends_call_lba_read (n := 1) hB hsettled_u hdi hfs (hu ▸ rfl)
    (by rw [hcx]; rfl) (by omega) site (site 1)
  rw [loadStage1]
  dsimp only
  rw [← hu₀, ← hu]
  refine hfirst.bind ?_
  rintro v ⟨hsettled_v, -, hrest_v, hsector⟩
  -- its header
  have hmagic : v.mem.read16 0x1010 = stage1Header disk s 0 :=
    hsector.read16 (k := 0) (by decide) (by decide)
  have hnumber : v.mem.read16 0x1012 = stage1Header disk s 1 :=
    hsector.read16 (k := 1) (by decide) (by decide)
  have hload : (v.setBx 0x1010).load16 B (v.setBx 0x1010).ds (v.setBx 0x1010).bx =
      stage1Header disk s 0 := (hsettled_v.load_setBx B 0x1010).trans hmagic
  obtain ⟨w, hw⟩ : ∃ w, w = ((v.setBx 0x1010).setAx (stage1Header disk s 0)).setBx 0x3141 :=
    ⟨_, rfl⟩
  have hsettled_w : Settled s w := by
    rw [hw]
    exact hsettled_v.scratch _ _ _ _ _
  have hax : w.ax = stage1Header disk s 0 := hw ▸ setWidth_withLow _ _
  have hbx : w.bx = 0x3141 := hw ▸ setWidth_withLow _ _
  rw [hload, ← hw, hax, hbx]
  split
  · rename_i hne
    refine ends_error hB.toPrints hsettled_w.ss ?_ fun _ ↦ .magic hne
    rw [hsettled_w.sp]
    decide
  · rename_i heq
    rw [not_not] at heq
    -- all of them
    have hmem : w.mem = v.mem := hw ▸ rfl
    have hrest : Rest v w := hw ▸ ⟨rfl, rfl, rfl, rfl⟩
    have hload : (w.setBx 0x1012).load16 B (w.setBx 0x1012).ds (w.setBx 0x1012).bx =
        stage1Header disk s 1 := by
      rw [hsettled_w.load_setBx B 0x1012, hmem]
      exact hnumber
    have hdi_w : w.di = 0x1000 := by
      rw [← hdi, di, di, (hrest_v.trans hrest).edi]
    have hfs_w : w.fs = 0x1010 := by
      rw [← hfs, (hrest_v.trans hrest).fs]
    have hsector_w : SectorsAt disk s w 1 := by
      intro i hi
      rw [hmem]
      exact hsector i hi
    rw [hload]
    have hall := ends_readSectors (t := w.setBx 0x1012) hB
      (hsettled_w.scratch _ _ _ _ _) hdi_w hfs_w hsector_w (hcount heq) site (site 2)
    exact hall.mono (fun _ h ↦ ⟨h.1, heq, h.2⟩) (fun _ _ h ↦ h) fun _ _ h ↦ h

/-- The whole of stage0. -/
theorem ends_stage0 (hB : ReadsDisk B disk) (s : Pc δ) (hdf : s.direction = false)
    (hcount : stage1Header disk s 0 = 0x3141 → (stage1Header disk s 1).toNat ≤ 119)
    (site : ℕ → BitVec 16) :
    Stopped.Ends (fun q ↦ q.2 = 0x1014 ∧ Stage1Loaded disk s q.1)
      (fun message _ ↦ Stage0Halt disk s message) (fun _ _ ↦ False) (stage0 B site s) := by
  have hrelocated := relocate_spec (B := B) hdf
  obtain ⟨t, ht⟩ : ∃ t, t = relocate B s := ⟨_, rfl⟩
  rw [← ht] at hrelocated
  obtain ⟨u, hu⟩ : ∃ u, u =
      ((((t.setAx 0x07ff).setSp (t.setAx 0x07ff).ax).setBp (t.setAx 0x07ff).ax).sti).setAh 0 :=
    ⟨_, rfl⟩
  have hesp : u.regs.esp = withLow s.regs.esp 0x07ff := by
    have hax : (t.setAx 0x07ff).ax = 0x07ff := setWidth_withLow _ _
    rw [hu, hax, ← hrelocated.esp]
    rfl
  have hah : u.ah = 0 := hu ▸ ah_setAh _ _
  have hmem : u.mem = s.mem.write 0x0800 512 fun i ↦ s.mem (0x7c00 + addr i) := by
    rw [← hrelocated.mem, hu]
    rfl
  have hsettled_u : Settled s u := by
    refine ⟨?_, ?_, ?_, ?_, hesp, ?_, fun i hi ↦ ?_, ?_⟩
    · rw [← hrelocated.cs, hu]
      rfl
    · rw [← hrelocated.ds, hu]
      rfl
    · rw [← hrelocated.es, hu]
      rfl
    · rw [← hrelocated.ss, hu]
      rfl
    · rw [← hrelocated.edx, hu]
      rfl
    · rw [hmem]
      exact Mem.write_add hi (by decide)
    · rw [hmem]
      exact Mem.readLE_congr fun i hi ↦ Mem.write_of_not_mem (by bv_omega)
  obtain ⟨hkeeps, hrest⟩ := hB.reset u hsettled_u.ss (by rw [hsettled_u.sp]; decide) hah
  obtain ⟨v, hv⟩ : ∃ v, v = B.int13 u := ⟨_, rfl⟩
  rw [← hv] at hkeeps hrest
  have hsettled_v : Settled s v :=
    hsettled_u.of_keeps hkeeps hrest fun x hx ↦ .inl (Nat.le_trans (by decide) hx)
  rw [stage0]
  dsimp only
  rw [← ht, ← hu, ← hv]
  split
  · refine ends_error hB.toPrints hsettled_v.ss ?_ fun _ ↦ .reset
    rw [hsettled_v.sp]
    decide
  · refine (ends_loadStage1 hB hsettled_v hcount).bind ?_
    rintro w ⟨hsettled, hmagic, hsectors⟩
    obtain ⟨w', hw'⟩ : ∃ w', w' = (w.setAx (w.ax ^^^ w.ax)).setFs (w.setAx (w.ax ^^^ w.ax)).ax :=
      ⟨_, rfl⟩
    have hfs : w'.fs = 0 := by
      rw [hw']
      refine (setWidth_withLow _ _).trans ?_
      exact BitVec.xor_self
    have hmem_w : w'.mem = w.mem := hw' ▸ rfl
    rw [← hw']
    refine ⟨setWidth_withLow _ _, ⟨?_, hfs, hmagic, ?_⟩⟩
    · rw [hw']
      exact hsettled.scratch _ _ _ _ _
    · intro i hi
      rw [← hsectors i hi, ← hmem_w]
      rfl

/-- **Stage0 loads stage1.**  From every state in which the BIOS may have left the machine, with the
direction flag clear, on every board whose BIOS reads from its disks, and if stage1 has at most 119
sectors, which is what fits below `0x10000`: stage0 jumps to stage1, which begins with the magic
word, with all its sectors in memory, the drive in `%dl` and the boot sector out of the way; or it
halts with one of its messages.  It
never returns to a wrong place.  The sectors are those from number `firstLBA` on, which is 1 just if
the bytes of memory it does not set are 0. -/
theorem stage0_loads (hB : ReadsDisk B disk) (s : Pc δ) (hdf : s.direction = false)
    (hcount : stage1Header disk s 0 = 0x3141 → (stage1Header disk s 1).toNat ≤ 119)
    (site : ℕ → BitVec 16) :
    Stopped.Ends (fun q ↦ q.2 = 0x1014 ∧ Stage1Loaded disk s q.1)
      (fun message _ ↦ Stage0Halt disk s message) (fun _ _ ↦ False) (stage0 B site s) :=
  ends_stage0 hB s hdf hcount site

/-- A board with a disk that can always be read. -/
def diskBoard (disk : Byte → BitVec 64 → ℕ → Byte) : Board Unit where
  int10 := id
  int13 s :=
    if s.ah = 0x42 then
      let r := readDAP s.mem
      { s with
        mem := s.mem.write (addr r.start) (512 * r.numSectors.toNat) fun i ↦
          disk s.dl (r.LBA + BitVec.ofNat 64 (i / 512)) (i % 512)
        flags := s.flags &&& ~~~1 }
    else { s with flags := s.flags &&& ~~~1 }
  int15 := id
  inb _ d := (0, d)
  outb _ _ d := d
  a20 _ := true

theorem readsDisk_diskBoard (disk : Byte → BitVec 64 → ℕ → Byte) :
    ReadsDisk (diskBoard disk) disk where
  int10 s _ _ := ⟨.refl High s, rfl⟩
  reset s _ _ hah := by
    have hint : (diskBoard disk).int13 s = { s with flags := s.flags &&& ~~~1 } := by
      change (if s.ah = 0x42 then _ else _) = _
      rw [if_neg (by rw [hah]; decide)]
    rw [hint]
    exact ⟨.of_eq rfl rfl rfl rfl rfl rfl, ⟨rfl, rfl, rfl, rfl⟩⟩
  read s r _ _ hah _ _ hr _ hnum _ := by
    obtain ⟨t, ht⟩ : ∃ t, t = (diskBoard disk).int13 s := ⟨_, rfl⟩
    have hint : t = { s with
        mem := s.mem.write (addr r.start) (512 * r.numSectors.toNat) fun i ↦
          disk s.dl (r.LBA + BitVec.ofNat 64 (i / 512)) (i % 512)
        flags := s.flags &&& ~~~1 } := by
      rw [ht, ← hr]
      exact if_pos hah
    rw [← ht]
    have hmem : t.mem = s.mem.write (addr r.start) (512 * r.numSectors.toNat) fun i ↦
        disk s.dl (r.LBA + BitVec.ofNat 64 (i / 512)) (i % 512) := by rw [hint]
    refine ⟨⟨by rw [hint], by rw [hint], by rw [hint], by rw [hint], by rw [hint], fun x _ hx ↦ ?_⟩,
      ⟨by rw [hint], by rw [hint], by rw [hint], by rw [hint]⟩, fun _ i hi ↦ ?_⟩
    · rw [hmem]
      exact Mem.write_of_not_mem fun hlt ↦ hx (.inr (.inl hlt))
    · rw [hmem, show addr (r.start + i) = addr r.start + addr i from BitVec.ofNat_add _ _]
      exact Mem.write_add hi (by omega)

/-- In every sector of the disk, the header of a stage1 of three sectors. -/
def headerDisk (_ : Byte) (_ : BitVec 64) (i : ℕ) : Byte := [0x41, 0x31, 3].getD i 0

theorem stage1Header_headerDisk (s : Pc δ) : stage1Header headerDisk s 1 = 3 := by
  change ((0 : Byte) ++ (3 : Byte) : BitVec 16) = 3
  decide

theorem stage0_loads_headerDisk :
    Stopped.Ends (fun q ↦ q.2 = 0x1014 ∧ Stage1Loaded headerDisk (Pc.initial ()) q.1)
      (fun message _ ↦ Stage0Halt headerDisk (Pc.initial ()) message) (fun _ _ ↦ False)
      (stage0 (diskBoard headerDisk) (fun _ ↦ 0) (Pc.initial ())) := by
  have hdf : (Pc.initial ()).direction = false := by
    change (0 : BitVec 16).getLsbD 10 = false
    decide
  refine stage0_loads (readsDisk_diskBoard _) _ hdf (fun _ ↦ ?_) _
  rw [stage1Header_headerDisk]
  decide

end RainbowOS
