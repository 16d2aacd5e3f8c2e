import RainbowOS.Lib.X86

/-!
# Segments of the i386

In protected mode a segment register is loaded from a table of descriptors.  The processor marks the
descriptor as accessed and keeps it, so the table may change behind it; with the table the register
`gdtr` says where it is.

* `Descriptor.Flat` — a segment that is the whole address space.
* `Segmented.load` — a segment register is loaded, or the load is refused.
* `Segmented.load_of_flat`, `Segmented.loadAll_of_flat` — no load of a flat data segment is refused
  in ring 0, and nothing is changed but the segment registers and the mark.
-/

set_option autoImplicit false

namespace X86

/-! ## Descriptors -/

/-- A descriptor of a segment. -/
abbrev Descriptor := BitVec 64

namespace Descriptor

/-- Where the segment begins. -/
def base (d : Descriptor) : BitVec 32 := d.extractLsb' 56 8 ++ d.extractLsb' 16 24

/-- The limit as it is written, in bytes or in pages. -/
def rawLimit (d : Descriptor) : BitVec 20 := d.extractLsb' 48 4 ++ d.extractLsb' 0 16

/-- The last offset in the segment. -/
def limit (d : Descriptor) : BitVec 32 :=
  if d.getLsbD 55 then d.rawLimit ++ (0xfff : BitVec 12) else d.rawLimit.setWidth 32

/-- The segment is there. -/
def present (d : Descriptor) : Bool := d.getLsbD 47

/-- The privilege that is needed. -/
def dpl (d : Descriptor) : BitVec 2 := d.extractLsb' 45 2

/-- The descriptor is of code or data, not of the system. -/
def codeOrData (d : Descriptor) : Bool := d.getLsbD 44

/-- The descriptor is of code. -/
def executable (d : Descriptor) : Bool := d.getLsbD 43

/-- Code can be called from every ring. -/
def conforming (d : Descriptor) : Bool := d.getLsbD 42

/-- Data can be written, or code can be read. -/
def accessible (d : Descriptor) : Bool := d.getLsbD 41

/-- The segment has been loaded before. -/
def accessed (d : Descriptor) : Bool := d.getLsbD 40

/-- The descriptor with the mark that it has been loaded. -/
def access (d : Descriptor) : Descriptor := d ||| 0x10000000000

/-- Data in the whole address space, for ring 0. -/
structure Flat (d : Descriptor) : Prop where
  base : d.base = 0
  limit : d.limit = 0xffffffff
  present : d.present = true
  dpl : d.dpl = 0
  codeOrData : d.codeOrData = true
  executable : d.executable = false
  accessible : d.accessible = true

end Descriptor

/-! ## The registers -/

/-- Why a segment register is not loaded. -/
inductive SegmentFault where
  /-- `#GP`. -/
  | generalProtection
  /-- `#NP`. -/
  | notPresent
  /-- `#SS`. -/
  | stack
  deriving DecidableEq, Repr

/-- The register with the table of descriptors. -/
structure Gdtr where
  limit : BitVec 16
  base : Addr
  deriving DecidableEq, Repr

namespace Gdtr

/-- `lgdt (p)`. -/
def read (m : Mem) (p : Addr) : Gdtr := ⟨m.read16 p, m.read32 (p + 2)⟩

/-- The descriptor of a selector.  There is no local table. -/
def descriptor (g : Gdtr) (m : Mem) (selector : BitVec 16) : Except SegmentFault Descriptor :=
  if selector.getLsbD 2 || g.limit.toNat < (selector &&& 0xfff8).toNat + 7 then
    .error .generalProtection
  else .ok (m.readLE 8 (g.base + addr (selector &&& 0xfff8).toNat))

/-- Where the mark of a descriptor is. -/
def mark (g : Gdtr) (selector : BitVec 16) : Addr := g.base + addr (selector &&& 0xfff8).toNat + 5

end Gdtr

/-- The segment registers. -/
inductive SegmentReg where
  | cs | ds | es | fs | gs | ss
  deriving DecidableEq, Repr

/-- The processor with the table of descriptors, the descriptors that it keeps, and the interrupt
flag. -/
structure Segmented extends System where
  gdtr : Gdtr
  kept : SegmentReg → Option Descriptor
  interruptFlag : Bool

namespace Segmented

/-- What is in a segment register. -/
def selector (s : Segmented) : SegmentReg → BitVec 16
  | .cs => s.cs
  | .ds => s.ds
  | .es => s.es
  | .fs => s.fs
  | .gs => s.gs
  | .ss => s.ss

/-- With another selector, and its descriptor. -/
def withSegment (s : Segmented) (r : SegmentReg) (selector : BitVec 16) (d : Option Descriptor) :
    Segmented :=
  { s with
    cs := if r = .cs then selector else s.cs
    ds := if r = .ds then selector else s.ds
    es := if r = .es then selector else s.es
    fs := if r = .fs then selector else s.fs
    gs := if r = .gs then selector else s.gs
    ss := if r = .ss then selector else s.ss
    kept := fun r' ↦ if r' = r then d else s.kept r' }

/-- The ring. -/
def cpl (s : Segmented) : BitVec 2 := s.cs.setWidth 2

/-- The descriptor of a selector is marked. -/
def access (s : Segmented) (selector : BitVec 16) : Segmented :=
  let p := s.gdtr.mark selector
  { s with mem := s.mem.write8 p (s.mem p ||| 1) }

/-- `mov …, %ss`, in protected mode. -/
def loadStack (s : Segmented) (selector : BitVec 16) : Except SegmentFault Segmented :=
  if selector &&& 0xfffc = 0 then .error .generalProtection
  else match s.gdtr.descriptor s.mem selector with
    | .error fault => .error fault
    | .ok d =>
      if selector.setWidth 2 ≠ s.cpl ∨ d.dpl ≠ s.cpl ∨
          !(d.codeOrData && !d.executable && d.accessible) then .error .generalProtection
      else if !d.present then .error .stack
      else .ok ((s.access selector).withSegment .ss selector (some d.access))

/-- `mov …, %ds` and the like, in protected mode. -/
def loadData (s : Segmented) (r : SegmentReg) (selector : BitVec 16) :
    Except SegmentFault Segmented :=
  if selector &&& 0xfffc = 0 then .ok (s.withSegment r selector none)
  else match s.gdtr.descriptor s.mem selector with
    | .error fault => .error fault
    | .ok d =>
      if !(d.codeOrData && (!d.executable || d.accessible)) then .error .generalProtection
      else if !(d.executable && d.conforming) ∧ (d.dpl < selector.setWidth 2 ∨ d.dpl < s.cpl) then
        .error .generalProtection
      else if !d.present then .error .notPresent
      else .ok ((s.access selector).withSegment r selector (some d.access))

/-- A data segment register is loaded. -/
def load (s : Segmented) (r : SegmentReg) (selector : BitVec 16) :
    Except SegmentFault Segmented :=
  if r = .ss then s.loadStack selector else s.loadData r selector

/-- Data segment registers are loaded from `%ax`, one after the other. -/
def loadAll (rs : List SegmentReg) (s : Segmented) : Except SegmentFault Segmented :=
  rs.foldlM (fun s r ↦ s.load r (s.regs.eax.setWidth 16)) s

end Segmented

/-! ## The mark -/

namespace Descriptor

variable {d : Descriptor} {i : ℕ}

theorem getLsbD_access (d : Descriptor) (i : ℕ) :
    d.access.getLsbD i = (d.getLsbD i || decide (i = 40)) := by
  have hmark : ∀ i < 64, (0x10000000000 : BitVec 64).getLsbD i = decide (i = 40) := by decide
  rw [access, BitVec.getLsbD_or]
  by_cases hi : i < 64
  · rw [hmark i hi]
  · rw [BitVec.getLsbD_of_ge _ i (by omega), BitVec.getLsbD_of_ge _ i (by omega),
      decide_eq_false (by omega), Bool.or_false]

theorem access_of_accessed (h : d.accessed = true) : d.access = d := by
  refine BitVec.eq_of_getLsbD_eq fun i _ ↦ ?_
  rw [getLsbD_access]
  by_cases hi : i = 40
  · rw [hi, show d.getLsbD 40 = true from h, Bool.true_or]
  · rw [decide_eq_false hi, Bool.or_false]

theorem accessed_access (d : Descriptor) : d.access.accessed = true := by
  rw [accessed, getLsbD_access, decide_eq_true rfl, Bool.or_true]

theorem getLsbD_access_of_ne (d : Descriptor) (hi : i ≠ 40) : d.access.getLsbD i = d.getLsbD i := by
  rw [getLsbD_access, decide_eq_false hi, Bool.or_false]

/-- No field but the mark has its bit. -/
theorem extractLsb'_access (d : Descriptor) {j n : ℕ} (h : j + n ≤ 40 ∨ 40 < j) :
    d.access.extractLsb' j n = d.extractLsb' j n := by
  refine BitVec.eq_of_getLsbD_eq fun i hi ↦ ?_
  rw [BitVec.getLsbD_extractLsb', BitVec.getLsbD_extractLsb', getLsbD_access_of_ne d (by omega)]

theorem Flat.access (h : d.Flat) : d.access.Flat := by
  have hraw : d.access.rawLimit = d.rawLimit := by
    rw [rawLimit, rawLimit, extractLsb'_access d (.inr (by decide)),
      extractLsb'_access d (.inl (by decide))]
  refine ⟨?_, ?_, ?_, ?_, ?_, ?_, ?_⟩
  · rw [← h.base, Descriptor.base, Descriptor.base, extractLsb'_access d (.inr (by decide)),
      extractLsb'_access d (.inl (by decide))]
  · rw [← h.limit, Descriptor.limit, Descriptor.limit, hraw, getLsbD_access_of_ne d (by decide)]
  · exact (getLsbD_access_of_ne d (by decide)).trans h.present
  · exact (extractLsb'_access d (.inr (by decide))).trans h.dpl
  · exact (getLsbD_access_of_ne d (by decide)).trans h.codeOrData
  · exact (getLsbD_access_of_ne d (by decide)).trans h.executable
  · exact (getLsbD_access_of_ne d (by decide)).trans h.accessible

/-- The mark is bit 0 of the fifth byte. -/
theorem readLE_write_mark (m : Mem) (a : Addr) :
    (m.write8 (a + 5) (m (a + 5) ||| 1)).readLE 8 a = access (m.readLE 8 a) := by
  have hone : ∀ i < 8, (1 : Byte).getLsbD i = decide (i = 0) := by decide
  refine BitVec.eq_of_getLsbD_eq fun i hi ↦ ?_
  rw [getLsbD_access, Mem.getLsbD_readLE _ _ hi, Mem.getLsbD_readLE _ _ hi]
  by_cases hbyte : i / 8 = 5
  · rw [hbyte, show BitVec.ofNat 32 5 = (5 : Addr) from rfl, Mem.write8_self, BitVec.getLsbD_or,
      hone _ (Nat.mod_lt _ (by decide))]
    exact congrArg _ (decide_eq_decide.mpr (by omega))
  · rw [Mem.write8_of_ne (by bv_omega), decide_eq_false (by omega), Bool.or_false]

end Descriptor

namespace Segmented

variable {s t : Segmented} {selector : BitVec 16} {d : Descriptor} {r : SegmentReg}
  {rs : List SegmentReg}

/-- The descriptor that is found behind its first load. -/
theorem descriptor_access (hd : s.gdtr.descriptor s.mem selector = .ok d) :
    (s.access selector).gdtr.descriptor (s.access selector).mem selector = .ok d.access := by
  have hgdtr : (s.access selector).gdtr = s.gdtr := rfl
  rw [hgdtr, Gdtr.descriptor] at *
  split at hd
  next => cases hd
  next hinside =>
    rw [if_neg hinside, ← Except.ok.inj hd]
    exact congrArg Except.ok (Descriptor.readLE_write_mark s.mem _)

/-- A mark that is there already. -/
theorem access_of_accessed (hd : s.gdtr.descriptor s.mem selector = .ok d)
    (haccessed : d.accessed = true) : s.access selector = s := by
  rw [Gdtr.descriptor] at hd
  split at hd
  next => cases hd
  next =>
    obtain ⟨p, hp⟩ : ∃ p, p = s.gdtr.base + addr (selector &&& 0xfff8).toNat := ⟨_, rfl⟩
    rw [← Except.ok.inj hd, ← hp, Descriptor.accessed, Mem.getLsbD_readLE _ _ (by decide)]
      at haccessed
    have hbit : (s.mem (p + 5)).getLsbD 0 = true := haccessed
    have hsame : s.mem (p + 5) ||| 1 = s.mem (p + 5) := by
      have hone : ∀ i < 8, (1 : Byte).getLsbD i = decide (i = 0) := by decide
      refine BitVec.eq_of_getLsbD_eq fun i hi ↦ ?_
      rw [BitVec.getLsbD_or, hone i hi]
      by_cases h0 : i = 0
      · rw [h0, hbit, Bool.true_or]
      · rw [decide_eq_false h0, Bool.or_false]
    have hmem : s.mem.write8 (p + 5) (s.mem (p + 5) ||| 1) = s.mem := by
      funext x
      by_cases hx : x = p + 5
      · rw [hx, Mem.write8_self, hsame]
      · rw [Mem.write8_of_ne hx]
    rw [access, Gdtr.mark, ← hp, hmem]

theorem selector_withSegment (s : Segmented) (r r' : SegmentReg) (selector : BitVec 16)
    (d : Option Descriptor) :
    (s.withSegment r selector d).selector r' = if r' = r then selector else s.selector r' := by
  cases r' <;> simp [Segmented.selector, withSegment, eq_comm]

/-- **A flat segment is loaded** into every data segment register in ring 0. -/
theorem load_of_flat (hnull : selector &&& 0xfffc ≠ 0) (hrpl : selector.setWidth 2 = (0 : BitVec 2))
    (hcpl : s.cpl = 0) (hd : s.gdtr.descriptor s.mem selector = .ok d) (hflat : d.Flat)
    (r : SegmentReg) :
    s.load r selector = .ok ((s.access selector).withSegment r selector (some d.access)) := by
  have hstack : s.loadStack selector =
      .ok ((s.access selector).withSegment .ss selector (some d.access)) := by
    rw [loadStack, if_neg hnull, hd]
    simp [hrpl, hcpl, hflat.dpl, hflat.codeOrData, hflat.executable, hflat.accessible,
      hflat.present]
  have hdata : s.loadData r selector =
      .ok ((s.access selector).withSegment r selector (some d.access)) := by
    rw [loadData, if_neg hnull, hd]
    simp [hrpl, hcpl, hflat.dpl, hflat.codeOrData, hflat.executable, hflat.present]
  rw [load]
  split
  · rename_i hss
    rw [hss, hstack]
  · exact hdata

/-- The registers `rs` have been loaded, and nothing else has changed. -/
structure Reloaded (rs : List SegmentReg) (selector : BitVec 16) (d : Descriptor)
    (s t : Segmented) : Prop where
  toCpu : t.toCpu = s.toCpu
  cr0 : t.cr0 = s.cr0
  gdtr : t.gdtr = s.gdtr
  interruptFlag : t.interruptFlag = s.interruptFlag
  loaded : ∀ r ∈ rs, t.selector r = selector ∧ t.kept r = some d
  others : ∀ r, r ∉ rs → t.selector r = s.selector r ∧ t.kept r = s.kept r

/-- One more register in front. -/
theorem Reloaded.cons (h : Reloaded rs selector d (s.withSegment r selector (some d)) t) :
    Reloaded (r :: rs) selector d s t := by
  have hkept : ∀ r', (s.withSegment r selector (some d)).kept r' =
      if r' = r then some d else s.kept r' := fun _ ↦ rfl
  refine ⟨h.toCpu, h.cr0, h.gdtr, h.interruptFlag, fun r' hr' ↦ ?_, fun r' hr' ↦ ?_⟩
  · by_cases hmem : r' ∈ rs
    · exact h.loaded r' hmem
    · obtain rfl : r' = r := (List.mem_cons.mp hr').resolve_right hmem
      obtain ⟨hselector, hdescriptor⟩ := h.others r' hmem
      rw [hselector, hdescriptor, selector_withSegment, hkept, if_pos rfl, if_pos rfl]
      exact ⟨rfl, rfl⟩
  · obtain ⟨hne, hmem⟩ := not_or.mp (mt List.mem_cons.mpr hr')
    obtain ⟨hselector, hdescriptor⟩ := h.others r' hmem
    rw [hselector, hdescriptor, selector_withSegment, hkept, if_neg hne, if_neg hne]
    exact ⟨rfl, rfl⟩

theorem cs_withSegment (hr : r ≠ .cs) (d : Option Descriptor) :
    (s.withSegment r selector d).cs = s.cs :=
  if_neg hr

/-- Flat segments that have been loaded before are loaded. -/
theorem loadAll_of_accessed (hnull : selector &&& 0xfffc ≠ 0)
    (hrpl : selector.setWidth 2 = (0 : BitVec 2)) (hflat : d.Flat) (haccessed : d.accessed = true)
    (hrs : .cs ∉ rs) (hax : s.regs.eax.setWidth 16 = selector) (hcpl : s.cpl = 0)
    (hd : s.gdtr.descriptor s.mem selector = .ok d) :
    ∃ t, loadAll rs s = .ok t ∧ Reloaded rs selector d s t := by
  induction rs generalizing s with
  | nil => exact ⟨s, rfl, rfl, rfl, rfl, rfl, fun _ h ↦ absurd h List.not_mem_nil,
      fun _ _ ↦ ⟨rfl, rfl⟩⟩
  | cons r rs ih =>
    obtain ⟨hne, hrest⟩ := not_or.mp (mt List.mem_cons.mpr hrs)
    have hload := load_of_flat hnull hrpl hcpl hd hflat r
    rw [access_of_accessed hd haccessed, Descriptor.access_of_accessed haccessed] at hload
    have hcpl' : (s.withSegment r selector (some d)).cpl = 0 := by
      rw [cpl, cs_withSegment (Ne.symm hne)]
      exact hcpl
    obtain ⟨t, hrun, ht⟩ := ih (s := s.withSegment r selector (some d)) hrest hax hcpl' hd
    refine ⟨t, ?_, ht.cons⟩
    rw [loadAll, List.foldlM_cons, hax, hload]
    exact hrun

/-- **Flat segments are loaded** into any of the data segment registers: the first load marks the
descriptor. -/
theorem loadAll_of_flat (r : SegmentReg) (rs : List SegmentReg) (hnull : selector &&& 0xfffc ≠ 0)
    (hrpl : selector.setWidth 2 = (0 : BitVec 2)) (hflat : d.Flat) (hrs : .cs ∉ r :: rs)
    (hax : s.regs.eax.setWidth 16 = selector) (hcpl : s.cpl = 0)
    (hd : s.gdtr.descriptor s.mem selector = .ok d) :
    ∃ t, loadAll (r :: rs) s = .ok t ∧
      Reloaded (r :: rs) selector d.access (s.access selector) t := by
  obtain ⟨hne, hrest⟩ := not_or.mp (mt List.mem_cons.mpr hrs)
  obtain ⟨w, hw⟩ : ∃ w, w = (s.access selector).withSegment r selector (some d.access) := ⟨_, rfl⟩
  have hcpl' : w.cpl = 0 := by
    rw [hw, cpl, cs_withSegment (Ne.symm hne)]
    exact hcpl
  have hax' : w.regs.eax.setWidth 16 = selector := by
    rw [hw]
    exact hax
  have hsame : w.gdtr = (s.access selector).gdtr ∧ w.mem = (s.access selector).mem := by
    rw [hw]
    exact ⟨rfl, rfl⟩
  have hd' : w.gdtr.descriptor w.mem selector = .ok d.access := by
    rw [hsame.1, hsame.2]
    exact descriptor_access hd
  obtain ⟨t, hrun, ht⟩ := loadAll_of_accessed hnull hrpl hflat.access d.accessed_access hrest hax'
    hcpl' hd'
  rw [hw] at ht
  refine ⟨t, ?_, ht.cons⟩
  rw [loadAll, List.foldlM_cons, hax, load_of_flat hnull hrpl hcpl hd hflat, ← hw]
  exact hrun

end Segmented

end X86
