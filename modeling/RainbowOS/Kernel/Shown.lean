import RainbowOS.Kernel.Transcript

/-!
# What the kernel shows

The whole of `kmain` from its parts: `kmain_shows` says what is on the screen in the end, by the
transcript, and that `kmain` never gets behind its interrupt.
-/

set_option autoImplicit false

namespace RainbowOS

open X86 FramebufferTerminal Acpi Apic Telling

variable {fuel : ℕ} {image : KernelImage} {processor : Processor} {touched : Addr → Prop} {m₀ : Mem}

/-! ## How it ends -/

theorem verdicts_asked {α : Type} {r : Option (Exec α)}
    (h : ∀ stop, r = some (.error stop) → stop.Expected) : Verdicts Verdict.Expected (asked r) := by
  intro log v hv
  obtain _ | ((message | _ | _) | a) := r
  · cases hv
  · cases hv
    exact ⟨message, .inl (h _ rfl), rfl⟩
  · cases hv
    rfl
  · exact (h _ rfl).elim
  · cases hv

theorem verdicts_tablesTold (m : Mem) : Verdicts Verdict.Expected (tablesTold fuel m) := by
  rw [tablesTold]
  refine (verdicts_asked fun _ h ↦ expected_of_acpi_header (Option.some.inj h)).bind
    fun _ this _ ↦ ?_
  refine (verdicts_tell _).bind fun _ _ _ ↦ ?_
  refine (verdicts_asked fun _ ↦ expected_of_acpi_madt).bind fun _ madt _ ↦ ?_
  refine (verdicts_asked fun _ h ↦ absurd h ne_error_of_getEntry).bind fun _ type1 _ ↦ ?_
  refine (verdicts_tell _).bind fun _ _ _ ↦ ?_
  exact (verdicts_asked fun _ ↦ expected_of_io_apic).bind fun _ _ _ ↦ verdicts_tell _

/-- The kernel ends in one of six panics, or reads through a null pointer. -/
theorem verdicts_transcript (endSymbol : Addr) (m : Mem) :
    Verdicts Verdict.Expected (transcript fuel endSymbol processor m) := by
  rw [transcript]
  refine (verdicts_tell _).bind fun _ _ _ ↦ ?_
  refine Verdicts.bind (a := cpuidTold processor) ?_ fun _ _ _ ↦ ?_
  · rw [cpuidTold]
    split
    · exact verdicts_tell _
    · intro log v hv
      cases hv
      exact ⟨_, .inl (by simp [kernelPanics]), rfl⟩
  refine (verdicts_tablesTold m).bind fun _ _ _ ↦ ?_
  refine Verdicts.bind (a := apicTold processor) ?_ fun _ _ _ ↦ ?_
  · exact (verdicts_asked fun _ h ↦ expected_of_l_apic (Option.some.inj h)).bind
      fun _ _ _ ↦ verdicts_tell _
  refine (verdicts_tell _).bind fun _ _ _ ↦ ?_
  refine (verdicts_tell _).bind fun _ _ _ ↦ ?_
  intro log v hv
  cases hv
  exact ⟨_, .inr rfl, rfl⟩

/-- The way through the tables is longer than the fuel: the search in the root table, or the walk
over the MADT, which may well be longer than any. -/
def LongTables (fuel : ℕ) (m : Mem) : Prop :=
  ∃ this, acpi_header m = .ok this ∧ (acpi_madt fuel m this = none ∨
    ∃ ptr, acpi_madt fuel m this = some (.ok ptr) ∧ getEntry fuel m ptr 1 = none)

theorem of_asked_ok {α : Type} {r : Option (Exec α)} {log : List Byte} {a : α}
    (h : asked r = some (log, .ok a)) : r = some (.ok a) := by
  obtain _ | (_ | _ | _) | a' := r <;> cases h
  rfl

theorem asked_eq_none_iff {α : Type} {r : Option (Exec α)} : asked r = none ↔ r = none := by
  obtain _ | (_ | _ | _) | _ := r
  · exact iff_of_true rfl rfl
  all_goals exact iff_of_false nofun nofun

theorem longTables_of_tablesTold {m : Mem} (h : tablesTold fuel m = none) : LongTables fuel m := by
  rw [tablesTold] at h
  obtain h | ⟨_, this, hthis, h⟩ := bind_eq_none_iff.mp h
  · cases asked_eq_none_iff.mp h
  have hthis := Option.some.inj (of_asked_ok hthis)
  obtain h | ⟨_, _, -, h⟩ := bind_eq_none_iff.mp h
  · cases h
  obtain h | ⟨_, ptr, hptr, h⟩ := bind_eq_none_iff.mp h
  · exact ⟨this, hthis, .inl (asked_eq_none_iff.mp h)⟩
  have hptr := of_asked_ok hptr
  -- the walk comes twice, here and in the constructor of the I/O APIC
  suffices hwalk : getEntry fuel m ptr 1 = none from ⟨this, hthis, .inr ⟨ptr, hptr, hwalk⟩⟩
  obtain h | ⟨_, type1, -, h⟩ := bind_eq_none_iff.mp h
  · exact Option.map_eq_none_iff.mp (asked_eq_none_iff.mp h)
  obtain h | ⟨_, _, -, h⟩ := bind_eq_none_iff.mp h
  · cases h
  obtain h | ⟨_, _, -, h⟩ := bind_eq_none_iff.mp h
  · exact Option.map_eq_none_iff.mp (asked_eq_none_iff.mp h)
  · cases h

/-- **Only the tables** may keep the kernel from its end. -/
theorem longTables_of_transcript {endSymbol : Addr} {m : Mem}
    (h : transcript fuel endSymbol processor m = none) : LongTables fuel m := by
  rw [transcript] at h
  obtain h | ⟨_, _, -, h⟩ := bind_eq_none_iff.mp h
  · cases h
  obtain h | ⟨_, _, -, h⟩ := bind_eq_none_iff.mp h
  · rw [cpuidTold] at h
    split at h <;> cases h
  obtain h | ⟨_, _, -, h⟩ := bind_eq_none_iff.mp h
  · exact longTables_of_tablesTold h
  obtain h | ⟨_, _, -, h⟩ := bind_eq_none_iff.mp h
  · rw [apicTold] at h
    obtain h | ⟨_, _, -, h⟩ := bind_eq_none_iff.mp h
    · cases asked_eq_none_iff.mp h
    · cases h
  · cases h

/-! ## The whole -/

/-- The whole of `kmain` does what its transcript says. -/
theorem result_kmain (hmap : KernelMap fuel image processor touched m₀) (entry : KernelEntry)
    {s : Kernel} (hs : s.mem = m₀) :
    Run.Result (Said touched m₀ (banner m₀ entry) Anything) (Ended (banner m₀ entry)) []
      (kmain fuel image processor entry s) (transcript fuel image.endSymbol processor m₀) := by
  obtain ⟨t, hgreet, ht⟩ := said_greet hmap entry hs
  rw [kmain, Run.bind_of_ok hgreet]
  refine Run.follows_bind (follows_createHeap hmap) (fun _ _ _ ↦ ?_) [] t ht
  refine Run.follows_bind (follows_checkCpuid hmap) fun _ _ _ ↦ ?_
  refine Run.follows_bind (follows_findTables hmap) fun _ _ _ ↦ ?_
  refine Run.follows_bind (follows_enableLocalApic hmap) fun _ _ _ ↦ ?_
  refine Run.follows_bind (follows_printLine hmap (by simp [kernelStrings])) fun _ _ _ ↦ ?_
  refine Run.follows_bind_of_silent (fun _ _ hs ↦ said_initIdt hmap hs) ?_
  refine Run.follows_bind (follows_printLine_gated hmap (by simp [kernelStrings])) fun _ _ _ ↦ ?_
  have hraise : Run.Follows (Said touched m₀ (banner m₀ entry) (Gated image))
      (Said touched m₀ (banner m₀ entry) Anything) (Ended (banner m₀ entry)) (raise fuel image 0x34)
      (some (infoLine 16 0x34, .error (.panic (ascii "Interrupt called with vector 34")))) :=
    follows_raise hmap
  exact Run.follows_bind_of_verdict hraise

/-- **What the kernel shows**: behind its first line the lines of the transcript, and below them the
message of a panic, which is never the one behind the interrupt.  Without a panic it has read
through a null pointer, or its way through the tables is longer than the fuel, and then it does not
come to an end. -/
theorem kmain_shows {s : Kernel} (hmap : KernelMap fuel image processor touched s.mem)
    (entry : KernelEntry) :
    match transcript fuel image.endSymbol processor s.mem with
    | none => LongTables fuel s.mem ∧ kmain fuel image processor entry s = none
    | some (log, .error (.panic message)) =>
      (∃ t, (t ∈ kernelPanics ∨ t = "Interrupt called with vector 34") ∧ message = ascii t) ∧
      ∃ t, kmain fuel image processor entry s = some (.error .hung, t) ∧
        Shows t.mem t.console.2.backEnd
          (panicSheet lineColor message (layOut lineColor log (banner s.mem entry)))
    | some (log, .error (.stopped stop)) => stop = .nullPointer ∧
      ∃ t, kmain fuel image processor entry s = some (.error stop, t) ∧
        Shows t.mem t.console.2.backEnd (layOut lineColor log (banner s.mem entry))
    | some (_, .ok e) => e.elim := by
  have hresult := result_kmain hmap entry rfl
  have hverdicts : Verdicts Verdict.Expected
    (transcript fuel image.endSymbol processor s.mem) := verdicts_transcript _ _
  have hlong : transcript fuel image.endSymbol processor s.mem = none → LongTables fuel s.mem :=
    longTables_of_transcript
  generalize transcript fuel image.endSymbol processor s.mem = told at hresult hverdicts hlong
  obtain _ | ⟨log, (message | stop) | e⟩ := told
  · exact ⟨hlong rfl, hresult⟩
  · obtain ⟨_, t, hrun, rfl, hshows⟩ := hresult
    exact ⟨hverdicts log _ rfl, t, hrun, hshows⟩
  · obtain ⟨_, t, hrun, rfl, hshows⟩ := hresult
    exact ⟨hverdicts log _ rfl, t, hrun, hshows⟩
  · exact e.elim

/-! ## A machine with a MADT -/

/-- Where a literal is. -/
def literalAt (t : String) : Addr := 0x100000 + addr (256 * kernelStrings.idxOf t)

/-- The tables of the firmware, from `0x80000` on: the descriptor, an RSDT with two slots, a table
that is not looked for, and a MADT with a record of a local APIC and one of an I/O APIC. -/
def firmware : List Byte :=
  let zeros (n : ℕ) : List Byte := List.replicate n 0
  ascii "RSD PTR " ++ [0x99] ++ zeros 7 ++ [0x40, 0x00, 0x08, 0x00] ++ zeros 44 ++
  ascii "RSDT" ++ [44, 0, 0, 0] ++ zeros 28 ++
    [0x80, 0x00, 0x08, 0x00, 0xc0, 0x00, 0x08, 0x00] ++ zeros 20 ++
  ascii "FACP" ++ [36, 0, 0, 0] ++ zeros 56 ++
  ascii "APIC" ++ [64, 0, 0, 0] ++ zeros 36 ++ [0, 8] ++ zeros 6 ++ [1, 12] ++ zeros 10

/-- A memory with the literals and the tables, and zeros. -/
def firmwareMem : Mem := fun x ↦
  if 0x100000 ≤ x.toNat then
    (ascii (kernelStrings.getD ((x.toNat - 0x100000) / 256) "") ++ [0]).getD (x.toNat % 256) 0
  else if 0x80000 ≤ x.toNat then firmware.getD (x.toNat - 0x80000) 0
  else 0

/-- A character of a text. -/
def plainChar (c : Char) : Bool := c.toNat == 10 || Nat.ble 20 c.toNat && Nat.ble c.toNat 126

theorem legible_of_plain {t : String} (h : t.toList.all plainChar) : Legible (ascii t) := by
  intro b hb
  obtain ⟨c, hc, rfl⟩ := List.mem_map.mp hb
  have hplain := List.all_eq_true.mp h c hc
  simp only [plainChar, Bool.or_eq_true, Bool.and_eq_true, beq_iff_eq, Nat.ble_eq] at hplain
  obtain hnewline | ⟨hlo, hhi⟩ := hplain
  · left
    rw [hnewline]
    rfl
  · right
    rw [Printable, BitVec.toNat_ofNat, Nat.mod_eq_of_lt (by omega)]
    exact ⟨hlo, hhi⟩

theorem kernelStrings_plain :
    ∀ t ∈ kernelStrings, t.toList.all plainChar ∧ t.toList.length < 100 := by
  decide +kernel

theorem firmwareMem_literal {t : String} (ht : t ∈ kernelStrings) (touched : Addr → Prop)
    (htouched : ∀ x : Addr, touched x → x.toNat < 0x100000 ∨ 0x200000 ≤ x.toNat) :
    Literal 100 touched firmwareMem (literalAt t) (ascii t) := by
  obtain ⟨hplain, hlength⟩ := kernelStrings_plain t ht
  have hlegible := legible_of_plain hplain
  have hlength : (ascii t).length < 100 := by
    rwa [ascii, List.length_map]
  have hindex := List.idxOf_lt_length_of_mem ht
  have hcount : kernelStrings.length = 21 := rfl
  have hat : ∀ i ≤ (ascii t).length,
      (literalAt t + addr i).toNat = 0x100000 + 256 * kernelStrings.idxOf t + i := by
    intro i hi
    rw [literalAt, addr, addr]
    bv_omega
  refine ⟨⟨?_, fun i hi ↦ ?_⟩, hlegible, hlength, fun i hi ↦ .inr ?_, fun i hi h ↦ ?_⟩
  · exact fun hzero ↦ absurd (hlegible 0 hzero) (by decide)
  · rw [firmwareMem, hat i hi, if_pos (by omega)]
    have hdiv : (0x100000 + 256 * kernelStrings.idxOf t + i - 0x100000) / 256 =
        kernelStrings.idxOf t := by omega
    have hmod : (0x100000 + 256 * kernelStrings.idxOf t + i) % 256 = i := by omega
    rw [hdiv, hmod, List.getD_eq_getElem _ _ hindex, List.getElem_idxOf]
  · rw [hat i hi]
    omega
  · have := htouched _ h
    rw [hat i hi] at this
    omega

/-- What the kernel writes there: what it takes for a register of the local APIC, and its own
data. -/
def lowData (x : Addr) : Prop :=
  0x3c0 ≤ x.toNat ∧ x.toNat < 0x3c2 ∨ 0x200000 ≤ x.toNat ∧ x.toNat < 0x300000

/-- The kernel in memory. -/
def plainImage : KernelImage where
  lit := literalAt
  endSymbol := 0x200000
  idt := 0x230000
  label v := addr v
  handlerAt a := handlerOf (a.setWidth 8)
  array := 0x210000
  msg := 0x211000
  tempNum := 0x212000
  numArray := 0x213000
  checkRegs := ⟨0, 0, 0, 0, 0x220000, 0, 0, 0⟩
  checkFlags := 2
  intRegs := ⟨0, 0, 0, 0, 0x220000, 0, 0, 0⟩
  intContext := ⟨0, 8, 2⟩
  returnErr := 0
  returnNoErr := 0

/-- A processor with CPUID and a local APIC. -/
def plainProcessor : Processor := ⟨fun _ ↦ ⟨0x000106a5, 0, 0, 0xbfebfbff⟩, 1 <<< 21⟩

theorem scratch_lowData {a : Addr} {n : ℕ} (hlo : 0x200000 ≤ a.toNat)
    (hhi : a.toNat + n ≤ 0x300000) : InScratch lowData a n := by
  intro x hx
  rw [Mem.Range] at hx
  have hx : 0x200000 ≤ x.toNat ∧ x.toNat < 0x300000 := by
    bv_omega
  exact ⟨.inr hx, .inr (by omega)⟩

theorem acpi_header_firmwareMem : acpi_header firmwareMem = .ok ⟨0x80000, false⟩ := by
  have hsearch : searchRSDPDesc firmwareMem = 0x80000 := by
    rw [searchRSDPDesc, searchWindow, if_pos (by decide), if_pos (by decide)]
    rfl
  rw [acpi_header, findRSDPDesc, hsearch]
  decide +kernel

theorem acpi_madt_firmwareMem :
    acpi_madt 100 firmwareMem ⟨0x80000, false⟩ = some (.ok 0x800c0) := by
  decide +kernel

theorem acpi_madt_unique {m : Mem} {this : AcpiHeader} {ptr ptr' : Addr} {n n' : ℕ}
    (h : acpi_madt n m this = some (.ok ptr)) (h' : acpi_madt n' m this = some (.ok ptr')) :
    ptr = ptr' := by
  rw [acpi_madt] at h h'
  obtain ⟨found, hfound, h⟩ := Option.map_eq_some_iff.mp h
  obtain ⟨found', hfound', h'⟩ := Option.map_eq_some_iff.mp h'
  have hname : strlen [0x41, 0x50, 0x49, 0x43, 0] = .ok 4 := rfl
  rw [findEntry_eq_run hname] at hfound hfound'
  obtain rfl := Loop.Returns.unique ⟨n, hfound⟩ ⟨n', hfound'⟩
  exact Except.ok.inj (h.symm.trans h')

/-- What is read of the root table is in the tables of the firmware. -/
theorem rootReads_firmwareMem {x : Addr} (hx : RootReads firmwareMem ⟨0x80000, false⟩ x) :
    0x80000 ≤ x.toNat ∧ x.toNat < 0x80100 := by
  have hroot : rootHeader firmwareMem ⟨0x80000, false⟩ = 0x80040 := by decide +kernel
  have hsize : slotSize firmwareMem ⟨0x80000, false⟩ = 4 := by decide +kernel
  have hentries : numEntries firmwareMem ⟨0x80000, false⟩ = 2 := by decide +kernel
  have hslot : ∀ index < (2 : BitVec 32), 0x80080 ≤
      (rootSlot firmwareMem ⟨0x80000, false⟩ index).toNat ∧
      (rootSlot firmwareMem ⟨0x80000, false⟩ index).toNat ≤ 0x800c0 := by
    intro index hindex
    obtain rfl | rfl : index = 0 ∨ index = 1 := by bv_omega
    · decide +kernel
    · decide +kernel
  rw [RootReads, hroot, hsize, hentries] at hx
  obtain hx | hx | ⟨index, hindex, hx⟩ := hx
  · change (x - 0x80000).toNat < 36 at hx
    bv_omega
  · change (x - 0x80040).toNat < 44 at hx
    bv_omega
  · have hbounds := hslot index hindex
    rw [Mem.Range] at hx
    bv_omega

/-- What is read of the MADT is in the MADT. -/
theorem madtReads_firmwareMem {n : ℕ} {x : Addr} (hx : x ∈ madtReads n firmwareMem 0x800c0) :
    0x80000 ≤ x.toNat ∧ x.toNat < 0x80100 := by
  have hexact : MadtExact firmwareMem 0x800c0 := by
    rw [madtExact_iff]
    refine ⟨1, fun i hi ↦ ?_, .inl ⟨by decide +kernel, by decide +kernel, by decide +kernel⟩⟩
    obtain rfl := Nat.lt_one_iff.mp hi
    have htype_in : InMadt firmwareMem 0x800c0 (recordAddr firmwareMem 0x800c0 0) := by
      rw [InMadt]
      decide +kernel
    have hlength_in : InMadt firmwareMem 0x800c0 (recordAddr firmwareMem 0x800c0 0 + 1) := by
      rw [InMadt]
      decide +kernel
    exact ⟨by decide +kernel, by decide +kernel, htype_in, hlength_in⟩
  have hin := hexact.reads n x hx
  have hlength : sdtLength firmwareMem 0x800c0 = 64 := by decide +kernel
  rw [InMadt, hlength] at hin
  change (x - 0x800c0).toNat < 64 at hin
  bv_omega

/-- The tables are neither on the screen nor among the kernel's data. -/
theorem not_written_of_firmware {x : Addr} (hx : 0x80000 ≤ x.toNat ∧ x.toNat < 0x80100) :
    ¬ (lowData x ∨ ¬ OffScreen x) := by
  rw [lowData, OffScreen]
  bv_omega

theorem tablesApart_firmwareMem :
    TablesApart (fun x ↦ lowData x ∨ ¬ OffScreen x) firmwareMem where
  windows x hx i hi h := by
    have hbounds := searched_bounds hx
    rw [lowData, OffScreen] at h
    bv_omega
  root this hthis x hx := by
    rw [acpi_header_firmwareMem] at hthis
    obtain rfl := Except.ok.inj hthis
    exact not_written_of_firmware (rootReads_firmwareMem hx)
  madt this ptr n hthis hptr x hx := by
    rw [acpi_header_firmwareMem] at hthis
    obtain rfl := Except.ok.inj hthis
    -- more rounds or fewer, the MADT that is found is the same one
    rw [acpi_madt_unique hptr acpi_madt_firmwareMem] at hx
    exact not_written_of_firmware (madtReads_firmwareMem hx)

theorem kernelMap_firmwareMem :
    KernelMap 100 plainImage plainProcessor lowData firmwareMem where
  fuel_gt := by decide
  writable := rfl
  strings t ht := firmwareMem_literal ht lowData fun x hx ↦ by
    rw [lowData] at hx
    omega
  tables := tablesApart_firmwareMem
  array := scratch_lowData (by decide) (by decide)
  arrays := by
    refine ⟨scratch_lowData (by decide) (by decide), scratch_lowData (by decide) (by decide),
      scratch_lowData (by decide) (by decide), fun x hx hx' ↦ ?_⟩
    rw [Mem.Range] at hx hx'
    change (x - 0x211000).toNat < 33 at hx
    change (x - 0x212000).toNat < 65 at hx'
    bv_omega
  firstHeader := scratch_lowData (by decide) (by decide)
  lastHeader := scratch_lowData (by decide) (by decide)
  checkStack := scratch_lowData (by decide) (by decide)
  intStack := scratch_lowData (by decide) (by decide)
  gates v := by
    have haddr : (descriptorAddr plainImage.idt v).toNat = 0x230000 + 8 * v.toNat := by
      change (0x230000 + addr (8 * v.toNat)).toNat = _
      rw [addr]
      bv_omega
    exact scratch_lowData (by omega) (by omega)
  base i hi := by
    change OffScreen (0x000106a5 + addr i) ∧ ¬ lowData (0x000106a5 + addr i)
    rw [OffScreen, lowData, addr]
    bv_omega
  register := by
    have hreg : regPtr firmwareMem (plainProcessor.cpuid 1).eax = 0x3c0 := by
      decide
    intro x hx
    rw [hreg, Mem.Range] at hx
    rw [lowData, OffScreen]
    bv_omega
  handlerAt := by
    have hvector : (addr 0x34).setWidth 8 = (0x34 : BitVec 8) := by decide
    exact congrArg handlerOf hvector

/-- The machine behind the loader. -/
def plainKernel : Kernel where
  console := (firmwareMem, .init .new)
  msr _ := 0
  pics := ⟨⟨⟨.ready, false, true, false, 0x08, 0x04, 1, 0xb8⟩, 0, 0⟩,
    ⟨⟨.ready, false, true, false, 0x70, 0x02, 1, 0x8f⟩, 0, 0⟩⟩
  idtr := ⟨0, 0⟩
  interruptFlag := false

/-- The lines of the kernel there. -/
def plainLines : List String :=
  ["Creating a temporary heap at 0x200000 of size 4k\n", "CPUID is supported\n",
    "We have a type 1 ACPI table\n", "Found type 1 MADT @ 800F4\n", "IO APIC is good\n",
    "Enabled local APIC\n", "Attempting to enable interrupts\n", "Are they enabled?...\n",
    " INFO: Interrupt called with vector 0x34\n"]

theorem tablesTold_firmwareMem : ∃ lines, tablesTold 100 firmwareMem = some (lines, .ok ()) ∧
    lines = (["We have a type 1 ACPI table\n", "Found type 1 MADT @ 800F4\n",
      "IO APIC is good\n"].flatMap ascii) := by
  have hentry : getEntry 100 firmwareMem 0x800c0 1 = some (some 0x800f4) := by decide +kernel
  have htype1 : asked ((getEntry 100 firmwareMem 0x800c0 1).map .ok) =
      some ([], .ok (some 0x800f4)) := by
    rw [hentry]
    rfl
  have hio : asked (io_apic 100 firmwareMem 0x800c0) = some ([], .ok 0x800f4) := by
    rw [io_apic, hentry]
    rfl
  have hmadt : asked (acpi_madt 100 firmwareMem ⟨0x80000, false⟩) = some ([], .ok 0x800c0) := by
    rw [acpi_madt_firmwareMem]
    rfl
  have hheader : asked (some (acpi_header firmwareMem)) = some ([], .ok ⟨0x80000, false⟩) := by
    rw [acpi_header_firmwareMem]
    rfl
  refine ⟨_, bind_of_eq hheader (bind_of_eq rfl (bind_of_eq hmadt (bind_of_eq htype1
    (bind_of_eq rfl (bind_of_eq hio rfl))))), ?_⟩
  decide +kernel

theorem transcript_firmwareMem : ∃ lines, transcript 100 plainImage.endSymbol plainProcessor
      firmwareMem = some (lines, .error (.panic (ascii "Interrupt called with vector 34"))) ∧
    lines = plainLines.flatMap ascii := by
  have hcpuid : cpuidTold plainProcessor = some (ascii "CPUID is supported\n", .ok ()) :=
    if_pos (by decide)
  have hapic : apicTold plainProcessor = some (ascii "Enabled local APIC\n", .ok ()) := by
    have hreg : l_apic plainProcessor.cpuid = .ok 0x000106a5 := by decide
    rw [apicTold, hreg]
    rfl
  obtain ⟨tables, htables, rfl⟩ := tablesTold_firmwareMem
  refine ⟨_, bind_of_eq rfl (bind_of_eq hcpuid (bind_of_eq htables (bind_of_eq hapic
    (bind_of_eq rfl (bind_of_eq rfl rfl))))), ?_⟩
  decide +kernel

theorem kmain_shows_plainKernel :
    ∃ t, kmain 100 plainImage plainProcessor ⟨0, 0, 0, 0⟩ plainKernel = some (.error .hung, t) ∧
      Shows t.mem t.console.2.backEnd (panicSheet lineColor
        (ascii "Interrupt called with vector 34")
        (layOut lineColor (plainLines.flatMap ascii) (banner firmwareMem ⟨0, 0, 0, 0⟩))) := by
  obtain ⟨lines, htranscript, rfl⟩ := transcript_firmwareMem
  have htold : transcript 100 plainImage.endSymbol plainProcessor plainKernel.mem = some
    (plainLines.flatMap ascii, .error (.panic (ascii "Interrupt called with vector 34"))) :=
      htranscript
  have h := kmain_shows (s := plainKernel) kernelMap_firmwareMem ⟨0, 0, 0, 0⟩
  rw [htold] at h
  exact h.2

end RainbowOS
