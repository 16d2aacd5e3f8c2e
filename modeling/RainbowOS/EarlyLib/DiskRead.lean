import RainbowOS.Exec
import RainbowOS.StdlibC.Memmove

/-!
# Reading from the disk: `io::diskRead16`

The BIOS reads at most 127 sectors at a time, and only into memory that it can reach.  So
`diskRead16` goes through a buffer at `0x70000`, into which `int 13h` reads one chunk after the
other; each request is described by a structure in memory, the DAP.

The BIOS is a parameter: from its state and the memory it gives an answer.  It is asked in real
mode, and what `realModeCall` does on the way there is not in this file.

* `diskRead16_exact` — with a BIOS that copies what it is asked for, the destination holds the
  sectors, whatever their number.
* `diskRead16_legal_iff` — the last chunk is what remains, and that may be nothing: the requests are
  what the BIOS may be asked for only if the number of sectors is no multiple of 127.
-/

set_option autoImplicit false

namespace RainbowOS

/-! ## Requests -/

/-- `MAX_SECTORS`. -/
def MAX_SECTORS : BitVec 32 := 127

/-- `SECTOR_SIZE`. -/
def SECTOR_SIZE : BitVec 32 := 512

/-- `_dap_memory_location`. -/
def dap_memory_location : Addr := 0x1000

/-- `struct io::DAP`. -/
structure DAP where
  size : Byte
  unused : Byte
  numSectors : BitVec 16
  buffer : BitVec 32
  LBA : BitVec 64
  deriving DecidableEq, Repr

namespace DiskRead16

/-- `readBuffer`, which is `_disk_read_location`. -/
def readBuffer : BitVec 32 := 0x70000

/-- `offset`. -/
def offset : BitVec 32 := readBuffer % 16

/-- `segment`. -/
def segment : BitVec 32 := (readBuffer - offset) / 16

end DiskRead16

open DiskRead16

/-- The structure at `_dap_memory_location`. -/
def readDAP (m : Mem) : DAP where
  size := m dap_memory_location
  unused := m (dap_memory_location + 1)
  numSectors := m.read16 (dap_memory_location + 2)
  buffer := m.read32 (dap_memory_location + 4)
  LBA := m.read64 (dap_memory_location + 8)

/-- `_fillDAP(LBA, sectors)`. -/
def fillDAP (m : Mem) (LBA sectors : BitVec 32) : Mem :=
  let m := m.write8 dap_memory_location 0x10
  let m := m.write8 (dap_memory_location + 1) 0
  let m := m.write16 (dap_memory_location + 2) (sectors.setWidth 16)
  let m := m.write32 (dap_memory_location + 4) (DiskRead16.segment <<< 16 ||| offset)
  m.write64 (dap_memory_location + 8) (LBA.setWidth 64)

/-- What `int 13h` gives back. -/
structure Int13Answer (β : Type) where
  /-- The state of the BIOS and its devices. -/
  bios : β
  mem : Mem
  /-- The carry flag. -/
  carry : Bool
  ah : Byte

/-- `int 13h` with `%ah = 0x42`, for the disk in `%dl`. -/
abbrev Int13 (β : Type) := β → Mem → BitVec 16 → Int13Answer β

/-- What `asmCall_int13` stores at `resultPtr`. -/
def asmCall_int13 {β : Type} (ans : Int13Answer β) : Byte := if ans.carry then ans.ah else 0

/-! ## Reading -/

/-- What the requests have led to so far. -/
structure DiskState (β : Type) where
  bios : β
  mem : Mem
  /-- The requests that have been made, and whether they succeeded. -/
  requests : List (DAP × Bool)

variable {β : Type}

/-- A round of `diskRead16`: a request, and the move of what it has read. -/
def diskRead16Round (int13 : Int13 β) (disk : BitVec 16) (currentLBA : BitVec 32)
    (currentBuffer : Addr) (currentSectors : BitVec 32) (s : DiskState β) :
    Exec Unit × DiskState β :=
  let m := fillDAP s.mem currentLBA currentSectors
  let ans := int13 s.bios m disk
  let requests := s.requests ++ [(readDAP m, !ans.carry)]
  if asmCall_int13 ans ≠ 0 then
    (.error (.earlyPanic "diskRead16(): Failure reading"), ⟨ans.bios, ans.mem, requests⟩)
  else
    (.ok (), ⟨ans.bios,
      memmove ans.mem currentBuffer readBuffer (currentSectors * SECTOR_SIZE).toNat, requests⟩)

/-- The loop of `diskRead16`, with the number of rounds that are left after this one. -/
def diskRead16Loop (int13 : Int13 β) (disk : BitVec 16) (sectors iterations : BitVec 32) :
    ℕ → BitVec 32 → Addr → DiskState β → Exec Bool × DiskState β
  | 0, currentLBA, currentBuffer, s =>
    match diskRead16Round int13 disk currentLBA currentBuffer (sectors - MAX_SECTORS * iterations)
      s with
    | (.ok (), s) => (.ok true, s)
    | (.error stop, s) => (.error stop, s)
  | left + 1, currentLBA, currentBuffer, s =>
    match diskRead16Round int13 disk currentLBA currentBuffer MAX_SECTORS s with
    | (.ok (), s) => diskRead16Loop int13 disk sectors iterations left (currentLBA + MAX_SECTORS)
      (currentBuffer + MAX_SECTORS * SECTOR_SIZE) s
    | (.error stop, s) => (.error stop, s)

/-- `io::diskRead16(LBA, buffer, sectors, disk)`. -/
def diskRead16 (int13 : Int13 β) (s : DiskState β) (LBA : BitVec 32) (buffer : Addr)
    (sectors : BitVec 32) (disk : BitVec 16) : Exec Bool × DiskState β :=
  let iterations := sectors / MAX_SECTORS
  diskRead16Loop int13 disk sectors iterations iterations.toNat LBA buffer s

/-! ## What is requested -/

/-- The request for some sectors. -/
def requestOf (LBA sectors : BitVec 32) : DAP :=
  ⟨0x10, 0, sectors.setWidth 16, DiskRead16.segment <<< 16 ||| offset, LBA.setWidth 64⟩

variable {int13 : Int13 β} {disk : BitVec 16} {LBA sectors iterations : BitVec 32} {buffer : Addr}
  {s : DiskState β} {m m' m'' : Mem}

/-- The BIOS finds what was filled in. -/
theorem readDAP_fillDAP (m : Mem) (LBA sectors : BitVec 32) :
    readDAP (fillDAP m LBA sectors) = requestOf LBA sectors := by
  rw [readDAP, requestOf, DAP.mk.injEq, fillDAP]
  -- each member is read back from under the stores that come after it
  refine ⟨?_, ?_, ?_, ?_, Mem.readLE_writeLE (n := 8) _ (by decide) _ _⟩
  · refine (Mem.write_of_not_mem (by decide)).trans ((Mem.write_of_not_mem (by decide)).trans
      ((Mem.write_of_not_mem (by decide)).trans ((Mem.write_of_not_mem (by decide)).trans ?_)))
    exact Mem.write8_self _ _ _
  · refine (Mem.write_of_not_mem (by decide)).trans ((Mem.write_of_not_mem (by decide)).trans
      ((Mem.write_of_not_mem (by decide)).trans ?_))
    exact Mem.write8_self _ _ _
  · refine (Mem.readLE_write_of_disjoint (by decide)).trans
      ((Mem.readLE_write_of_disjoint (by decide)).trans ?_)
    exact Mem.readLE_writeLE (n := 2) _ (by decide) _ _
  · refine (Mem.readLE_write_of_disjoint (by decide)).trans ?_
    exact Mem.readLE_writeLE (n := 4) _ (by decide) _ _

/-- Nothing else is stored. -/
theorem fillDAP_of_not_mem (m : Mem) (LBA sectors : BitVec 32) {x : Addr}
    (hx : 16 ≤ (x - dap_memory_location).toNat) : fillDAP m LBA sectors x = m x := by
  rw [dap_memory_location] at hx
  rw [fillDAP, dap_memory_location]
  refine (Mem.write_of_not_mem ?_).trans ((Mem.write_of_not_mem ?_).trans
    ((Mem.write_of_not_mem ?_).trans ((Mem.write_of_not_mem ?_).trans (Mem.write_of_not_mem ?_))))
  all_goals bv_omega

/-- The requests of the loop: full ones, and one for the rest. -/
def plannedRequests (sectors iterations : BitVec 32) : ℕ → BitVec 32 → List DAP
  | 0, LBA => [requestOf LBA (sectors - MAX_SECTORS * iterations)]
  | left + 1, LBA => requestOf LBA MAX_SECTORS ::
      plannedRequests sectors iterations left (LBA + MAX_SECTORS)

/-- The panic of `diskRead16`. -/
def readFailure : Stop := .earlyPanic "diskRead16(): Failure reading"

theorem diskRead16Round_requests (int13 : Int13 β) (disk : BitVec 16) (LBA : BitVec 32)
    (buffer : Addr) (currentSectors : BitVec 32) (s : DiskState β) :
    ((diskRead16Round int13 disk LBA buffer currentSectors s).1 = .ok () ∨
        (diskRead16Round int13 disk LBA buffer currentSectors s).1 = .error readFailure) ∧
      (diskRead16Round int13 disk LBA buffer currentSectors s).2.requests.map Prod.fst =
        s.requests.map Prod.fst ++ [requestOf LBA currentSectors] := by
  rw [diskRead16Round]
  split
  · exact ⟨.inr rfl, by simp [readDAP_fillDAP]⟩
  · exact ⟨.inl rfl, by simp [readDAP_fillDAP]⟩

/-- **The requests of a call**: all that are planned, or the first ones up to one that fails. -/
theorem diskRead16Loop_requests (int13 : Int13 β) (disk : BitVec 16)
    (sectors iterations : BitVec 32) (left : ℕ) (LBA : BitVec 32) (buffer : Addr)
    (s : DiskState β) :
    (diskRead16Loop int13 disk sectors iterations left LBA buffer s).1 = .ok true ∧
        (diskRead16Loop int13 disk sectors iterations left LBA buffer s).2.requests.map Prod.fst =
          s.requests.map Prod.fst ++ plannedRequests sectors iterations left LBA ∨
      (diskRead16Loop int13 disk sectors iterations left LBA buffer s).1 = .error readFailure ∧
        ∃ made, made <+: plannedRequests sectors iterations left LBA ∧
          (diskRead16Loop int13 disk sectors iterations left LBA buffer s).2.requests.map Prod.fst =
            s.requests.map Prod.fst ++ made := by
  induction left generalizing LBA buffer s with
  | zero =>
    obtain ⟨hend, hrequests⟩ := diskRead16Round_requests int13 disk LBA buffer
      (sectors - MAX_SECTORS * iterations) s
    rw [diskRead16Loop]
    split
    · rename_i s' hround
      rw [hround] at hrequests
      exact .inl ⟨rfl, hrequests⟩
    · rename_i stop s' hround
      rw [hround] at hend hrequests
      obtain rfl : stop = readFailure := by simpa using hend
      exact .inr ⟨rfl, _, List.prefix_refl _, hrequests⟩
  | succ left ih =>
    obtain ⟨hend, hrequests⟩ := diskRead16Round_requests int13 disk LBA buffer MAX_SECTORS s
    rw [diskRead16Loop]
    split
    · rename_i s' hround
      rw [hround] at hrequests
      rcases ih (LBA + MAX_SECTORS) (buffer + MAX_SECTORS * SECTOR_SIZE) s' with
        ⟨hok, hrest⟩ | ⟨herror, made, hmade, hrest⟩
      · refine .inl ⟨hok, ?_⟩
        rw [hrest, hrequests, List.append_assoc]
        rfl
      · refine .inr ⟨herror, _ :: made, (List.prefix_cons_inj _).mpr hmade, ?_⟩
        rw [hrest, hrequests, List.append_assoc]
        rfl
    · rename_i stop s' hround
      rw [hround] at hend hrequests
      obtain rfl : stop = readFailure := by simpa using hend
      exact .inr ⟨rfl, [requestOf LBA MAX_SECTORS],
        (List.prefix_cons_inj _).mpr (List.nil_prefix), hrequests⟩

/-! ## Which requests are legal -/

/-- Where the bytes of a request go, in the address space of real mode. -/
def DAP.start (d : DAP) : ℕ := (d.buffer >>> 16).toNat * 16 + (d.buffer &&& 0xffff).toNat

/-- The BIOS may be asked for this: it is not empty, not too long, and its bytes lie in the bank of
64 KiB at `0x70000`. -/
structure LegalRequest (d : DAP) : Prop where
  pos : 1 ≤ d.numSectors.toNat
  le : d.numSectors.toNat ≤ 127
  low : 0x70000 ≤ d.start
  high : d.start + 512 * d.numSectors.toNat ≤ 0x80000

/-- All requests are legal; and if none has failed, they come to `n` sectors and are no more than
needed. -/
structure RequestsLegal (n : ℕ) (call : Exec Bool × DiskState β) : Prop where
  legal : ∀ q ∈ call.2.requests, LegalRequest q.1
  total : call.1 = .ok true → (call.2.requests.map fun q ↦ q.1.numSectors.toNat).sum = n
  count : call.1 = .ok true → call.2.requests.length = (n + 126) / 127

theorem toNat_numSectors_requestOf (LBA : BitVec 32) (hle : sectors.toNat ≤ 127) :
    (requestOf LBA sectors).numSectors.toNat = sectors.toNat := by
  rw [requestOf, BitVec.toNat_setWidth, Nat.mod_eq_of_lt (by omega)]

theorem start_requestOf (LBA sectors : BitVec 32) : (requestOf LBA sectors).start = 0x70000 := by
  show ((DiskRead16.segment <<< 16 ||| offset) >>> 16).toNat * 16 +
    ((DiskRead16.segment <<< 16 ||| offset) &&& 0xffff).toNat = 0x70000
  decide

/-- A request for a chunk lacks nothing but perhaps sectors. -/
theorem legalRequest_requestOf (hpos : 1 ≤ sectors.toNat) (hle : sectors.toNat ≤ 127) :
    LegalRequest (requestOf LBA sectors) := by
  have hstart := start_requestOf LBA sectors
  have hnum := toNat_numSectors_requestOf LBA hle
  exact ⟨by omega, by omega, by omega, by omega⟩

theorem length_plannedRequests (sectors iterations : BitVec 32) (left : ℕ) (LBA : BitVec 32) :
    (plannedRequests sectors iterations left LBA).length = left + 1 := by
  induction left generalizing LBA with
  | zero => rfl
  | succ left ih => rw [plannedRequests, List.length_cons, ih]

theorem sum_plannedRequests (hrest : (sectors - MAX_SECTORS * iterations).toNat ≤ 127) (left : ℕ)
    (LBA : BitVec 32) :
    ((plannedRequests sectors iterations left LBA).map fun d ↦ d.numSectors.toNat).sum =
      127 * left + (sectors - MAX_SECTORS * iterations).toNat := by
  induction left generalizing LBA with
  | zero => simp [plannedRequests, toNat_numSectors_requestOf LBA hrest]
  | succ left ih =>
    have hmax := toNat_numSectors_requestOf LBA (show MAX_SECTORS.toNat ≤ 127 by decide)
    rw [show MAX_SECTORS.toNat = 127 from rfl] at hmax
    rw [plannedRequests, List.map_cons, List.sum_cons, ih, hmax]
    omega

/-- The chunks are full, and the last request is for what is left over. -/
theorem mem_plannedRequests {left : ℕ} {d : DAP} :
    d ∈ plannedRequests sectors iterations left LBA → (∃ LBA', d = requestOf LBA' MAX_SECTORS) ∨
      ∃ LBA', d = requestOf LBA' (sectors - MAX_SECTORS * iterations) := by
  induction left generalizing LBA with
  | zero =>
    intro hd
    exact .inr ⟨LBA, List.mem_singleton.mp hd⟩
  | succ left ih =>
    intro hd
    rcases List.mem_cons.mp hd with rfl | hd
    · exact .inl ⟨LBA, rfl⟩
    · exact ih hd

theorem last_mem_plannedRequests (sectors iterations : BitVec 32) (left : ℕ) (LBA : BitVec 32) :
    ∃ LBA', requestOf LBA' (sectors - MAX_SECTORS * iterations) ∈
      plannedRequests sectors iterations left LBA := by
  induction left generalizing LBA with
  | zero => exact ⟨LBA, List.mem_singleton_self _⟩
  | succ left ih =>
    obtain ⟨LBA', hmem⟩ := ih (LBA + MAX_SECTORS)
    exact ⟨LBA', List.mem_cons_of_mem _ hmem⟩

/-- The number of full chunks, and what is left over. -/
theorem toNat_iterations (sectors : BitVec 32) :
    (sectors / MAX_SECTORS).toNat = sectors.toNat / 127 ∧
      (sectors - MAX_SECTORS * (sectors / MAX_SECTORS)).toNat = sectors.toNat % 127 := by
  have hdiv : (sectors / MAX_SECTORS).toNat = sectors.toNat / 127 := BitVec.toNat_udiv
  refine ⟨hdiv, ?_⟩
  have hmul : (MAX_SECTORS * (sectors / MAX_SECTORS)).toNat = 127 * (sectors.toNat / 127) := by
    rw [BitVec.toNat_mul, hdiv, show MAX_SECTORS.toNat = 127 from rfl]
    omega
  rw [BitVec.toNat_sub, hmul]
  omega

/-- If the number of sectors is a multiple of 127, a call that comes to its end has made an empty
request. -/
theorem exists_empty_request (hmod : sectors.toNat % 127 = 0)
    (hok : (diskRead16 int13 s LBA buffer sectors disk).1 = .ok true) :
    ∃ q ∈ (diskRead16 int13 s LBA buffer sectors disk).2.requests, q.1.numSectors.toNat = 0 := by
  have hrest := (toNat_iterations sectors).2
  rw [diskRead16] at hok ⊢
  rcases diskRead16Loop_requests int13 disk sectors (sectors / MAX_SECTORS)
      (sectors / MAX_SECTORS).toNat LBA buffer s with ⟨-, hmade⟩ | ⟨herror, -⟩
  · obtain ⟨LBA', hlast⟩ := last_mem_plannedRequests sectors (sectors / MAX_SECTORS)
      (sectors / MAX_SECTORS).toNat LBA
    have hmem := List.mem_append_right (s.requests.map Prod.fst) hlast
    rw [← hmade] at hmem
    obtain ⟨q, hq, hd⟩ := List.mem_map.mp hmem
    refine ⟨q, hq, ?_⟩
    rw [hd, toNat_numSectors_requestOf LBA' (by omega), hrest, hmod]
  · rw [hok] at herror
    cases herror

/-- Otherwise every request is legal, and a call that comes to its end has made all of them. -/
theorem requestsLegal_of_mod (hmod : sectors.toNat % 127 ≠ 0) (hs : s.requests = []) :
    RequestsLegal sectors.toNat (diskRead16 int13 s LBA buffer sectors disk) := by
  obtain ⟨hiter, hrest⟩ := toNat_iterations sectors
  have hplanned : ∀ d ∈ plannedRequests sectors (sectors / MAX_SECTORS)
      (sectors / MAX_SECTORS).toNat LBA, LegalRequest d := by
    intro d hd
    rcases mem_plannedRequests hd with ⟨LBA', rfl⟩ | ⟨LBA', rfl⟩
    · exact legalRequest_requestOf (by decide) (by decide)
    · exact legalRequest_requestOf (by omega) (by omega)
  have hlength := length_plannedRequests sectors (sectors / MAX_SECTORS)
    (sectors / MAX_SECTORS).toNat LBA
  have hle : (sectors - MAX_SECTORS * (sectors / MAX_SECTORS)).toNat ≤ 127 := by omega
  have hsum := sum_plannedRequests hle (sectors / MAX_SECTORS).toNat LBA
  have hcall := diskRead16Loop_requests int13 disk sectors (sectors / MAX_SECTORS)
    (sectors / MAX_SECTORS).toNat LBA buffer s
  rw [hs, List.map_nil, List.nil_append] at hcall
  rw [diskRead16]
  rcases hcall with ⟨-, hmade⟩ | ⟨herror, made, hprefix, hmade⟩
  · refine ⟨fun q hq ↦ hplanned _ (hmade ▸ List.mem_map_of_mem hq), fun _ ↦ ?_, fun _ ↦ ?_⟩
    · rw [← hmade, List.map_map] at hsum
      refine hsum.trans ?_
      omega
    · rw [← hmade, List.length_map] at hlength
      omega
  · have hno : (diskRead16Loop int13 disk sectors (sectors / MAX_SECTORS)
        (sectors / MAX_SECTORS).toNat LBA buffer s).1 ≠ .ok true := by
      rw [herror]
      nofun
    refine ⟨fun q hq ↦ hplanned _ (List.IsPrefix.subset hprefix ?_), fun h ↦ absurd h hno,
      fun h ↦ absurd h hno⟩
    rw [List.nil_append] at hmade
    exact hmade ▸ List.mem_map_of_mem hq

theorem diskRead16Round_of_success
    (hsuccess : (int13 s.bios (fillDAP s.mem LBA sectors) disk).carry = false) :
    diskRead16Round int13 disk LBA buffer sectors s =
      (.ok (), ⟨(int13 s.bios (fillDAP s.mem LBA sectors) disk).bios,
        memmove (int13 s.bios (fillDAP s.mem LBA sectors) disk).mem buffer readBuffer
          (sectors * SECTOR_SIZE).toNat, s.requests ++ [(requestOf LBA sectors, true)]⟩) := by
  rw [diskRead16Round, asmCall_int13, hsuccess, readDAP_fillDAP, if_neg (by simp)]
  rfl

/-- A BIOS that fails no request is asked to the end. -/
theorem diskRead16Loop_of_success (hsuccess : ∀ bios m, (int13 bios m disk).carry = false)
    (sectors iterations : BitVec 32) (left : ℕ) (LBA : BitVec 32) (buffer : Addr)
    (s : DiskState β) :
    (diskRead16Loop int13 disk sectors iterations left LBA buffer s).1 = .ok true ∧
      ∀ q ∈ (diskRead16Loop int13 disk sectors iterations left LBA buffer s).2.requests,
        q ∈ s.requests ∨ q.2 = true := by
  induction left generalizing LBA buffer s with
  | zero =>
    rw [diskRead16Loop, diskRead16Round_of_success (hsuccess _ _)]
    refine ⟨rfl, fun q hq ↦ (List.mem_append.mp hq).imp_right fun hq ↦ ?_⟩
    rw [List.mem_singleton.mp hq]
  | succ left ih =>
    rw [diskRead16Loop, diskRead16Round_of_success (hsuccess _ _)]
    refine (ih _ _ _).imp_right fun h q hq ↦ ?_
    rcases h q hq with hq | hq
    · refine (List.mem_append.mp hq).imp_right fun hq ↦ ?_
      rw [List.mem_singleton.mp hq]
    · exact .inr hq

/-- A BIOS that answers every request with success. -/
def agreeingInt13 : Int13 Unit := fun bios m _ ↦ ⟨bios, m, false, 0⟩

/-- **When the requests are legal**, with every BIOS: unless the number of sectors is a multiple of
the number of sectors in a chunk. -/
theorem diskRead16_legal_iff (LBA : BitVec 32) (buffer : Addr) (sectors : BitVec 32)
    (disk : BitVec 16) :
    (∀ (β : Type) (int13 : Int13 β) (s : DiskState β), s.requests = [] →
        RequestsLegal sectors.toNat (diskRead16 int13 s LBA buffer sectors disk)) ↔
      sectors.toNat % 127 ≠ 0 := by
  refine ⟨fun h hmod ↦ ?_, fun hmod β int13 s hs ↦ requestsLegal_of_mod hmod hs⟩
  have hlegal := h Unit agreeingInt13 ⟨(), fun _ ↦ 0, []⟩ rfl
  have hok : (diskRead16 agreeingInt13 ⟨(), fun _ ↦ 0, []⟩ LBA buffer sectors disk).1 = .ok true :=
    (diskRead16Loop_of_success (fun _ _ ↦ rfl) _ _ _ _ _ _).1
  obtain ⟨q, hq, hempty⟩ := exists_empty_request hmod hok
  have hpos := (hlegal.legal q hq).pos
  omega

/-- 127 sectors are read with a second request, for none. -/
theorem diskRead16_not_legal : ¬ ∀ (β : Type) (int13 : Int13 β) (s : DiskState β),
    s.requests = [] → RequestsLegal 127 (diskRead16 int13 s 0 0x20000 127 0x80) := by
  intro h
  have hlegal := h Unit agreeingInt13 ⟨(), fun _ ↦ 0, []⟩ rfl
  have hok : (diskRead16 agreeingInt13 ⟨(), fun _ ↦ 0, []⟩ 0 0x20000 127 0x80).1 = .ok true :=
    (diskRead16Loop_of_success (fun _ _ ↦ rfl) _ _ _ _ _ _).1
  obtain ⟨q, hq, hempty⟩ := exists_empty_request rfl hok
  have hpos := (hlegal.legal q hq).pos
  omega

/-! ## What is read -/

/-- What the BIOS does with the requests that are made here: a successful one copies the sectors to
where the DAP says, and changes nothing else but perhaps the DAP; a failing one has an error
code. -/
structure Int13Reads (int13 : Int13 β) (disk : BitVec 16) (sector : ℕ → ℕ → Byte) : Prop where
  error_code : ∀ bios m, (int13 bios m disk).carry = true → (int13 bios m disk).ah ≠ 0
  copies : ∀ bios m, (int13 bios m disk).carry = false → (readDAP m).size = 0x10 →
    (readDAP m).start = 0x70000 → (readDAP m).numSectors.toNat ≤ 127 →
      ∀ i < 512 * (readDAP m).numSectors.toNat,
        (int13 bios m disk).mem (readBuffer + addr i) =
          sector ((readDAP m).LBA.toNat + i / 512) (i % 512)
  frame : ∀ bios m, (int13 bios m disk).carry = false → (readDAP m).size = 0x10 →
    (readDAP m).start = 0x70000 → (readDAP m).numSectors.toNat ≤ 127 →
      ∀ x : Addr, 512 * (readDAP m).numSectors.toNat ≤ (x - readBuffer).toNat →
        16 ≤ (x - dap_memory_location).toNat → (int13 bios m disk).mem x = m x

/-- `n` sectors have been copied to `buffer`, and nothing else has changed but the bounce buffer and
the DAP. -/
structure SectorsCopied (sector : ℕ → ℕ → Byte) (LBA : BitVec 32) (buffer : Addr) (n : ℕ)
    (m m' : Mem) : Prop where
  contents : ∀ i < 512 * n, m' (buffer + addr i) = sector (LBA.toNat + i / 512) (i % 512)
  frame : ∀ x : Addr, 512 * n ≤ (x - buffer).toNat → 127 * 512 ≤ (x - readBuffer).toNat →
    16 ≤ (x - dap_memory_location).toNat → m' x = m x

/-- The destination of `n` sectors does not wrap, and meets neither the bounce buffer nor the
DAP. -/
structure DestinationApart (buffer : Addr) (n : ℕ) : Prop where
  noWrap : buffer.toNat + 512 * n ≤ 2 ^ 32
  bounce : ∀ i < 512 * n, 127 * 512 ≤ (buffer + addr i - readBuffer).toNat
  dap : ∀ i < 512 * n, 16 ≤ (buffer + addr i - dap_memory_location).toNat

/-- What a read of `n` sectors has done: it has returned `a` and copied them with requests that all
succeeded, or it has failed in one of its requests. -/
def ReadOutcome {α : Type} (a : α) (sector : ℕ → ℕ → Byte) (LBA : BitVec 32) (buffer : Addr) (n : ℕ)
    (s : DiskState β) (r : Exec α × DiskState β) : Prop :=
  (r.1 = .ok a ∧ (∀ q ∈ r.2.requests, q ∈ s.requests ∨ q.2 = true) ∧
      SectorsCopied sector LBA buffer n s.mem r.2.mem) ∨
    r.1 = .error readFailure ∧ ∃ q ∈ r.2.requests, q.2 = false

variable {sector : ℕ → ℕ → Byte} {k n : ℕ}

/-- **Two chunks, one behind the other**, are one. -/
theorem SectorsCopied.append (h : SectorsCopied sector LBA buffer k m m')
    (h' : SectorsCopied sector (LBA + BitVec.ofNat 32 k) (buffer + addr (512 * k)) n m' m'')
    (hdest : DestinationApart buffer (k + n)) (hLBA : LBA.toNat + (k + n) ≤ 2 ^ 32) :
    SectorsCopied sector LBA buffer (k + n) m m'' := by
  have hnoWrap := hdest.noWrap
  refine ⟨fun i hi ↦ ?_, fun x hx hbounce hdap ↦ ?_⟩
  · by_cases hik : i < 512 * k
    · rw [h'.frame _ (by bv_omega) (hdest.bounce i hi) (hdest.dap i hi), h.contents i hik]
    · have hsub : buffer + addr i = buffer + addr (512 * k) + addr (i - 512 * k) := by
        rw [add_addr_addr, Nat.add_sub_cancel' (by omega)]
      have hnum : (LBA + BitVec.ofNat 32 k).toNat = LBA.toNat + k := toNat_add_ofNat LBA (by omega)
      rw [hsub, h'.contents _ (by omega), hnum]
      exact congrArg₂ sector (by omega) (by omega)
  · have hsub : (x - (buffer + addr (512 * k))).toNat = (x - buffer).toNat - 512 * k :=
      toNat_sub_add_ofNat x buffer (by omega)
    rw [h'.frame x (by omega) hbounce hdap, h.frame x (by omega) hbounce hdap]

/-- A read that has copied `k` sectors and goes on with a read of the other `n`. -/
theorem SectorsCopied.readOutcome {α : Type} {a : α} {s' : DiskState β} {r : Exec α × DiskState β}
    (h : SectorsCopied sector LBA buffer k s.mem s'.mem)
    (hmade : ∀ q ∈ s'.requests, q ∈ s.requests ∨ q.2 = true)
    (h' : ReadOutcome a sector (LBA + BitVec.ofNat 32 k) (buffer + addr (512 * k)) n s' r)
    (hdest : DestinationApart buffer (k + n)) (hLBA : LBA.toNat + (k + n) ≤ 2 ^ 32) :
    ReadOutcome a sector LBA buffer (k + n) s r := by
  obtain ⟨hok, hmade', hcopied⟩ | hfailed := h'
  · refine .inl ⟨hok, fun q hq ↦ ?_, h.append hcopied hdest hLBA⟩
    obtain hq | hq := hmade' q hq
    · exact hmade q hq
    · exact .inr hq
  · exact .inr hfailed

/-- What a successful request of a round does. -/
theorem Int13Reads.read_chunk (hbios : Int13Reads int13 disk sector)
    (hsectors : sectors.toNat ≤ 127) (bios : β) (m : Mem)
    (hcarry : (int13 bios (fillDAP m LBA sectors) disk).carry = false) :
    (∀ i < 512 * sectors.toNat,
        (int13 bios (fillDAP m LBA sectors) disk).mem (readBuffer + addr i) =
          sector (LBA.toNat + i / 512) (i % 512)) ∧
      ∀ x : Addr, 512 * sectors.toNat ≤ (x - readBuffer).toNat →
        16 ≤ (x - dap_memory_location).toNat →
          (int13 bios (fillDAP m LBA sectors) disk).mem x = m x := by
  have hcopies := hbios.copies bios (fillDAP m LBA sectors) hcarry
  have hframe := hbios.frame bios (fillDAP m LBA sectors) hcarry
  have hLBA : (requestOf LBA sectors).LBA.toNat = LBA.toNat :=
    BitVec.toNat_setWidth_of_le (by decide)
  rw [readDAP_fillDAP, start_requestOf, toNat_numSectors_requestOf LBA hsectors] at hcopies hframe
  rw [hLBA] at hcopies
  refine ⟨hcopies rfl rfl hsectors, fun x hx hdap ↦ ?_⟩
  rw [hframe rfl rfl hsectors x hx hdap, fillDAP_of_not_mem m LBA sectors hdap]

/-- **A round**: the chunk is where it should be, or the request has failed. -/
theorem diskRead16Round_outcome (LBA : BitVec 32) (hbios : Int13Reads int13 disk sector)
    (hsectors : sectors.toNat ≤ 127) (hdest : DestinationApart buffer sectors.toNat)
    (s : DiskState β) : ReadOutcome () sector LBA buffer sectors.toNat s
      (diskRead16Round int13 disk LBA buffer sectors s) := by
  obtain ⟨ans, hans⟩ : ∃ ans, ans = int13 s.bios (fillDAP s.mem LBA sectors) disk := ⟨_, rfl⟩
  cases hcarry : ans.carry with
  | true =>
    have hcode := hbios.error_code s.bios (fillDAP s.mem LBA sectors) (hans ▸ hcarry)
    refine .inr ?_
    rw [diskRead16Round, asmCall_int13, ← hans, hcarry, readDAP_fillDAP, if_pos]
    · exact ⟨rfl, _, List.mem_append_right _ (List.mem_singleton_self _), rfl⟩
    · exact hans ▸ hcode
  | false =>
    refine .inl ?_
    rw [diskRead16Round_of_success (hans ▸ hcarry), ← hans]
    refine ⟨rfl, fun q hq ↦ (List.mem_append.mp hq).imp_right fun hq ↦ ?_, ?_⟩
    · rw [List.mem_singleton.mp hq]
    obtain ⟨hcopies, hframe⟩ := hbios.read_chunk hsectors s.bios s.mem (hans ▸ hcarry)
    rw [← hans] at hcopies hframe
    have hnoWrap := hdest.noWrap
    have hsize : (sectors * SECTOR_SIZE).toNat = 512 * sectors.toNat := by
      rw [BitVec.toNat_mul, show SECTOR_SIZE.toNat = 512 from rfl]
      omega
    have hsource : readBuffer.toNat + 512 * sectors.toNat ≤ 2 ^ 32 := by
      rw [show readBuffer.toNat = 0x70000 from rfl]
      omega
    show SectorsCopied sector LBA buffer sectors.toNat s.mem (memmove ans.mem buffer readBuffer _)
    rw [hsize, memmove_eq_write hnoWrap hsource]
    refine ⟨fun i hi ↦ ?_, fun x hx hbounce hdap ↦ ?_⟩
    · rw [Mem.write_add hi (by omega), hcopies i hi]
    · rw [Mem.write_of_not_mem (by omega), hframe x (by omega) hdap]

theorem DestinationApart.left (h : DestinationApart buffer (k + n)) :
    DestinationApart buffer k := by
  have hnoWrap := h.noWrap
  exact ⟨by omega, fun i hi ↦ h.bounce i (by omega), fun i hi ↦ h.dap i (by omega)⟩

theorem DestinationApart.right (h : DestinationApart buffer (k + n)) :
    DestinationApart (buffer + addr (512 * k)) n := by
  have hnoWrap := h.noWrap
  have hshift : ∀ i, buffer + addr (512 * k) + addr i = buffer + addr (512 * k + i) := fun i ↦ by
    rw [add_addr_addr]
  refine ⟨by bv_omega, fun i hi ↦ ?_, fun i hi ↦ ?_⟩
  · rw [hshift]
    exact h.bounce _ (by omega)
  · rw [hshift]
    exact h.dap _ (by omega)

/-- **The loop copies what is left**, by induction on the number of rounds: each chunk goes behind
the one before, and the rest behind them. -/
theorem diskRead16Loop_outcome (hbios : Int13Reads int13 disk sector)
    (hrest : (sectors - MAX_SECTORS * iterations).toNat ≤ 127) (left : ℕ)
    (hdest : DestinationApart buffer (127 * left + (sectors - MAX_SECTORS * iterations).toNat))
    (hLBA : LBA.toNat + (127 * left + (sectors - MAX_SECTORS * iterations).toNat) ≤ 2 ^ 32)
    (s : DiskState β) :
    ReadOutcome true sector LBA buffer (127 * left + (sectors - MAX_SECTORS * iterations).toNat) s
      (diskRead16Loop int13 disk sectors iterations left LBA buffer s) := by
  induction left generalizing LBA buffer s with
  | zero =>
    rw [Nat.mul_zero, Nat.zero_add] at hdest ⊢
    have hround := diskRead16Round_outcome LBA hbios hrest hdest s
    rw [diskRead16Loop]
    generalize diskRead16Round int13 disk LBA buffer (sectors - MAX_SECTORS * iterations) s = r
      at hround ⊢
    obtain ⟨r, s'⟩ := r
    obtain ⟨rfl, hcopied⟩ | ⟨rfl, hfailed⟩ := hround
    · exact .inl ⟨rfl, hcopied⟩
    · exact .inr ⟨rfl, hfailed⟩
  | succ left ih =>
    have htotal : 127 * (left + 1) + (sectors - MAX_SECTORS * iterations).toNat =
        127 + (127 * left + (sectors - MAX_SECTORS * iterations).toNat) := by omega
    rw [htotal] at hdest hLBA ⊢
    have hround := diskRead16Round_outcome LBA hbios (show MAX_SECTORS.toNat ≤ 127 by decide)
      hdest.left s
    rw [diskRead16Loop]
    generalize diskRead16Round int13 disk LBA buffer MAX_SECTORS s = r at hround ⊢
    obtain ⟨r, s'⟩ := r
    obtain ⟨rfl, hmade, hcopied⟩ | ⟨rfl, hfailed⟩ := hround
    · have hLBA' : (LBA + MAX_SECTORS).toNat +
          (127 * left + (sectors - MAX_SECTORS * iterations).toNat) ≤ 2 ^ 32 := by
        rw [BitVec.toNat_add, show MAX_SECTORS.toNat = 127 from rfl]
        omega
      have hdest' : DestinationApart (buffer + MAX_SECTORS * SECTOR_SIZE) _ := hdest.right
      exact hcopied.readOutcome hmade (ih hdest' hLBA' s') hdest hLBA
    · exact .inr ⟨rfl, hfailed⟩

/-- **Chunked reads equal one plain read.**  If every request succeeds, `diskRead16` returns true,
the destination holds the sectors, and nothing else has changed but the bounce buffer and the DAP;
if one fails, it ends in a panic.  (What `realModeCall` writes on the way to the BIOS, `_temp` and
its stack, comes on top of that.) -/
theorem diskRead16_exact (LBA : BitVec 32) (hbios : Int13Reads int13 disk sector)
    (hLBA : LBA.toNat + sectors.toNat ≤ 2 ^ 32) (hdest : DestinationApart buffer sectors.toNat)
    (hs : s.requests = []) :
    ((∀ q ∈ (diskRead16 int13 s LBA buffer sectors disk).2.requests, q.2 = true) →
      (diskRead16 int13 s LBA buffer sectors disk).1 = .ok true ∧
      (∀ i < sectors.toNat, ∀ j < 512,
        (diskRead16 int13 s LBA buffer sectors disk).2.mem (buffer + addr (512 * i + j)) =
          sector (LBA.toNat + i) j) ∧
      ∀ x : Addr, 512 * sectors.toNat ≤ (x - buffer).toNat →
        127 * 512 ≤ (x - readBuffer).toNat → 16 ≤ (x - dap_memory_location).toNat →
          (diskRead16 int13 s LBA buffer sectors disk).2.mem x = s.mem x) ∧
    ((∃ q ∈ (diskRead16 int13 s LBA buffer sectors disk).2.requests, q.2 = false) →
      (diskRead16 int13 s LBA buffer sectors disk).1 =
        .error (.earlyPanic "diskRead16(): Failure reading")) := by
  obtain ⟨hiter, hrest⟩ := toNat_iterations sectors
  have htotal : 127 * (sectors / MAX_SECTORS).toNat +
      (sectors - MAX_SECTORS * (sectors / MAX_SECTORS)).toNat = sectors.toNat := by omega
  have hcases := diskRead16Loop_outcome hbios (by omega) (sectors / MAX_SECTORS).toNat
    (htotal ▸ hdest) (htotal ▸ hLBA) s
  rw [htotal, ReadOutcome, hs] at hcases
  rw [diskRead16]
  rcases hcases with ⟨hok, hmade, hcopied⟩ | ⟨herror, q, hq, hfailed⟩
  · refine ⟨fun _ ↦ ⟨hok, fun i hi j hj ↦ ?_, hcopied.frame⟩, ?_⟩
    · rw [hcopied.contents _ (by omega)]
      exact congrArg₂ sector (by omega) (by omega)
    · rintro ⟨q, hq, hfailed⟩
      rcases hmade q hq with hmem | htrue
      · cases hmem
      · rw [hfailed] at htrue
        cases htrue
  · refine ⟨fun hall ↦ ?_, fun _ ↦ herror⟩
    have htrue := hall q hq
    rw [hfailed] at htrue
    cases htrue

/-- A BIOS that copies what it is asked for, from a disk on which byte `j` of sector `i` is
`i + j`. -/
def countingInt13 : Int13 Unit := fun bios m _ ↦
  ⟨bios, m.write readBuffer (512 * (readDAP m).numSectors.toNat) fun i ↦
    BitVec.ofNat 8 ((readDAP m).LBA.toNat + i / 512 + i % 512), false, 0⟩

theorem mem_countingInt13 (bios : Unit) (m : Mem) (disk : BitVec 16) :
    (countingInt13 bios m disk).mem =
      m.write readBuffer (512 * (readDAP m).numSectors.toNat) fun i ↦
        BitVec.ofNat 8 ((readDAP m).LBA.toNat + i / 512 + i % 512) :=
  rfl

/-- 128 sectors are read in two chunks; the first byte of the last one comes from the second. -/
theorem diskRead16_exact_counting :
    (diskRead16 countingInt13 ⟨(), fun _ ↦ 0, []⟩ 5 0x20000 128 0x80).1 = .ok true ∧
      (diskRead16 countingInt13 ⟨(), fun _ ↦ 0, []⟩ 5 0x20000 128 0x80).2.mem 0x2fe00 = 132 := by
  have hbios : Int13Reads countingInt13 0x80 fun i j ↦ BitVec.ofNat 8 (i + j) := by
    refine ⟨fun _ _ h ↦ (nomatch h), fun bios m _ _ _ hle i hi ↦ ?_, fun bios m _ _ _ _ x hx _ ↦ ?_⟩
    · rw [mem_countingInt13, Mem.write_add hi (by omega)]
    · rw [mem_countingInt13, Mem.write_of_not_mem (by omega)]
  have hdest : DestinationApart 0x20000 (128 : BitVec 32).toNat := by
    refine ⟨by decide, Mem.disjoint_of_le (by decide) (by decide) (by decide),
      Mem.disjoint_of_le (by decide) (by decide) (by decide)⟩
  have hall : ∀ q ∈ (diskRead16 countingInt13 ⟨(), fun _ ↦ 0, []⟩ 5 0x20000 128 0x80).2.requests,
      q ∈ [] ∨ q.2 = true := (diskRead16Loop_of_success (fun _ _ ↦ rfl) _ _ _ _ _ _).2
  obtain ⟨hok, hcontents, -⟩ := (diskRead16_exact 5 hbios (by decide) hdest rfl).1
    fun q hq ↦ (hall q hq).resolve_left (List.not_mem_nil)
  exact ⟨hok, hcontents 127 (by decide) 0 (by decide)⟩

end RainbowOS
