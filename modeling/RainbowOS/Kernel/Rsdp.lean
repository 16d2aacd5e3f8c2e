import RainbowOS.Exec
import RainbowOS.Lib.Memory
import Mathlib.Algebra.BigOperators.Group.List.Basic

/-!
# The root of the ACPI tables: `findRSDPDesc`

The descriptor lies in one of two windows of low memory, and is known by a text at its beginning and
a sum over its bytes.  The kernel first looks for the text, in the EBDA and then in the BIOS, and
checks the sum of the first place only that has it; and the check reads the revision before anything
has been found.

`findsRSDP_iff` says what comes of the order of the two.
-/

set_option autoImplicit false

namespace RainbowOS.Acpi

/-! ## The search -/

/-- `EBDA_START`. -/
def EBDA_START : Addr := 0x80000

/-- `EBDA_END`. -/
def EBDA_END : Addr := 0x9ffff

/-- `BIOS_START`. -/
def BIOS_START : Addr := 0xe0000

/-- `BIOS_END`. -/
def BIOS_END : Addr := 0xfffff

/-- `RSDP_SEARCH_STR_LEN`. -/
def RSDP_SEARCH_STR_LEN : ℕ := 7

/-- `RSDP_SEARCH_STR`, "RSD PTR". -/
def RSDP_SEARCH_STR (i : ℕ) : Byte := [0x52, 0x53, 0x44, 0x20, 0x50, 0x54, 0x52].getD i 0

/-- `specialStrComp(RSDP_SEARCH_STR, ptr)`. -/
def specialStrComp (m : Mem) (ptr : Addr) : Bool :=
  (List.range RSDP_SEARCH_STR_LEN).all fun i ↦ RSDP_SEARCH_STR i == m (ptr + addr i)

/-- A loop of `searchRSDPDesc`: one window, up to `stop`. -/
def searchWindow (m : Mem) (ptr stop : Addr) : Option Addr :=
  if ptr < stop then
    if specialStrComp m ptr then some ptr else searchWindow m (ptr + 1) stop
  else none
termination_by (stop - ptr).toNat
decreasing_by bv_omega

/-- `searchRSDPDesc()`. -/
def searchRSDPDesc (m : Mem) : Addr :=
  match searchWindow m EBDA_START (EBDA_END - addr RSDP_SEARCH_STR_LEN) with
  | some ptr => ptr
  | none =>
    match searchWindow m BIOS_START (BIOS_END - addr RSDP_SEARCH_STR_LEN) with
    | some ptr => ptr
    | none => 0

/-! ## The check -/

/-- `ptr->revision`. -/
def revision (m : Mem) (ptr : Addr) : Byte := m (ptr + 15)

/-- `sizeof(rsdp_desc)`. -/
def sizeof_rsdp_desc : ℕ := 20

/-- `sizeof(xsdp_desc)`. -/
def sizeof_xsdp_desc : ℕ := 36

/-- `checkSum(ptr, size)`. -/
def checkSum (m : Mem) (ptr : Addr) (size : ℕ) : Bool :=
  let res : BitVec 32 :=
    (List.range size).foldl (fun res i ↦ res + (m (ptr + addr i)).setWidth 32) 0
  res &&& 0xff == 0

/-- `checkRSDPDesc(ptr)`.  The revision is read first, and a null pointer is not looked for. -/
def checkRSDPDesc (m : Mem) (ptr : Addr) : Exec Bool :=
  if ptr = 0 then .error .nullPointer
  else if revision m ptr = 0 then .ok (checkSum m ptr sizeof_rsdp_desc)
  else if revision m ptr = 2 then .ok (checkSum m ptr sizeof_xsdp_desc)
  else .ok false

/-- `findRSDPDesc()`. -/
def findRSDPDesc (m : Mem) : Exec Addr := do
  let ptr := searchRSDPDesc m
  let valid ← checkRSDPDesc m ptr
  return if !valid then 0 else ptr

/-- `acpi_header`, the members that the constructor fills in. -/
structure AcpiHeader where
  ptr : Addr
  type2 : Bool
  deriving DecidableEq, Repr

/-- `acpi_header::acpi_header()`. -/
def acpi_header (m : Mem) : Exec AcpiHeader := do
  let ptr ← findRSDPDesc m
  if ptr = 0 then
    .error (.earlyPanic
      "In kernel::acpi::apicHeader() constructor: Error: Could not find the XSDP, aborting")
  else return ⟨ptr, revision m ptr == 2⟩

/-! ## What there is to be found -/

/-- The text is at `p`. -/
def HasSignature (m : Mem) (p : Addr) : Prop :=
  ∀ i < RSDP_SEARCH_STR_LEN, m (p + addr i) = RSDP_SEARCH_STR i

/-- The sum of the `n` bytes at `p`. -/
def byteSum (m : Mem) (p : Addr) (n : ℕ) : ℕ :=
  ((List.range n).map fun i ↦ (m (p + addr i)).toNat).sum

/-- The size of a descriptor depends on its revision. -/
def descSize (m : Mem) (p : Addr) : ℕ :=
  if revision m p = 0 then sizeof_rsdp_desc else sizeof_xsdp_desc

/-- There is a valid descriptor at `p`. -/
structure ValidRSDP (m : Mem) (p : Addr) : Prop where
  signature : HasSignature m p
  revision : revision m p = 0 ∨ revision m p = 2
  sum : byteSum m p (descSize m p) % 256 = 0

/-- The `n` bytes from `p` on are in a window. -/
def InWindow (p : Addr) (n : ℕ) : Prop :=
  EBDA_START.toNat ≤ p.toNat ∧ p.toNat + n ≤ EBDA_END.toNat + 1 ∨
    BIOS_START.toNat ≤ p.toNat ∧ p.toNat + n ≤ BIOS_END.toNat + 1

/-- A valid descriptor at a multiple of 16, wholly inside a window. -/
structure PlacedRSDP (m : Mem) (p : Addr) : Prop where
  valid : ValidRSDP m p
  aligned : 16 ∣ p.toNat
  inside : InWindow p (descSize m p)

/-- What is expected of the search: it is complete and sound, and says so when there is nothing. -/
structure FindsRSDP (m : Mem) : Prop where
  complete : ∀ p, PlacedRSDP m p → ∃ q, findRSDPDesc m = .ok q ∧ q ≠ 0 ∧ ValidRSDP m q
  sound : ∀ q, findRSDPDesc m = .ok q → q ≠ 0 → ValidRSDP m q ∧ InWindow q 1
  null : (∀ p, InWindow p 1 → ¬ ValidRSDP m p) → findRSDPDesc m = .ok 0

/-- The addresses at which the text is looked for. -/
def Searched (p : Addr) : Prop :=
  EBDA_START ≤ p ∧ p < EBDA_END - addr RSDP_SEARCH_STR_LEN ∨
    BIOS_START ≤ p ∧ p < BIOS_END - addr RSDP_SEARCH_STR_LEN

/-- The text is at `f`, and at no address before that is searched. -/
structure FirstSignature (m : Mem) (f : Addr) : Prop where
  searched : Searched f
  signature : HasSignature m f
  first : ∀ x, Searched x → x < f → ¬ HasSignature m x

variable {m : Mem} {p f ptr stop : Addr} {n : ℕ}

/-! ## What the search finds -/

theorem specialStrComp_iff : specialStrComp m ptr = true ↔ HasSignature m ptr := by
  rw [specialStrComp, List.all_eq_true, HasSignature]
  simp only [List.mem_range, beq_iff_eq]
  exact forall₂_congr fun i _ ↦ eq_comm

/-- **A window is searched from its beginning**, for the first address with the text. -/
theorem searchWindow_spec (m : Mem) (ptr stop : Addr) :
    (∃ q, searchWindow m ptr stop = some q ∧ ptr ≤ q ∧ q < stop ∧ HasSignature m q ∧
      ∀ x, ptr ≤ x → x < q → ¬ HasSignature m x) ∨
    (searchWindow m ptr stop = none ∧ ∀ x, ptr ≤ x → x < stop → ¬ HasSignature m x) := by
  fun_induction searchWindow m ptr stop with
  | case1 ptr hlt hcomp =>
    exact .inl ⟨ptr, rfl, BitVec.le_refl ptr, hlt, specialStrComp_iff.mp hcomp,
      fun x hx hxlt ↦ absurd hxlt (BitVec.not_lt.mpr hx)⟩
  | case2 ptr hlt hcomp ih =>
    -- What is from `ptr` on is `ptr` itself or from `ptr + 1` on.
    have hstep : ∀ x, ptr ≤ x → x = ptr ∨ ptr + 1 ≤ x := fun x hx ↦ by bv_omega
    have hhere : ¬ HasSignature m ptr := fun h ↦ hcomp (specialStrComp_iff.mpr h)
    obtain ⟨q, hq, hle, hqlt, hsig, hfirst⟩ | ⟨hnone, hall⟩ := ih
    · refine .inl ⟨q, hq, by bv_omega, hqlt, hsig, fun x hx hxq ↦ ?_⟩
      obtain rfl | hx := hstep x hx
      · exact hhere
      · exact hfirst x hx hxq
    · refine .inr ⟨hnone, fun x hx hxlt ↦ ?_⟩
      obtain rfl | hx := hstep x hx
      · exact hhere
      · exact hall x hx hxlt
  | case3 ptr hge =>
    exact .inr ⟨rfl, fun x hx hxlt ↦ absurd (by bv_omega) hge⟩

theorem searched_bounds (h : Searched p) :
    0x80000 ≤ p.toNat ∧ p.toNat < 0x9fff8 ∨ 0xe0000 ≤ p.toNat ∧ p.toNat < 0xffff8 := h

/-- **What is searched is searched in order**: the first address with the text is returned, or null
if there is none. -/
theorem searchRSDPDesc_spec (m : Mem) :
    (∃ f, FirstSignature m f ∧ searchRSDPDesc m = f) ∨
      ((∀ p, Searched p → ¬ HasSignature m p) ∧ searchRSDPDesc m = 0) := by
  rw [searchRSDPDesc]
  obtain ⟨q, hq, hle, hlt, hsig, hfirst⟩ | ⟨hebda, hnone⟩ :=
    searchWindow_spec m EBDA_START (EBDA_END - addr RSDP_SEARCH_STR_LEN)
  · refine .inl ⟨q, ⟨.inl ⟨hle, hlt⟩, hsig, fun x hx hxq ↦ ?_⟩, by rw [hq]⟩
    obtain ⟨hlo, -⟩ | ⟨hlo, -⟩ := hx
    · exact hfirst x hlo hxq
    · have hx : 0xe0000 ≤ x.toNat := hlo
      have hq : q.toNat < 0x9fff8 := hlt
      have hxq : x.toNat < q.toNat := hxq
      omega
  · rw [hebda]
    obtain ⟨q, hq, hle, hlt, hsig, hfirst⟩ | ⟨hbios, hnone'⟩ :=
      searchWindow_spec m BIOS_START (BIOS_END - addr RSDP_SEARCH_STR_LEN)
    · refine .inl ⟨q, ⟨.inr ⟨hle, hlt⟩, hsig, fun x hx hxq ↦ ?_⟩, by rw [hq]⟩
      obtain ⟨hlo, hhi⟩ | ⟨hlo, -⟩ := hx
      · exact hnone x hlo hhi
      · exact hfirst x hlo hxq
    · refine .inr ⟨fun p hp ↦ ?_, by rw [hbios]⟩
      obtain ⟨hlo, hhi⟩ | ⟨hlo, hhi⟩ := hp
      · exact hnone p hlo hhi
      · exact hnone' p hlo hhi

/-! ## What the check says -/

/-- The bytes are added up modulo `2 ^ 32`. -/
theorem toNat_checkSum (m : Mem) (ptr : Addr) (n : ℕ) :
    ((List.range n).foldl (fun res i ↦ res + (m (ptr + addr i)).setWidth 32)
      (0 : BitVec 32)).toNat = byteSum m ptr n % 2 ^ 32 := by
  induction n with
  | zero => rfl
  | succ n ih =>
    rw [byteSum, List.range_succ, List.foldl_append, List.map_append, List.sum_append,
      List.foldl_cons, List.foldl_nil, List.map_singleton, List.sum_singleton, BitVec.toNat_add,
      ih, BitVec.toNat_setWidth, ← byteSum, Nat.add_mod_mod, Nat.mod_add_mod]

theorem checkSum_iff : checkSum m ptr n = true ↔ byteSum m ptr n % 256 = 0 := by
  rw [checkSum, beq_iff_eq, ← BitVec.toNat_inj, BitVec.toNat_and, toNat_checkSum,
    show (0xff : BitVec 32).toNat = 2 ^ 8 - 1 from rfl, Nat.and_two_pow_sub_one_eq_mod,
    Nat.mod_mod_of_dvd _ (by decide)]
  rfl

/-- The check of an address that is not null and has the text says whether the descriptor there is
valid. -/
theorem checkRSDPDesc_spec (hne : p ≠ 0) (hsig : HasSignature m p) :
    ∃ b, checkRSDPDesc m p = .ok b ∧ (b = true ↔ ValidRSDP m p) := by
  rw [checkRSDPDesc, if_neg hne]
  by_cases h0 : revision m p = 0
  · refine ⟨_, if_pos h0, checkSum_iff.trans ⟨fun hsum ↦ ⟨hsig, .inl h0, ?_⟩, fun h ↦ ?_⟩⟩
    · rwa [descSize, if_pos h0]
    · have hsum := h.sum
      rwa [descSize, if_pos h0] at hsum
  · rw [if_neg h0]
    by_cases h2 : revision m p = 2
    · refine ⟨_, if_pos h2, checkSum_iff.trans ⟨fun hsum ↦ ⟨hsig, .inr h2, ?_⟩, fun h ↦ ?_⟩⟩
      · rwa [descSize, if_neg h0]
      · have hsum := h.sum
        rwa [descSize, if_neg h0] at hsum
    · refine ⟨_, if_neg h2, iff_of_false Bool.false_ne_true fun h ↦ ?_⟩
      exact h.revision.elim h0 h2

theorem ne_zero_of_searched (h : Searched p) : p ≠ 0 := by
  rintro rfl
  exact absurd (searched_bounds h) (by decide)

theorem findRSDPDesc_of_valid (hfirst : FirstSignature m f) (hvalid : ValidRSDP m f)
    (hsearch : searchRSDPDesc m = f) : findRSDPDesc m = .ok f := by
  obtain ⟨b, hb, hiff⟩ :=
    checkRSDPDesc_spec (ne_zero_of_searched hfirst.searched) hfirst.signature
  rw [findRSDPDesc, hsearch, hb, hiff.mpr hvalid]
  rfl

theorem findRSDPDesc_of_not_valid (hfirst : FirstSignature m f) (hvalid : ¬ ValidRSDP m f)
    (hsearch : searchRSDPDesc m = f) : findRSDPDesc m = .ok 0 := by
  obtain ⟨b, hb, hiff⟩ :=
    checkRSDPDesc_spec (ne_zero_of_searched hfirst.searched) hfirst.signature
  rw [findRSDPDesc, hsearch, hb, Bool.not_eq_true _ |>.mp fun h ↦ hvalid (hiff.mp h)]
  rfl

/-- Where nothing has been found, the null pointer is read. -/
theorem findRSDPDesc_of_null (hsearch : searchRSDPDesc m = 0) :
    findRSDPDesc m = .error .nullPointer := by
  rw [findRSDPDesc, hsearch]
  rfl

/-! ## What comes of it -/

theorem searched_of_inside (h : InWindow p (descSize m p)) : Searched p := by
  have hsize : 20 ≤ descSize m p := by
    rw [descSize]
    split <;> decide
  have hbounds : 0x80000 ≤ p.toNat ∧ p.toNat < 0x9fff8 ∨
      0xe0000 ≤ p.toNat ∧ p.toNat < 0xffff8 := by
    rcases h with ⟨hlo, hhi⟩ | ⟨hlo, hhi⟩
    · have hlo : 0x80000 ≤ p.toNat := hlo
      have hhi : p.toNat + descSize m p ≤ 0xa0000 := hhi
      omega
    · have hlo : 0xe0000 ≤ p.toNat := hlo
      have hhi : p.toNat + descSize m p ≤ 0x100000 := hhi
      omega
  exact hbounds

theorem inWindow_of_searched (h : Searched p) : InWindow p 1 := by
  have hbounds := searched_bounds h
  have hwindow : 0x80000 ≤ p.toNat ∧ p.toNat + 1 ≤ 0xa0000 ∨
      0xe0000 ≤ p.toNat ∧ p.toNat + 1 ≤ 0x100000 := by omega
  exact hwindow

/-- Two first addresses are the same. -/
theorem FirstSignature.unique {g : Addr} (hf : FirstSignature m f) (hg : FirstSignature m g) :
    f = g := by
  by_contra hne
  rcases Nat.lt_or_gt_of_ne (mt BitVec.eq_of_toNat_eq hne) with hlt | hlt
  · exact hg.first f hf.searched hlt hf.signature
  · exact hf.first g hg.searched hlt hg.signature

/-- Where there is a place with the text, what counts is the descriptor at the first one. -/
theorem findsRSDP_iff_of_first (hfirst : FirstSignature m f) (hsearch : searchRSDPDesc m = f) :
    FindsRSDP m ↔ ValidRSDP m f ∨ ∀ p, ¬ PlacedRSDP m p := by
  have hne := ne_zero_of_searched hfirst.searched
  by_cases hvalid : ValidRSDP m f
  · have hfind := findRSDPDesc_of_valid hfirst hvalid hsearch
    refine iff_of_true ⟨fun p hp ↦ ⟨f, hfind, hne, hvalid⟩, fun q hq hq0 ↦ ?_, fun hall ↦ ?_⟩
      (.inl hvalid)
    · rw [hfind, Except.ok.injEq] at hq
      exact hq ▸ ⟨hvalid, inWindow_of_searched hfirst.searched⟩
    · exact absurd hvalid (hall f (inWindow_of_searched hfirst.searched))
  · have hfind := findRSDPDesc_of_not_valid hfirst hvalid hsearch
    rw [or_iff_right hvalid]
    constructor
    · intro hfinds p hp
      obtain ⟨q, hq, hq0, -⟩ := hfinds.complete p hp
      rw [hfind, Except.ok.injEq] at hq
      exact hq0 hq.symm
    · refine fun hall ↦ ⟨fun p hp ↦ absurd hp (hall p), fun q hq hq0 ↦ ?_, fun _ ↦ hfind⟩
      rw [hfind, Except.ok.injEq] at hq
      exact absurd hq.symm hq0

/-- Where there is none, nothing is said only if there is a descriptor that is not searched for. -/
theorem findsRSDP_iff_of_none (hnone : ∀ p, Searched p → ¬ HasSignature m p)
    (hsearch : searchRSDPDesc m = 0) : FindsRSDP m ↔ ∃ p, InWindow p 1 ∧ ValidRSDP m p := by
  have hfind := findRSDPDesc_of_null hsearch
  constructor
  · intro hfinds
    by_contra hno
    have hnull := hfinds.null fun p hp hvalid ↦ hno ⟨p, hp, hvalid⟩
    rw [hfind] at hnull
    cases hnull
  · rintro ⟨p, hp, hvalid⟩
    refine ⟨fun q hq ↦ ?_, fun q hq _ ↦ ?_, fun hall ↦ absurd hvalid (hall p hp)⟩
    · exact absurd hq.valid.signature (hnone q (searched_of_inside hq.inside))
    · rw [hfind] at hq
      cases hq

/-- **When the search for the descriptor is right.**  For every content of memory: the text is
somewhere in the windows, and the first place with it has a valid descriptor, or no place does that
would have to be found; or it is nowhere that is searched, but at the end of a window there is a
descriptor all the same, so that nothing is said about the result. -/
theorem findsRSDP_iff (m : Mem) : FindsRSDP m ↔
    (∃ f, FirstSignature m f ∧ (ValidRSDP m f ∨ ∀ p, ¬ PlacedRSDP m p)) ∨
      ((∀ p, Searched p → ¬ HasSignature m p) ∧ ∃ p, InWindow p 1 ∧ ValidRSDP m p) := by
  obtain ⟨f, hfirst, hsearch⟩ | ⟨hnone, hsearch⟩ := searchRSDPDesc_spec m
  · rw [findsRSDP_iff_of_first hfirst hsearch]
    constructor
    · intro h
      exact .inl ⟨f, hfirst, h⟩
    · rintro (⟨g, hg, h⟩ | ⟨hnone, -⟩)
      · rwa [hfirst.unique hg]
      · exact absurd hfirst.signature (hnone f hfirst.searched)
  · rw [findsRSDP_iff_of_none hnone hsearch,
      or_iff_right fun ⟨f, hf, _⟩ ↦ hnone f hf.searched hf.signature, and_iff_right hnone]

/-- A memory of zeros with the text at `0x80000`, and a descriptor at `0x80020`. -/
def decoyMem : Mem :=
  (Mem.write (fun _ ↦ 0) 0x80000 7 RSDP_SEARCH_STR).write 0x80020 9 fun i ↦
    if i = 8 then 1 else RSDP_SEARCH_STR i

/-- **A stray copy of the text** in front of the descriptor: nothing is found. -/
theorem findsRSDP_decoy : PlacedRSDP decoyMem 0x80020 ∧ findRSDPDesc decoyMem = .ok 0 ∧
    ¬ FindsRSDP decoyMem := by
  have hplaced : PlacedRSDP decoyMem 0x80020 := by
    have hsig : HasSignature decoyMem 0x80020 := by
      rw [HasSignature]
      decide
    exact ⟨⟨hsig, .inl (by decide), by decide⟩, by decide, .inl (by decide)⟩
  have hsearch : searchRSDPDesc decoyMem = 0x80000 := by
    rw [searchRSDPDesc, searchWindow, if_pos (by decide), if_pos (by decide)]
    rfl
  have hfind : findRSDPDesc decoyMem = .ok 0 := by
    rw [findRSDPDesc, hsearch]
    rfl
  refine ⟨hplaced, hfind, fun hfinds ↦ ?_⟩
  obtain ⟨q, hq, hq0, -⟩ := hfinds.complete _ hplaced
  rw [hfind, Except.ok.injEq] at hq
  exact hq0 hq.symm

/-! ## The constructor that relies on it -/

/-- What the constructor gives is a valid descriptor in a window, and the type of it. -/
theorem acpi_header_ok {h : AcpiHeader} (hok : acpi_header m = .ok h) :
    ValidRSDP m h.ptr ∧ InWindow h.ptr 1 ∧ (h.type2 = true ↔ revision m h.ptr = 2) := by
  rw [acpi_header] at hok
  obtain ⟨f, hfirst, hsearch⟩ | ⟨-, hsearch⟩ := searchRSDPDesc_spec m
  · by_cases hvalid : ValidRSDP m f
    · rw [findRSDPDesc_of_valid hfirst hvalid hsearch] at hok
      change (if f = 0 then _ else Except.ok _) = Except.ok h at hok
      rw [if_neg (ne_zero_of_searched hfirst.searched), Except.ok.injEq] at hok
      obtain rfl := hok
      exact ⟨hvalid, inWindow_of_searched hfirst.searched, beq_iff_eq⟩
    · rw [findRSDPDesc_of_not_valid hfirst hvalid hsearch] at hok
      cases hok
  · rw [findRSDPDesc_of_null hsearch] at hok
    cases hok

end RainbowOS.Acpi
