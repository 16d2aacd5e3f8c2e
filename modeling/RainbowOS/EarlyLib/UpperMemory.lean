import Mathlib.Data.BitVec
import RainbowOS.EarlyLib.MemoryDetection
import RainbowOS.Lib.Bits

/-!
# Which records of the memory map are kept, and what their lengths add up to

The BIOS marks a record of more than 20 bytes as valid with bit 0 of its attributes.
`queryUpperMemory` looks for the mark in the last member of the element that the record was written
to, which lies behind the record and which nothing writes, and it keeps the records without it.

* `queryUpperMemory_exact_iff` — for a dialogue that ends, the valid records are returned exactly if
  that bit of the heap's happens to be the opposite of the mark, for every record of more than 20
  bytes.
* `getUpperMemorySize_exact_iff` — the sum of the lengths is exact, or 0 where it does not fit,
  unless it passes from below `2 ^ 32` over a multiple of `2 ^ 64` every time it gets out of the
  32-bit numbers.
-/

set_option autoImplicit false
-- The two lengths are read byte by byte.
set_option maxRecDepth 4000

namespace RainbowOS

variable {m m' : Mem} {mmapPtr : Addr} {answers rest : List Int15Answer} {a : Int15Answer}
  {pad : ℕ → BitVec 32} {size n : ℕ}

/-! ## The dialogue -/

/-- A dialogue without errors: the continuation value is 0 in the last answer only. -/
def Dialogue : List Int15Answer → Prop
  | [] => False
  | [a] => a.carry = false ∧ a.eax = eaxSignature ∧ a.ebx = 0
  | a :: b :: rest => a.carry = false ∧ a.eax = eaxSignature ∧ a.ebx ≠ 0 ∧ Dialogue (b :: rest)

theorem Dialogue.head (h : Dialogue (a :: rest)) : a.carry = false ∧ a.eax = eaxSignature := by
  cases rest with
  | nil => exact ⟨h.1, h.2.1⟩
  | cons b rest => exact ⟨h.1, h.2.1⟩

/-- The mark of a valid record. -/
def E820Record.Marked (r : E820Record) : Bool := r.attributes.getLsbD 0

/-- The record counts: it has at most 20 bytes, or the mark. -/
def Int15Answer.Valid (a : Int15Answer) : Bool := decide (a.ecx ≤ 20) || a.record.Marked

/-- The records that are to be returned. -/
def validRecords (answers : List Int15Answer) : List E820Record :=
  (answers.filter Int15Answer.Valid).map Int15Answer.record

/-- The records kept, without regard to the continuation values. -/
def keptAnswers (pad : ℕ → BitVec 32) : List Int15Answer → ℕ → List E820Record
  | [], _ => []
  | a :: rest, size =>
    if a.Kept (pad size) then a.record :: keptAnswers pad rest (size + 1)
    else keptAnswers pad rest size

/-- A dialogue is not cut short. -/
theorem keptRecords_eq (hdialogue : Dialogue answers) :
    keptRecords pad answers size = keptAnswers pad answers size := by
  induction answers generalizing size with
  | nil => rfl
  | cons a rest ih =>
    cases rest with
    | nil =>
      have hebx : a.ebx = 0 := hdialogue.2.2
      simp [keptRecords, keptAnswers, hebx]
    | cons b rest =>
      obtain ⟨-, -, hebx, hrest⟩ := hdialogue
      rw [keptRecords, keptAnswers]
      simp only [if_pos hebx, ih hrest]

/-- As long as fewer than 100 records are kept, the loop returns. -/
theorem queryUpperMemoryLoop_returns (hlow : mmapPtr.toNat + 2800 ≤ 0x70000)
    (hdialogue : Dialogue answers) (hpad : PadsAre m mmapPtr pad)
    (hfew : size + (keptAnswers pad answers size).length < 100) :
    ∃ m' n, queryUpperMemoryLoop mmapPtr answers m size = some (.ok (m', n)) := by
  induction answers generalizing m size with
  | nil => cases hdialogue
  | cons a rest ih =>
    have hsize : size < 100 := by omega
    have hpad' := hpad.store hlow hsize a.record
    obtain ⟨size', hsize'⟩ : ∃ size', size' = if a.Kept (pad size) then size + 1 else size :=
      ⟨_, rfl⟩
    have hfew' : size' + (keptAnswers pad rest size').length < 100 := by
      rw [keptAnswers] at hfew
      rw [hsize']
      split
      next hkept =>
        rw [if_pos hkept, List.length_cons] at hfew
        omega
      next hkept =>
        rw [if_neg hkept] at hfew
        exact hfew
    obtain ⟨hcarry, heax⟩ := hdialogue.head
    rw [queryUpperMemoryLoop_cons hlow hsize hpad]
    dsimp only
    rw [if_neg (by simp [hcarry]), if_neg (not_not_intro heax), ← hsize',
      if_neg (by rw [mmapMaxSize]; omega)]
    cases rest with
    | nil =>
      have hebx : a.ebx = 0 := hdialogue.2.2
      rw [if_neg (not_not_intro hebx)]
      exact ⟨_, _, rfl⟩
    | cons b rest =>
      obtain ⟨-, -, hebx, hrest⟩ := hdialogue
      rw [if_pos hebx]
      exact ih hrest hpad' hfew'

/-- The loop writes into the array only. -/
theorem queryUpperMemoryLoop_eqOff (hlow : mmapPtr.toNat + 2800 ≤ 0x70000) (hsize : size < 100)
    (hpad : PadsAre m mmapPtr pad)
    (hret : queryUpperMemoryLoop mmapPtr answers m size = some (.ok (m', n))) :
    m.EqOff m' mmapPtr.toNat (mmapPtr.toNat + 2800) := by
  induction answers generalizing m size with
  | nil => cases hret
  | cons a rest ih =>
    have helem := toNat_mmapElem hlow hsize
    obtain ⟨m₁, size', hm₁, -, hmax, hrest⟩ := queryUpperMemoryLoop_cons_ok hlow hsize hpad hret
    have hstore : m.EqOff m₁ mmapPtr.toNat (mmapPtr.toNat + 2800) :=
      hm₁ ▸ (Mem.eqOff_write m _ _ (by omega)).mono (by omega) (by omega)
    obtain ⟨-, hloop⟩ | ⟨-, rfl, -⟩ := hrest
    · exact hstore.trans (ih hmax (hm₁ ▸ hpad.store hlow hsize a.record) hloop)
    · exact hstore

/-! ## Keeping what is valid -/

theorem and_one_beq_zero (w : BitVec 32) : (w &&& 1 == 0) = !w.getLsbD 0 := by
  cases hbit : w.getLsbD 0 with
  | true => exact beq_false_of_ne (Bits.and_one_ne_zero_iff.mpr hbit)
  | false =>
    refine beq_iff_eq.mpr (not_not.mp fun hne ↦ ?_)
    rw [Bits.and_one_ne_zero_iff.mp hne] at hbit
    cases hbit

/-- The decision is right for a short record, and else if the bit in the heap is the opposite of the
mark. -/
theorem Int15Answer.kept_eq_valid_iff {w : BitVec 32} :
    a.Kept w = a.Valid ↔ a.ecx ≤ 20 ∨ w.getLsbD 0 = !a.record.Marked := by
  rw [Kept, Valid, and_one_beq_zero]
  by_cases hshort : a.ecx ≤ 20
  · rw [decide_eq_true hshort, Bool.true_or, Bool.true_or]
    exact iff_of_true rfl (.inl hshort)
  · rw [decide_eq_false hshort, Bool.false_or, Bool.false_or, or_iff_right hshort]
    cases w.getLsbD 0 with
    | false => cases a.record.Marked <;> decide
    | true => cases a.record.Marked <;> decide

/-- For every record of more than 20 bytes, bit 0 of `pad k` is the opposite of the mark, where `k`
is the number of valid records before it, counted from `size` on. -/
def BitsOppose (pad : ℕ → BitVec 32) (answers : List Int15Answer) (size : ℕ) : Prop :=
  ∀ i (a : Int15Answer), answers[i]? = some a → a.ecx ≤ 20 ∨
    (pad (size + (answers.take i).countP Int15Answer.Valid)).getLsbD 0 = !a.record.Marked

theorem bitsOppose_cons_iff : BitsOppose pad (a :: rest) size ↔
    a.Kept (pad size) = a.Valid ∧ BitsOppose pad rest (if a.Valid then size + 1 else size) := by
  rw [Int15Answer.kept_eq_valid_iff]
  have hcount : ∀ i, size + ((a :: rest).take (i + 1)).countP Int15Answer.Valid =
      (if a.Valid then size + 1 else size) + (rest.take i).countP Int15Answer.Valid := by
    intro i
    rw [List.take_succ_cons, List.countP_cons]
    split <;> omega
  constructor
  · intro h
    refine ⟨h 0 a rfl, fun i b hb ↦ ?_⟩
    rw [← hcount]
    exact h (i + 1) b hb
  · rintro ⟨hhead, htail⟩ i b hb
    cases i with
    | zero =>
      obtain rfl : a = b := Option.some.inj hb
      exact hhead
    | succ i =>
      rw [hcount]
      exact htail i b hb

theorem validRecords_cons (a : Int15Answer) (rest : List Int15Answer) :
    validRecords (a :: rest) =
      if a.Valid then a.record :: validRecords rest else validRecords rest := by
  rw [validRecords, List.filter_cons]
  split
  · rfl
  · rfl

theorem countP_keptAnswers_cons (p : E820Record → Bool) (a : Int15Answer)
    (rest : List Int15Answer) : (keptAnswers pad (a :: rest) size).countP p =
      (keptAnswers pad rest (if a.Kept (pad size) then size + 1 else size)).countP p +
        (a.Kept (pad size) && p a.record).toNat := by
  rw [keptAnswers]
  cases a.Kept (pad size) with
  | false => rfl
  | true =>
    rw [if_pos rfl, if_pos rfl, List.countP_cons]
    cases p a.record <;> rfl

theorem countP_validRecords_cons (p : E820Record → Bool) (a : Int15Answer)
    (rest : List Int15Answer) : (validRecords (a :: rest)).countP p =
      (validRecords rest).countP p + (a.Valid && p a.record).toNat := by
  rw [validRecords_cons]
  cases a.Valid with
  | false => rfl
  | true =>
    rw [if_pos rfl, List.countP_cons]
    cases p a.record <;> rfl

/-- Records with the mark are valid, so no more of them can be kept. -/
theorem countP_marked_le (pad : ℕ → BitVec 32) (answers : List Int15Answer) (size : ℕ) :
    (keptAnswers pad answers size).countP E820Record.Marked ≤
      (validRecords answers).countP E820Record.Marked := by
  induction answers generalizing size with
  | nil => exact Nat.le_refl _
  | cons a rest ih =>
    rw [countP_keptAnswers_cons, countP_validRecords_cons]
    refine Nat.add_le_add (ih _) ?_
    rw [Int15Answer.Valid]
    cases a.record.Marked with
    | false => simp
    | true => simpa using Bool.toNat_le _

/-- Records without it are valid only if they are kept in any case. -/
theorem countP_unmarked_le (pad : ℕ → BitVec 32) (answers : List Int15Answer) (size : ℕ) :
    (validRecords answers).countP (fun r ↦ !r.Marked) ≤
      (keptAnswers pad answers size).countP fun r ↦ !r.Marked := by
  induction answers generalizing size with
  | nil => exact Nat.le_refl _
  | cons a rest ih =>
    rw [countP_keptAnswers_cons, countP_validRecords_cons]
    refine Nat.add_le_add (ih _) ?_
    rw [Int15Answer.Valid, Int15Answer.Kept]
    cases decide (a.ecx ≤ 20) with
    | false => cases a.record.Marked <;> simp
    | true => simp

/-- **Only right decisions keep exactly the valid records.** -/
theorem keptAnswers_eq_iff :
    keptAnswers pad answers size = validRecords answers ↔ BitsOppose pad answers size := by
  induction answers generalizing size with
  | nil => exact iff_of_true rfl fun i b hb ↦ by simp at hb
  | cons a rest ih =>
    rw [bitsOppose_cons_iff]
    cases hkept : a.Kept (pad size) with
    | true =>
      cases hvalid : a.Valid with
      | true => simp [keptAnswers, validRecords_cons, hkept, hvalid, ih]
      | false =>
        -- An unmarked record too many.
        refine iff_of_false (fun heq ↦ ?_) (by simp)
        have hmark : a.record.Marked = false := (Bool.or_eq_false_iff.mp hvalid).2
        have hcount := congrArg (List.countP fun r ↦ !r.Marked) heq
        rw [countP_keptAnswers_cons, countP_validRecords_cons, hkept, hvalid, hmark] at hcount
        have hle := countP_unmarked_le pad rest (size + 1)
        simp only [if_true, Bool.not_false, Bool.and_self, Bool.toNat_true, Bool.false_and,
          Bool.toNat_false] at hcount
        omega
    | false =>
      cases hvalid : a.Valid with
      | true =>
        -- A marked record too few.
        refine iff_of_false (fun heq ↦ ?_) (by simp)
        have hshort : decide (a.ecx ≤ 20) = false := (Bool.or_eq_false_iff.mp hkept).1
        have hmark : a.record.Marked = true := by
          rwa [Int15Answer.Valid, hshort, Bool.false_or] at hvalid
        have hcount := congrArg (List.countP E820Record.Marked) heq
        rw [countP_keptAnswers_cons, countP_validRecords_cons, hkept, hvalid, hmark] at hcount
        have hle := countP_marked_le pad rest size
        simp only [Bool.false_eq_true, if_false, Bool.and_self, Bool.toNat_true, Bool.false_and,
          Bool.toNat_false] at hcount
        omega
      | false => simp [keptAnswers, validRecords_cons, hkept, hvalid, ih]

/-- A record is its six words. -/
theorem E820Record.ext_word {r r' : E820Record} (h : ∀ i < 6, r.word i = r'.word i) : r = r' := by
  have hbase : r.base = r'.base := by
    rw [r.base_eq, r'.base_eq, h 0 (by decide), h 1 (by decide)]
  have hlength : r.length = r'.length := by
    rw [r.length_eq, r'.length_eq, h 2 (by decide), h 3 (by decide)]
  have htype : r.type = r'.type := h 4 (by decide)
  have hattributes : r.attributes = r'.attributes := h 5 (by decide)
  cases r
  cases r'
  congr

/-- `queryUpperMemory` returns the valid records, each at the beginning of its element and in the
order of the answers, and nothing is written outside the array. -/
def ReturnsValidRecords (m : Mem) (mmapPtr : Addr) (answers : List Int15Answer) : Prop :=
  ∃ m', queryUpperMemory m mmapPtr answers = some (.ok (m', (validRecords answers).length)) ∧
    (∀ k r, (validRecords answers)[k]? = some r → ∀ i < 6,
      m'.read32 (mmapElem mmapPtr k + addr (4 * i)) = r.word i) ∧
    m.EqOff m' mmapPtr.toNat (mmapPtr.toNat + mmapMaxSize * sizeof_mmap_structure_entry)

/-- **When the filter keeps exactly the valid records.**  For every dialogue without errors that has
fewer than 100 valid records, and an array in low memory: this is so exactly if, for every record of
more than 20 bytes, bit 0 of the word that the heap has at the end of the element for it is the
opposite of the record's mark.  A record of fewer than 24 bytes has in its last words what was there
before.  The array at 0, which the heap has refused, is one in low memory too: the code does not
look at it. -/
theorem queryUpperMemory_exact_iff (hlow : mmapPtr.toNat + 2800 ≤ 0x70000)
    (hdialogue : Dialogue answers) (hfew : (validRecords answers).length < 100) :
    ReturnsValidRecords m mmapPtr answers ↔ BitsOppose (padWord m mmapPtr) answers 0 := by
  rw [← keptAnswers_eq_iff]
  have hkept : keptRecords (padWord m mmapPtr) answers 0 =
      keptAnswers (padWord m mmapPtr) answers 0 := keptRecords_eq hdialogue
  constructor
  · rintro ⟨m', hret, helem, -⟩
    obtain ⟨hn, -, hrec⟩ := queryUpperMemory_spec hlow hret
    rw [hkept] at hn hrec
    refine List.ext_getElem? fun k ↦ ?_
    cases hk : (keptAnswers (padWord m mmapPtr) answers 0)[k]? with
    | none =>
      rw [List.getElem?_eq_none_iff, ← hn] at hk
      exact (List.getElem?_eq_none_iff.mpr hk).symm
    | some r =>
      obtain ⟨hlt, -⟩ := List.getElem?_eq_some_iff.mp hk
      obtain ⟨r', hr'⟩ : ∃ r', (validRecords answers)[k]? = some r' :=
        ⟨_, List.getElem?_eq_getElem (hn ▸ hlt)⟩
      rw [hr', Option.some.injEq]
      exact E820Record.ext_word fun i hi ↦
        ((hrec k r hk).1 i hi).symm.trans (helem k r' hr' i hi)
  · intro heq
    have hpad : PadsAre m mmapPtr (padWord m mmapPtr) := fun k _ ↦ rfl
    have hfew' : 0 + (keptAnswers (padWord m mmapPtr) answers 0).length < 100 := by
      rwa [heq, Nat.zero_add]
    obtain ⟨m', n, hret⟩ := queryUpperMemoryLoop_returns hlow hdialogue hpad hfew'
    obtain ⟨rfl, -, hrec⟩ := queryUpperMemory_spec hlow hret
    rw [hkept, heq] at hret hrec
    exact ⟨m', hret, fun k r hr ↦ (hrec k r hr).1,
      queryUpperMemoryLoop_eqOff hlow (by decide) hpad hret⟩

/-- A short record and a long one with the mark, in a heap of zeros. -/
theorem queryUpperMemory_exact_iff_marked :
    ReturnsValidRecords (fun _ ↦ 0) 0x20000 [⟨⟨0, 0x9fc00, 1, 0⟩, eaxSignature, 1, 20, false⟩,
      ⟨⟨0x100000, 0x7ee0000, 1, 1⟩, eaxSignature, 0, 24, false⟩] := by
  refine (queryUpperMemory_exact_iff (by decide) ?_ (by decide)).mpr ?_
  · exact ⟨rfl, rfl, by decide, rfl, rfl, rfl⟩
  · rw [bitsOppose_cons_iff, bitsOppose_cons_iff]
    exact ⟨by decide, by decide, fun i a ha ↦ by simp at ha⟩

/-- A record of 24 bytes without the mark, in a heap of zeros, is not left out. -/
theorem queryUpperMemory_keeps_ignored :
    let answers : List Int15Answer := [⟨⟨0, 0x9fc00, 1, 0⟩, eaxSignature, 0, 24, false⟩]
    Dialogue answers ∧ validRecords answers = [] ∧
      ¬ ReturnsValidRecords (fun _ ↦ 0) 0x20000 answers := by
  intro answers
  refine ⟨⟨rfl, rfl, rfl⟩, by decide, ?_⟩
  rintro ⟨m', hret, -⟩
  obtain ⟨m₁, hrun⟩ : ∃ m₁, queryUpperMemory (fun _ ↦ 0) 0x20000 answers = some (.ok (m₁, 1)) :=
    ⟨_, rfl⟩
  rw [hrun, Option.some.injEq, Except.ok.injEq, Prod.mk.injEq] at hret
  exact absurd hret.2 (by decide)

/-! ## The sum of the lengths -/

/-- The lengths of the first `k` elements, added up. -/
def memorySum (m : Mem) (mmapPtr : Addr) (k : ℕ) : ℕ :=
  ((List.range k).map fun i ↦ (readEntry m (mmapElem mmapPtr i)).length.toNat).sum

theorem memorySum_succ (m : Mem) (mmapPtr : Addr) (k : ℕ) : memorySum m mmapPtr (k + 1) =
    memorySum m mmapPtr k + (readEntry m (mmapElem mmapPtr k)).length.toNat := by
  simp [memorySum, List.range_succ]

theorem memorySum_mono (m : Mem) (mmapPtr : Addr) {k : ℕ} (hk : k ≤ n) :
    memorySum m mmapPtr k ≤ memorySum m mmapPtr n := by
  induction hk with
  | refl => exact Nat.le_refl _
  | step _ ih =>
    rw [memorySum_succ]
    exact Nat.le_add_right_of_le ih

/-- The loop of `getUpperMemorySize` over the first `k` elements. -/
def sizeLoop (m : Mem) (mmapPtr : Addr) (k : ℕ) : Option (BitVec 32) :=
  (List.range k).foldl (fun finalSize k ↦ finalSize.bind fun s ↦
    let test : BitVec 64 := s.setWidth 64 + (readEntry m (mmapElem mmapPtr k)).length
    if 0xffffffff < test then none else some (test.setWidth 32)) (some (0 : BitVec 32))

theorem sizeLoop_succ (m : Mem) (mmapPtr : Addr) (k : ℕ) :
    sizeLoop m mmapPtr (k + 1) = (sizeLoop m mmapPtr k).bind fun s ↦
      if 0xffffffff < s.setWidth 64 + (readEntry m (mmapElem mmapPtr k)).length then none
      else some ((s.setWidth 64 + (readEntry m (mmapElem mmapPtr k)).length).setWidth 32) := by
  rw [sizeLoop, List.range_succ, List.foldl_append]
  rfl

/-- **The running sum** is the sum modulo `2 ^ 64`, as long as that has been a 32-bit number after
every element. -/
theorem sizeLoop_eq (m : Mem) (mmapPtr : Addr) (k : ℕ) :
    ((∀ j ≤ k, memorySum m mmapPtr j % 2 ^ 64 < 2 ^ 32) ∧
      ∃ s, sizeLoop m mmapPtr k = some s ∧ s.toNat = memorySum m mmapPtr k % 2 ^ 64) ∨
    ((∃ j ≤ k, 2 ^ 32 ≤ memorySum m mmapPtr j % 2 ^ 64) ∧ sizeLoop m mmapPtr k = none) := by
  induction k with
  | zero =>
    refine .inl ⟨fun j hj ↦ ?_, 0, rfl, rfl⟩
    obtain rfl := Nat.le_zero.mp hj
    exact (by decide : 0 % 2 ^ 64 < 2 ^ 32)
  | succ k ih =>
    rw [sizeLoop_succ]
    obtain ⟨hall, s, hs, hsum⟩ | ⟨⟨j, hj, hbig⟩, hnone⟩ := ih
    · obtain ⟨test, htest⟩ :
        ∃ test, test = s.setWidth 64 + (readEntry m (mmapElem mmapPtr k)).length := ⟨_, rfl⟩
      have htoNat : test.toNat = memorySum m mmapPtr (k + 1) % 2 ^ 64 := by
        rw [htest, memorySum_succ, BitVec.toNat_add, BitVec.toNat_setWidth, hsum]
        omega
      rw [hs, Option.bind_some, ← htest]
      by_cases hbig : 0xffffffff < test
      · rw [if_pos hbig]
        refine .inr ⟨⟨k + 1, Nat.le_refl _, ?_⟩, rfl⟩
        rw [← htoNat]
        exact hbig
      · rw [if_neg hbig]
        have hsmall : test.toNat < 2 ^ 32 := Nat.lt_succ_of_le (Nat.le_of_not_lt hbig)
        refine .inl ⟨fun j hj ↦ ?_, _, rfl, ?_⟩
        · rcases Nat.le_succ_iff.mp hj with hj | rfl
          · exact hall j hj
          · rwa [← htoNat]
        · rw [BitVec.toNat_setWidth, Nat.mod_eq_of_lt hsmall, htoNat]
    · rw [hnone]
      exact .inr ⟨⟨j, Nat.le_succ_of_le hj, hbig⟩, rfl⟩

/-- **When the total is right.**  For every list of elements: `getUpperMemorySize` returns the sum
of the lengths if that is a 32-bit number and 0 if not, exactly if it is one, or some sum on the way
is not one modulo `2 ^ 64`, or the sum is a multiple of `2 ^ 64`. -/
theorem getUpperMemorySize_exact_iff (m : Mem) (mmapPtr : Addr) (n : ℕ) :
    (getUpperMemorySize m mmapPtr n).toNat =
        (if memorySum m mmapPtr n ≤ 2 ^ 32 - 1 then memorySum m mmapPtr n else 0) ↔
      memorySum m mmapPtr n ≤ 2 ^ 32 - 1 ∨
        (∃ k ≤ n, 2 ^ 32 ≤ memorySum m mmapPtr k % 2 ^ 64) ∨
          memorySum m mmapPtr n % 2 ^ 64 = 0 := by
  have hloop : getUpperMemorySize m mmapPtr n = (sizeLoop m mmapPtr n).getD 0 := rfl
  rw [hloop]
  obtain ⟨hall, s, hs, hsum⟩ | ⟨⟨j, hj, hbig⟩, hnone⟩ := sizeLoop_eq m mmapPtr n
  · rw [hs, Option.getD_some, hsum]
    have hno : ¬ ∃ k ≤ n, 2 ^ 32 ≤ memorySum m mmapPtr k % 2 ^ 64 := fun ⟨k, hk, hbig⟩ ↦
      Nat.not_lt.mpr hbig (hall k hk)
    by_cases hfits : memorySum m mmapPtr n ≤ 2 ^ 32 - 1
    · rw [if_pos hfits]
      exact iff_of_true (Nat.mod_eq_of_lt (by omega)) (.inl hfits)
    · rw [if_neg hfits, or_iff_right hfits, or_iff_right hno]
  · have hle := memorySum_mono m mmapPtr hj
    have hover : ¬ memorySum m mmapPtr n ≤ 2 ^ 32 - 1 := by omega
    rw [hnone, if_neg hover]
    exact iff_of_true rfl (.inr (.inl ⟨j, hj, hbig⟩))

/-- Two elements with the lengths `2` and `2 ^ 64 - 1`: the total is said to be 1. -/
theorem getUpperMemorySize_wraps :
    let m := (Mem.write64 (fun _ ↦ 0) 0x2000c 2).write64 0x20028 (2 ^ 64 - 1)
    memorySum m 0x20000 2 = 2 + (2 ^ 64 - 1) ∧ getUpperMemorySize m 0x20000 2 = 1 := by
  decide

end RainbowOS
