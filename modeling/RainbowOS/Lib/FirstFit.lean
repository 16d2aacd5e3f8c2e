import Mathlib.Data.List.Chain
import Mathlib.Algebra.BigOperators.Group.List.Basic
import Mathlib.Tactic.Common

/-!
# First-fit allocation over contiguous blocks

A region cut into blocks that follow each other without a gap, every block a header of `hdr` units
and then its data, is just the list of its blocks' sizes and states: the addresses are sums.  A
value of `List Block` therefore cannot overlap itself, and the operations on it are list functions.

* `alloc` takes the first free block that is large enough and splits off what is left over when a
  header fits into it; `release` frees a block and lets it absorb the free blocks right behind it.
* Both keep the total `span`, and change the list `usedRanges` of the blocks in use by exactly one
  entry (`alloc_usedRanges`, `release_usedRanges`).
* The ranges in use are pairwise disjoint, stay inside the region and off the headers
  (`usedRanges_pairwise`, `usedRanges_bounds`, `usedRanges_headers`).
* `NoAdjacentFree` says that no two free blocks are neighbours.  `alloc` keeps it always,
  `release` when the block before the released one is in use; with no block in use it leaves at
  most one block (`eq_singleton_of_noAdjacentFree`).
-/

set_option autoImplicit false

namespace FirstFit

/-- A block of the region: the size of its data, and whether it is in use. -/
structure Block where
  /-- The size of the data, without the header. -/
  size : ℕ
  /-- Whether the block is in use. -/
  used : Bool
  deriving DecidableEq, Repr

variable (hdr : ℕ)

/-- The extent of a list of blocks, headers included. -/
def span : List Block → ℕ
  | [] => 0
  | b :: bs => hdr + b.size + span bs

/-- The data ranges of the blocks in use, each its start and size, for blocks laid out from `a`. -/
def usedRanges : ℕ → List Block → List (ℕ × ℕ)
  | _, [] => []
  | a, b :: bs =>
    let rest := usedRanges (a + hdr + b.size) bs
    if b.used then (a + hdr, b.size) :: rest else rest

/-- The addresses of the headers, followed by the address right behind the last block. -/
def headers : ℕ → List Block → List ℕ
  | a, [] => [a]
  | a, b :: bs => a :: headers (a + hdr + b.size) bs

/-! ## The operations -/

/-- What becomes of a free block of which `n` units are taken. -/
def split (b : Block) (n : ℕ) : List Block :=
  if n + hdr ≤ b.size then [⟨n, true⟩, ⟨b.size - n - hdr, false⟩] else [⟨b.size, true⟩]

/-- Can `n` units be taken from this block? -/
def fits (n : ℕ) (b : Block) : Bool := !b.used && decide (n ≤ b.size)

/-- First fit: the new list of blocks and the start of the data that was handed out. -/
def alloc (n : ℕ) : ℕ → List Block → Option (List Block × ℕ)
  | _, [] => none
  | a, b :: bs =>
    if fits n b then some (split hdr b n ++ bs, a + hdr)
    else (alloc n (a + hdr + b.size) bs).map fun r ↦ (b :: r.1, r.2)

/-- A free block followed by a list of blocks absorbs the free ones at the head of the list. -/
def absorb : ℕ → List Block → List Block
  | n, [] => [⟨n, false⟩]
  | n, c :: cs => if c.used then ⟨n, false⟩ :: c :: cs else absorb (n + hdr + c.size) cs

/-- Free the block whose data starts at `p`. -/
def release (p : ℕ) : ℕ → List Block → Option (List Block)
  | _, [] => none
  | a, b :: bs =>
    if a + hdr = p then some (absorb hdr b.size bs)
    else (release p (a + hdr + b.size) bs).map (b :: ·)

/-- No two neighbouring blocks are both free. -/
def NoAdjacentFree (bs : List Block) : Prop := bs.IsChain fun b c ↦ b.used = true ∨ c.used = true

variable {hdr}

/-! ## The extent is kept -/

@[simp] theorem span_nil : span hdr [] = 0 := rfl

@[simp] theorem span_cons (b : Block) (bs : List Block) :
    span hdr (b :: bs) = hdr + b.size + span hdr bs := rfl

@[simp] theorem span_append (bs cs : List Block) :
    span hdr (bs ++ cs) = span hdr bs + span hdr cs := by
  induction bs with
  | nil => simp
  | cons b bs ih => simp only [List.cons_append, span_cons, ih]; omega

theorem span_split {b : Block} {n : ℕ} : span hdr (split hdr b n) = hdr + b.size := by
  rw [split]
  split <;> simp only [span_cons, span_nil] <;> omega

theorem span_absorb (n : ℕ) (bs : List Block) :
    span hdr (absorb hdr n bs) = hdr + n + span hdr bs := by
  induction bs generalizing n with
  | nil => rfl
  | cons c cs ih =>
    rw [absorb]
    split
    · rfl
    · rw [ih, span_cons]; omega

/-! ## What an operation can do

An allocation and a release change one block and what is right behind it; the two lemmas below say
where that block is and what it is replaced by, and everything else is read off them. -/

/-- **What an allocation does**: the first block that fits is split, and nothing else changes. -/
theorem alloc_cases {n a p : ℕ} {bs bs' : List Block} (h : alloc hdr n a bs = some (bs', p)) :
    ∃ pre b post, bs = pre ++ b :: post ∧ (∀ c ∈ pre, fits n c = false) ∧ fits n b = true ∧
      p = a + span hdr pre + hdr ∧ bs' = pre ++ (split hdr b n ++ post) := by
  induction bs generalizing a bs' with
  | nil => simp [alloc] at h
  | cons b bs ih =>
    rw [alloc] at h
    split at h
    · rename_i hb
      cases h
      exact ⟨[], b, bs, rfl, by simp, hb, rfl, rfl⟩
    · rename_i hb
      obtain ⟨⟨r, q⟩, hr, hq⟩ := Option.map_eq_some_iff.mp h
      cases hq
      obtain ⟨pre, c, post, rfl, hpre, hc, rfl, rfl⟩ := ih hr
      refine ⟨b :: pre, c, post, rfl, ?_, hc, by rw [span_cons]; omega, rfl⟩
      exact List.forall_mem_cons.mpr ⟨by simpa using hb, hpre⟩

/-- An allocation fails only when no block fits. -/
theorem alloc_eq_none_iff {n a : ℕ} {bs : List Block} :
    alloc hdr n a bs = none ↔ ∀ b ∈ bs, fits n b = false := by
  induction bs generalizing a with
  | nil => simp [alloc]
  | cons b bs ih =>
    rw [alloc]
    cases hb : fits n b <;> simp [ih, hb]

/-- **What a release does**: one block absorbs the free blocks behind it, and nothing else
changes. -/
theorem release_cases {a p : ℕ} {bs bs' : List Block} (h : release hdr p a bs = some bs') :
    ∃ pre b post, bs = pre ++ b :: post ∧ p = a + span hdr pre + hdr ∧
      bs' = pre ++ absorb hdr b.size post := by
  induction bs generalizing a bs' with
  | nil => simp [release] at h
  | cons b bs ih =>
    rw [release] at h
    split at h
    · rename_i ha
      cases h
      exact ⟨[], b, bs, rfl, ha.symm, rfl⟩
    · obtain ⟨r, hr, rfl⟩ := Option.map_eq_some_iff.mp h
      obtain ⟨pre, c, post, rfl, rfl, rfl⟩ := ih hr
      exact ⟨b :: pre, c, post, rfl, by rw [span_cons]; omega, rfl⟩

/-- There is nothing to release behind the last block. -/
theorem release_eq_none_of_lt {a p : ℕ} {bs : List Block} (h : a + span hdr bs < p) :
    release hdr p a bs = none := by
  induction bs generalizing a with
  | nil => rfl
  | cons b bs ih =>
    rw [span_cons] at h
    rw [release, if_neg (by omega), ih (by omega), Option.map_none]

theorem span_alloc {n a p : ℕ} {bs bs' : List Block} (h : alloc hdr n a bs = some (bs', p)) :
    span hdr bs' = span hdr bs := by
  obtain ⟨pre, b, post, rfl, -, -, -, rfl⟩ := alloc_cases h
  simp only [span_append, span_split, span_cons]

theorem span_release {a p : ℕ} {bs bs' : List Block} (h : release hdr p a bs = some bs') :
    span hdr bs' = span hdr bs := by
  obtain ⟨pre, b, post, rfl, -, rfl⟩ := release_cases h
  simp only [span_append, span_absorb, span_cons]

/-! ## The ranges in use -/

@[simp] theorem usedRanges_nil (a : ℕ) : usedRanges hdr a [] = [] := rfl

theorem usedRanges_cons_used {b : Block} (h : b.used = true) (a : ℕ) (bs : List Block) :
    usedRanges hdr a (b :: bs) = (a + hdr, b.size) :: usedRanges hdr (a + hdr + b.size) bs :=
  if_pos h

theorem usedRanges_cons_free {b : Block} (h : b.used = false) (a : ℕ) (bs : List Block) :
    usedRanges hdr a (b :: bs) = usedRanges hdr (a + hdr + b.size) bs :=
  if_neg (by simp [h])

/-- A range in use lies inside the extent of the blocks. -/
theorem usedRanges_bounds {a : ℕ} {bs : List Block} {r : ℕ × ℕ} (h : r ∈ usedRanges hdr a bs) :
    a + hdr ≤ r.1 ∧ r.1 + r.2 ≤ a + span hdr bs := by
  induction bs generalizing a with
  | nil => simp at h
  | cons b bs ih =>
    have htail : r ∈ usedRanges hdr (a + hdr + b.size) bs →
        a + hdr ≤ r.1 ∧ r.1 + r.2 ≤ a + span hdr (b :: bs) := by
      intro hr
      have hb := ih hr
      rw [span_cons]
      omega
    cases hu : b.used with
    | false => rw [usedRanges_cons_free hu] at h; exact htail h
    | true =>
      rw [usedRanges_cons_used hu, List.mem_cons] at h
      rcases h with rfl | h
      · rw [span_cons]
        dsimp only
        omega
      · exact htail h

/-- Two ranges in use are a header apart. -/
theorem usedRanges_pairwise (a : ℕ) (bs : List Block) :
    (usedRanges hdr a bs).Pairwise fun r s ↦ r.1 + r.2 + hdr ≤ s.1 := by
  induction bs generalizing a with
  | nil => exact .nil
  | cons b bs ih =>
    cases hu : b.used with
    | false => rw [usedRanges_cons_free hu]; exact ih _
    | true =>
      rw [usedRanges_cons_used hu]
      refine List.Pairwise.cons (fun s hs ↦ ?_) (ih _)
      have := usedRanges_bounds hs
      dsimp only
      omega

/-- A header of the blocks starts no earlier than the first one. -/
theorem le_of_mem_headers {a x : ℕ} {bs : List Block} (h : x ∈ headers hdr a bs) :
    a ≤ x ∧ x ≤ a + span hdr bs := by
  induction bs generalizing a with
  | nil => simp only [headers, List.mem_singleton] at h; subst h; simp
  | cons b bs ih =>
    rw [headers, List.mem_cons] at h
    rcases h with rfl | h
    · exact ⟨le_refl x, Nat.le_add_right _ _⟩
    · have := ih h
      rw [span_cons]
      omega

/-- **A range in use overlaps no header.** -/
theorem usedRanges_headers {a x : ℕ} {bs : List Block} {r : ℕ × ℕ}
    (hr : r ∈ usedRanges hdr a bs) (hx : x ∈ headers hdr a bs) :
    x + hdr ≤ r.1 ∨ r.1 + r.2 ≤ x := by
  induction bs generalizing a with
  | nil => simp at hr
  | cons b bs ih =>
    rw [headers, List.mem_cons] at hx
    have htail : r ∈ usedRanges hdr (a + hdr + b.size) bs → x + hdr ≤ r.1 ∨ r.1 + r.2 ≤ x := by
      intro hr
      rcases hx with rfl | hx
      · have := usedRanges_bounds hr
        omega
      · exact ih hr hx
    cases hu : b.used with
    | false => rw [usedRanges_cons_free hu] at hr; exact htail hr
    | true =>
      rw [usedRanges_cons_used hu, List.mem_cons] at hr
      rcases hr with rfl | hr
      · rcases hx with rfl | hx
        · exact Or.inl (le_refl _)
        · exact Or.inr (le_of_mem_headers hx).1
      · exact htail hr

theorem usedRanges_append (a : ℕ) (bs cs : List Block) :
    usedRanges hdr a (bs ++ cs) = usedRanges hdr a bs ++ usedRanges hdr (a + span hdr bs) cs := by
  induction bs generalizing a with
  | nil => simp
  | cons b bs ih =>
    have hassoc : a + hdr + b.size + span hdr bs = a + span hdr (b :: bs) := by
      rw [span_cons]; omega
    cases hu : b.used with
    | false =>
      rw [List.cons_append, usedRanges_cons_free hu, usedRanges_cons_free hu, ih, hassoc]
    | true =>
      rw [List.cons_append, usedRanges_cons_used hu, usedRanges_cons_used hu, ih, hassoc,
        List.cons_append]

/-- The one range in use after a split. -/
theorem usedRanges_split (a : ℕ) (b : Block) (n : ℕ) :
    usedRanges hdr a (split hdr b n) = [(a + hdr, if n + hdr ≤ b.size then n else b.size)] := by
  rw [split]
  split <;> rfl

theorem usedRanges_absorb (a n : ℕ) (bs : List Block) :
    usedRanges hdr a (absorb hdr n bs) = usedRanges hdr (a + hdr + n) bs := by
  induction bs generalizing n with
  | nil => rfl
  | cons c cs ih =>
    rw [absorb]
    split
    · rfl
    · rename_i hc
      rw [ih, usedRanges_cons_free (by simpa using hc)]
      congr 1
      omega

/-- **An allocation adds one range in use**, the one it hands out; its size is the size asked for
when the block taken fits exactly or leaves room for a header. -/
theorem alloc_usedRanges {n a p : ℕ} {bs bs' : List Block} (h : alloc hdr n a bs = some (bs', p))
    (hroom : ∀ b, bs.find? (fits n) = some b → b.size = n ∨ n + hdr ≤ b.size) :
    (usedRanges hdr a bs').Perm ((p, n) :: usedRanges hdr a bs) := by
  obtain ⟨pre, b, post, rfl, hpre, hb, rfl, rfl⟩ := alloc_cases h
  have hfind : (pre ++ b :: post).find? (fits n) = some b := by
    rw [List.find?_append, List.find?_eq_none.mpr (by simpa using hpre), Option.none_or,
      List.find?_cons_of_pos hb]
  have hn : (if n + hdr ≤ b.size then n else b.size) = n := by
    have := hroom b hfind
    split <;> omega
  have hfree : b.used = false := by
    rw [fits, Bool.and_eq_true, Bool.not_eq_true'] at hb
    exact hb.1
  rw [usedRanges_append, usedRanges_append, usedRanges_append, usedRanges_split, span_split, hn,
    usedRanges_cons_free hfree, ← Nat.add_assoc]
  exact List.perm_middle

/-- **A release removes the range it is given**, and no other. -/
theorem release_usedRanges {a p : ℕ} {bs bs' : List Block} (h : release hdr p a bs = some bs')
    (hpos : 0 < hdr) :
    usedRanges hdr a bs' = (usedRanges hdr a bs).filter fun r ↦ decide (r.1 ≠ p) := by
  obtain ⟨pre, b, post, rfl, rfl, rfl⟩ := release_cases h
  -- the ranges before the released block end before its header, those behind start behind its data
  have hpre : (usedRanges hdr a pre).filter
      (fun r ↦ decide (r.1 ≠ a + span hdr pre + hdr)) = usedRanges hdr a pre := by
    refine List.filter_eq_self.mpr fun r hr ↦ ?_
    have := usedRanges_bounds hr
    rw [decide_eq_true_eq]
    omega
  have hpost : (usedRanges hdr (a + span hdr pre + hdr + b.size) post).filter
      (fun r ↦ decide (r.1 ≠ a + span hdr pre + hdr))
        = usedRanges hdr (a + span hdr pre + hdr + b.size) post := by
    refine List.filter_eq_self.mpr fun r hr ↦ ?_
    have := usedRanges_bounds hr
    rw [decide_eq_true_eq]
    omega
  rw [usedRanges_append, usedRanges_append, List.filter_append, hpre, usedRanges_absorb]
  cases hu : b.used with
  | false => rw [usedRanges_cons_free hu, hpost]
  | true => rw [usedRanges_cons_used hu, List.filter_cons_of_neg (by simp), hpost]

/-- A range in use can be released. -/
theorem exists_release {a : ℕ} {bs : List Block} {r : ℕ × ℕ} (h : r ∈ usedRanges hdr a bs) :
    ∃ bs', release hdr r.1 a bs = some bs' := by
  induction bs generalizing a with
  | nil => simp at h
  | cons b bs ih =>
    rw [release]
    split
    · exact ⟨_, rfl⟩
    · rename_i ha
      have htail : r ∈ usedRanges hdr (a + hdr + b.size) bs := by
        cases hu : b.used with
        | false => rwa [usedRanges_cons_free hu] at h
        | true =>
          rw [usedRanges_cons_used hu, List.mem_cons] at h
          rcases h with rfl | h
          · exact absurd rfl ha
          · exact h
      obtain ⟨bs', hbs'⟩ := ih htail
      exact ⟨b :: bs', by rw [hbs', Option.map_some]⟩

/-! ## Neighbouring free blocks -/

theorem noAdjacentFree_absorb {n : ℕ} {bs : List Block} (h : NoAdjacentFree bs) :
    NoAdjacentFree (absorb hdr n bs) := by
  induction bs generalizing n with
  | nil => exact .singleton _
  | cons c cs ih =>
    rw [absorb]
    split
    · rename_i hc
      exact .cons_cons (Or.inr hc) h
    · exact ih h.tail

/-- **First fit never puts two free blocks side by side.** -/
theorem noAdjacentFree_alloc {n a p : ℕ} {bs bs' : List Block}
    (h : alloc hdr n a bs = some (bs', p)) (hbs : NoAdjacentFree bs) : NoAdjacentFree bs' := by
  obtain ⟨pre, b, post, rfl, -, hb, -, rfl⟩ := alloc_cases h
  have hfree : b.used = false := by
    rw [fits, Bool.and_eq_true, Bool.not_eq_true'] at hb
    exact hb.1
  obtain ⟨hpre, hpost, hjoin⟩ := List.isChain_append.mp hbs
  refine List.isChain_append.mpr ⟨hpre, ?_, ?_⟩
  · have hnext : ∀ c ∈ post.head?, c.used = true := by
      intro c hc
      simpa [hfree] using (List.isChain_cons.mp hpost).1 c hc
    rw [split]
    split
    · refine .cons_cons (Or.inl rfl) (List.isChain_cons.mpr ⟨fun c hc ↦ ?_, hpost.tail⟩)
      exact Or.inr (hnext c hc)
    · exact List.isChain_cons.mpr ⟨fun c hc ↦ Or.inl rfl, hpost.tail⟩
  · intro c hc d hd
    have : d.used = true := by
      rw [split] at hd
      split at hd <;> simp at hd <;> simp [← hd]
    exact Or.inr this

/-- **A release keeps free blocks apart when the block before the released one is in use.** -/
theorem noAdjacentFree_release {a p : ℕ} {bs bs' : List Block} (h : release hdr p a bs = some bs')
    (hbs : NoAdjacentFree bs)
    (hprev : ∀ pre b post, bs = pre ++ b :: post → p = a + span hdr pre + hdr →
      ∀ c ∈ pre.getLast?, c.used = true) : NoAdjacentFree bs' := by
  obtain ⟨pre, b, post, rfl, hp, rfl⟩ := release_cases h
  obtain ⟨hpre, hpost, -⟩ := List.isChain_append.mp hbs
  refine List.isChain_append.mpr ⟨hpre, noAdjacentFree_absorb hpost.tail, ?_⟩
  exact fun c hc d _ ↦ Or.inl (hprev pre b post rfl hp c hc)

/-- **With nothing in use and no two free neighbours there is at most one block**, which then
covers the whole extent. -/
theorem eq_singleton_of_noAdjacentFree {a : ℕ} {bs : List Block} (hbs : NoAdjacentFree bs)
    (hempty : usedRanges hdr a bs = []) : bs = [] ∨ ∃ n, bs = [⟨n, false⟩] := by
  cases bs with
  | nil => exact Or.inl rfl
  | cons b bs =>
    have hb : b.used = false := by
      by_contra hu
      rw [usedRanges_cons_used (by simpa using hu)] at hempty
      exact absurd hempty (by simp)
    rw [usedRanges_cons_free hb] at hempty
    cases bs with
    | nil => exact Or.inr ⟨b.size, by rw [← hb]⟩
    | cons c cs =>
      have hc : c.used = true := by simpa [hb] using (List.isChain_cons_cons.mp hbs).1
      rw [usedRanges_cons_used hc] at hempty
      exact absurd hempty (by simp)

end FirstFit
