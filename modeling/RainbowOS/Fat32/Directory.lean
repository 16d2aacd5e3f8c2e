import RainbowOS.Fat32.Mount

/-!
# Loading a directory

`readDir` loads the one cluster of a directory and counts the entries before the terminating zero
byte.  `Volume.HasDir` says what has been loaded without saying how, and `loadDir_eq_ok_iff` that
this is what `readDir` computes.  The block is the allocator's: where a sector of the volume has
more bytes than 512, the end of the block is whatever the heap had there.
-/

set_option autoImplicit false

namespace RainbowOS
namespace Fat32

variable {disk : Disk} {this : Volume} {c : BitVec 32} {block dir : Bytes} {n k : ℕ}

/-- The entry number `k` is the first one, from number `n` on, that begins with a zero byte. -/
def EndsAt (dir : Bytes) (n k : ℕ) : Prop :=
  n ≤ k ∧ DirEntry.size * k < dir.length ∧ dir.read8 (DirEntry.size * k) = 0 ∧
    ∀ i, n ≤ i → i < k → dir.read8 (DirEntry.size * i) ≠ 0

theorem countEntries_eq_ok_iff : countEntries dir n = .ok k ↔ EndsAt dir n k := by
  fun_induction countEntries dir n with
  | case1 n hlt hzero =>
    rw [Except.ok.injEq]
    constructor
    · rintro rfl
      exact ⟨Nat.le_refl n, hlt, hzero, fun i hi hin ↦ absurd hi (by omega)⟩
    · rintro ⟨hle, -, -, hne⟩
      by_contra hnk
      exact hne n (Nat.le_refl n) (by omega) hzero
  | case2 n hlt hnonzero ih =>
    rw [ih]
    constructor
    · rintro ⟨hle, hk, hzero, hne⟩
      refine ⟨by omega, hk, hzero, fun i hi hik ↦ ?_⟩
      rcases Nat.eq_or_lt_of_le hi with rfl | hi
      · exact hnonzero
      · exact hne i hi hik
    · rintro ⟨hle, hk, hzero, hne⟩
      have hnk : n ≠ k := by
        rintro rfl
        exact hnonzero hzero
      exact ⟨by omega, hk, hzero, fun i hi hik ↦ hne i (by omega) hik⟩
  | case3 n hge =>
    refine iff_of_false (by simp) ?_
    rintro ⟨hle, hk, -⟩
    simp only [DirEntry.size] at *
    omega

theorem countEntries_error {stop : Stop} (h : countEntries dir n = .error stop) :
    stop = .outOfBounds := by
  fun_induction countEntries dir n with
  | case1 n hlt hzero => cases h
  | case2 n hlt hnonzero ih => exact ih h
  | case3 n hge => exact (Except.error.inj h).symm

/-- A directory of one entry. -/
theorem endsAt_one (hlen : DirEntry.size < dir.length) (hfirst : dir.read8 0 ≠ 0)
    (hzero : dir.read8 DirEntry.size = 0) : EndsAt dir 0 1 := by
  refine ⟨Nat.zero_le 1, hlen, hzero, ?_⟩
  rintro i - hi
  obtain rfl : i = 0 := Nat.lt_one_iff.mp hi
  exact hfirst

/-- Reading the directory at cluster `c` into `block` gives `dir`, with `n` entries. -/
structure Volume.HasDir (this : Volume) (disk : Disk) (c : BitVec 32) (block dir : Bytes) (n : ℕ) :
    Prop where
  /-- The sectors can be read, fit into the block and are put at its beginning. -/
  sectors : ∃ bs, disk.read (this.clusterLBA c) (VBR.sectorsPerCluster this.vbr).toNat = some bs ∧
    bs.length ≤ block.length ∧ dir = block.overwrite 0 bs
  /-- The entries end inside the block. -/
  ends : EndsAt dir 0 n

/-- A null pointer is handed to the callback. -/
@[simp] theorem loadDir_none : loadDir disk this c none = .error .nullPointer := rfl

@[simp] theorem storeResult_none {α : Type} (a : α) :
    storeResult none a = .error .nullPointer := rfl

@[simp] theorem storeResult_some {α : Type} (b : Bytes) (a : α) : storeResult (some b) a = .ok a :=
  rfl

theorem loadDir_eq_ok_iff :
    loadDir disk this c (some block) = .ok ⟨n, dir⟩ ↔ this.HasDir disk c block dir n := by
  rw [loadDir]
  cases hread : disk.read (this.clusterLBA c) (VBR.sectorsPerCluster this.vbr).toNat with
  | none =>
    rw [Disk.readInto_of_failure hread]
    refine iff_of_false ?_ ?_
    · rcases disk.failure_cases with hfail | ⟨msg, hfail⟩
      · simp [hfail, bind, Except.bind]
      · simp [hfail, bind, Except.bind]
    · rintro ⟨⟨bs, hbs, -⟩, -⟩
      simp [hread] at hbs
  | some bs =>
    have hlen := disk.length_read hread
    by_cases hfits : bs.length ≤ block.length
    · rw [Disk.readInto_of_fits hread (by omega)]
      constructor
      · intro h
        cases hcount : countEntries (block.overwrite 0 bs) 0 with
        | error stop => simp [bind, Except.bind, hcount] at h
        | ok k =>
          simp only [bind, Except.bind, hcount, pure, Except.pure, Except.ok.injEq,
            ReadDirResult.mk.injEq] at h
          obtain ⟨rfl, rfl⟩ := h
          exact ⟨⟨bs, hread, hfits, rfl⟩, countEntries_eq_ok_iff.mp hcount⟩
      · rintro ⟨⟨bs', hbs', -, rfl⟩, hends⟩
        rw [hread, Option.some.injEq] at hbs'
        subst hbs'
        simp only [bind, Except.bind, countEntries_eq_ok_iff.mpr hends]
        rfl
    · rw [Disk.readInto_of_not_fits hread (by omega)]
      refine iff_of_false (by simp [bind, Except.bind]) ?_
      rintro ⟨⟨bs', hbs', hle, -⟩, -⟩
      rw [hread, Option.some.injEq] at hbs'
      exact hfits (hbs' ▸ hle)

/-- What `readDir` does when nothing goes wrong. -/
theorem readDir_of_grants {σ : Type} {A : Allocator σ} {h : Heap σ} {entry : BitVec 32}
    (hentry : this.fatEntry c = .ok entry)
    (hsingle : checkSingleCluster (entry &&& clusterMask) = .ok ())
    (hgrants : A.Grants h.state [this.dirSize, 12])
    (hdir : ∀ block : Bytes, block.length = this.dirSize.toNat → this.HasDir disk c block dir n) :
    readDir A disk this c h = some (.ok ⟨n, dir⟩,
      ⟨A.after h.state [this.dirSize, 12], h.refused⟩) := by
  simp only [Allocator.grants_cons, Option.isSome_iff_exists] at hgrants
  obtain ⟨⟨block, hblock⟩, ⟨result, hresult⟩, -⟩ := hgrants
  rw [readDir, hentry, Run.bind_of_ok (Op.ofExec_apply _), hsingle,
    Run.bind_of_ok (Op.ofExec_apply _), Run.bind_of_ok (Op.new_of_some hblock),
    loadDir_eq_ok_iff.mpr (hdir _ (A.length_alloc hblock)),
    Run.bind_of_ok (Op.ofExec_apply _), Run.bind_of_ok (Op.new_of_some hresult), storeResult_some]
  rfl

end Fat32
end RainbowOS
