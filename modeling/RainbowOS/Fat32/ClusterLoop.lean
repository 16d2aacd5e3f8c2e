import RainbowOS.Fat32.Mount

/-!
# The loop over the clusters of a file, on any volume

The loop is driven by the FAT alone, the buffer is sized from the size field of the directory
entry, and nothing compares the two.  So on a damaged volume the loop may read past the end of the
FAT, write past the end of the buffer, or go round for ever, which in a finite buffer is the same.

`Volume.walk` follows the FAT without a buffer and says where that ends.  `clusterLoop_spec` reads
the result of the loop off the walk, for every FAT, entry and geometry, and `clusterLoop_sound_iff`
says when nothing goes wrong: exactly if the walk comes to an end mark, or to a sector that cannot
be read, before the buffer is full and without leaving the FAT.
-/

set_option autoImplicit false
-- The sectors of the concrete volumes are evaluated byte by byte.
set_option maxRecDepth 8000

namespace RainbowOS
namespace Fat32

/-- The loop ended as it should: with the buffer, or with a panic. -/
def Sound : Exec (Option Bytes) → Prop
  | .ok buffer => buffer.isSome = true
  | .error (.earlyPanic _) => True
  | .error _ => False

/-! ## The walk along the FAT -/

/-- The cluster that follows `c` in the FAT. -/
def Volume.next (this : Volume) (c : BitVec 32) : BitVec 32 :=
  this.fat.read32 (4 * c.toNat) &&& clusterMask

/-- `c` has an entry in the FAT. -/
def Volume.InFat (this : Volume) (c : BitVec 32) : Prop := 4 * c.toNat + 4 ≤ this.fat.length

instance (this : Volume) (c : BitVec 32) : Decidable (this.InFat c) :=
  inferInstanceAs (Decidable (_ ≤ _))

/-- The sector that the loop reads for the cluster `c` can be read. -/
def Volume.Readable (this : Volume) (disk : Disk) (c : BitVec 32) : Prop :=
  (disk.read (this.clusterLBA c) 1).isSome = true

instance (this : Volume) (disk : Disk) (c : BitVec 32) : Decidable (this.Readable disk c) :=
  inferInstanceAs (Decidable (_ = true))

/-- Where a walk along the FAT ends. -/
inductive WalkEnd where
  /-- At an end mark. -/
  | endMark
  /-- At a cluster whose sector cannot be read. -/
  | unreadable
  /-- At a cluster for which there is no room left. -/
  | noRoom
  /-- At a cluster without an entry in the FAT. -/
  | outsideFat
  deriving DecidableEq, Repr

/-- Where the walk from `c` ends if there is room for the sectors of `n` clusters. -/
def Volume.walk (this : Volume) (disk : Disk) : (n : ℕ) → (c : BitVec 32) → WalkEnd
  | 0, c =>
    if isClusterEnd c then .endMark else if this.Readable disk c then .noRoom else .unreadable
  | n + 1, c =>
    if isClusterEnd c then .endMark
    else if this.Readable disk c then
      if this.InFat c then this.walk disk n (this.next c) else .outsideFat
    else .unreadable

/-- The sectors that the walk from `c` passes on the way to an end mark. -/
def Volume.walkData (this : Volume) (disk : Disk) : (n : ℕ) → (c : BitVec 32) → Bytes
  | 0, _ => []
  | n + 1, c =>
    if isClusterEnd c then []
    else (disk.read (this.clusterLBA c) 1).getD [] ++ this.walkData disk n (this.next c)

/-- Where the walk along the clusters of the file ends whose entry is `e`. -/
def Volume.fileWalk (this : Volume) (disk : Disk) (e : Bytes) : WalkEnd :=
  this.walk disk ((bufferSize e).toNat / sectorSize) (DirEntry.firstCluster e)

/-- The first sectors of the clusters along that walk. -/
def Volume.fileData (this : Volume) (disk : Disk) (e : Bytes) : Bytes :=
  this.walkData disk ((bufferSize e).toNat / sectorSize) (DirEntry.firstCluster e)

/-- The result of the loop that goes with the end of the walk. -/
def WalkEnd.Outcome : WalkEnd → Exec (Option Bytes) → Prop
  | .endMark, r => ∃ b, r = .ok (some b)
  | .unreadable, r => ∃ msg, r = .error (.earlyPanic msg)
  | .noRoom, r => r = .error .outOfBounds
  | .outsideFat, r => r = .error .outOfBounds

variable {disk : Disk} {this : Volume} {c j : BitVec 32} {b : Bytes}

theorem Volume.fatEntry_of_inFat (h : this.InFat c) :
    this.fatEntry c = .ok (this.fat.read32 (4 * c.toNat)) :=
  if_pos h

theorem Volume.fatEntry_of_not_inFat (h : ¬ this.InFat c) : this.fatEntry c = .error .outOfBounds :=
  if_neg h

/-! ## The rounds of the loop -/

theorem clusterStep_of_end {buffer : Option Bytes} (hend : isClusterEnd c = true) :
    clusterStep disk this ⟨c, j, buffer⟩ = .done (.ok buffer) := by
  rw [clusterStep, if_pos hend]

theorem clusterStep_of_unreadable (hend : isClusterEnd c = false) (h : ¬ this.Readable disk c) :
    ∃ msg, clusterStep disk this ⟨c, j, some b⟩ = .done (.error (.earlyPanic msg)) := by
  rw [Volume.Readable, Bool.not_eq_true, Option.isSome_eq_false_iff, Option.isNone_iff_eq_none] at h
  rw [clusterStep, if_neg (by simp [hend])]
  dsimp only
  rw [Disk.readInto_of_failure h]
  rcases disk.failure_cases with hfail | ⟨msg, hfail⟩
  · exact ⟨_, by rw [hfail]⟩
  · exact ⟨msg, by rw [hfail]⟩

/-- A sector that does not fit into the buffer any more. -/
theorem clusterStep_of_full (hend : isClusterEnd c = false) (h : this.Readable disk c)
    (hfull : b.length < (j * BitVec.ofNat 32 sectorSize).toNat + sectorSize) :
    clusterStep disk this ⟨c, j, some b⟩ = .done (.error .outOfBounds) := by
  obtain ⟨bs, hbs⟩ := Option.isSome_iff_exists.mp h
  rw [clusterStep, if_neg (by simp [hend])]
  dsimp only
  rw [Disk.readInto_of_not_fits hbs (by omega)]

/-- A sector that fits, of a cluster without an entry in the FAT. -/
theorem clusterStep_of_not_inFat (hend : isClusterEnd c = false) (h : this.Readable disk c)
    (hfit : (j * BitVec.ofNat 32 sectorSize).toNat + sectorSize ≤ b.length) (hin : ¬ this.InFat c) :
    clusterStep disk this ⟨c, j, some b⟩ = .done (.error .outOfBounds) := by
  obtain ⟨bs, hbs⟩ := Option.isSome_iff_exists.mp h
  rw [clusterStep, if_neg (by simp [hend])]
  dsimp only
  rw [Disk.readInto_of_fits hbs (by omega), Volume.fatEntry_of_not_inFat hin]

/-- A sector that fits: the loop goes on with the next cluster. -/
theorem clusterStep_of_inFat {bs : Bytes} (hend : isClusterEnd c = false)
    (hbs : disk.read (this.clusterLBA c) 1 = some bs)
    (hfit : (j * BitVec.ofNat 32 sectorSize).toNat + sectorSize ≤ b.length) (hin : this.InFat c) :
    clusterStep disk this ⟨c, j, some b⟩ = .next ⟨this.next c, j + 1,
      some (b.overwrite (j * BitVec.ofNat 32 sectorSize).toNat bs)⟩ := by
  rw [clusterStep, if_neg (by simp [hend])]
  dsimp only
  rw [Disk.readInto_of_fits hbs (by omega), Volume.fatEntry_of_inFat hin]
  rfl

/-! ## The loop -/

/-- At an end mark, and at a cluster that cannot be read, the loop ends as the walk does. -/
theorem clusterStep_returns_of_stop (n : ℕ) (b : Bytes)
    (hstop : ¬ (isClusterEnd c = false ∧ this.Readable disk c)) :
    ∃ r, Loop.Returns (clusterStep disk this) ⟨c, j, some b⟩ r ∧
      (this.walk disk n c).Outcome r := by
  cases hend : isClusterEnd c with
  | true =>
    have hwalk : this.walk disk n c = .endMark := by
      cases n with
      | zero => rw [Volume.walk, if_pos hend]
      | succ n => rw [Volume.walk, if_pos hend]
    rw [hwalk]
    exact ⟨_, .of_done (clusterStep_of_end hend), b, rfl⟩
  | false =>
    have hread : ¬ this.Readable disk c := fun hread ↦ hstop ⟨hend, hread⟩
    have hwalk : this.walk disk n c = .unreadable := by
      cases n with
      | zero => rw [Volume.walk, if_neg (by simp [hend]), if_neg hread]
      | succ n => rw [Volume.walk, if_neg (by simp [hend]), if_neg hread]
    rw [hwalk]
    obtain ⟨msg, hmsg⟩ := clusterStep_of_unreadable (j := j) (b := b) hend hread
    exact ⟨_, .of_done hmsg, msg, rfl⟩

/-- The loop ends as the walk does, if there is room for `n` sectors left in the buffer. -/
theorem clusterStep_returns (disk : Disk) (this : Volume) {n : ℕ}
    (hlow : (j.toNat + n) * sectorSize ≤ b.length)
    (hhigh : b.length < (j.toNat + n + 1) * sectorSize) (hmax : b.length < 2 ^ 32) :
    ∃ r, Loop.Returns (clusterStep disk this) ⟨c, j, some b⟩ r ∧
      (this.walk disk n c).Outcome r := by
  rw [sectorSize] at hlow hhigh
  induction n generalizing c j b with
  | zero =>
    by_cases hgo : isClusterEnd c = false ∧ this.Readable disk c
    · obtain ⟨hend, hread⟩ := hgo
      rw [Volume.walk, if_neg (by simp [hend]), if_pos hread]
      refine ⟨_, .of_done (clusterStep_of_full hend hread ?_), rfl⟩
      rw [sectorSize]
      bv_omega
    · exact clusterStep_returns_of_stop 0 b hgo
  | succ n ih =>
    by_cases hgo : isClusterEnd c = false ∧ this.Readable disk c
    · obtain ⟨hend, hread⟩ := hgo
      have hfit : (j * BitVec.ofNat 32 sectorSize).toNat + sectorSize ≤ b.length := by
        rw [sectorSize]
        bv_omega
      rw [Volume.walk, if_neg (by simp [hend]), if_pos hread]
      by_cases hin : this.InFat c
      · have hj : (j + 1).toNat + n = j.toNat + (n + 1) := by bv_omega
        have hlow' : ((j + 1).toNat + n) * 512 ≤ b.length := by simpa only [hj] using hlow
        have hhigh' : b.length < ((j + 1).toNat + n + 1) * 512 := by simpa only [hj] using hhigh
        obtain ⟨bs, hbs⟩ := Option.isSome_iff_exists.mp hread
        have hlen :
            (b.overwrite (j * BitVec.ofNat 32 sectorSize).toNat bs).length = b.length := by
          refine Bytes.length_overwrite ?_
          rw [disk.length_read hbs]
          omega
        obtain ⟨r, hr, hout⟩ := ih (c := this.next c) (hlen ▸ hlow') (hlen ▸ hhigh') (hlen ▸ hmax)
        rw [if_pos hin]
        exact ⟨r, .of_next (clusterStep_of_inFat hend hbs hfit hin) hr, hout⟩
      · rw [if_neg hin]
        exact ⟨_, .of_done (clusterStep_of_not_inFat hend hread hfit hin), rfl⟩
    · exact clusterStep_returns_of_stop (n + 1) b hgo

/-- **The loop over the clusters of a file ends, and how it ends is read off the FAT.** -/
theorem clusterLoop_spec (disk : Disk) (this : Volume) (e : Bytes)
    (hb : b.length = (bufferSize e).toNat) :
    ∃ fuel r, clusterLoop disk this fuel e (some b) = some r ∧
      (this.fileWalk disk e).Outcome r := by
  have hmax : b.length < 2 ^ 32 := hb ▸ (bufferSize e).isLt
  obtain ⟨r, ⟨fuel, hr⟩, hout⟩ := clusterStep_returns disk this
    (c := DirEntry.firstCluster e) (j := 0) (b := b) (n := (bufferSize e).toNat / sectorSize)
    (by simp [hb, sectorSize]; omega) (by simp [hb, sectorSize]; omega) hmax
  exact ⟨fuel, r, hr, hout⟩

/-- A walk that comes to an end mark is at one, or goes on behind a cluster that can be read. -/
theorem Volume.endMark_cases {n : ℕ} (hwalk : this.walk disk n c = .endMark) :
    isClusterEnd c = true ∨ ∃ m bs, n = m + 1 ∧ isClusterEnd c = false ∧
      disk.read (this.clusterLBA c) 1 = some bs ∧ this.InFat c ∧
        this.walk disk m (this.next c) = .endMark := by
  cases n with
  | zero =>
    rw [Volume.walk] at hwalk
    split at hwalk
    next hend => exact .inl hend
    next => split at hwalk <;> cases hwalk
  | succ m =>
    rw [Volume.walk] at hwalk
    split at hwalk
    next hend => exact .inl hend
    next hend =>
      split at hwalk
      next hread =>
        split at hwalk
        next hin =>
          obtain ⟨bs, hbs⟩ := Option.isSome_iff_exists.mp hread
          exact .inr ⟨m, bs, rfl, by simpa using hend, hbs, hin, hwalk⟩
        next => cases hwalk
      next => cases hwalk

theorem Volume.walkData_of_end (disk : Disk) (n : ℕ) (hend : isClusterEnd c = true) :
    this.walkData disk n c = [] := by
  cases n with
  | zero => rfl
  | succ n => rw [Volume.walkData, if_pos hend]

theorem Volume.walkData_of_next {n : ℕ} {bs : Bytes} (hend : isClusterEnd c = false)
    (hbs : disk.read (this.clusterLBA c) 1 = some bs) :
    this.walkData disk (n + 1) c = bs ++ this.walkData disk n (this.next c) := by
  rw [Volume.walkData, if_neg (by simp [hend]), hbs, Option.getD_some]

theorem clusterStep_returns_of_end {front rest : Bytes} (n : ℕ) (hend : isClusterEnd c = true) :
    Loop.Returns (clusterStep disk this) ⟨c, j, some (front ++ rest)⟩ (.ok (some
      (front ++ this.walkData disk n c ++ rest.drop (this.walkData disk n c).length))) := by
  have hdone : clusterStep disk this ⟨c, j, some (front ++ rest)⟩ = _ := clusterStep_of_end hend
  simpa [Volume.walkData_of_end disk n hend] using Loop.Returns.of_done hdone

/-- A round puts the first sector of the cluster behind those in `front`. -/
theorem clusterStep_append {front rest bs : Bytes} (hend : isClusterEnd c = false)
    (hbs : disk.read (this.clusterLBA c) 1 = some bs) (hin : this.InFat c)
    (hfront : front.length = j.toNat * sectorSize) (hrest : sectorSize ≤ rest.length)
    (hmax : front.length + rest.length < 2 ^ 32) :
    clusterStep disk this ⟨c, j, some (front ++ rest)⟩ =
      .next ⟨this.next c, j + 1, some (front ++ bs ++ rest.drop sectorSize)⟩ := by
  have hoffset : (j * BitVec.ofNat 32 sectorSize).toNat = front.length := by
    rw [sectorSize] at *
    bv_omega
  have hlen : bs.length = sectorSize := by simpa using disk.length_read hbs
  have hstep := clusterStep_of_inFat (j := j) (b := front ++ rest) hend hbs (by
    rw [hoffset, List.length_append]
    omega) hin
  rwa [hoffset, Bytes.overwrite_append, hlen] at hstep

/-- On a walk that comes to an end mark the loop puts the sectors one behind the other, after the
ones in `front` that it has read already, and leaves what is behind them. -/
theorem clusterStep_of_endMark {n : ℕ} {front rest : Bytes}
    (hwalk : this.walk disk n c = .endMark) (hfront : front.length = j.toNat * sectorSize)
    (hrest : n * sectorSize ≤ rest.length) (hmax : front.length + rest.length < 2 ^ 32) :
    Loop.Returns (clusterStep disk this) ⟨c, j, some (front ++ rest)⟩ (.ok (some
      (front ++ this.walkData disk n c ++ rest.drop (this.walkData disk n c).length))) := by
  induction n generalizing c j front rest with
  | zero =>
    rcases Volume.endMark_cases hwalk with hend | ⟨m, bs, hm, -⟩
    · exact clusterStep_returns_of_end 0 hend
    · cases hm
  | succ n ih =>
    rcases Volume.endMark_cases hwalk with hend | ⟨m, bs, hm, hend, hbs, hin, hnext⟩
    · exact clusterStep_returns_of_end (n + 1) hend
    obtain rfl : n = m := Nat.succ.inj hm
    rw [Nat.add_mul, Nat.one_mul] at hrest
    have hlen : bs.length = sectorSize := by simpa using disk.length_read hbs
    have hnextj : (j + 1).toNat = j.toNat + 1 := by
      rw [sectorSize] at *
      bv_omega
    have hfront' : (front ++ bs).length = (j + 1).toNat * sectorSize := by
      rw [List.length_append, hnextj, hlen, hfront, Nat.add_mul, Nat.one_mul]
    have hrest' : n * sectorSize ≤ (rest.drop sectorSize).length := by
      rw [List.length_drop]
      omega
    have hloop := ih hnext hfront' hrest' (by rw [List.length_append, List.length_drop]; omega)
    have hbuffer : front ++ bs ++ this.walkData disk n (this.next c) ++
        (rest.drop sectorSize).drop (this.walkData disk n (this.next c)).length =
          front ++ this.walkData disk (n + 1) c ++
            rest.drop (this.walkData disk (n + 1) c).length := by
      simp [Volume.walkData_of_next hend hbs, List.drop_drop, hlen]
    rw [hbuffer] at hloop
    exact .of_next (clusterStep_append hend hbs hin hfront (by omega) hmax) hloop

theorem clusterLoop_unique {e : Bytes} {buffer : Option Bytes} {fuel k : ℕ}
    {r r' : Exec (Option Bytes)} (hr : clusterLoop disk this fuel e buffer = some r)
    (hr' : clusterLoop disk this k e buffer = some r') : r = r' :=
  Loop.Returns.unique ⟨fuel, hr⟩ ⟨k, hr'⟩

theorem exists_clusterLoop_iff {e : Bytes} {buffer : Option Bytes} {fuel : ℕ}
    {r r' : Exec (Option Bytes)} (hr : clusterLoop disk this fuel e buffer = some r) :
    (∃ k, clusterLoop disk this k e buffer = some r') ↔ r' = r :=
  Loop.Returns.iff_eq ⟨fuel, hr⟩

/-- A loop that returns has come to an end mark. -/
theorem fileWalk_of_ok {e : Bytes} {fuel : ℕ} {buffer : Option Bytes}
    (hb : b.length = (bufferSize e).toNat)
    (hloop : clusterLoop disk this fuel e (some b) = some (.ok buffer)) :
    this.fileWalk disk e = .endMark := by
  obtain ⟨k, r, hr, hout⟩ := clusterLoop_spec disk this e hb
  obtain rfl := clusterLoop_unique hloop hr
  generalize this.fileWalk disk e = w at hout
  cases w with
  | endMark => rfl
  | unreadable =>
    obtain ⟨msg, hmsg⟩ := hout
    cases hmsg
  | noRoom => cases hout
  | outsideFat => cases hout

/-- The whole loop, along a walk to an end mark. -/
theorem clusterLoop_of_endMark {n : ℕ} {e : Bytes}
    (hwalk : this.walk disk n (DirEntry.firstCluster e) = .endMark)
    (hroom : n * sectorSize ≤ b.length) (hmax : b.length < 2 ^ 32) :
    ∃ fuel, clusterLoop disk this fuel e (some b) = some (.ok (some
      (this.walkData disk n (DirEntry.firstCluster e) ++
        b.drop (this.walkData disk n (DirEntry.firstCluster e)).length))) := by
  have hloop : Loop.Returns (clusterStep disk this) ⟨_, 0, some ([] ++ b)⟩ _ :=
    clusterStep_of_endMark hwalk rfl hroom (by simpa using hmax)
  exact hloop

/-- **What the loop returns.**  It returns exactly if the walk comes to an end mark, and then with
the first sectors of the clusters at the front of the buffer, and the rest of it as it was. -/
theorem clusterLoop_ok_iff {e : Bytes} {buffer : Option Bytes}
    (hb : b.length = (bufferSize e).toNat) :
    (∃ fuel, clusterLoop disk this fuel e (some b) = some (.ok buffer)) ↔
      this.fileWalk disk e = .endMark ∧
        buffer = some (this.fileData disk e ++ b.drop (this.fileData disk e).length) := by
  have hroom : (bufferSize e).toNat / sectorSize * sectorSize ≤ b.length :=
    hb ▸ Nat.div_mul_le_self _ _
  have hmax : b.length < 2 ^ 32 := hb ▸ (bufferSize e).isLt
  constructor
  · rintro ⟨fuel, hloop⟩
    have hwalk := fileWalk_of_ok hb hloop
    obtain ⟨k, hk⟩ := clusterLoop_of_endMark hwalk hroom hmax
    exact ⟨hwalk, Except.ok.inj (clusterLoop_unique hloop hk)⟩
  · rintro ⟨hwalk, rfl⟩
    exact clusterLoop_of_endMark hwalk hroom hmax

/-- Without a buffer the loop does not get over its first round. -/
theorem clusterLoop_none (disk : Disk) (this : Volume) (e : Bytes) :
    clusterLoop disk this 1 e none = some (.ok none) ∨
      clusterLoop disk this 1 e none = some (.error .nullPointer) := by
  rw [clusterLoop]
  by_cases hend : isClusterEnd (DirEntry.firstCluster e) = true
  · exact .inl (Loop.run_succ_of_done (clusterStep_of_end hend) 0)
  · refine .inr (Loop.run_succ_of_done ?_ 0)
    rw [clusterStep, if_neg hend]
    rfl

/-- The walk ends without damage. -/
def WalkEnd.Fits (w : WalkEnd) : Prop := w = .endMark ∨ w = .unreadable

theorem WalkEnd.Outcome.sound_iff {w : WalkEnd} {r : Exec (Option Bytes)} (h : w.Outcome r) :
    Sound r ↔ w.Fits := by
  cases w with
  | endMark =>
    obtain ⟨b, rfl⟩ := h
    exact iff_of_true rfl (.inl rfl)
  | unreadable =>
    obtain ⟨msg, rfl⟩ := h
    exact iff_of_true trivial (.inr rfl)
  | noRoom => exact iff_of_false (h ▸ id) (by simp [Fits])
  | outsideFat => exact iff_of_false (h ▸ id) (by simp [Fits])

/-- After `init`, to have an entry in the FAT is to be one of its words. -/
theorem Mounted.inFat_iff {lba : BitVec 32} (hm : Mounted disk lba this) :
    this.InFat c ↔
      c.toNat < (VBR.sectorsPerFAT this.vbr * BitVec.ofNat 32 sectorSize / 4).toNat := by
  rw [Volume.InFat, hm.fat_length, fatBytes]
  generalize VBR.sectorsPerFAT this.vbr * BitVec.ofNat 32 sectorSize = n
  rw [BitVec.toNat_mul, BitVec.toNat_udiv, show (4 : BitVec 32).toNat = 4 from rfl]
  omega

/-- **The loop over the clusters of a file is safe exactly on the walks that fit.**  It ends, with
all its accesses inside the FAT and inside the buffer, if and only if the walk along the FAT ends
at an end mark or at an unreadable sector, whatever the volume and the entry are. -/
theorem clusterLoop_sound_iff (disk : Disk) (this : Volume) (e : Bytes)
    (hb : b.length = (bufferSize e).toNat) :
    (∃ fuel r, clusterLoop disk this fuel e (some b) = some r ∧ Sound r) ↔
      (this.fileWalk disk e).Fits := by
  obtain ⟨fuel, r, hr, hout⟩ := clusterLoop_spec disk this e hb
  rw [← hout.sound_iff, exists_comm]
  simp only [exists_and_right, exists_clusterLoop_iff hr, exists_eq_left]

/-- A file of 1500 bytes on the clusters 3, 6 and 4, on a FAT that is in order. -/
theorem clusterLoop_sound_iff_three :
    let fat : Bytes := List.replicate 8 0 ++ [0xff, 0xff, 0xff, 0x0f, 6, 0, 0, 0,
      0xff, 0xff, 0xff, 0x0f, 0, 0, 0, 0, 4, 0, 0, 0]
    let e : Bytes := List.replicate 26 0 ++ [3, 0, 0xdc, 5, 0, 0]
    ∃ fuel r, clusterLoop (smallImage 1 fat []).disk (smallVolume 1 fat []) fuel e
      (some (List.replicate 1536 0)) = some r ∧ Sound r := by
  intro fat e
  have hsize : (bufferSize e).toNat = 1536 := by decide
  exact (clusterLoop_sound_iff _ _ e (hsize ▸ List.length_replicate)).mpr (.inl (by decide))

/-- A cluster that is its own successor: with a size field of 100 the buffer is full after one
round, and the sector of the second one is written behind it. -/
theorem clusterLoop_cyclic :
    let fat : Bytes := List.replicate 8 0 ++ [0xff, 0xff, 0xff, 0x0f, 3, 0, 0, 0]
    let e : Bytes := List.replicate 26 0 ++ [3, 0, 100, 0, 0, 0]
    ¬ ∃ fuel r, clusterLoop (smallImage 1 fat []).disk (smallVolume 1 fat []) fuel e
      (some (List.replicate 512 0)) = some r ∧ Sound r := by
  rintro fat e ⟨fuel, r, hr, hsound⟩
  have hsize : (bufferSize e).toNat = 512 := by decide
  have hwalk : (smallVolume 1 fat []).fileWalk (smallImage 1 fat []).disk e = .noRoom := by
    decide
  obtain ⟨k, r', hr', hout⟩ := clusterLoop_spec (smallImage 1 fat []).disk (smallVolume 1 fat []) e
    (b := List.replicate 512 0) (hsize ▸ List.length_replicate)
  rw [hwalk, ← clusterLoop_unique hr hr'] at hout
  rw [hout] at hsound
  exact hsound

end Fat32
end RainbowOS
