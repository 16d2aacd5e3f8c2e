import RainbowOS.Fat32.Directory
import RainbowOS.StdlibC.Strcmp

/-!
# Looking for a file

`getRootFile` goes through the entries of the root directory, makes a name for each and compares it
with the one it is looking for.  What it finds, and what it asks of the heap on the way, are
functions of the directory and of the name alone: `searchMatch` and `searchRequests`.
-/

set_option autoImplicit false

namespace RainbowOS
namespace Fat32

variable {σ : Type} {A : Allocator σ} {h : Heap σ} {file dir e : Bytes}

/-- The name that `nameFromEntry` gives to an entry. -/
def nameOf (e : Bytes) : Bytes :=
  if DirEntry.attributes e = DirEntry.LFN then [0x4c, 0x46, 0x4e] else entryName e

/-- The requests of `nameFromEntry`. -/
def nameRequests (e : Bytes) : List (BitVec 32) :=
  if DirEntry.attributes e = DirEntry.LFN then [] else [FAT_NAME_SIZE]

/-- The requests of the loop over the entries, with `k` entries left from number `i` on: one for
every name, up to the entry that matches, and one for its file. -/
def searchRequests (file dir : Bytes) : (k : ℕ) → (i : ℕ) → List (BitVec 32)
  | 0, _ => []
  | k + 1, i =>
    match entryAt dir i with
    | .error _ => []
    | .ok e => nameRequests e ++
        if strcmp (nameOf e) file = 0 then [bufferSize e] else searchRequests file dir k (i + 1)

/-- The entry that matches. -/
def searchMatch (file dir : Bytes) : (k : ℕ) → (i : ℕ) → Option Bytes
  | 0, _ => none
  | k + 1, i =>
    match entryAt dir i with
    | .error _ => none
    | .ok e => if strcmp (nameOf e) file = 0 then some e else searchMatch file dir k (i + 1)

theorem entryAt_error {i : ℕ} {stop : Stop} (h : entryAt dir i = .error stop) :
    stop = .outOfBounds := by
  rw [entryAt] at h
  split at h
  · cases h
  · exact (Except.error.inj h).symm

/-- The entry number `i` of a directory. -/
def nthEntry (dir : Bytes) (i : ℕ) : Bytes :=
  (dir.drop (DirEntry.size * i)).take DirEntry.size

theorem entryAt_eq {i : ℕ} (hi : DirEntry.size * i + DirEntry.size ≤ dir.length) :
    entryAt dir i = .ok (nthEntry dir i) :=
  if_pos hi

/-! ## Names -/

/-- `strcmp` returns the difference of the first different characters. -/
theorem strcmp_eq_elim {s t : Bytes} {p : Option (Byte × Byte)}
    (h : Lexicographic.Compared 0 s t p) :
    strcmp s t = p.elim 0 fun q ↦ q.1.toInt - q.2.toInt := by
  induction h with
  | ended => rfl
  | left hb => simp [strcmp]
  | right ha => simp [strcmp]
  | differ ha hb hab => simp [strcmp, hab]
  | agree ha h ih =>
    rw [strcmp, if_neg (not_not_intro rfl)]
    exact ih

/-- On strings that end where the lists do, `strcmp` tells equal from different. -/
theorem strcmp_eq_zero_iff {s t : Bytes} (hs : 0 ∉ s) (ht : 0 ∉ t) : strcmp s t = 0 ↔ s = t := by
  have h := Lexicographic.compared hs ht
  rw [strcmp_eq_elim h, elim_sub_toInt_eq_zero_iff h]

theorem zero_not_mem_nameOf (e : Bytes) : 0 ∉ nameOf e := by
  rw [nameOf]
  split
  · decide
  · exact Bytes.zero_not_mem_cString _

/-- The first entry of its name is the one that is found. -/
theorem searchMatch_of_first {i k j : ℕ} (hle : j ≤ i) (hlt : i < j + k)
    (hlen : DirEntry.size * (j + k) ≤ dir.length)
    (hfirst : ∀ l < i, nameOf (nthEntry dir l) ≠ nameOf (nthEntry dir i)) :
    searchMatch (nameOf (nthEntry dir i)) dir k j = some (nthEntry dir i) := by
  induction k generalizing j with
  | zero => omega
  | succ k ih =>
    have hj : entryAt dir j = .ok (nthEntry dir j) := entryAt_eq (by rw [DirEntry.size] at *; omega)
    simp only [searchMatch, hj,
      strcmp_eq_zero_iff (zero_not_mem_nameOf _) (zero_not_mem_nameOf _)]
    rcases Nat.eq_or_lt_of_le hle with rfl | hji
    · rw [if_pos rfl]
    · rw [if_neg (hfirst j hji)]
      exact ih hji (by omega) (by rwa [Nat.add_right_comm])

/-! ## Return codes -/

theorem eq_of_storeResult_eq_ok {α : Type} {p : Option Bytes} {a b : α}
    (h : storeResult p a = .ok b) : b = a := by
  cases p with
  | none => cases h
  | some p => exact (Except.ok.inj h).symm

variable {disk : Disk} {this : Volume} {fuel : ℕ} {returnStruct : Option Bytes} {r : FileResult}
  {h' : Heap σ}

theorem readFile_returnCode
    (hrun : readFile A disk this fuel returnStruct e h = some (.ok r, h')) : r.returnCode = 0 := by
  obtain ⟨_, _, -, hrun⟩ := Run.bind_eq_ok.mp hrun
  obtain ⟨_, _, -, hrun⟩ := Run.bind_eq_ok.mp hrun
  rw [eq_of_storeResult_eq_ok (Op.ofExec_eq_ok.mp hrun).1]

theorem searchEntries_returnCode {k i : ℕ}
    (hrun : searchEntries A disk this fuel file dir returnStruct k i h = some (.ok r, h')) :
    r.returnCode = 1 ∨ r.returnCode = 0 := by
  induction k generalizing i h with
  | zero =>
    rw [eq_of_storeResult_eq_ok (Op.ofExec_eq_ok.mp hrun).1]
    exact .inl rfl
  | succ k ih =>
    rw [searchEntries] at hrun
    obtain ⟨d, _, -, hrun⟩ := Run.bind_eq_ok.mp hrun
    obtain ⟨name, _, -, hrun⟩ := Run.bind_eq_ok.mp hrun
    by_cases hname : strcmp name file = 0
    · rw [if_pos hname] at hrun
      exact .inr (readFile_returnCode hrun)
    · rw [if_neg hname] at hrun
      exact ih hrun

/-- A file that is not reported missing has been found. -/
theorem returnCode_of_found
    (hrun : getRootFile A disk this fuel file h = some (.ok r, h')) (hcode : r.returnCode ≠ 1) :
    r.returnCode = 0 := by
  obtain ⟨_, _, -, hrun⟩ := Run.bind_eq_ok.mp hrun
  obtain ⟨_, _, -, hrun⟩ := Run.bind_eq_ok.mp hrun
  exact (searchEntries_returnCode hrun).resolve_left hcode

/-! ## The search, when no request is refused -/

theorem nameFromEntry_of_grants (hgrants : A.Grants h.state (nameRequests e)) :
    nameFromEntry A e h =
      some (.ok (nameOf e), ⟨A.after h.state (nameRequests e), h.refused⟩) := by
  rw [nameRequests] at hgrants ⊢
  rw [nameFromEntry, nameOf]
  by_cases hlfn : DirEntry.attributes e = DirEntry.LFN
  · rw [if_pos hlfn, if_pos hlfn, if_pos hlfn]
    rfl
  · rw [if_neg hlfn] at hgrants
    rw [if_neg hlfn, if_neg hlfn, if_neg hlfn]
    obtain ⟨p, hp⟩ := Option.isSome_iff_exists.mp ((A.grants_cons _ _ _).mp hgrants).1
    exact Run.bind_of_ok (Op.new_of_some hp)

theorem nameFromEntry_of_not_grants (hgrants : ¬ A.Grants h.state (nameRequests e)) :
    nameFromEntry A e h =
      some (.error .nullPointer, ⟨A.after h.state (nameRequests e), true⟩) := by
  rw [nameRequests] at hgrants ⊢
  rw [nameFromEntry]
  by_cases hlfn : DirEntry.attributes e = DirEntry.LFN
  · rw [if_pos hlfn] at hgrants
    exact absurd (A.grants_nil _) hgrants
  · rw [if_neg hlfn] at hgrants
    rw [if_neg hlfn, if_neg hlfn]
    cases hname : (A.alloc h.state FAT_NAME_SIZE).1 with
    | none => exact Run.bind_of_ok (Op.new_of_none hname)
    | some p => exact absurd (by simp [hname]) hgrants

/-- The search comes to the matching entry with nothing done but the names made, and only the
request for the file is left. -/
theorem searchEntries_of_match {k i : ℕ}
    (hgrants : A.Grants h.state (searchRequests file dir k i))
    (hmatch : searchMatch file dir k i = some e) :
    ∃ t, (A.alloc t (bufferSize e)).1.isSome = true ∧
      (A.alloc t (bufferSize e)).2 = A.after h.state (searchRequests file dir k i) ∧
      ∀ disk this fuel returnStruct,
        searchEntries A disk this fuel file dir returnStruct k i h =
          readFile A disk this fuel returnStruct e ⟨t, h.refused⟩ := by
  induction k generalizing i h with
  | zero => cases hmatch
  | succ k ih =>
    simp only [searchRequests, searchMatch] at hgrants hmatch ⊢
    simp only [searchEntries]
    cases hentry : entryAt dir i with
    | error stop => simp [hentry] at hmatch
    | ok d =>
      simp only [hentry] at hgrants hmatch ⊢
      rw [Allocator.grants_append] at hgrants
      simp only [Run.bind_of_ok (Op.ofExec_apply _), Allocator.after_append,
        Run.bind_of_ok (nameFromEntry_of_grants hgrants.1)]
      by_cases hname : strcmp (nameOf d) file = 0
      · simp only [if_pos hname, Option.some.injEq] at hgrants hmatch ⊢
        subst hmatch
        exact ⟨_, ((A.grants_cons _ _ _).mp hgrants.2).1, rfl, fun _ _ _ _ ↦ rfl⟩
      · simp only [if_neg hname] at hgrants hmatch ⊢
        exact ih (h := ⟨A.after h.state (nameRequests d), h.refused⟩) hgrants.2 hmatch

end Fat32
end RainbowOS
