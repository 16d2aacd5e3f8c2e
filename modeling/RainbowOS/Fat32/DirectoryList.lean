import Mathlib.Data.List.TakeWhile
import RainbowOS.Fat32.ReadDir
import RainbowOS.StdlibC.CString

/-!
# Listing the root directory

`getInternalDirectoryList` decodes the names of the entries a second time, into an array of its own
from which they are copied to the heap.

* `decodeName_eq` — what the array holds is the string that `nameFromEntry` writes, whatever was in
  the array before.
* `getInternalDirectoryList_agrees_iff` — the list agrees with `nameFromEntry` on all the entries of
  a directory exactly if none of them is an LFN entry: the string for those is an array of the
  loop body, which is gone when the list is returned.
-/

set_option autoImplicit false
-- The sectors of the concrete volumes are evaluated byte by byte.
set_option maxRecDepth 8000

namespace RainbowOS
namespace Fat32

variable {σ : Type} {A : Allocator σ} {disk : Disk} {this : Volume} {h : Heap σ}
  {dir e str : Bytes} {n i k : ℕ}

/-! ## The list -/

/-- What an element of the list of names points to. -/
inductive NamePtr where
  /-- A block of the heap. -/
  | heap (block : Bytes)
  /-- An array with automatic storage, of the body of the loop over the entries. -/
  | automatic (array : Bytes)
  deriving DecidableEq, Repr

/-- `fat32_internalDirList`; an attribute is kept as the byte of the entry. -/
structure InternalDirList where
  returnCode : ℤ
  size : ℕ
  list : List NamePtr
  attr : List Byte

/-- A loop that copies characters into the array `str` from index `j` on, up to one at which it
stops: the array and the index afterwards. -/
def copyChars (stop : Byte → Bool) : (cs : Bytes) → (j : ℕ) → (str : Bytes) → Bytes × ℕ
  | [], j, str => (str, j)
  | c :: cs, j, str => if stop c then (str, j) else copyChars stop cs (j + 1) (str.set j c)

/-- The decoder in the body of the loop, on the array `str`.  The index does not get over 12. -/
def decodeName (e str : Bytes) : Bytes :=
  let (str, j) := copyChars (· = 0x20) (DirEntry.fileName e) 0 str
  let (str, j) :=
    if DirEntry.attributes e ≠ DirEntry.SUBDIRECTORY then
      copyChars (fun _ ↦ false) (DirEntry.fileExtension e) (j + 1) (str.set j 0x2e)
    else (str, j)
  str.set j 0

/-- The body of the loop, up to the attribute: what is stored in `filenameList`.  `str` is what the
uninitialised array has in it. -/
def listName (A : Allocator σ) (filenameList : Option Bytes) (e str : Bytes) : Op σ NamePtr := do
  if DirEntry.attributes e = DirEntry.LFN then
    Op.ofExec (storeResult filenameList (.automatic [0x4c, 0x46, 0x4e, 0]))
  else
    let str := decodeName e str
    let length ← Op.ofExec (strlen str)
    let name ← Op.new A (BitVec.ofNat 32 (length + 1))
    Op.ofExec (storeResult filenameList ())
    let name ← Op.ofExec (strcpy name str)
    return .heap name

/-- The loop over the entries, with `k` entries left from number `i` on.  `strs i` is what the array
of round `i` has in it. -/
def listEntries (A : Allocator σ) (strs : ℕ → Bytes) (dir : Bytes)
    (filenameList attr : Option Bytes) : (k : ℕ) → (i : ℕ) → Op σ (List (NamePtr × Byte))
  | 0, _ => return []
  | k + 1, i => do
    let e ← Op.ofExec (entryAt dir i)
    let name ← listName A filenameList e (strs i)
    let attributes ← Op.ofExec (storeResult attr (DirEntry.attributes e))
    let rest ← listEntries A strs dir filenameList attr k (i + 1)
    return (name, attributes) :: rest

/-- `getInternalDirectoryList(directory)`; the argument is not used. -/
def getInternalDirectoryList (A : Allocator σ) (disk : Disk) (this : Volume) (strs : ℕ → Bytes) :
    Op σ InternalDirList := do
  let dirStruct ← readDir A disk this (VBR.clusterNumberRoot this.vbr)
  let returnStruct ← Op.new A 16
  let filenameList ← Op.new A (BitVec.ofNat 32 (4 * dirStruct.numEntries))
  let attr ← Op.new A (BitVec.ofNat 32 (4 * dirStruct.numEntries))
  Op.ofExec (storeResult returnStruct ())
  let entries ← listEntries A strs dirStruct.entries filenameList attr dirStruct.numEntries 0
  return ⟨0, dirStruct.numEntries, entries.map Prod.fst, entries.map Prod.snd⟩

/-! ## The second decoder -/

/-- The string that the two decoders make of an entry, before it is cut at a zero byte. -/
def decodedName (e : Bytes) : Bytes :=
  (DirEntry.fileName e).takeWhile (· ≠ 0x20) ++
    if DirEntry.attributes e ≠ DirEntry.SUBDIRECTORY then 0x2e :: DirEntry.fileExtension e else []

theorem entryName_eq (e : Bytes) : entryName e = (decodedName e).cString := rfl

theorem set_append_cons (front rest : Bytes) (d c : Byte) :
    (front ++ d :: rest).set front.length c = front ++ c :: rest := by
  simp

/-- The loop writes the characters in front of the one at which it stops. -/
theorem copyChars_append (stop : Byte → Bool) (cs front rest : Bytes)
    (hlen : cs.length ≤ rest.length) :
    copyChars stop cs front.length (front ++ rest) =
      (front ++ cs.takeWhile (!stop ·) ++ rest.drop (cs.takeWhile (!stop ·)).length,
        (front ++ cs.takeWhile (!stop ·)).length) := by
  induction cs generalizing front rest with
  | nil => simp [copyChars]
  | cons c cs ih =>
    rw [copyChars]
    by_cases hstop : stop c = true
    · simp [hstop]
    · cases rest with
      | nil => cases hlen
      | cons d rest =>
        rw [if_neg hstop, set_append_cons]
        have happ := ih (front ++ [c]) rest (Nat.le_of_succ_le_succ hlen)
        simpa [hstop] using happ

/-- A loop that does not stop writes all of them. -/
theorem copyChars_all (cs front rest : Bytes) (hlen : cs.length ≤ rest.length) :
    copyChars (fun _ ↦ false) cs front.length (front ++ rest) =
      (front ++ cs ++ rest.drop cs.length, (front ++ cs).length) := by
  have hall : cs.takeWhile (fun _ ↦ !false) = cs := List.takeWhile_eq_self_iff.mpr fun _ _ ↦ rfl
  rw [copyChars_append _ cs front rest hlen, hall]

theorem length_fileName_le (e : Bytes) : (DirEntry.fileName e).length ≤ 8 :=
  List.length_take_le 8 e

theorem length_fileExtension_le (e : Bytes) : (DirEntry.fileExtension e).length ≤ 3 :=
  List.length_take_le 3 _

/-- **The two decoders agree.**  Whatever the array had in it, it begins with the string of
`nameFromEntry`. -/
theorem decodeName_eq (e : Bytes) (hstr : str.length = 13) :
    ∃ rest, decodeName e str = decodedName e ++ 0 :: rest := by
  have hname := length_fileName_le e
  have hext := length_fileExtension_le e
  obtain ⟨w, hw⟩ : ∃ w, w = (DirEntry.fileName e).takeWhile (· ≠ 0x20) := ⟨_, rfl⟩
  have hwlen : w.length ≤ 8 := by
    rw [hw]
    exact Nat.le_trans (List.takeWhile_prefix _).length_le hname
  have hbase : copyChars (· = 0x20) (DirEntry.fileName e) 0 str =
      (w ++ str.drop w.length, w.length) := by
    have happ := copyChars_append (· = 0x20) (DirEntry.fileName e) [] str (by omega)
    rw [hw]
    simpa using happ
  obtain ⟨d, rest, hrest⟩ : ∃ d rest, str.drop w.length = d :: rest :=
    List.exists_cons_of_length_pos (by rw [List.length_drop]; omega)
  have hlen : rest.length + 1 = 13 - w.length := by
    rw [← hstr, ← List.length_drop, hrest, List.length_cons]
  rw [decodeName, hbase, hrest, decodedName, ← hw]
  dsimp only
  by_cases hdir : DirEntry.attributes e ≠ DirEntry.SUBDIRECTORY
  · obtain ⟨d', rest', hrest'⟩ :
        ∃ d' rest', rest.drop (DirEntry.fileExtension e).length = d' :: rest' :=
      List.exists_cons_of_length_pos (by rw [List.length_drop]; omega)
    have happ := copyChars_all (DirEntry.fileExtension e) (w ++ [0x2e]) rest (by omega)
    rw [hrest'] at happ
    rw [if_pos hdir, if_pos hdir, set_append_cons, List.append_cons,
      show w.length + 1 = (w ++ [0x2e]).length by simp,
      happ, set_append_cons]
    exact ⟨rest', by simp⟩
  · rw [if_neg hdir, if_neg hdir, set_append_cons, List.append_nil]
    exact ⟨rest, rfl⟩

/-! ## What the list is, when no request is refused -/

/-- The block that an entry's name is copied to. -/
def nameBlocks (e : Bytes) : List (BitVec 32) :=
  if DirEntry.attributes e = DirEntry.LFN then [] else [BitVec.ofNat 32 ((nameOf e).length + 1)]

/-- The requests of the loop over the entries, with `k` entries left from number `i` on. -/
def listRequests (dir : Bytes) : (k : ℕ) → (i : ℕ) → List (BitVec 32)
  | 0, _ => []
  | k + 1, i => nameBlocks (nthEntry dir i) ++ listRequests dir k (i + 1)

/-- What is stored in `filenameList` for an entry. -/
def listedName (e : Bytes) : NamePtr :=
  if DirEntry.attributes e = DirEntry.LFN then .automatic [0x4c, 0x46, 0x4e, 0]
  else .heap (nameOf e ++ [0])

theorem length_nameOf_le (e : Bytes) : (nameOf e).length ≤ 12 := by
  rw [nameOf]
  split
  · decide
  · have hbase : ((DirEntry.fileName e).takeWhile (· ≠ 0x20)).length ≤ 8 :=
      Nat.le_trans (List.takeWhile_prefix _).length_le (length_fileName_le e)
    have hext := length_fileExtension_le e
    refine Nat.le_trans (List.takeWhile_prefix _).length_le ?_
    rw [List.length_append]
    split
    · rw [List.length_cons]
      omega
    · rw [List.length_nil]
      omega

theorem listName_of_grants {l : Bytes} (hstr : str.length = 13)
    (hgrants : A.Grants h.state (nameBlocks e)) :
    listName A (some l) e str h =
      some (.ok (listedName e), ⟨A.after h.state (nameBlocks e), h.refused⟩) := by
  rw [nameBlocks] at hgrants ⊢
  rw [listName, listedName]
  by_cases hlfn : DirEntry.attributes e = DirEntry.LFN
  · rw [if_pos hlfn, if_pos hlfn, if_pos hlfn]
    rfl
  · rw [if_neg hlfn] at hgrants
    rw [if_neg hlfn, if_neg hlfn, if_neg hlfn]
    obtain ⟨p, hp⟩ := Option.isSome_iff_exists.mp ((A.grants_cons _ _ _).mp hgrants).1
    have hzero := zero_not_mem_nameOf e
    have hname : nameOf e = (decodedName e).cString := (if_neg hlfn).trans (entryName_eq e)
    obtain ⟨rest, hrest⟩ := decodeName_eq e hstr
    obtain ⟨rest', hrest'⟩ : ∃ rest', decodeName e str = nameOf e ++ 0 :: rest' := by
      have h0 : 0 ∈ decodeName e str := hrest ▸ List.mem_append_right _ List.mem_cons_self
      obtain ⟨rest', heq⟩ := Bytes.eq_cString_append h0
      rw [hrest, Bytes.cString_append_zero, ← hname] at heq
      exact ⟨rest', hrest.trans heq⟩
    have hlen : p.length = (nameOf e).length + 1 := by
      have hle := length_nameOf_le e
      rw [A.length_alloc hp, BitVec.toNat_ofNat, Nat.mod_eq_of_lt (by omega)]
    rw [hrest', strlen_append hzero, Run.bind_of_ok (Op.ofExec_apply _),
      Run.bind_of_ok (Op.new_of_some hp), storeResult_some, Run.bind_of_ok (Op.ofExec_apply _),
      strcpy_append hzero rest' hlen, Run.bind_of_ok (Op.ofExec_apply _)]
    rfl

theorem listEntries_of_grants {strs : ℕ → Bytes} {l t : Bytes} (hstrs : ∀ j, (strs j).length = 13)
    (hlen : DirEntry.size * (i + k) ≤ dir.length)
    (hgrants : A.Grants h.state (listRequests dir k i)) :
    listEntries A strs dir (some l) (some t) k i h =
      some (.ok ((List.range' i k).map fun j ↦
          (listedName (nthEntry dir j), DirEntry.attributes (nthEntry dir j))),
        ⟨A.after h.state (listRequests dir k i), h.refused⟩) := by
  induction k generalizing i h with
  | zero => rfl
  | succ k ih =>
    have hentry : entryAt dir i = .ok (nthEntry dir i) :=
      entryAt_eq (by rw [DirEntry.size] at *; omega)
    rw [listRequests, A.grants_append] at hgrants
    rw [listEntries, hentry, Run.bind_of_ok (Op.ofExec_apply _),
      Run.bind_of_ok (listName_of_grants (hstrs i) hgrants.1), storeResult_some,
      Run.bind_of_ok (Op.ofExec_apply _),
      Run.bind_of_ok (ih (by rwa [Nat.add_right_comm]) hgrants.2), listRequests, A.after_append]
    rfl

/-- The list that is returned. -/
theorem getInternalDirectoryList_of_grants {h' : Heap σ}
    (hread : readDir A disk this (VBR.clusterNumberRoot this.vbr) h = some (.ok ⟨n, dir⟩, h'))
    (strs : ℕ → Bytes) (hstrs : ∀ j, (strs j).length = 13)
    (hgrants : A.Grants h'.state
      ([16, BitVec.ofNat 32 (4 * n), BitVec.ofNat 32 (4 * n)] ++ listRequests dir n 0)) :
    ∃ h'', getInternalDirectoryList A disk this strs h =
      some (.ok ⟨0, n, (List.range n).map fun i ↦ listedName (nthEntry dir i),
        (List.range n).map fun i ↦ DirEntry.attributes (nthEntry dir i)⟩, h'') := by
  have hends := endsAt_of_readDir hread
  simp only [List.cons_append, List.nil_append, Allocator.grants_cons,
    Option.isSome_iff_exists] at hgrants
  obtain ⟨⟨p, hp⟩, ⟨l, hl⟩, ⟨t, ht⟩, hrest⟩ := hgrants
  have hloop := listEntries_of_grants (h := ⟨_, h'.refused⟩) (l := l) (t := t) hstrs
    (by simpa using Nat.le_of_lt hends.2.1) hrest
  rw [getInternalDirectoryList, Run.bind_of_ok hread, Run.bind_of_ok (Op.new_of_some hp),
    Run.bind_of_ok (Op.new_of_some hl), Run.bind_of_ok (Op.new_of_some ht), storeResult_some,
    Run.bind_of_ok (Op.ofExec_apply _), Run.bind_of_ok hloop, Run.pure_apply, List.map_map,
    List.map_map,
    ← List.range_eq_range']
  exact ⟨_, rfl⟩

/-! ## When the list is right -/

/-- The pointer leads to storage that outlives the call, and there to the string `s`. -/
def NamePtr.Holds : NamePtr → Bytes → Prop
  | .heap block, s => ∃ rest, block = s ++ 0 :: rest
  | .automatic _, _ => False

/-- The list says of the `n` entries of `dir` what they are. -/
structure InternalDirList.Agrees (r : InternalDirList) (dir : Bytes) (n : ℕ) : Prop where
  size : r.size = n
  attr : ∀ i < n, r.attr[i]? = some (DirEntry.attributes (nthEntry dir i))
  /-- The names are those of `nameFromEntry`. -/
  list : ∀ i < n, ∃ p, r.list[i]? = some p ∧ p.Holds (nameOf (nthEntry dir i))

theorem holds_listedName_iff :
    (listedName e).Holds (nameOf e) ↔ DirEntry.attributes e ≠ DirEntry.LFN := by
  rw [listedName]
  by_cases hlfn : DirEntry.attributes e = DirEntry.LFN
  · rw [if_pos hlfn]
    exact iff_of_false id fun hne ↦ hne hlfn
  · rw [if_neg hlfn]
    exact iff_of_true ⟨[], rfl⟩ hlfn

/-- **When the list agrees with `nameFromEntry`.**  For every directory that `readDir` returns, and
whatever the arrays of the loop have in them at first: the list has the number of the entries, their
attributes, and their names in storage that outlives the call, exactly if none of the entries is
an LFN entry. -/
theorem getInternalDirectoryList_agrees_iff {strs : ℕ → Bytes} {h' : Heap σ}
    (hread : readDir A disk this (VBR.clusterNumberRoot this.vbr) h = some (.ok ⟨n, dir⟩, h'))
    (hstrs : ∀ j, (strs j).length = 13)
    (hgrants : A.Grants h'.state
      ([16, BitVec.ofNat 32 (4 * n), BitVec.ofNat 32 (4 * n)] ++ listRequests dir n 0)) :
    (∃ r h'', getInternalDirectoryList A disk this strs h = some (.ok r, h'') ∧ r.Agrees dir n) ↔
      ∀ i < n, DirEntry.attributes (nthEntry dir i) ≠ DirEntry.LFN := by
  obtain ⟨t, hrun⟩ := getInternalDirectoryList_of_grants hread strs hstrs hgrants
  have hlist : ∀ i < n, ((List.range n).map fun i ↦ listedName (nthEntry dir i))[i]? =
      some (listedName (nthEntry dir i)) := fun i hi ↦ by
    rw [List.getElem?_map, List.getElem?_range hi, Option.map_some]
  constructor
  · rintro ⟨r, h'', hrun', hagrees⟩ i hi
    rw [hrun, Option.some.injEq, Prod.mk.injEq, Except.ok.injEq] at hrun'
    obtain ⟨rfl, -⟩ := hrun'
    obtain ⟨p, hp, hholds⟩ := hagrees.list i hi
    rw [hlist i hi, Option.some.injEq] at hp
    exact holds_listedName_iff.mp (hp ▸ hholds)
  · intro hlfn
    refine ⟨_, t, hrun, rfl, fun i hi ↦ ?_, fun i hi ↦ ?_⟩
    · rw [List.getElem?_map, List.getElem?_range hi, Option.map_some]
    · exact ⟨_, hlist i hi, holds_listedName_iff.mpr (hlfn i hi)⟩

/-- The root directory of a small volume whose only data sector begins with `bs`. -/
theorem readDir_small {bs : Bytes} (hends : EndsAt bs.padded 0 n) :
    readDir Allocator.bump (smallImage 1 rootFat [bs]).disk (smallVolume 1 rootFat [bs])
      (VBR.clusterNumberRoot (smallVolume 1 rootFat [bs]).vbr) ⟨4000, false⟩ =
        some (.ok ⟨n, bs.padded⟩, ⟨3476, false⟩) := by
  have hroot := singleClusterRoot_small rootFat [] (by decide) hends
  have hgrants : Allocator.bump.Grants 4000 [(smallVolume 1 rootFat []).dirSize, 12] := by decide
  have hafter : Allocator.bump.after 4000 [(smallVolume 1 rootFat []).dirSize, 12] = 3476 := by
    decide
  rw [← hafter]
  exact hroot.readDir (h := ⟨4000, false⟩) hgrants

/-- A directory with one file. -/
theorem getInternalDirectoryList_agrees_iff_kernel :
    ∃ r h, getInternalDirectoryList Allocator.bump (smallImage 1 rootFat [kernelEntry 600]).disk
        (smallVolume 1 rootFat [kernelEntry 600]) (fun _ ↦ List.replicate 13 0xcc) ⟨4000, false⟩ =
          some (.ok r, h) ∧ r.Agrees (kernelEntry 600).padded 1 := by
  have hends : EndsAt (kernelEntry 600).padded 0 1 :=
    endsAt_one (by decide) (by decide) (by decide)
  refine (getInternalDirectoryList_agrees_iff (readDir_small hends) (by simp) (by decide)).mpr
    (by decide)

/-- The directory entry of a part of a long name. -/
def lfnEntry : Bytes := 0x41 :: List.replicate 10 0 ++ [0x0f] ++ List.replicate 20 0

/-- A directory with one LFN entry. -/
theorem getInternalDirectoryList_dangles :
    let image := smallImage 1 rootFat [lfnEntry]
    let this := smallVolume 1 rootFat [lfnEntry]
    readDir Allocator.bump image.disk this (VBR.clusterNumberRoot this.vbr) ⟨4000, false⟩ =
        some (.ok ⟨1, lfnEntry.padded⟩, ⟨3476, false⟩) ∧
      Allocator.bump.Grants 3476 ([16, 4, 4] ++ listRequests lfnEntry.padded 1 0) ∧
      ¬ ∃ r h, getInternalDirectoryList Allocator.bump image.disk this
        (fun _ ↦ List.replicate 13 0xcc) ⟨4000, false⟩ = some (.ok r, h) ∧
          r.Agrees lfnEntry.padded 1 := by
  intro image this
  have hends : EndsAt lfnEntry.padded 0 1 :=
    endsAt_one (by decide) (by decide) (by decide)
  have hread := readDir_small hends
  have hgrants : Allocator.bump.Grants 3476 ([16, 4, 4] ++ listRequests lfnEntry.padded 1 0) := by
    decide
  refine ⟨hread, hgrants, ?_⟩
  rintro ⟨r, h, hrun, hagrees⟩
  obtain ⟨t, hlist⟩ := getInternalDirectoryList_of_grants hread
    (fun _ ↦ List.replicate 13 0xcc) (by simp) hgrants
  rw [hlist, Option.some.injEq, Prod.mk.injEq, Except.ok.injEq] at hrun
  obtain ⟨rfl, -⟩ := hrun
  obtain ⟨p, hp, hholds⟩ := hagrees.list 0 (by decide)
  rw [List.getElem?_map, List.getElem?_range (by decide), Option.map_some, Option.some.injEq] at hp
  exact holds_listedName_iff.mp (hp ▸ hholds) (by decide)

end Fat32
end RainbowOS
