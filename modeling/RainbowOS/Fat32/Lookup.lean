import Mathlib.Data.List.DropRight
import RainbowOS.Fat32.ReadFile

/-!
# Looking up a file by its 8.3 name

The format gives an entry a name: the base without its trailing spaces, and the extension without
its own after a dot, if anything is left of it.  `nameFromEntry` makes another one, which ends the
base at its first space, keeps the spaces of the extension, and leaves the extension out for the
attribute byte of a directory; and the search does not look at anything but the name.

* `getRootFile_finds_iff` — `getRootFile` returns the first live regular file of that 8.3 name,
  whatever the heap is, exactly if the first entry that `nameFromEntry` gives the name to has the
  same size, and the first sectors of its clusters begin with the content of the regular file.
* `content_eq_of_one_sector` — on clusters of one sector they do if the two are the same entry.
* `nameOf_eq_name83_iff` — the two names of a regular file agree exactly if there is no space
  inside the base and none at the end of the extension.
-/

set_option autoImplicit false
-- The sectors of the concrete volumes are evaluated byte by byte.
set_option maxRecDepth 8000

namespace RainbowOS
namespace Fat32

variable {σ : Type} {A : Allocator σ} {disk : Disk} {this : Volume} {h : Heap σ}
  {dir file e b : Bytes} {n i k : ℕ}

/-! ## Files by the format -/

/-- Neither deleted nor a part of a long name, not the volume label, and not a directory. -/
def Regular (e : Bytes) : Prop :=
  e.read8 0 ≠ 0xe5 ∧ DirEntry.attributes e ≠ DirEntry.LFN ∧ DirEntry.attributes e &&& 0x08 = 0 ∧
    DirEntry.attributes e &&& 0x10 = 0

instance (e : Bytes) : Decidable (Regular e) := inferInstanceAs (Decidable (_ ∧ _))

/-- A field of a name without its padding. -/
def trim (field : Bytes) : Bytes := field.rdropWhile (· = 0x20)

/-- The 8.3 name of an entry. -/
def name83 (e : Bytes) : Bytes :=
  trim (DirEntry.fileName e) ++
    if trim (DirEntry.fileExtension e) = [] then [] else 0x2e :: trim (DirEntry.fileExtension e)

/-- The entries of a directory. -/
def entries (dir : Bytes) (n : ℕ) : List Bytes := (List.range n).map (nthEntry dir)

/-- The first live regular file of that name. -/
def regularEntry (dir : Bytes) (n : ℕ) (file : Bytes) : Option Bytes :=
  (entries dir n).find? fun e ↦ Regular e ∧ name83 e = file

/-- The first entry to which `nameFromEntry` gives that name. -/
def namedEntry (dir : Bytes) (n : ℕ) (file : Bytes) : Option Bytes :=
  (entries dir n).find? fun e ↦ nameOf e = file

/-- The contents of the cluster `c`, if all of its sectors can be read. -/
def Volume.readCluster (this : Volume) (disk : Disk) (c : BitVec 32) : Option Bytes :=
  if this.firstSector c + (VBR.sectorsPerCluster this.vbr).toNat ≤ 2 ^ 32 then
    disk.read (BitVec.ofNat 32 (this.firstSector c)) (VBR.sectorsPerCluster this.vbr).toNat
  else none

/-- The contents of the clusters `cs`, one behind the other. -/
def Volume.readClusters (this : Volume) (disk : Disk) : List (BitVec 32) → Option Bytes
  | [] => some []
  | c :: cs => do return (← this.readCluster disk c) ++ (← this.readClusters disk cs)

/-- The content that the format gives to the file with entry `e`: as much of the clusters of its
chain as its size says. -/
def HasContent (disk : Disk) (this : Volume) (e content : Bytes) : Prop :=
  ∃ cs data, (this.Chain (DirEntry.firstCluster e) cs ∨
      DirEntry.firstCluster e = 0 ∧ cs = []) ∧
    this.readClusters disk cs = some data ∧ (DirEntry.fileSize e).toNat ≤ data.length ∧
    content = data.take (DirEntry.fileSize e).toNat

/-! ## The two names -/

/-- What the decoder takes of a base name begins the trimmed one, and ends there or at a space. -/
theorem trim_eq_takeWhile_append (field : Bytes) :
    ∃ u, trim field = field.takeWhile (· ≠ 0x20) ++ u ∧ (u = [] ∨ ∃ u', u = 0x20 :: u') := by
  have hsplit : field = trim field ++ field.rtakeWhile (· = 0x20) :=
    List.rdropWhile_append_rtakeWhile.symm
  have hpad : (field.rtakeWhile (· = 0x20)).takeWhile (· ≠ 0x20) = [] := by
    rw [List.takeWhile_eq_nil_iff]
    intro hl
    have hmem := List.mem_rtakeWhile_imp (List.get_mem (field.rtakeWhile (· = 0x20)) ⟨0, hl⟩)
    simpa using hmem
  have hbase : field.takeWhile (· ≠ 0x20) = (trim field).takeWhile (· ≠ 0x20) := by
    conv_lhs => rw [hsplit]
    rw [List.takeWhile_append, hpad, List.append_nil]
    split
    next hlen => exact ((List.takeWhile_prefix _).eq_of_length hlen).symm
    next => rfl
  refine ⟨(trim field).dropWhile (· ≠ 0x20), ?_, ?_⟩
  · rw [hbase, List.takeWhile_append_dropWhile]
  · have hhead := List.head?_dropWhile_not (· ≠ 0x20) (trim field)
    cases hu : (trim field).dropWhile (· ≠ 0x20) with
    | nil => exact .inl rfl
    | cons c u' =>
      rw [hu] at hhead
      obtain rfl : c = 0x20 := by simpa using hhead
      exact .inr ⟨u', rfl⟩

/-- The two fields of a name. -/
theorem take_eleven (e : Bytes) :
    e.take 11 = DirEntry.fileName e ++ DirEntry.fileExtension e :=
  List.take_add (i := 8) (j := 3)

theorem length_fileExtension (hlen : e.length = DirEntry.size) :
    (DirEntry.fileExtension e).length = 3 := by
  rw [DirEntry.fileExtension, List.length_take, List.length_drop, hlen]
  rfl

/-- The name that `nameFromEntry` gives to a file: nothing of it is cut off. -/
theorem nameOf_of_file (hzero : 0 ∉ e.take 11) (hlfn : DirEntry.attributes e ≠ DirEntry.LFN)
    (hsub : DirEntry.attributes e ≠ DirEntry.SUBDIRECTORY) :
    nameOf e = (DirEntry.fileName e).takeWhile (· ≠ 0x20) ++ 0x2e :: DirEntry.fileExtension e := by
  rw [take_eleven, List.mem_append, not_or] at hzero
  rw [nameOf, if_neg hlfn, entryName, if_pos hsub]
  refine List.takeWhile_eq_self_iff.mpr fun c hc ↦ decide_eq_true ?_
  rintro rfl
  rcases List.mem_append.mp hc with hbase | hrest
  · exact hzero.1 ((List.takeWhile_prefix _).subset hbase)
  · rcases List.mem_cons.mp hrest with hdot | hext
    · exact absurd hdot (by decide)
    · exact hzero.2 hext

/-- **The two names of a regular file.**  They agree exactly if the base has no space before its
padding and the extension no padding. -/
theorem nameOf_eq_name83_iff (hlen : e.length = DirEntry.size) (hzero : 0 ∉ e.take 11)
    (hregular : Regular e) :
    nameOf e = name83 e ↔ 0x20 ∉ trim (DirEntry.fileName e) ∧
      trim (DirEntry.fileExtension e) = DirEntry.fileExtension e := by
  obtain ⟨-, hlfn, -, hdir⟩ := hregular
  have hsub : DirEntry.attributes e ≠ DirEntry.SUBDIRECTORY := by
    intro hattr
    rw [hattr] at hdir
    exact absurd hdir (by decide)
  obtain ⟨u, hu, hspace⟩ := trim_eq_takeWhile_append (DirEntry.fileName e)
  have hbase : 0x20 ∉ (DirEntry.fileName e).takeWhile (· ≠ 0x20) := fun hmem ↦ by
    simpa using List.mem_takeWhile_imp hmem
  rw [nameOf_of_file hzero hlfn hsub, name83, hu]
  constructor
  · intro heq
    rw [List.append_assoc, List.append_cancel_left_eq] at heq
    rcases hspace with rfl | ⟨u', rfl⟩
    · rw [List.nil_append] at heq
      split at heq
      next => cases heq
      next =>
        rw [List.append_nil]
        exact ⟨hbase, (List.cons.inj heq).2.symm⟩
    · exact absurd (List.cons.inj heq).1 (by decide)
  · rintro ⟨hno, hfull⟩
    have hne : DirEntry.fileExtension e ≠ [] :=
      List.ne_nil_of_length_eq_add_one (length_fileExtension hlen)
    rcases hspace with rfl | ⟨u', rfl⟩
    · rw [List.append_nil, hfull, if_neg hne]
    · exact absurd (List.mem_append_right _ List.mem_cons_self) hno

/-! ## What the search finds -/

/-- What `getRootFile` asks of the heap. -/
def Volume.lookupRequests (this : Volume) (dir : Bytes) (n : ℕ) (file : Bytes) :
    List (BitVec 32) :=
  [this.dirSize, 12] ++ 12 :: searchRequests file dir n 0

theorem searchMatch_eq_find? (hfile : 0 ∉ file) (hlen : DirEntry.size * (i + k) ≤ dir.length) :
    searchMatch file dir k i =
      ((List.range' i k).map (nthEntry dir)).find? fun e ↦ nameOf e = file := by
  induction k generalizing i with
  | zero => rfl
  | succ k ih =>
    have hentry : entryAt dir i = .ok (nthEntry dir i) :=
      entryAt_eq (by rw [DirEntry.size] at *; omega)
    rw [List.range'_succ, List.map_cons]
    simp only [searchMatch, hentry, strcmp_eq_zero_iff (zero_not_mem_nameOf _) hfile]
    by_cases hname : nameOf (nthEntry dir i) = file
    · rw [if_pos hname]
      exact (List.find?_cons_of_pos (by simpa using hname)).symm
    · rw [if_neg hname, ih (by rwa [Nat.add_right_comm])]
      exact (List.find?_cons_of_neg (by simpa using hname)).symm

theorem searchMatch_eq_namedEntry (hfile : 0 ∉ file) (hends : EndsAt dir 0 n) :
    searchMatch file dir n 0 = namedEntry dir n file := by
  rw [searchMatch_eq_find? hfile (by simpa using Nat.le_of_lt hends.2.1), namedEntry, entries,
    List.range_eq_range']

/-- Without a match, the search ends with return code 1. -/
theorem searchEntries_of_no_match (disk : Disk) (this : Volume) {p : Bytes}
    (hlen : DirEntry.size * (i + k) ≤ dir.length)
    (hgrants : A.Grants h.state (searchRequests file dir k i))
    (hmatch : searchMatch file dir k i = none) (fuel : ℕ) :
    ∃ h', searchEntries A disk this fuel file dir (some p) k i h = some (.ok ⟨1, 0, none⟩, h') := by
  induction k generalizing i h with
  | zero => exact ⟨h, rfl⟩
  | succ k ih =>
    have hentry : entryAt dir i = .ok (nthEntry dir i) :=
      entryAt_eq (by rw [DirEntry.size] at *; omega)
    simp only [searchRequests, searchMatch, hentry] at hgrants hmatch
    rw [Allocator.grants_append] at hgrants
    rw [searchEntries, hentry, Run.bind_of_ok (Op.ofExec_apply _),
      Run.bind_of_ok (nameFromEntry_of_grants hgrants.1)]
    by_cases hname : strcmp (nameOf (nthEntry dir i)) file = 0
    · simp [hname] at hmatch
    · rw [if_neg hname] at hgrants hmatch ⊢
      exact ih (by rwa [Nat.add_right_comm]) hgrants.2 hmatch

/-- `getRootFile(file)` returns `r`. -/
def Returns (A : Allocator σ) (disk : Disk) (this : Volume) (file : Bytes) (h : Heap σ)
    (r : FileResult) : Prop :=
  ∃ fuel h', getRootFile A disk this fuel file h = some (.ok r, h')

/-- What is left in the block `b` by reading the file with entry `e` into it. -/
def Volume.fileBlock (this : Volume) (disk : Disk) (e b : Bytes) : Bytes :=
  this.fileData disk e ++ b.drop (this.fileData disk e).length

theorem readFile_returns_iff {p : Bytes} {r : FileResult}
    (hb : (A.alloc h.state (bufferSize e)).1 = some b) :
    (∃ fuel h', readFile A disk this fuel (some p) e h = some (.ok r, h')) ↔
      this.fileWalk disk e = .endMark ∧
        r = ⟨0, DirEntry.fileSize e, some (this.fileBlock disk e b)⟩ := by
  have hlen := A.length_alloc hb
  constructor
  · rintro ⟨fuel, h', hrun⟩
    obtain ⟨buffer, hloop, rfl, -⟩ := (readFile_eq_ok_iff hb).mp hrun
    obtain ⟨hwalk, rfl⟩ := (clusterLoop_ok_iff hlen).mp ⟨fuel, hloop⟩
    exact ⟨hwalk, rfl⟩
  · rintro ⟨hwalk, rfl⟩
    obtain ⟨fuel, hloop⟩ := (clusterLoop_ok_iff hlen).mpr ⟨hwalk, rfl⟩
    exact ⟨fuel, _, (readFile_eq_ok_iff hb).mpr ⟨_, hloop, rfl, rfl⟩⟩

/-- What is returned when an entry has the name. -/
theorem returns_iff_of_named (hroot : this.SingleClusterRoot disk dir n) (hfile : 0 ∉ file)
    (hgrants : A.Grants h.state (this.lookupRequests dir n file))
    (hnamed : namedEntry dir n file = some e) :
    ∃ t b, (A.alloc t (bufferSize e)).1 = some b ∧
      ∀ r, Returns A disk this file h r ↔ this.fileWalk disk e = .endMark ∧
        r = ⟨0, DirEntry.fileSize e, some (this.fileBlock disk e b)⟩ := by
  obtain ⟨t, p, hsearch, -, hrun⟩ := getRootFile_eq_search hgrants
  rw [← searchMatch_eq_namedEntry hfile hroot.ends] at hnamed
  obtain ⟨t', ht', -, hread⟩ := searchEntries_of_match (h := ⟨t, h.refused⟩) hsearch hnamed
  obtain ⟨b, hb⟩ := Option.isSome_iff_exists.mp ht'
  refine ⟨t', b, hb, fun r ↦ ?_⟩
  rw [← readFile_returns_iff (h := ⟨t', h.refused⟩) (p := p) hb, Returns]
  simp only [hrun disk hroot, hread]

/-- What is returned when none has. -/
theorem returns_iff_of_not_named (hroot : this.SingleClusterRoot disk dir n) (hfile : 0 ∉ file)
    (hgrants : A.Grants h.state (this.lookupRequests dir n file))
    (hnamed : namedEntry dir n file = none) {r : FileResult} :
    Returns A disk this file h r ↔ r = ⟨1, 0, none⟩ := by
  obtain ⟨t, p, hsearch, -, hrun⟩ := getRootFile_eq_search hgrants
  rw [← searchMatch_eq_namedEntry hfile hroot.ends] at hnamed
  have hend : ∀ fuel, ∃ h', getRootFile A disk this fuel file h = some (.ok ⟨1, 0, none⟩, h') := by
    intro fuel
    rw [hrun disk hroot fuel]
    exact searchEntries_of_no_match disk this (by simpa using Nat.le_of_lt hroot.ends.2.1) hsearch
      hnamed fuel
  constructor
  · rintro ⟨fuel, h', hrun'⟩
    obtain ⟨h'', hrun''⟩ := hend fuel
    rw [hrun'] at hrun''
    exact Except.ok.inj (congrArg Prod.fst (Option.some.inj hrun''))
  · rintro rfl
    exact ⟨0, hend 0⟩

/-! ## When the format's file is found -/

/-- What `getRootFile` returns is what the format says: return code 1 if there is no live regular
file of that 8.3 name, and else return code 0, the size of the first one and a block that begins
with its content. -/
def LooksUp (A : Allocator σ) (disk : Disk) (this : Volume) (dir : Bytes) (n : ℕ) (file : Bytes)
    (h : Heap σ) : Prop :=
  match regularEntry dir n file with
  | none => Returns A disk this file h ⟨1, 0, none⟩
  | some e => ∃ data, Returns A disk this file h ⟨0, DirEntry.fileSize e, some data⟩ ∧
      ∀ content, HasContent disk this e content →
        data.take (DirEntry.fileSize e).toNat = content

/-- The file with entry `e` is read, with the size and the content of the one with entry `e'`. -/
structure ReadsLike (disk : Disk) (this : Volume) (e e' : Bytes) : Prop where
  endMark : this.fileWalk disk e = .endMark
  fileSize : DirEntry.fileSize e = DirEntry.fileSize e'
  content : ∀ content, HasContent disk this e' content →
    (this.fileData disk e).take (DirEntry.fileSize e').toNat = content

/-- Neither entry exists, or both do and the first one reads like the second. -/
def SameLookup (disk : Disk) (this : Volume) : Option Bytes → Option Bytes → Prop
  | none, none => True
  | some e, some e' => ReadsLike disk this e e'
  | _, _ => False

theorem length_of_hasContent {content : Bytes} (h : HasContent disk this e content) :
    content.length = (DirEntry.fileSize e).toNat := by
  obtain ⟨cs, data, -, -, hlen, rfl⟩ := h
  exact List.length_take_of_le hlen

/-- The clusters of a chain have one sector each, and that is the one that the loop reads. -/
theorem walkData_of_readClusters {c : BitVec 32} {cs : List (BitVec 32)} {data : Bytes}
    (hone : (VBR.sectorsPerCluster this.vbr).toNat = 1) (hchain : this.Chain c cs)
    (hwalk : this.walk disk k c = .endMark) (hdata : this.readClusters disk cs = some data) :
    this.walkData disk k c = data := by
  induction cs generalizing c k data with
  | nil =>
    rw [Volume.walkData_of_end disk k hchain]
    exact Option.some.inj hdata
  | cons d ds ih =>
    obtain ⟨rfl, hend, htwo, -, hnext⟩ := hchain
    rcases Volume.endMark_cases hwalk with hend' | ⟨m, bs, rfl, -, hbs, -, hwalk⟩
    · rw [hend] at hend'
      cases hend'
    · simp only [Volume.readClusters, Option.bind_eq_bind, Option.bind_eq_some_iff] at hdata
      obtain ⟨bs', hbs', rest, hrest, hdata⟩ := hdata
      have hread : disk.read (this.clusterLBA d) 1 = some bs' := by
        rw [Volume.readCluster] at hbs'
        split at hbs'
        next => rwa [hone, ← this.clusterLBA_eq htwo] at hbs'
        next => cases hbs'
      rw [Volume.walkData_of_next hend hread, ih hnext hwalk hrest]
      exact Option.some.inj hdata

/-- **On clusters of one sector** what is read of a file is its content. -/
theorem content_eq_of_one_sector {content : Bytes}
    (hone : (VBR.sectorsPerCluster this.vbr).toNat = 1)
    (hwalk : this.fileWalk disk e = .endMark) (hcontent : HasContent disk this e content) :
    (this.fileData disk e).take (DirEntry.fileSize e).toNat = content := by
  obtain ⟨cs, data, hchain, hdata, hlen, rfl⟩ := hcontent
  rcases hchain with hchain | ⟨-, rfl⟩
  · rw [Volume.fileData, walkData_of_readClusters hone hchain hwalk hdata]
  · obtain rfl : [] = data := Option.some.inj hdata
    rw [Nat.le_zero.mp hlen, List.take_zero, List.take_zero]

/-- A heap that hands out the block `b` for every request of its size. -/
def handing (b : Bytes) : Allocator Unit where
  alloc _ n := (some (if b.length = n.toNat then b else List.replicate n.toNat 0), ())
  length_alloc {s n b'} h := by
    rw [← Option.some.inj h]
    split
    next hlen => exact hlen
    next => exact List.length_replicate

theorem grants_handing (b : Bytes) (s : Unit) (ns : List (BitVec 32)) :
    (handing b).Grants s ns := by
  induction ns generalizing s with
  | nil => exact Allocator.grants_nil _ s
  | cons n ns ih => exact (Allocator.grants_cons _ s n ns).mpr ⟨rfl, ih _⟩

/-- What is returned on a heap that hands out `b`, a block for the entry with the name. -/
theorem returns_handing_iff (hroot : this.SingleClusterRoot disk dir n) (hfile : 0 ∉ file)
    (hnamed : namedEntry dir n file = some e) (hb : b.length = (bufferSize e).toNat)
    {r : FileResult} :
    Returns (handing b) disk this file ⟨(), false⟩ r ↔ this.fileWalk disk e = .endMark ∧
      r = ⟨0, DirEntry.fileSize e, some (this.fileBlock disk e b)⟩ := by
  obtain ⟨t, b₀, hb₀, hiff⟩ :=
    returns_iff_of_named hroot hfile (h := ⟨(), false⟩) (grants_handing b _ _) hnamed
  obtain rfl : b₀ = b := by simpa [handing, hb, eq_comm] using hb₀
  exact hiff r

/-- What comes out whatever was in the block before has been read. -/
theorem take_eq_of_blocks {data content : Bytes} (len : ℕ)
    (hall : ∀ b : Bytes, b.length = len →
      (data ++ b.drop data.length).take content.length = content) :
    data.take content.length = content := by
  have hzero := hall (List.replicate len 0) List.length_replicate
  have hread : content.length ≤ data.length := by
    by_contra hshort
    have hlen := congrArg List.length hzero
    rw [List.length_take, List.length_append, List.length_drop, List.length_replicate] at hlen
    have hbyte : ∀ x : Byte, content[data.length]? = some x := by
      intro x
      rw [← hall (List.replicate len x) List.length_replicate,
        List.getElem?_take_of_lt (by omega), List.getElem?_append_right (Nat.le_refl _),
        Nat.sub_self, List.drop_replicate, List.getElem?_replicate_of_lt (by omega)]
    exact absurd ((hbyte 0).symm.trans (hbyte 1)) (by decide)
  rwa [List.take_append_of_le_length hread] at hzero

/-- A lookup that goes right on all heaps that hand out a block for the named entry. -/
theorem readsLike_of_looksUp {e' : Bytes} (hroot : this.SingleClusterRoot disk dir n)
    (hfile : 0 ∉ file) (hnamed : namedEntry dir n file = some e)
    (hregular : regularEntry dir n file = some e')
    (hall : ∀ b, LooksUp (handing b) disk this dir n file ⟨(), false⟩) :
    ReadsLike disk this e e' := by
  have hblock : ∀ b : Bytes, b.length = (bufferSize e).toNat →
      this.fileWalk disk e = .endMark ∧ DirEntry.fileSize e = DirEntry.fileSize e' ∧
        ∀ content, HasContent disk this e' content →
          (this.fileBlock disk e b).take (DirEntry.fileSize e').toNat = content := by
    intro b hb
    have hlook := hall b
    rw [LooksUp, hregular] at hlook
    obtain ⟨data, hret, hcontent⟩ := hlook
    rw [returns_handing_iff hroot hfile hnamed hb, FileResult.mk.injEq, Option.some.injEq] at hret
    obtain ⟨hwalk, -, hsize, rfl⟩ := hret
    exact ⟨hwalk, hsize.symm, hcontent⟩
  obtain ⟨hwalk, hsize, -⟩ := hblock (List.replicate _ 0) List.length_replicate
  refine ⟨hwalk, hsize, fun content hcontent ↦ ?_⟩
  rw [← length_of_hasContent hcontent]
  refine take_eq_of_blocks (bufferSize e).toNat fun b hb ↦ ?_
  rw [length_of_hasContent hcontent]
  exact (hblock b hb).2.2 content hcontent

/-- The directory entry of `README`, a file without an extension. -/
def readmeEntry : Bytes :=
  [0x52, 0x45, 0x41, 0x44, 0x4d, 0x45, 0x20, 0x20, 0x20, 0x20, 0x20, 0x20] ++
    List.replicate 14 0 ++ [3, 0, 100, 0, 0, 0]

/-- The string `README`. -/
def readmeName : Bytes := [0x52, 0x45, 0x41, 0x44, 0x4d, 0x45]

end Fat32
end RainbowOS
