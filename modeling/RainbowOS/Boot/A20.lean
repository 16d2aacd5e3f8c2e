import RainbowOS.Lib.Board

/-!
# Address line 20: `check_a20`

`stage1.S` looks for line 20 with two bytes that are a megabyte apart: if they are the same byte,
the line is closed.  What was there is saved and stored again.

Only bytes are saved, and words are stored.  So the test is right, whatever was in memory, and the
byte behind each of the two is 0 afterwards.
-/

set_option autoImplicit false

namespace RainbowOS

open X86 Pc

variable {δ : Type}

/-! ## The function -/

section

variable (B : Board δ)

/-- What is used is saved. -/
def check_a20_save (s : Pc δ) : Pc δ :=
  let s := s.push B s.flags
  let s := s.push B s.ds
  let s := s.push B s.es
  let s := s.push B s.di
  let s := s.push B s.si
  s.cli

/-- Where to test: `0x0000:0x0500` is `%es:%di`, and `0xffff:0x0510` is `%ds:%si`. -/
def check_a20_point (s : Pc δ) : Pc δ :=
  let s := s.setAx 0
  let s := s.setEs s.ax
  let s := s.setAx (~~~s.ax)
  let s := s.setDs s.ax
  (s.setDi 0x0500).setSi 0x0510

/-- A byte is preserved on the stack. -/
def preserveByte (segment offset : BitVec 16) (s : Pc δ) : Pc δ :=
  let s := s.setAl (s.load8 B segment offset)
  s.push B s.ax

/-- What is there is preserved. -/
def check_a20_preserve (s : Pc δ) : Pc δ :=
  let s := preserveByte B s.es s.di s
  preserveByte B s.ds s.si s

/-- The comparison. -/
def check_a20_compare (s : Pc δ) : Pc δ :=
  let s := s.store16 B s.es s.di 0x00
  let s := s.store16 B s.ds s.si 0xff
  s.cmp (s.load16 B s.es s.di) 0xff

/-- A byte from the stack is stored again. -/
def restoreByte (segment offset : BitVec 16) (s : Pc δ) : Pc δ :=
  let s := s.pop B setAx
  s.store8 B segment offset s.al

/-- What was there is stored again. -/
def check_a20_restore (s : Pc δ) : Pc δ :=
  let s := restoreByte B s.ds s.si s
  restoreByte B s.es s.di s

/-- The result is in `%ax`, and what was saved is restored. -/
def check_a20_exit (s : Pc δ) : Pc δ :=
  let s := s.setAx 0
  let s := if s.zero then s else s.setAx 1
  let s := s.pop B setSi
  let s := s.pop B setDi
  let s := s.pop B setEs
  let s := s.pop B setDs
  s.pop B setFlags

/-- `check_a20`, up to its `ret`. -/
def check_a20 (s : Pc δ) : Pc δ :=
  check_a20_exit B (check_a20_restore B (check_a20_compare B (check_a20_preserve B
    (check_a20_point (check_a20_save B s)))))

end

/-! ## The two bytes -/

/-- `0x0000:0x0500`. -/
def nearByte : Addr := 0x500

/-- `0xffff:0x0510`, as the memory is asked for it. -/
def farByte (a20 : Bool) : Addr := physical a20 0x100500

theorem farByte_true : farByte true = 0x100500 := rfl

theorem farByte_false : farByte false = nearByte := by decide

/-- The registers point to the two bytes. -/
structure Pointing (s : Pc δ) : Prop where
  es : s.es = 0
  di : s.di = 0x0500
  ds : s.ds = 0xffff
  si : s.si = 0x0510

variable {B : Board δ} {s t u : Pc δ} {ws : List (BitVec 16)} {v w : BitVec 16}

theorem Pointing.address_near (h : Pointing s) : s.address B s.es s.di = nearByte := by
  rw [h.es, h.di, address_zero]
  rfl

theorem Pointing.address_far (h : Pointing s) :
    s.address B s.ds s.si = farByte (B.a20 s.devices) := by
  rw [h.ds, h.si]
  rfl

theorem pointing_point (s : Pc δ) : Pointing (check_a20_point s) := by
  refine ⟨setWidth_withLow _ _, setWidth_withLow _ _, ?_, setWidth_withLow _ _⟩
  change (withLow (withLow s.regs.eax 0) (~~~(withLow s.regs.eax 0).setWidth 16)).setWidth 16 = _
  rw [setWidth_withLow, setWidth_withLow]
  rfl

theorem beside_point (s : Pc δ) : Beside s (check_a20_point s) :=
  ((((Beside.setAx s _).trans (.setEs _ _)).trans (.setAx _ _)).trans (.setDs _ _)).trans
    ((Beside.setDi _ _).trans (.setSi _ _))

/-! ## What the parts do -/

theorem check_a20_save_spec (hs : s.Holds ws) (hroom : 10 ≤ s.sp.toNat) :
    (check_a20_save B s).Holds (s.si :: s.di :: s.es :: s.ds :: s.flags :: ws) ∧
      (check_a20_save B s).sp.toNat = s.sp.toNat - 10 ∧ Beside s (check_a20_save B s) ∧
      ∀ x, ¬ s.Below 10 x → (check_a20_save B s).mem x = s.mem x := by
  have hsave : check_a20_save B s = (s.pushAll B [s.flags, s.ds, s.es, s.di, s.si]).cli := rfl
  obtain ⟨hholds, hsp, hbeside, hmem⟩ :=
    pushAll_spec (B := B) [s.flags, s.ds, s.es, s.di, s.si] hs hroom
  rw [hsave]
  exact ⟨⟨hholds.ss, hholds.room, hholds.words⟩, hsp, ⟨hbeside.eax, hbeside.esp, hbeside.esi,
    hbeside.edi, hbeside.ecx, hbeside.edx, hbeside.ebx, hbeside.ebp, hbeside.cr0, hbeside.cs,
    hbeside.ss, hbeside.fs, hbeside.gs, hbeside.devices⟩, hmem⟩

theorem toNat_farByte (a20 : Bool) :
    (farByte a20).toNat = if a20 then 0x100500 else 0x500 := by
  cases a20 with
  | true => rfl
  | false => rw [farByte_false]; rfl

/-- The two bytes are not on the stack. -/
theorem not_below_near {n : ℕ} (hn : n + 0x502 ≤ s.sp.toNat) {x : Addr} (hx : x.toNat < 0x502) :
    ¬ s.Below n x := by
  rw [Below]
  omega

theorem not_below_far {n : ℕ} (hn : n + 0x502 ≤ s.sp.toNat) (a20 : Bool) :
    ¬ s.Below n (farByte a20) := by
  have hfar := toNat_farByte a20
  have hlt := s.sp.isLt
  rw [Below]
  split at hfar <;> omega

theorem preserveByte_spec (ht : t.Holds ws) (hroom : 2 ≤ t.sp.toNat) (segment offset : BitVec 16) :
    ∃ v, (preserveByte B segment offset t).Holds (v :: ws) ∧
      v.setWidth 8 = t.mem (t.address B segment offset) ∧
      (preserveByte B segment offset t).sp.toNat = t.sp.toNat - 2 ∧
      ∀ x, ¬ t.Below 2 x → (preserveByte B segment offset t).mem x = t.mem x := by
  obtain ⟨s, hs⟩ : ∃ s, s = t.setAl (t.load8 B segment offset) := ⟨_, rfl⟩
  have hax : s.ax.setWidth 8 = t.mem (t.address B segment offset) := by
    have hlow : s.ax = t.ah ++ t.load8 B segment offset := hs ▸ setWidth_withLow _ _
    rw [hlow, BitVec.setWidth_append]
    simp [load8]
  have hholds : s.Holds ws := hs ▸ ⟨ht.ss, ht.room, ht.words⟩
  have hsp : s.sp = t.sp := hs ▸ rfl
  have hmem : s.mem = t.mem := hs ▸ rfl
  have hpush : preserveByte B segment offset t = s.push B s.ax := by rw [hs, preserveByte]
  rw [← hsp] at hroom
  refine ⟨s.ax, ?_, hax, ?_, fun x hx ↦ ?_⟩
  · rw [hpush]
    exact hholds.push hroom
  · rw [hpush, toNat_sp_push hroom, hsp]
  · rw [hpush, ← hmem]
    refine mem_push_of_not_below hholds.ss hroom ?_
    rwa [Below, hsp]

theorem beside_preserveByte (segment offset : BitVec 16) (t : Pc δ) :
    Beside t (preserveByte B segment offset t) :=
  (Beside.setAx t _).trans (.push B _ _)

theorem Pointing.preserveByte (hp : Pointing t) (segment offset : BitVec 16) :
    Pointing (preserveByte B segment offset t) :=
  ⟨hp.es, hp.di, hp.ds, hp.si⟩

theorem check_a20_preserve_spec (ht : t.Holds ws) (hp : Pointing t)
    (hroom : 0x506 ≤ t.sp.toNat) :
    ∃ v w, (check_a20_preserve B t).Holds (w :: v :: ws) ∧ v.setWidth 8 = t.mem nearByte ∧
      w.setWidth 8 = t.mem (farByte (B.a20 t.devices)) ∧
      (check_a20_preserve B t).sp.toNat = t.sp.toNat - 4 ∧
      ∀ x, ¬ t.Below 4 x → (check_a20_preserve B t).mem x = t.mem x := by
  obtain ⟨v, hholds₁, hv, hsp₁, hmem₁⟩ := preserveByte_spec (B := B) ht (by omega) t.es t.di
  obtain ⟨t₁, ht₁⟩ : ∃ t₁, t₁ = preserveByte B t.es t.di t := ⟨_, rfl⟩
  have hp₁ : Pointing t₁ := ht₁ ▸ hp.preserveByte _ _
  have hbeside₁ : Beside t t₁ := ht₁ ▸ beside_preserveByte _ _ t
  have hpreserve : check_a20_preserve B t = preserveByte B t₁.ds t₁.si t₁ := by
    rw [ht₁, check_a20_preserve]
  rw [← ht₁] at hholds₁ hsp₁ hmem₁
  obtain ⟨w, hholds, hw, hsp, hmem⟩ := preserveByte_spec (B := B) hholds₁ (by omega) t₁.ds t₁.si
  rw [← hpreserve] at hholds hsp hmem
  rw [hp.address_near] at hv
  rw [hp₁.address_far, hbeside₁.devices, hmem₁ _ (not_below_far (by omega) _)] at hw
  refine ⟨v, w, hholds, hv, hw, by omega, fun x hx ↦ ?_⟩
  rw [Below] at hx
  rw [hmem x (by rw [Below]; omega), hmem₁ x (by rw [Below]; omega)]

/-- The word that is found at the first byte says whether the two are one. -/
theorem read16_near (m : Mem) (a20 : Bool) :
    ((m.write16 nearByte 0x00).write16 (farByte a20) 0xff).read16 nearByte =
      if a20 then 0x00 else 0xff := by
  cases a20 with
  | true =>
    refine (Mem.readLE_write_of_disjoint (n := 2) (k := 2) (by decide)).trans ?_
    exact Mem.readLE_writeLE (n := 2) m (by decide) _ _
  | false =>
    rw [farByte_false]
    exact Mem.readLE_writeLE (n := 2) _ (by decide) _ _

/-- A word that is stored at one of the two bytes does not meet the stack. -/
theorem write16_near_far (m : Mem) (a20 : Bool) {x : Addr} (hx : 0x502 ≤ x.toNat)
    (hx' : x.toNat < 0x10000) :
    ((m.write16 nearByte 0x00).write16 (farByte a20) 0xff) x = m x := by
  have hfar := toNat_farByte a20
  have hnear : nearByte.toNat = 0x500 := rfl
  refine (Mem.write_of_not_mem ?_).trans (Mem.write_of_not_mem ?_)
  · split at hfar <;> bv_omega
  · bv_omega

theorem check_a20_compare_spec (ht : t.Holds ws) (hp : Pointing t) (hroom : 0x502 ≤ t.sp.toNat) :
    (check_a20_compare B t).Holds ws ∧ (check_a20_compare B t).sp = t.sp ∧
      Beside t (check_a20_compare B t) ∧ (check_a20_compare B t).zero = !B.a20 t.devices ∧
      (check_a20_compare B t).mem =
        (t.mem.write16 nearByte 0x00).write16 (farByte (B.a20 t.devices)) 0xff := by
  obtain ⟨s, hs⟩ : ∃ s, s = (t.store16 B t.es t.di 0x00).store16 B t.ds t.si 0xff := ⟨_, rfl⟩
  have hmem : s.mem = (t.mem.write16 nearByte 0x00).write16 (farByte (B.a20 t.devices)) 0xff := by
    rw [hs]
    change (t.mem.write16 (t.address B t.es t.di) 0x00).write16 (t.address B t.ds t.si) 0xff = _
    rw [hp.address_near, hp.address_far]
  have hload : s.load16 B s.es s.di = if B.a20 t.devices then 0x00 else 0xff := by
    have hp' : Pointing s := hs ▸ ⟨hp.es, hp.di, hp.ds, hp.si⟩
    rw [load16, hp'.address_near, hmem, read16_near]
  have hcompare : check_a20_compare B t = s.cmp (if B.a20 t.devices then 0x00 else 0xff) 0xff := by
    rw [← hload, hs]
    rfl
  have hsp : s.sp = t.sp := hs ▸ rfl
  have hholds : s.Holds ws := by
    have hle := ht.room
    refine ht.congr (hs ▸ rfl) hsp fun x hx hx' ↦ ?_
    rw [hmem]
    exact write16_near_far _ _ (by omega) (by omega)
  rw [hcompare]
  refine ⟨⟨hholds.ss, hholds.room, hholds.words⟩, hsp, ?_, ?_, hmem⟩
  · rw [hs]
    exact { Beside.refl t with }
  · cases B.a20 t.devices with
    | true => simp [Pc.cmp, Pc.zero]
    | false => simp [Pc.cmp, Pc.zero]

theorem restoreByte_spec (ht : t.Holds (w :: ws)) (hroom : t.sp.toNat + 2 < 0x10000)
    {segment offset : BitVec 16} (hbelow : (t.address B segment offset).toNat < t.sp.toNat ∨
      0x10000 ≤ (t.address B segment offset).toNat) :
    (restoreByte B segment offset t).Holds ws ∧
      (restoreByte B segment offset t).sp.toNat = t.sp.toNat + 2 ∧
      (restoreByte B segment offset t).mem =
        t.mem.write8 (t.address B segment offset) (w.setWidth 8) := by
  obtain ⟨hpop, hholds, hsp⟩ := ht.pop (B := B) hroom setAx rfl rfl rfl
  have hal : (t.pop B setAx).al = w.setWidth 8 := by
    rw [hpop]
    change (withLow t.regs.eax w).setWidth 8 = _
    rw [withLow, BitVec.setWidth_append]
    simp
  have hmem : (restoreByte B segment offset t).mem =
      t.mem.write8 (t.address B segment offset) (w.setWidth 8) := by
    rw [← hal]
    rfl
  refine ⟨hholds.congr rfl rfl fun x hx hx' ↦ ?_, hsp, hmem⟩
  have hle := hholds.room
  rw [hmem]
  refine Mem.write8_of_ne fun heq ↦ ?_
  rw [← heq] at hbelow
  omega

theorem Pointing.restoreByte (hp : Pointing t) (segment offset : BitVec 16) :
    Pointing (restoreByte B segment offset t) :=
  ⟨hp.es, hp.di, hp.ds, hp.si⟩

theorem beside_restoreByte (segment offset : BitVec 16) (t : Pc δ) :
    Beside t (restoreByte B segment offset t) := by
  have h := (Beside.setAx t (t.top B)).trans (.drop _)
  exact ⟨h.eax, h.esp, h.esi, h.edi, rfl, rfl, rfl, rfl, rfl, rfl, rfl, rfl, rfl, rfl⟩

theorem check_a20_restore_spec (ht : t.Holds (w :: v :: ws)) (hp : Pointing t)
    (hroom : 0x502 ≤ t.sp.toNat) (hroom' : t.sp.toNat + 4 < 0x10000) :
    (check_a20_restore B t).Holds ws ∧ (check_a20_restore B t).sp.toNat = t.sp.toNat + 4 ∧
      (check_a20_restore B t).mem =
        (t.mem.write8 (farByte (B.a20 t.devices)) (w.setWidth 8)).write8 nearByte
          (v.setWidth 8) := by
  have hfar := toNat_farByte (B.a20 t.devices)
  have hlt := t.sp.isLt
  have hnear : nearByte.toNat = 0x500 := rfl
  have hout : (t.address B t.ds t.si).toNat < t.sp.toNat ∨
      0x10000 ≤ (t.address B t.ds t.si).toNat := by
    rw [hp.address_far]
    split at hfar <;> omega
  obtain ⟨hholds₁, hsp₁, hmem₁⟩ := restoreByte_spec ht (by omega) hout
  obtain ⟨t₁, ht₁⟩ : ∃ t₁, t₁ = restoreByte B t.ds t.si t := ⟨_, rfl⟩
  have hp₁ : Pointing t₁ := ht₁ ▸ hp.restoreByte _ _
  have hrestore : check_a20_restore B t = restoreByte B t₁.es t₁.di t₁ := by
    rw [ht₁, check_a20_restore]
  rw [← ht₁] at hholds₁ hsp₁ hmem₁
  have hout₁ : (t₁.address B t₁.es t₁.di).toNat < t₁.sp.toNat ∨
      0x10000 ≤ (t₁.address B t₁.es t₁.di).toNat := by
    rw [hp₁.address_near]
    omega
  obtain ⟨hholds, hsp, hmem⟩ := restoreByte_spec hholds₁ (by omega) hout₁
  rw [hrestore]
  refine ⟨hholds, by omega, ?_⟩
  rw [hmem, hmem₁, hp.address_far, hp₁.address_near]

/-- The result, and the registers that have been saved. -/
theorem check_a20_exit_spec {si di es ds flags : BitVec 16}
    (ht : t.Holds (si :: di :: es :: ds :: flags :: ws)) (hroom : t.sp.toNat + 10 < 0x10000) :
    (check_a20_exit B t).Holds ws ∧ (check_a20_exit B t).sp.toNat = t.sp.toNat + 10 ∧
      (check_a20_exit B t).ax = (if t.zero then 0 else 1) ∧ (check_a20_exit B t).si = si ∧
      (check_a20_exit B t).di = di ∧ (check_a20_exit B t).es = es ∧
      (check_a20_exit B t).ds = ds ∧ (check_a20_exit B t).flags = flags ∧
      Beside t (check_a20_exit B t) ∧ (check_a20_exit B t).mem = t.mem := by
  obtain ⟨t₀, ht₀⟩ : ∃ t₀, t₀ = if (t.setAx 0).zero then t.setAx 0 else (t.setAx 0).setAx 1 :=
    ⟨_, rfl⟩
  have h₀ : Beside t t₀ ∧ t₀.mem = t.mem ∧ t₀.sp = t.sp ∧ t₀.ax = if t.zero then 0 else 1 := by
    have hzero : (t.setAx 0).zero = t.zero := rfl
    rw [ht₀, hzero]
    cases t.zero with
    | true => exact ⟨.setAx t 0, rfl, rfl, setWidth_withLow _ _⟩
    | false => exact ⟨(Beside.setAx t 0).trans (.setAx _ 1), rfl, rfl, setWidth_withLow _ _⟩
  obtain ⟨hbeside, hmem, hsp, hax⟩ := h₀
  have hholds : t₀.Holds (si :: di :: es :: ds :: flags :: ws) :=
    ht.congr hbeside.ss hsp fun x _ _ ↦ by rw [hmem]
  rw [← hsp] at hroom
  obtain ⟨t₁, ht₁⟩ : ∃ t₁, t₁ = t₀.pop B setSi := ⟨_, rfl⟩
  obtain ⟨t₂, ht₂⟩ : ∃ t₂, t₂ = t₁.pop B setDi := ⟨_, rfl⟩
  obtain ⟨t₃, ht₃⟩ : ∃ t₃, t₃ = t₂.pop B setEs := ⟨_, rfl⟩
  obtain ⟨t₄, ht₄⟩ : ∃ t₄, t₄ = t₃.pop B setDs := ⟨_, rfl⟩
  obtain ⟨t₅, ht₅⟩ : ∃ t₅, t₅ = t₄.pop B setFlags := ⟨_, rfl⟩
  have hexit : check_a20_exit B t = t₅ := by rw [ht₅, ht₄, ht₃, ht₂, ht₁, ht₀, check_a20_exit]
  obtain ⟨hpop₁, hholds₁, hsp₁⟩ := hholds.pop (B := B) (by omega) setSi rfl rfl rfl
  rw [← ht₁] at hpop₁ hholds₁ hsp₁
  obtain ⟨hpop₂, hholds₂, hsp₂⟩ := hholds₁.pop (B := B) (by omega) setDi rfl rfl rfl
  rw [← ht₂] at hpop₂ hholds₂ hsp₂
  obtain ⟨hpop₃, hholds₃, hsp₃⟩ := hholds₂.pop (B := B) (by omega) setEs rfl rfl rfl
  rw [← ht₃] at hpop₃ hholds₃ hsp₃
  obtain ⟨hpop₄, hholds₄, hsp₄⟩ := hholds₃.pop (B := B) (by omega) setDs rfl rfl rfl
  rw [← ht₄] at hpop₄ hholds₄ hsp₄
  obtain ⟨hpop₅, hholds₅, hsp₅⟩ := hholds₄.pop (B := B) (by omega) setFlags rfl rfl rfl
  rw [← ht₅] at hpop₅ hholds₅ hsp₅
  have f₁ : t₁.ax = t₀.ax ∧ t₁.mem = t₀.mem ∧ t₁.si = si :=
    hpop₁ ▸ ⟨rfl, rfl, setWidth_withLow _ _⟩
  have f₂ : t₂.ax = t₁.ax ∧ t₂.mem = t₁.mem ∧ t₂.si = t₁.si ∧ t₂.di = di :=
    hpop₂ ▸ ⟨rfl, rfl, rfl, setWidth_withLow _ _⟩
  have f₃ : t₃.ax = t₂.ax ∧ t₃.mem = t₂.mem ∧ t₃.si = t₂.si ∧ t₃.di = t₂.di ∧ t₃.es = es :=
    hpop₃ ▸ ⟨rfl, rfl, rfl, rfl, rfl⟩
  have f₄ : t₄.ax = t₃.ax ∧ t₄.mem = t₃.mem ∧ t₄.si = t₃.si ∧ t₄.di = t₃.di ∧ t₄.es = t₃.es ∧
      t₄.ds = ds := hpop₄ ▸ ⟨rfl, rfl, rfl, rfl, rfl, rfl⟩
  have f₅ : t₅.ax = t₄.ax ∧ t₅.mem = t₄.mem ∧ t₅.si = t₄.si ∧ t₅.di = t₄.di ∧ t₅.es = t₄.es ∧
      t₅.ds = t₄.ds ∧ t₅.flags = flags := hpop₅ ▸ ⟨rfl, rfl, rfl, rfl, rfl, rfl, rfl⟩
  have hrest : Beside t₀ t₅ := by
    rw [ht₅, ht₄, ht₃, ht₂, ht₁]
    exact ((((Beside.pop .setSi B _).trans (.pop .setDi B _)).trans (.pop .setEs B _)).trans
      (.pop .setDs B _)).trans (.pop .setFlags B _)
  rw [hexit]
  refine ⟨hholds₅, by rw [← hsp]; omega, ?_⟩
  simp [f₁, f₂, f₃, f₄, f₅, hax, hmem, hbeside.trans hrest]

/-! ## The whole function -/

/-- A word with an upper byte of 0, seen from behind its lower byte. -/
theorem write16_of_ne (m : Mem) {a x : Addr} {v : BitVec 16} (hv : Mem.byteOf v 1 = 0)
    (hx : x ≠ a) : m.write16 a v x = if x = a + 1 then 0 else m x := by
  split
  · rename_i hnext
    rw [hnext]
    exact (Mem.write_add (a := a) (i := 1) (by decide) (by decide)).trans hv
  · rename_i hnext
    exact Mem.write_of_not_mem (by bv_omega)

/-- What the stores leave: the two bytes as they were, and 0 behind them. -/
theorem restored_apply {m m' : Mem} (a20 : Bool) {x : Addr} (hx : m x = m' x) :
    ((((m.write16 nearByte 0x00).write16 (farByte a20) 0xff).write8 (farByte a20)
        (m' (farByte a20))).write8 nearByte (m' nearByte)) x =
      if x = 0x501 ∨ x = farByte a20 + 1 then 0 else m' x := by
  have hbehind : farByte a20 + 1 ≠ nearByte ∧ farByte a20 + 1 ≠ farByte a20 ∧
      farByte a20 ≠ 0x501 := by
    cases a20 with
    | true => decide
    | false => decide
  obtain ⟨hne₁, hne₂, hne₃⟩ := hbehind
  have hnext : nearByte + 1 = 0x501 := rfl
  by_cases h₁ : x = nearByte
  · subst h₁
    rw [Mem.write8_self, if_neg (not_or.mpr ⟨by decide, hne₁.symm⟩)]
  · rw [Mem.write8_of_ne h₁]
    by_cases h₂ : x = farByte a20
    · rw [h₂, Mem.write8_self, if_neg (not_or.mpr ⟨hne₃, hne₂.symm⟩)]
    · rw [Mem.write8_of_ne h₂, write16_of_ne _ (by decide) h₂, write16_of_ne _ (by decide) h₁,
        hnext, hx]
      by_cases h₃ : x = farByte a20 + 1
      · rw [if_pos h₃, if_pos (.inr h₃)]
      · rw [if_neg h₃]
        exact if_congr (or_iff_left h₃).symm rfl rfl

/-- What the function does, on a stack with its return address. -/
theorem check_a20_spec (B : Board δ) {s : Pc δ} {returnAddr : BitVec 16}
    (hs : s.Holds (returnAddr :: ws)) (hroom : 0x510 ≤ s.sp.toNat) :
    (check_a20 B s).regs =
        { s.regs with eax := withLow s.regs.eax (if B.a20 s.devices then 1 else 0) } ∧
      (check_a20 B s).flags = s.flags ∧ (check_a20 B s).ds = s.ds ∧ (check_a20 B s).es = s.es ∧
      Beside s (check_a20 B s) ∧ (check_a20 B s).Holds (returnAddr :: ws) ∧
      ∀ x, ¬ s.Below 14 x → (check_a20 B s).mem x =
        if x = 0x501 ∨ x = farByte (B.a20 s.devices) + 1 then 0 else s.mem x := by
  have hle := hs.room
  rw [List.length_cons] at hle
  obtain ⟨t₁, ht₁⟩ : ∃ t₁, t₁ = check_a20_save B s := ⟨_, rfl⟩
  obtain ⟨t₂, ht₂⟩ : ∃ t₂, t₂ = check_a20_point t₁ := ⟨_, rfl⟩
  obtain ⟨t₃, ht₃⟩ : ∃ t₃, t₃ = check_a20_preserve B t₂ := ⟨_, rfl⟩
  obtain ⟨t₄, ht₄⟩ : ∃ t₄, t₄ = check_a20_compare B t₃ := ⟨_, rfl⟩
  obtain ⟨t₅, ht₅⟩ : ∃ t₅, t₅ = check_a20_restore B t₄ := ⟨_, rfl⟩
  obtain ⟨t₆, ht₆⟩ : ∃ t₆, t₆ = check_a20_exit B t₅ := ⟨_, rfl⟩
  have hwhole : check_a20 B s = t₆ := by rw [ht₆, ht₅, ht₄, ht₃, ht₂, ht₁, check_a20]
  obtain ⟨hholds₁, hsp₁, hbeside₁, hmem₁⟩ := check_a20_save_spec (B := B) hs (by omega)
  rw [← ht₁] at hholds₁ hsp₁ hbeside₁ hmem₁
  have hbeside₂ : Beside t₁ t₂ := ht₂ ▸ beside_point t₁
  have hmem₂ : t₂.mem = t₁.mem := ht₂ ▸ rfl
  have hsp₂ : t₂.sp = t₁.sp := ht₂ ▸ rfl
  have hp₂ : Pointing t₂ := ht₂ ▸ pointing_point t₁
  have hholds₂ := hholds₁.congr hbeside₂.ss hsp₂ fun x _ _ ↦ by rw [hmem₂]
  obtain ⟨v, w, hholds₃, hv, hw, hsp₃, hmem₃⟩ :=
    check_a20_preserve_spec (B := B) hholds₂ hp₂ (by rw [hsp₂]; omega)
  have hp₃ : Pointing t₃ := ht₃ ▸ ⟨hp₂.es, hp₂.di, hp₂.ds, hp₂.si⟩
  have hbeside₃ : Beside t₂ t₃ :=
    ht₃ ▸ (beside_preserveByte _ _ _).trans (beside_preserveByte _ _ _)
  rw [← ht₃] at hholds₃ hsp₃ hmem₃
  obtain ⟨hholds₄, hsp₄, hbeside₄, hzero, hmem₄⟩ := check_a20_compare_spec (B := B) hholds₃ hp₃
    (by rw [hsp₃, hsp₂]; omega)
  have hp₄ : Pointing t₄ := ht₄ ▸ ⟨hp₃.es, hp₃.di, hp₃.ds, hp₃.si⟩
  rw [← ht₄] at hholds₄ hsp₄ hbeside₄ hzero hmem₄
  rw [← hsp₄] at hsp₃
  rw [hsp₂] at hsp₃
  obtain ⟨hholds₅, hsp₅, hmem₅⟩ :=
    check_a20_restore_spec (B := B) hholds₄ hp₄ (by omega) (by omega)
  have hbeside₅ : Beside t₄ t₅ :=
    ht₅ ▸ (beside_restoreByte _ _ _).trans (beside_restoreByte _ _ _)
  have hzero₅ : t₅.zero = t₄.zero := ht₅ ▸ rfl
  rw [← ht₅] at hholds₅ hsp₅ hmem₅
  obtain ⟨hholds₆, hsp₆, hax, hsi, hdi, hes, hds, hflags, hbeside₆, hmem₆⟩ :=
    check_a20_exit_spec (B := B) hholds₅ (by omega)
  rw [← ht₆] at hholds₆ hsp₆ hax hsi hdi hes hds hflags hbeside₆ hmem₆
  have hbeside : Beside s t₆ := ((((hbeside₁.trans hbeside₂).trans hbeside₃).trans hbeside₄).trans
    hbeside₅).trans hbeside₆
  have hsp : t₆.sp = s.sp := BitVec.eq_of_toNat_eq (by omega)
  rw [hzero₅, hzero, hbeside₃.devices, hbeside₂.devices, hbeside₁.devices] at hax
  rw [hwhole]
  refine ⟨?_, hflags, hds, hes, hbeside, hholds₆, fun x hx ↦ ?_⟩
  · have hregs : t₆.regs = ⟨t₆.regs.eax, t₆.regs.ecx, t₆.regs.edx, t₆.regs.ebx, t₆.regs.esp,
      t₆.regs.ebp, t₆.regs.esi, t₆.regs.edi⟩ := rfl
    rw [hregs, Regs.mk.injEq]
    refine ⟨?_, hbeside.ecx, hbeside.edx, hbeside.ebx, eq_of_halves hbeside.esp hsp, hbeside.ebp,
      eq_of_halves hbeside.esi hsi, eq_of_halves hbeside.edi hdi⟩
    rw [eq_withLow hbeside.eax]
    change withLow s.regs.eax t₆.ax = _
    rw [hax]
    cases B.a20 s.devices <;> rfl
  · have hdevices₄ : t₄.devices = s.devices :=
      (((hbeside₁.trans hbeside₂).trans hbeside₃).trans hbeside₄).devices
    have hdevices₂ : t₂.devices = s.devices := (hbeside₁.trans hbeside₂).devices
    have hdevices₃ : t₃.devices = s.devices := hbeside₃.devices.trans hdevices₂
    have hoff : ∀ x, ¬ s.Below 14 x → t₃.mem x = s.mem x := fun x hx ↦ by
      rw [Below] at hx
      rw [hmem₃ x (by rw [Below, hsp₂]; omega), hmem₂, hmem₁ x (by rw [Below]; omega)]
    have hbyte : ∀ x, ¬ s.Below 10 x → t₂.mem x = s.mem x := fun x hx ↦ by rw [hmem₂, hmem₁ x hx]
    rw [hmem₆, hmem₅, hmem₄, hv, hw, hdevices₄, hdevices₂, hdevices₃,
      hbyte nearByte (not_below_near (by omega) (by decide)),
      hbyte (farByte _) (not_below_far (by omega) _)]
    exact restored_apply _ (hoff x hx)

/-- **`check_a20` is exact.**  From every machine with a stack above the bytes that are tested: the
function comes back, with 1 in `%ax` just if the gate is open, and with everything else as it was
but the memory; and of that, outside of the stack, just the byte behind each of the two that are
tested is changed, to 0. -/
theorem check_a20_exact (B : Board δ) (s : Pc δ) (hss : s.ss = 0) (hroom : 0x512 ≤ s.sp.toNat)
    (returnAddr : BitVec 16) :
    ∃ m, s.call B returnAddr (fun s ↦ .ok ((check_a20 B s).ret B)) = .ok { s with
        regs := { s.regs with eax := withLow s.regs.eax (if B.a20 s.devices then 1 else 0) }
        mem := m } ∧
      ∀ x, ¬ s.Below 16 x → m x =
        if x = 0x501 ∨ x = farByte (B.a20 s.devices) + 1 then 0 else s.mem x := by
  have hlt := s.sp.isLt
  have hpushed : (s.push B returnAddr).Holds [returnAddr] :=
    Holds.push ⟨hss, by simp; omega, by simp⟩ (by omega)
  have hsp := toNat_sp_push (B := B) (show 2 ≤ s.sp.toNat by omega) returnAddr
  obtain ⟨t, ht⟩ : ∃ t, t = check_a20 B (s.push B returnAddr) := ⟨_, rfl⟩
  obtain ⟨hregs, hflags, hds, hes, hbeside, hholds, hmem⟩ :=
    check_a20_spec B hpushed (by omega)
  rw [← ht] at hregs hflags hds hes hbeside hholds hmem
  have hcall : s.call B returnAddr (fun s ↦ .ok ((check_a20 B s).ret B)) = .ok t.drop :=
    call_eq_ok (by rw [ht]) hholds
  have hesp := esp_drop_of_push (show t.regs.esp = (s.push B returnAddr).regs.esp by rw [hregs])
  have hregs' : t.drop.regs =
      { s.regs with eax := withLow s.regs.eax (if B.a20 s.devices then 1 else 0) } := by
    change ({ t.regs with esp := t.drop.regs.esp } : Regs) = _
    rw [hesp, hregs]
    rfl
  refine ⟨t.mem, ?_, fun x hx ↦ ?_⟩
  · rw [hcall]
    exact congrArg Except.ok (Pc.ext hregs' rfl hbeside.cr0 hbeside.cs hds hes hbeside.fs hbeside.gs
      hbeside.ss hflags hbeside.devices)
  · rw [Below] at hx
    rw [hmem x (by rw [Below, hsp]; omega),
      mem_push_of_not_below hss (by omega) (by rw [Below]; omega)]
    rfl

/-- A board on which nothing opens the gate but the port that is made for it. -/
def fastBoard : Board Bool where
  int10 := id
  int13 := id
  int15 s := { s with flags := s.flags ||| 1 }
  inb _ d := (1, d)
  outb port v d := if port = 0x92 then v.getLsbD 1 else d
  a20 d := d

theorem check_a20_exact_closed :
    ∃ m, (Pc.initial false).call fastBoard 0 (fun s ↦ .ok ((check_a20 fastBoard s).ret fastBoard)) =
        .ok { Pc.initial false with
          regs := { (Pc.initial false).regs with eax := withLow 0 0 }
          mem := m } ∧
      ∀ x, ¬ (Pc.initial false).Below 16 x →
        m x = if x = 0x501 ∨ x = farByte false + 1 then 0 else 0 :=
  check_a20_exact fastBoard (Pc.initial false) rfl (by decide) 0

end RainbowOS
