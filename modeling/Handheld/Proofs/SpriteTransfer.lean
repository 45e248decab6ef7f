import Handheld.Proofs.Additive.Bus
import Mathlib.Algebra.GroupWithZero.Nat

/-!
# Filling the sprite memory

A program names a page, and its bytes go over into the sprite memory, one in each cycle.  Between
two of them anything may happen to the devices, but nothing that the transfer reads from: it sees
the memories and the cartridge as they were when the page was named.

`Bus.pageByte` is the byte that belongs at a place of the sprite memory, and `Bus.Copied` says how
far a transfer has come.  One byte that goes over (`Copied.transferByte`) takes it one place
further, and the devices do not disturb it (`Copied.passed`), so that after any division of the time
only its total counts: this is `Bus.transfer_copies_page`.
-/

namespace Handheld

namespace Bus

variable {b t : Bus} {page : UInt8} {n : Nat}

/-! ### The bytes of a page -/

/-- The byte of a page at an offset, as a transfer sees it.  The video memory is never kept out of
reach, and from `0xFE00` on it is the work memory that answers; everywhere else it is the byte that
the processor reads. -/
def pageByte (b : Bus) (page : UInt8) (offset : Nat) : UInt8 :=
  let address := 256 * page.toNat + offset
  if h : 0x8000 ≤ address ∧ address ≤ 0x9FFF then b.videoRam.get ⟨address - 0x8000, by omega⟩
  else if 0xFE00 ≤ address then
    b.workRam.get ⟨(address - 0xE000) % 0x2000, Nat.mod_lt _ (by decide)⟩
  else b.read (UInt16.ofNat address)

/-- Two buses with the same cartridge and the same memories, apart from the sprite memory. -/
structure SameSources (b t : Bus) : Prop where
  cartridge : t.cartridge = b.cartridge
  bootRom : t.bootRom = b.bootRom
  bootActive : t.bootActive = b.bootActive
  workRam : t.workRam = b.workRam
  highRam : t.highRam = b.highRam
  videoRam : t.videoRam = b.videoRam

/-- Outside of the video memory and below the sprite memory, the processor reads bytes of the
cartridge, the start-up program and the work memory. -/
lemma SameSources.read_eq (h : b.SameSources t) {addr : UInt16}
    (hvideo : ¬ (0x8000 ≤ addr.toNat ∧ addr.toNat < 0xA000)) (hlow : addr.toNat < 0xFE00) :
    t.read addr = b.read addr := by
  have hrom : t.readRom addr = b.readRom addr := by
    rw [readRom, readRom, h.bootRom, h.bootActive, h.cartridge]
  unfold read Location.ofAddress
  dsimp only
  by_cases hbank : addr.toNat < 0x8000
  · simp only [if_pos hbank]
    exact hrom
  by_cases hram : addr.toNat < 0xC000
  · simp only [if_neg hbank, dif_neg (by omega : ¬ addr.toNat < 0xA000), if_pos hram, h.cartridge]
  by_cases hwork : addr.toNat < 0xE000
  · simp only [if_neg hbank, dif_neg (by omega : ¬ addr.toNat < 0xA000), if_neg hram, dif_pos hwork,
      h.workRam]
  · simp only [if_neg hbank, dif_neg (by omega : ¬ addr.toNat < 0xA000), if_neg hram,
      dif_neg hwork, dif_pos hlow, h.workRam]

/-- A transfer reads the bytes of its page. -/
lemma SameSources.transferRead_eq (h : b.SameSources t) (page offset : UInt8) :
    t.transferRead (Word.join page offset) = b.pageByte page offset.toNat := by
  have haddress := Word.toNat_join page offset
  have hlt := (Word.join page offset).toNat_lt
  have hjoin : UInt16.ofNat (256 * page.toNat + offset.toNat) = Word.join page offset := by
    rw [← haddress, UInt16.ofNat_toNat]
  unfold transferRead pageByte
  simp only [← haddress] at hjoin ⊢
  by_cases hvideo : 0x8000 ≤ (Word.join page offset).toNat ∧
      (Word.join page offset).toNat < 0xA000
  · have hvideo' : 0x8000 ≤ (Word.join page offset).toNat ∧
        (Word.join page offset).toNat ≤ 0x9FFF := by omega
    rw [dif_pos hvideo, dif_pos hvideo', h.videoRam]
  have hvideo' : ¬ (0x8000 ≤ (Word.join page offset).toNat ∧
      (Word.join page offset).toNat ≤ 0x9FFF) := by omega
  rw [dif_neg hvideo, dif_neg hvideo']
  by_cases hhigh : 0xFE00 ≤ (Word.join page offset).toNat
  · have hmod : ((Word.join page offset).toNat - 0xE000) % 0x2000 =
        (Word.join page offset).toNat - 0xE000 := Nat.mod_eq_of_lt (by omega)
    rw [dif_pos hhigh, if_pos hhigh, h.workRam]
    simp only [hmod]
  · rw [dif_neg hhigh, if_neg hhigh, hjoin]
    exact h.read_eq hvideo (by omega)

/-! ### A transfer under way -/

/-- A bus whose transfer of a page began on another one, some cycles ago. -/
structure Copied (b : Bus) (page : UInt8) (cycles : Nat) (t : Bus) : Prop where
  sources : b.SameSources t
  named : t.dma.page = page
  active : t.dma.active = true ↔ cycles < 160
  index : t.dma.index.toNat = min cycles 160
  sprites : ∀ i : Fin 0xA0, t.spriteRam.get i =
    if i.val < cycles then b.pageByte page i.val else b.spriteRam.get i

namespace Copied

/-- A transfer begins when its page is named. -/
lemma start (b : Bus) (page : UInt8) : b.Copied page 0 (b.write 0xFF46 page) where
  sources := ⟨rfl, rfl, rfl, rfl, rfl, rfl⟩
  named := rfl
  active := iff_of_true rfl (by decide)
  index := rfl
  sprites _ := rfl

/-- After the last byte nothing changes any more. -/
lemma done (h : b.Copied page n t) (hn : 160 ≤ n) {m : Nat} (hm : 160 ≤ m) :
    b.Copied page m t where
  sources := h.sources
  named := h.named
  active := by
    rw [h.active]
    omega
  index := by
    rw [h.index]
    omega
  sprites i := by
    have hi : i.val < 160 := i.isLt
    rw [h.sprites, if_pos (by omega), if_pos (by omega)]

/-- One more byte goes over. -/
theorem transferByte (h : b.Copied page n t) (hn : n < 160) :
    b.Copied page (n + 1) t.transferByte := by
  have hindex : t.dma.index.toNat = n := h.index.trans (Nat.min_eq_left (Nat.le_of_lt hn))
  have hnext : (t.dma.index + 1).toNat = n + 1 := by
    rw [UInt8.toNat_add, hindex]
    exact Nat.mod_eq_of_lt (by change n + 1 < 256; omega)
  have hbyte : t.transferRead t.dma.source = b.pageByte page n := by
    rw [Dma.source, h.named, h.sources.transferRead_eq, hindex]
  refine ⟨{ h.sources with }, h.named, ?_, ?_, fun i => ?_⟩
  · have hlast : t.transferByte.dma.active = true ↔ t.dma.index + 1 ≠ Dma.length := bne_iff_ne
    rw [hlast, ne_eq, ← UInt8.toNat_inj, hnext]
    change ¬ n + 1 = 160 ↔ _
    omega
  · change (t.dma.index + 1).toNat = _
    rw [hnext]
    omega
  · have hset : t.transferByte.spriteRam.get i =
        if n = i.val then b.pageByte page n else t.spriteRam.get i := by
      change (t.spriteRam.setIfInBounds t.dma.index.toNat _)[i.val] = _
      rw [Vector.getElem_setIfInBounds, hindex, hbyte]
      rfl
    rw [hset]
    by_cases hi : n = i.val
    · rw [if_pos hi, if_pos (by omega), hi]
    · rw [if_neg hi, h.sprites]
      exact if_congr (by omega) rfl rfl

/-- As many bytes go over as there are cycles, until the last one has. -/
lemma transfer (h : b.Copied page n t) (k : Nat) : b.Copied page (n + k) (transfer k t) := by
  induction k generalizing n t with
  | zero => exact h
  | succ k ih =>
    unfold Bus.transfer
    -- After the last byte the loop stops, even if there are cycles left.
    by_cases hn : n < 160
    · have hsum : n + (k + 1) = n + 1 + k := by omega
      rw [if_pos (h.active.mpr hn), hsum]
      exact ih (h.transferByte hn)
    · rw [if_neg fun hactive => hn (h.active.mp hactive)]
      exact h.done (by omega) (by omega)

variable {η : Type} [Host η]

/-- The devices leave a transfer alone. -/
theorem passed (h : b.Copied page n t) (cycles : UInt32) (host : η) :
    b.Copied page n (t.passed cycles host) :=
  ⟨{ h.sources with }, h.named, h.active, h.index, h.sprites⟩

/-- While time passes, a transfer copies one byte in each cycle. -/
lemma advance (h : b.Copied page n t) (cycles : UInt32) (host : η) :
    b.Copied page (n + cycles.toNat) (t.advance cycles host).bus :=
  (h.passed cycles host).transfer cycles.toNat

/-- During several stretches of time, a transfer copies one byte in each cycle. -/
lemma foldl_advance (h : b.Copied page n t) (slices : List (UInt32 × η)) :
    b.Copied page (n + (slices.map (·.1.toNat)).sum)
      (slices.foldl (fun t slice => (t.advance slice.1 slice.2).bus) t) := by
  induction slices generalizing n t with
  | nil => exact h
  | cons slice slices ih =>
    rw [List.map_cons, List.sum_cons, ← Nat.add_assoc]
    exact ih (h.advance slice.1 slice.2)

end Copied

/-- After a page is named, its bytes are in the sprite memory as far as there were cycles for them,
and the rest of it is as it was.  The transfer is under way until all have gone over.  The
other memories and the cartridge are untouched.  It makes no difference how the cycles are divided,
nor what the host answers in each part. -/
theorem transfer_copies_page {η : Type} [Host η] (b : Bus) (page : UInt8)
    (slices : List (UInt32 × η)) :
    let cycles := (slices.map (·.1.toNat)).sum
    let final := slices.foldl (fun t slice => (t.advance slice.1 slice.2).bus)
      (b.write 0xFF46 page)
    (∀ i : Fin 0xA0, final.spriteRam.get i =
      if i.val < min cycles 160 then b.pageByte page i.val else b.spriteRam.get i) ∧
    (final.dma.active = true ↔ cycles < 160) ∧
    final.videoRam = b.videoRam ∧ final.workRam = b.workRam ∧ final.highRam = b.highRam ∧
    final.cartridge = b.cartridge ∧ final.bootRom = b.bootRom ∧
    final.bootActive = b.bootActive := by
  intro cycles final
  have hfinal : b.Copied page cycles final := by
    have h := (Copied.start b page).foldl_advance slices
    rwa [Nat.zero_add] at h
  obtain ⟨hsources, -, hactive, -, hsprites⟩ := hfinal
  refine ⟨fun i => ?_, hactive, hsources.videoRam, hsources.workRam, hsources.highRam,
    hsources.cartridge, hsources.bootRom, hsources.bootActive⟩
  have hi : i.val < 160 := i.isLt
  rw [hsprites]
  exact if_congr (by omega) rfl rfl

end Bus

end Handheld
