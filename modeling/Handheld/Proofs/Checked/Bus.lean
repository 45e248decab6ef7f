import Handheld.Proofs.Addresses
import Handheld.Proofs.Cartridge.Restored
import Handheld.Proofs.Checked.Devices
import Handheld.Proofs.Checked.Display
import Handheld.Proofs.Saved.Bus

/-!
# A bus that never traps

An access goes to a cell of a memory by taking the first address of the memory off the address, and
the controller of a cartridge selects banks with masks that are one less than the numbers of banks.
A transfer into sprite memory counts its bytes in a byte, as does the serial link its bits.

Reads never trap (`Bus.checkedRead_eq`).  Writes do not as long as the numbers of banks are powers
of two (`Bus.checkedWrite_eq`), as on every accepted cartridge
(`Mapper.WellFormed.masked_banks`), and time passes for every well-formed bus
(`Bus.checkedAdvance_eq`).
-/

namespace Handheld

/-! ### Bank controllers -/

/-- Banks whose numbers are powers of two, except that there may be no RAM. -/
structure Banks.Masked (b : Banks) : Prop where
  rom : ∃ k, b.romCount = 2 ^ k
  ram : ∃ k, max 1 b.ramCount = 2 ^ k

/-- The numbers of banks on an accepted cartridge are powers of two, or there is no RAM. -/
theorem Mapper.WellFormed.masked_banks {image : Array UInt8} {h : Header} {m : Mapper}
    (himage : Header.parse image = .ok h) (hm : m.WellFormed h) : m.banks.Masked := by
  have hdescribes := Header.describes_of_parse himage
  refine ⟨⟨_, hm.romCount.trans hdescribes.romBanks⟩, ?_⟩
  rw [hm.ramCount]
  obtain hnone | ⟨k, hk⟩ := hdescribes.ramBanks
  · exact ⟨0, by rw [hnone]; rfl⟩
  · exact ⟨k, by rw [hk]; exact Nat.max_eq_right Nat.one_le_two_pow⟩

/-- A mask that is one less than a power of two gives the remainder. -/
lemma Banks.and_pred_of_eq_two_pow {n k : Nat} (hn : n = 2 ^ k) (m : Nat) :
    m &&& (n - 1) = m % n := by
  subst hn
  exact Nat.and_two_pow_sub_one_eq_mod m k

/-- Select banks with masks. -/
def Banks.checkedSelect (b : Banks) (rom ram : Nat) : Checked Banks := do
  let romMask ← Checked.sub b.romCount 1
  let ramMask ← Checked.sub (max 1 b.ramCount) 1
  return { b with rom := rom &&& romMask, ram := ram &&& ramMask }

/-- Banks can be selected with masks if their numbers are powers of two. -/
lemma Banks.checkedSelect_eq {b : Banks} (hb : b.Masked) (rom ram : Nat) :
    b.checkedSelect rom ram = .ok (b.select rom ram) := by
  obtain ⟨⟨k, hrom⟩, ⟨l, hram⟩⟩ := hb
  have hpos : 1 ≤ b.romCount := hrom ▸ Nat.one_le_two_pow
  rw [checkedSelect, Checked.sub_of_le hpos, Checked.ok_bind,
    Checked.sub_of_le (Nat.le_max_left 1 b.ramCount), Checked.ok_bind,
    and_pred_of_eq_two_pow hrom, and_pred_of_eq_two_pow hram]
  rfl

-- Without a ROM bank there is no mask.
example (b : Banks) (rom ram : Nat) : { b with romCount := 0 }.checkedSelect rom ram =
    .error .subtraction := rfl

namespace Mapper

variable {m : Mapper}

/-- Replace the registers and select the banks that they ask for. -/
def checkedWithControls (m : Mapper) (c : Controls) : Checked Mapper := do
  let banks ← m.banks.checkedSelect c.romSelect c.ramSelect
  return { m with controls := c, banks := banks }

/-- A write of the processor to a ROM address. -/
def checkedWriteControl (m : Mapper) (addr : UInt16) (v : UInt8) : Checked Mapper :=
  match m.controls with
  | .none => return m
  | .mbc1 low high mode =>
    if addr < 0x2000 then return m.latch v
    else if addr < 0x4000 then m.checkedWithControls (.mbc1 (v &&& 0x7F) high mode)
    else if addr < 0x6000 then m.checkedWithControls (.mbc1 low (v &&& 0x03) mode)
    else m.checkedWithControls (.mbc1 low high (v &&& 0x01))
  | .mbc2 _ =>
    if addr ≥ 0x4000 then return m
    else if addr.toNat.testBit 8 then m.checkedWithControls (.mbc2 (v &&& 0x0F))
    else return m.latch v
  | .mbc3 rom ram =>
    if addr < 0x2000 then return m.latch v
    else if addr < 0x4000 then m.checkedWithControls (.mbc3 (v &&& 0x7F) ram)
    else if addr < 0x6000 then m.checkedWithControls (.mbc3 rom (v &&& 0x03))
    else return m
  | .mbc5 low high ram =>
    if addr < 0x2000 then return m.latch v
    else if addr < 0x3000 then m.checkedWithControls (.mbc5 v high ram)
    else if addr < 0x4000 then m.checkedWithControls (.mbc5 low (v &&& 0x01) ram)
    else if addr < 0x6000 then m.checkedWithControls (.mbc5 low high (v &&& 0x0F))
    else return m

lemma checkedWithControls_eq (hm : m.banks.Masked) (c : Controls) :
    m.checkedWithControls c = .ok (m.withControls c) := by
  rw [checkedWithControls, Banks.checkedSelect_eq hm]
  rfl

/-- Programs can steer a controller. -/
lemma checkedWriteControl_eq (hm : m.banks.Masked) (addr : UInt16) (v : UInt8) :
    m.checkedWriteControl addr v = .ok (m.writeControl addr v) := by
  unfold checkedWriteControl writeControl
  simp only [checkedWithControls_eq hm, Checked.pure_eq, ← apply_ite Except.ok]
  cases m.controls with
  | _ => rfl

end Mapper

/-! ### Cells -/

namespace Checked

variable {α : Type} {n : Nat} {addr base : UInt16} {i : Fin n}

/-- Look up the cell of a memory at an address, given the first address of the memory. -/
def cell (memory : Vector α n) (addr base : UInt16) : Checked α := do
  let place ← sub addr base
  get memory place.toNat

/-- Replace the cell of a memory at an address. -/
def setCell (memory : Vector α n) (addr base : UInt16) (a : α) : Checked (Vector α n) := do
  let place ← sub addr base
  set memory place.toNat a

lemma cell_eq (memory : Vector α n) (h : addr.toNat = base.toNat + i) :
    cell memory addr base = .ok (memory.get i) := by
  obtain ⟨place, hsub, hplace⟩ := sub_half addr base rfl (by omega)
  have hi : place.toNat = i := by omega
  rw [cell, hsub, ok_bind, hi, get_of_lt i.isLt]
  rfl

lemma setCell_eq (memory : Vector α n) (h : addr.toNat = base.toNat + i) (a : α) :
    setCell memory addr base a = .ok (memory.set i a i.isLt) := by
  obtain ⟨place, hsub, hplace⟩ := sub_half addr base rfl (by omega)
  have hi : place.toNat = i := by omega
  rw [setCell, hsub, ok_bind, hi, set_of_lt i.isLt]

end Checked

/-! ### Accesses -/

namespace Bus

variable {P : Display → Prop} {b b₀ : Bus}

/-- The byte at a ROM address. -/
def checkedReadRom (b : Bus) (addr : UInt16) : Checked UInt8 :=
  match b.bootRom with
  | some boot =>
    if b.bootActive && addr < 0x100 && boot.size == bootRomSize then
      Checked.get boot.toVector addr.toNat
    else return b.cartridge.readRom addr
  | none => return b.cartridge.readRom addr

/-- The byte that the processor reads at an address. -/
def checkedRead (b : Bus) (addr : UInt16) : Checked UInt8 :=
  let n := addr.toNat
  if n < 0x8000 then b.checkedReadRom addr
  else if n < 0xA000 then
    if b.display.videoAccessible then Checked.cell b.videoRam addr 0x8000 else return 0xFF
  else if n < 0xC000 then return b.cartridge.readRam addr
  else if n < 0xE000 then Checked.cell b.workRam addr 0xC000
  else if n < 0xFE00 then Checked.cell b.workRam addr 0xE000
  else if n < 0xFEA0 then
    if b.display.oamAccessible then Checked.cell b.spriteRam addr 0xFE00 else return 0xFF
  else if 0xFF10 ≤ n ∧ n < 0xFF40 then b.sound.checkedRead addr.toUInt8
  else if 0xFF80 ≤ n ∧ n < 0xFFFF then Checked.cell b.highRam addr 0xFF80
  -- A register by itself, or nothing.
  else return b.read addr

/-- A write of the processor. -/
def checkedWrite (b : Bus) (addr : UInt16) (v : UInt8) : Checked Bus :=
  let n := addr.toNat
  if n < 0x8000 then do
    let mapper ← b.cartridge.mapper.checkedWriteControl addr v
    return { b with cartridge := { b.cartridge with mapper := mapper } }
  else if n < 0xA000 then
    if b.display.videoAccessible then do
      let ram ← Checked.setCell b.videoRam addr 0x8000 v
      return { b with videoRam := ram }
    else return b
  else if n < 0xC000 then return { b with cartridge := b.cartridge.writeRam addr v }
  else if n < 0xE000 then do
    let ram ← Checked.setCell b.workRam addr 0xC000 v
    return { b with workRam := ram }
  else if n < 0xFE00 then do
    let ram ← Checked.setCell b.workRam addr 0xE000 v
    return { b with workRam := ram }
  else if n < 0xFEA0 then
    if b.display.oamAccessible then do
      let ram ← Checked.setCell b.spriteRam addr 0xFE00 v
      return { b with spriteRam := ram }
    else return b
  else if 0xFF10 ≤ n ∧ n < 0xFF40 then do
    let sound ← b.sound.checkedWrite addr.toUInt8 v
    return { b with sound := sound }
  else if 0xFF80 ≤ n ∧ n < 0xFFFF then do
    let ram ← Checked.setCell b.highRam addr 0xFF80 v
    return { b with highRam := ram }
  else return b.write addr v

/-- The start-up program is looked up only where it is. -/
lemma checkedReadRom_eq (b : Bus) (addr : UInt16) :
    b.checkedReadRom addr = .ok (b.readRom addr) := by
  unfold checkedReadRom readRom
  cases b.bootRom with
  | none => rfl
  | some boot =>
    simp only
    split
    · rename_i hcovered
      simp only [Bool.and_eq_true, decide_eq_true_eq, beq_iff_eq, UInt16.lt_iff_toNat_lt]
        at hcovered
      have hlt : addr.toNat < boot.size := by
        rw [hcovered.2]
        exact hcovered.1.2
      rw [Checked.get_of_lt hlt, Array.getD_eq_getD_getElem?, Array.getElem?_eq_getElem hlt]
      rfl
    · rfl

/-- Every address can be read. -/
theorem checkedRead_eq (b : Bus) (addr : UInt16) : b.checkedRead addr = .ok (b.read addr) := by
  unfold checkedRead
  simp only
  split
  · rename_i h
    rw [checkedReadRom_eq, read, Location.ofAddress_rom h]
  split
  · obtain ⟨i, hi⟩ := Location.exists_cell addr 0x2000 0x8000 (by omega)
    rw [Checked.cell_eq b.videoRam hi, read, Location.ofAddress_videoRam hi]
    exact (apply_ite Except.ok _ _ _).symm
  split
  · rw [read, Location.ofAddress_cartridgeRam (by omega)]
    rfl
  split
  · obtain ⟨i, hi⟩ := Location.exists_cell addr 0x2000 0xC000 (by omega)
    rw [Checked.cell_eq b.workRam hi, read, Location.ofAddress_workRam hi]
  split
  · rename_i h
    obtain ⟨i, hi⟩ := Location.exists_cell addr 0x2000 0xE000 (by omega)
    rw [Checked.cell_eq b.workRam hi, read, Location.ofAddress_echo hi h]
  split
  · obtain ⟨i, hi⟩ := Location.exists_cell addr 0xA0 0xFE00 (by omega)
    rw [Checked.cell_eq b.spriteRam hi, read, Location.ofAddress_spriteRam hi]
    exact (apply_ite Except.ok _ _ _).symm
  split
  · rename_i h
    rw [Sound.checkedRead_eq, read, Location.ofAddress_sound h]
  split
  · obtain ⟨i, hi⟩ := Location.exists_cell addr 0x7F 0xFF80 (by omega)
    rw [Checked.cell_eq b.highRam hi, read, Location.ofAddress_highRam hi]
  · rfl

/-- Every address can be written, if programs can steer the controller. -/
theorem checkedWrite_eq (hb : b.cartridge.mapper.banks.Masked) (addr : UInt16) (v : UInt8) :
    b.checkedWrite addr v = .ok (b.write addr v) := by
  unfold checkedWrite
  simp only
  split
  · rename_i h
    rw [Mapper.checkedWriteControl_eq hb, Checked.ok_bind, write, Location.ofAddress_rom h]
    rfl
  split
  · obtain ⟨i, hi⟩ := Location.exists_cell addr 0x2000 0x8000 (by omega)
    rw [Checked.setCell_eq b.videoRam hi, write, Location.ofAddress_videoRam hi]
    exact (apply_ite Except.ok _ _ _).symm
  split
  · rw [write, Location.ofAddress_cartridgeRam (by omega)]
    rfl
  split
  · obtain ⟨i, hi⟩ := Location.exists_cell addr 0x2000 0xC000 (by omega)
    rw [Checked.setCell_eq b.workRam hi, write, Location.ofAddress_workRam hi]
    rfl
  split
  · rename_i h
    obtain ⟨i, hi⟩ := Location.exists_cell addr 0x2000 0xE000 (by omega)
    rw [Checked.setCell_eq b.workRam hi, write, Location.ofAddress_echo hi h]
    rfl
  split
  · obtain ⟨i, hi⟩ := Location.exists_cell addr 0xA0 0xFE00 (by omega)
    rw [Checked.setCell_eq b.spriteRam hi, write, Location.ofAddress_spriteRam hi]
    exact (apply_ite Except.ok _ _ _).symm
  split
  · rename_i h
    rw [Sound.checkedWrite_eq, write, Location.ofAddress_sound h]
    rfl
  split
  · obtain ⟨i, hi⟩ := Location.exists_cell addr 0x7F 0xFF80 (by omega)
    rw [Checked.setCell_eq b.highRam hi, write, Location.ofAddress_highRam hi]
    rfl
  · rfl

/-! ### Transfers into sprite memory -/

/-- The byte that a transfer into sprite memory reads at an address. -/
def checkedTransferRead (b : Bus) (addr : UInt16) : Checked UInt8 :=
  let n := addr.toNat
  if 0x8000 ≤ n ∧ n < 0xA000 then Checked.cell b.videoRam addr 0x8000
  else if 0xFE00 ≤ n then do
    let place ← Checked.sub addr 0xE000
    Checked.get b.workRam (place.toNat &&& 0x1FFF)
  else b.checkedRead addr

/-- Move a byte into sprite memory. -/
def checkedTransferByte (b : Bus) : Checked Bus := do
  let v ← b.checkedTransferRead b.dma.source
  let spriteRam ← Checked.set b.spriteRam b.dma.index.toNat v
  let index ← Checked.succ b.dma.index
  return { b with
    spriteRam := spriteRam
    dma := { b.dma with index := index, active := index != Dma.length } }

/-- Move a byte in each cycle, as long as a transfer is under way. -/
def checkedTransfer (cycles : UInt32) (b : Bus) : Checked Bus := do
  let (_, b) ← Checked.countdown (fun _ => 1) (·.dma.active) checkedTransferByte cycles b
  return b

/-- A transfer reads every address. -/
lemma checkedTransferRead_eq (b : Bus) (addr : UInt16) :
    b.checkedTransferRead addr = .ok (b.transferRead addr) := by
  unfold checkedTransferRead transferRead
  simp only
  split
  · rename_i h
    obtain ⟨i, hi⟩ := Location.exists_cell addr 0x2000 0x8000 h
    rw [Checked.cell_eq b.videoRam hi]
    simp only [hi, Nat.add_sub_cancel_left]
  split
  · rename_i h
    have hlt := addr.toNat_lt
    obtain ⟨place, hsub, hplace⟩ := Checked.sub_half (k := 0xE000) addr 0xE000 rfl (by omega)
    have hmask : place.toNat &&& 0x1FFF = addr.toNat - 0xE000 := by
      rw [hplace, Nat.and_two_pow_sub_one_eq_mod _ 13]
      omega
    rw [hsub, Checked.ok_bind, hmask, Checked.get_of_lt (by omega)]
    rfl
  · exact checkedRead_eq b addr

/-- A transfer under way moves its next byte. -/
lemma checkedTransferByte_eq (hdma : b.dma.WellFormed) (hactive : b.dma.active = true) :
    b.checkedTransferByte = .ok b.transferByte := by
  have hindex := hdma.toNat_index_lt hactive
  have hset (v : UInt8) :
      b.spriteRam.setIfInBounds b.dma.index.toNat v = b.spriteRam.set b.dma.index.toNat v hindex :=
    Vector.toArray_inj.mp (dif_pos (b.spriteRam.size_toArray.symm ▸ hindex))
  rw [checkedTransferByte, checkedTransferRead_eq, Checked.ok_bind, Checked.set_of_lt hindex,
    Checked.ok_bind, Checked.succ_of_lt (by omega), Checked.ok_bind, transferByte]
  simp only [hset]
  rfl

/-- A well-formed transfer goes on for as long as there are cycles. -/
lemma checkedTransfer_eq (hdma : b.dma.WellFormed) (cycles : UInt32) :
    b.checkedTransfer cycles = .ok (b.transfer cycles.toNat) := by
  induction h : cycles.toNat generalizing b cycles with
  | zero =>
    have hlt : cycles < 1 := UInt32.lt_iff_toNat_lt.mpr (h ▸ Nat.zero_lt_one)
    rw [checkedTransfer, Checked.countdown_of_lt (s := b) hlt]
    rfl
  | succ n ih =>
    have hle : 1 ≤ cycles := UInt32.le_iff_toNat_le.mpr (h ▸ Nat.le_add_left 1 n)
    have hrest : (cycles - 1).toNat = n := by
      rw [UInt32.toNat_sub_of_le _ _ hle, h]
      rfl
    unfold transfer
    by_cases hactive : b.dma.active = true
    · rw [if_pos hactive, ← ih (hdma.next hactive) _ hrest, checkedTransfer, checkedTransfer,
        Checked.countdown_of_le (s := b) (by decide) hle hactive
          (checkedTransferByte_eq hdma hactive)]
    · rw [if_neg hactive, checkedTransfer, Checked.countdown_of_not (s := b) hactive]
      rfl

/-! ### Time -/

/-- Let cycles pass. -/
def checkedAdvance {η : Type} [Host η] (b : Bus) (cycles : UInt32) (host : η) :
    Checked (Advanced η) := do
  let sound ← b.sound.checkedAdvance cycles
  let (joypad, host, pressed) ← b.joypad.checkedAdvance cycles host
  let (serial, host, received) ← b.serial.checkedAdvance cycles host
  let (timer, overflow) ← b.timer.checkedAdvance cycles
  let progress ← b.display.checkedAdvance cycles b.videoRam b.spriteRam
  let requests := progress.requests.union
    { joypad := pressed, serial := received, timer := overflow }
  let b ← { b with
    sound := sound
    joypad := joypad
    serial := serial
    timer := timer
    display := progress.display
    interrupts := b.interrupts.raise requests }.checkedTransfer cycles
  return {
    bus := b
    host := host
    frameDone := progress.frameDone
    pressed := pressed }

/-- A well-formed bus lets time pass, if its display stays up to a line that is not the last one of
all numbers. -/
theorem checkedAdvance_eq {η : Type} [Host η] {last : UInt8} (hlast : Display.lastLine ≤ last)
    (hlt : last.toNat < 255) (hb : b.WellFormed (Display.Within last) b₀) (cycles : UInt32)
    (host : η) : b.checkedAdvance cycles host = .ok (b.advance cycles host) := by
  unfold checkedAdvance
  rw [Sound.checkedAdvance_eq hb.sound, Checked.ok_bind, Joypad.checkedAdvance_eq hb.joypad,
    Checked.ok_bind]
  simp only [Serial.checkedAdvance_eq hb.serial, Timer.checkedAdvance_eq,
    Display.checkedAdvance_eq hlast hlt hb.display, Checked.ok_bind]
  rw [checkedTransfer_eq]
  · rfl
  · exact hb.dma

end Bus

end Handheld
