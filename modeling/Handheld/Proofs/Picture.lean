import Handheld.Proofs.Grammar
import Handheld.Proofs.Locality

/-!
# The shades of the picture

The screen has four shades.  A palette can only give one of them to a pixel; the other source of
pictures is a saved state, which ends with one.  `Machine.frame_restored` says that it is taken over
byte by byte, whatever the bytes are.

So each pixel has one of the four shades, or is still the one that was taken over.  This is
`Frame.Shaded`, and it survives every write and every stretch of time (`Display.lasting_shaded`).
-/

namespace Handheld

/-! ### Drawing -/

/-- Every pixel has one of the four shades, unless it is that of an old picture, given as a list of
bytes. -/
def Frame.Shaded (old : List UInt8) (f : Frame) : Prop :=
  ∀ (y : Fin 144) (x : Fin 160), (f.get y).get x ≤ 3 ∨
    (f.get y).get x = old.getD (160 * y.val + x.val) 0

namespace Drawing

/-- A palette gives one of the four shades. -/
lemma applyPalette_le (palette colour : UInt8) : applyPalette palette colour ≤ 3 :=
  UInt8.and_le_right

/-- Every pixel is drawn in one of the four shades. -/
lemma shade_le (d : Drawing) (sprites : List Sprite) (x : Nat) : d.shade sprites x ≤ 3 := by
  unfold shade
  simp only
  split
  · exact applyPalette_le _ _
  · split
    · exact applyPalette_le _ _
    · decide

/-- A line is drawn in the four shades. -/
lemma row_le (d : Drawing) (x : Fin 160) : d.row.get x ≤ 3 := by
  change d.row[x.val] ≤ 3
  rw [row, Vector.getElem_ofFn]
  exact shade_le _ _ _

end Drawing

namespace Frame

variable {old : List UInt8}

/-- The picture of a console that has just been switched on. -/
lemma shaded_blank : blank.Shaded old := by
  intro y x
  have hget : (blank.get y).get x = 0 := by simp [blank, Vector.get]
  rw [hget]
  exact .inl (by decide)

/-- A line in the four shades may replace another one. -/
lemma Shaded.set {f : Frame} (hf : f.Shaded old) {row : Row}
    (hrow : ∀ x : Fin 160, row.get x ≤ 3) {y : Nat} (hy : y < 144) :
    Frame.Shaded old (Vector.set f y row hy) := by
  intro i x
  have hline : Vector.get (Vector.set f y row hy) i = if y = i.val then row else f.get i :=
    Vector.getElem_set _ _
  rw [hline]
  split
  · exact .inl (hrow x)
  · exact hf i x

/-- The pixels of a picture that is made of bytes are these bytes. -/
lemma get_ofArray (shades : Array UInt8) (y : Fin 144) (x : Fin 160) :
    ((ofArray shades).get y).get x = shades.getD (160 * y.val + x.val) 0 := by
  change (ofArray shades)[y.val][x.val] = _
  simp only [ofArray, Vector.getElem_ofFn]

/-- A picture that is made of bytes is the old one. -/
lemma shaded_ofArray (old : List UInt8) : (ofArray old.toArray).Shaded old := by
  intro y x
  rw [get_ofArray]
  exact .inr (by simp [Array.getD_eq_getD_getElem?, List.getD_eq_getElem?_getD])

/-- If the old picture was in the four shades, then so is the picture. -/
lemma Shaded.le {f : Frame} (hf : f.Shaded old) (hold : ∀ v ∈ old, v ≤ 3) (y : Fin 144)
    (x : Fin 160) : (f.get y).get x ≤ 3 := by
  rcases hf y x with hdrawn | htaken
  · exact hdrawn
  · rw [htaken, List.getD_eq_getElem?_getD]
    cases hget : old[160 * y.val + x.val]? with
    | none => exact (by decide : (0 : UInt8) ≤ 3)
    | some v => exact hold v (List.mem_of_getElem? hget)

end Frame

namespace Display

variable {d : Display} {old : List UInt8}

/-- Drawing a line gives it the four shades. -/
lemma shaded_draw (hd : d.frame.Shaded old) (video : Vector UInt8 0x2000)
    (oam : Vector UInt8 0xA0) : (d.draw video oam).frame.Shaded old := by
  unfold draw
  split
  · rename_i hline
    exact hd.set (Drawing.row_le _) hline
  · exact hd

/-- The end of a mode draws a line or leaves the picture as it is. -/
lemma shaded_endMode {p : Progress} (hp : p.display.frame.Shaded old)
    (video : Vector UInt8 0x2000) (oam : Vector UInt8 0xA0) :
    (p.endMode video oam).display.frame.Shaded old := by
  unfold Progress.endMode
  simp only
  split
  · exact hp
  · exact shaded_draw hp video oam
  · exact hp
  · split
    · exact hp
    · exact hp

/-- Going through the modes draws some lines. -/
lemma shaded_run {p : Progress} {dots : UInt32} (hp : p.display.frame.Shaded old)
    (video : Vector UInt8 0x2000) (oam : Vector UInt8 0xA0) :
    (Progress.run video oam p dots).display.frame.Shaded old := by
  fun_induction Progress.run video oam p dots with
  | case1 p dots hover ih => exact ih (shaded_endMode hp video oam)
  | case2 p dots hover => exact hp

/-- The picture is not touched by writes, and time only draws lines. -/
theorem lasting_shaded (old : List UInt8) : Lasting fun d => d.frame.Shaded old where
  write := by
    intro d hd r v
    rw [frame_write]
    exact hd
  advance := by
    intro d hd cycles video oam
    unfold Display.advance
    split
    · exact shaded_run (p := { display := d }) hd video oam
    · exact hd

end Display

/-! ### Saved pictures -/

/-- What loading leaves of a stream is its end. -/
lemma Record.Loads.suffix {σ : Type} {r : Record σ} {bytes rest : List UInt8} {s t : σ}
    (h : r.Loads bytes s t rest) : rest <:+ bytes := by
  induction r generalizing bytes s with
  | nil =>
    obtain ⟨-, rfl⟩ := Record.loads_nil_iff.mp h
    exact List.suffix_rfl
  | cons item r ih =>
    cases item with
    | check fault holds => exact ih (Record.loads_check_iff.mp h).2
    | field shape get put =>
      obtain ⟨-, u, -, hrest⟩ := Record.loads_field_iff.mp h
      exact (ih hrest).trans (List.drop_suffix _ _)

/-- The last bytes of a saved state, which are its picture. -/
def pictureBytes (bytes : List UInt8) : List UInt8 := bytes.drop (bytes.length - Frame.size)

/-- The end of a stream has the same picture, if it is long enough. -/
lemma pictureBytes_of_suffix {bytes rest : List UInt8} (h : rest <:+ bytes)
    (hlength : Frame.size ≤ rest.length) : pictureBytes bytes = pictureBytes rest := by
  obtain ⟨front, rfl⟩ := h
  have hsplit : (front ++ rest).length - Frame.size =
      front.length + (rest.length - Frame.size) := by
    rw [List.length_append]
    omega
  rw [pictureBytes, hsplit, ← List.drop_drop, List.drop_left, pictureBytes]

/-- The picture of a restored machine is made of the last bytes of the saved state. -/
theorem Machine.frame_restored {m m₀ : Machine} {bytes body : List UInt8}
    (hbody : stateBody bytes = .ok body) (h : restored m₀ body = .ok m) :
    m.bus.display.frame = Frame.ofArray (pictureBytes bytes).toArray := by
  obtain ⟨-, -, -, rfl⟩ := stateBody_eq_ok_iff.mp hbody
  obtain ⟨u, mid, hfront, hsystem⟩ := Record.loads_append_iff.mp (restored_eq_ok_iff.mp h)
  obtain ⟨b, hbus, rfl⟩ := (Record.loads_within_iff isLens_bus).mp hsystem
  obtain ⟨v, mid', hmemories, hpicture⟩ := Record.loads_append_iff.mp hbus
  obtain ⟨d, hframe, rfl⟩ := (Record.loads_within_iff Bus.isLens_display).mp hpicture
  obtain ⟨hlength, w, hput, hrest⟩ := Record.loads_field_iff.mp hframe
  obtain ⟨rfl, hnothing⟩ := Record.loads_nil_iff.mp hrest
  have hsuffix : mid' <:+ bytes :=
    (hmemories.suffix.trans hfront.suffix).trans (List.drop_suffix _ _)
  have hwhole : mid'.length = Frame.size :=
    Nat.le_antisymm (List.drop_eq_nil_iff.mp hnothing.symm) hlength
  have hpart : pictureBytes bytes = mid' := by
    rw [pictureBytes_of_suffix hsuffix hlength, pictureBytes, hwhole, Nat.sub_self, List.drop_zero]
  have htake : mid'.take Frame.size = mid' := List.take_of_length_le (Nat.le_of_eq hwhole)
  rw [hpart]
  obtain rfl := Except.ok.inj hput
  exact congrArg (fun bytes => Frame.ofArray (List.toArray bytes)) htake

end Handheld
