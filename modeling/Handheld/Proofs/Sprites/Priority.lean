import Handheld.Proofs.Layers
import Mathlib.Data.List.Sort
import Mathlib.Data.Prod.Lex
import Mathlib.Data.Set.Finite.Lemmas

/-!
# Sprites that cover each other

Of the sprites on a line, the leftmost one is in front, and of several in the same place the one
with the smallest number.  `Drawing.onLine` are the numbers of the sprites on the line,
`Drawing.Solid` says where a sprite is not transparent, and `Drawing.Foremost` which of those with a
property is in front of the others.

A sprite may be behind the background and the window.  `Drawing.Ruled` is the rule that such a
sprite still keeps the sprites behind it out of sight: the one in front of all that are not
transparent decides, and if it is covered itself, then the layers are seen.  But the line shows the
one in front of those that are not covered (`Drawing.row_eq_spriteShade`).  So a sprite may be seen
through a covered one in front of it (`Display.sprite_through_covered`), and nothing else breaks the
rule: this is `Display.sprites_of_line`.
-/

namespace Handheld

namespace Drawing

variable {g : Drawing} {x : Nat}

/-! ### The sprites on the line -/

/-- The entry of the sprite memory with a given number. -/
def entry (g : Drawing) (i : Fin 40) : Sprite := .ofMemory g.oam i

/-- The numbers of the sprites on the line: the first ten of those that have a row there. -/
def onLine (g : Drawing) : List (Fin 40) :=
  ((List.finRange 40).filter fun i =>
    (g.entry i).screenY ≤ g.line ∧ (g.line : Int) < (g.entry i).screenY + g.spriteHeight).take 10

/-- The colour of a sprite on the line in a column; zero is transparent.  Its rows and its eight
columns may be in the opposite order.  A tall sprite has two tiles, the first of which has an even
number. -/
def spriteColour? (g : Drawing) (s : Sprite) (x : Nat) : Option Nat :=
  if s.screenX ≤ x ∧ (x : Int) < s.screenX + 8 then do
    let row := if s.flipY then s.screenY + g.spriteHeight - 1 - g.line else g.line - s.screenY
    let column := if s.flipX then s.screenX + 7 - x else x - s.screenX
    let tile := if g.spriteHeight = 16 then 2 * (s.tile.toNat / 2) else s.tile.toNat
    let low ← Display.videoByte? g.video (0x8000 + 16 * (tile : Int) + 2 * row)
    let high ← Display.videoByte? g.video (0x8000 + 16 * (tile : Int) + 2 * row + 1)
    return 2 * (Byte.bit high (7 - column).toNat).toNat + (Byte.bit low (7 - column).toNat).toNat
  else some 0

/-- The shade that a sprite gives to a column, with the palette of its own. -/
def spriteShade? (g : Drawing) (s : Sprite) (x : Nat) : Option Nat :=
  (g.spriteColour? s x).map fun colour =>
    (if Byte.bit s.flags 4 then g.object1 else g.object0).toNat / 4 ^ colour % 4

/-- The sprite with a given number is not transparent in a column. -/
def Solid (g : Drawing) (x : Nat) (i : Fin 40) : Prop :=
  ∃ colour, g.spriteColour? (g.entry i) x = some colour ∧ colour ≠ 0

/-- The sprite with a given number is behind a colour of the background or the window. -/
def Covered (g : Drawing) (x : Nat) (i : Fin 40) : Prop :=
  (g.entry i).behind = true ∧ g.layerColour x ≠ 0

/-- The shade of the background or the window, which a line without sprites shows. -/
def layerShade (g : Drawing) (x : Nat) : UInt8 :=
  if g.backgroundOn then applyPalette g.background (g.layerColour x) else 0

/-- The sprite on the line that is in front of all others with a property. -/
structure Foremost (g : Drawing) (P : Fin 40 → Prop) (w : Fin 40) : Prop where
  mem : w ∈ g.onLine
  holds : P w
  least : ∀ i ∈ g.onLine, P i →
    (g.entry w).x < (g.entry i).x ∨ (g.entry w).x = (g.entry i).x ∧ w ≤ i

/-- The shade of a column by the rule that the sprite in front of all that are not transparent
decides: it is seen unless it is covered, and without it or if it is covered, the layers are. -/
def Ruled (g : Drawing) (x shade : Nat) : Prop :=
  (∃ w, g.Foremost (g.Solid x) w ∧ ¬ g.Covered x w ∧
    g.spriteShade? (g.entry w) x = some shade) ∨
  (∀ w, g.Foremost (g.Solid x) w → g.Covered x w) ∧ shade = (g.layerShade x).toNat

/-- The first sprites that touch the line are those with these numbers. -/
lemma sprites_eq (hsprites : g.spritesOn = true) : g.sprites = g.onLine.map g.entry := by
  have htouches (i : Fin 40) : (g.entry i).touches g.spriteHeight g.line =
      decide ((g.entry i).screenY ≤ g.line ∧
        (g.line : Int) < (g.entry i).screenY + g.spriteHeight) := by
    rw [Bool.eq_iff_iff, decide_eq_true_eq]
    exact touches_iff
  have hfilter : ((List.finRange 40).map g.entry).filter (·.touches g.spriteHeight g.line) =
      ((List.finRange 40).filter fun i => decide ((g.entry i).screenY ≤ g.line ∧
        (g.line : Int) < (g.entry i).screenY + g.spriteHeight)).map g.entry := by
    rw [List.filter_map]
    exact congrArg (List.map g.entry) (List.filter_congr fun i _ => htouches i)
  rw [sprites, if_pos hsprites, onLine, List.map_take, ← hfilter]
  rfl

/-- The sprites on the line touch it. -/
lemma touches_of_mem_onLine {i : Fin 40} (hi : i ∈ g.onLine) :
    (g.entry i).touches g.spriteHeight g.line = true := by
  have hrows := (List.mem_filter.mp (List.mem_of_mem_take hi)).2
  exact touches_iff.mpr (of_decide_eq_true hrows)

/-- The sprites on the line are in the order of their numbers. -/
lemma pairwise_onLine (g : Drawing) : g.onLine.Pairwise (· < ·) :=
  (((List.sortedLT_finRange 40).pairwise).sublist List.filter_sublist).sublist
    (List.take_sublist 10 _)

/-! ### Colours -/

/-- The even number of a tile and the next one. -/
lemma toNat_and_254 (tile : UInt8) : (tile &&& 0xFE).toNat = 2 * (tile.toNat / 2) := by
  have hall : ∀ n < 256, n &&& 0xFE = 2 * (n / 2) := by
    set_option maxRecDepth 4000 in
    decide
  rw [UInt8.toNat_and]
  exact hall tile.toNat tile.toNat_lt

/-- The palette of a sprite is one of its flags. -/
lemma palette_eq_zero_iff (s : Sprite) : s.palette = 0 ↔ Byte.bit s.flags 4 = false := by
  have hlowest : ∀ i < 8, Byte.bit 1 i = decide (i = 0) := by decide
  have hne : s.palette ≠ 0 ↔ Byte.bit s.flags 4 = true := by
    rw [Sprite.palette, Byte.ne_zero_iff]
    refine ⟨?_, fun hflag => ⟨0, by decide, ?_⟩⟩
    · rintro ⟨i, hi, hbit⟩
      rw [Byte.bit_and, Byte.bit_shiftRight_four, hlowest i hi, Bool.and_eq_true,
        decide_eq_true_eq] at hbit
      obtain ⟨hflag, rfl⟩ := hbit
      exact hflag
    · rw [Byte.bit_and, Byte.bit_shiftRight_four, hflag]
      rfl
  rw [← Bool.not_eq_true, ← hne, not_not]

/-- The address of a row of a sprite is its offset in the video memory. -/
lemma spriteAddress_eq {s : Sprite} (h : s.touches g.spriteHeight g.line = true) :
    0x8000 + 16 * ((if g.spriteHeight = 16 then 2 * (s.tile.toNat / 2) else s.tile.toNat : Nat) :
      Int) + 2 * (if s.flipY then s.screenY + g.spriteHeight - 1 - g.line
        else g.line - s.screenY) = 0x8000 + (g.spriteOffset s : Nat) := by
  have hrows := touches_iff.mp h
  have htile : (if g.spriteHeight = 16 then s.tile &&& 0xFE else s.tile).toNat =
      if g.spriteHeight = 16 then 2 * (s.tile.toNat / 2) else s.tile.toNat := by
    split
    · exact toNat_and_254 s.tile
    · rfl
  have hrow : (g.spriteRow s : Int) = if s.flipY then s.screenY + g.spriteHeight - 1 - g.line
      else g.line - s.screenY := by
    unfold Sprite.screenY at hrows ⊢
    unfold spriteRow
    cases s.flipY with
    | true =>
      simp only [if_true]
      omega
    | false =>
      simp only [Bool.false_eq_true, if_false]
      omega
  rw [spriteOffset, htile, ← hrow]
  push_cast
  omega

/-- The colours of a sprite on the line. -/
lemma spriteColour?_eq {s : Sprite} (h : s.touches g.spriteHeight g.line = true) (x : Nat) :
    g.spriteColour? s x = some (g.spriteColour s x).toNat := by
  unfold spriteColour?
  by_cases hx : s.screenX ≤ x ∧ (x : Int) < s.screenX + 8
  · obtain ⟨i, hi⟩ := Int.eq_ofNat_of_zero_le (Int.sub_nonneg.mpr hx.1)
    have hcolumn : (7 - if s.flipX then s.screenX + 7 - x else x - s.screenX).toNat =
        if s.flipX then i else 7 - i := by
      cases s.flipX with
      | true =>
        simp only [if_true]
        omega
      | false =>
        simp only [Bool.false_eq_true, if_false]
        omega
    have hrow := g.spriteRow_lt h
    have hheight := g.spriteHeight_le
    have htile := (if g.spriteHeight = 16 then s.tile &&& 0xFE else s.tile).toNat_lt
    have hoffset : g.spriteOffset s + 1 < 0x2000 := by
      rw [spriteOffset]
      omega
    have haddress := spriteAddress_eq h
    rw [if_pos hx]
    simp only [hcolumn, haddress]
    rw [g.videoByte?_eq (Nat.lt_of_succ_lt hoffset) rfl,
      g.videoByte?_eq hoffset (by push_cast; rfl), g.spriteColour_of_column (i := i) (by omega)
        (by omega), toNat_bitColour]
    rfl
  · rw [if_neg hx, g.spriteColour_of_beside hx]
    rfl

/-- The shades of a sprite on the line. -/
lemma spriteShade?_eq {s : Sprite} (h : s.touches g.spriteHeight g.line = true) (x : Nat) :
    g.spriteShade? s x = some (g.spriteShade s x).toNat := by
  have hcolour : (g.spriteColour s x).toNat ≤ 3 := by
    unfold spriteColour
    split
    · exact planeColour_le _ _ _
    · decide
  have hpalette : (if Byte.bit s.flags 4 then g.object1 else g.object0) =
      if s.palette = 0 then g.object0 else g.object1 := by
    simp only [palette_eq_zero_iff]
    cases Byte.bit s.flags 4 <;> rfl
  rw [spriteShade?, spriteColour?_eq h, spriteShade, toNat_applyPalette _ hcolour, hpalette]
  rfl

/-- A sprite on the line is solid where its colour is not zero. -/
lemma solid_iff {i : Fin 40} (hi : i ∈ g.onLine) :
    g.Solid x i ↔ g.spriteColour (g.entry i) x ≠ 0 := by
  rw [Solid, spriteColour?_eq (touches_of_mem_onLine hi), ← UInt8.toNat_inj.ne]
  simp

/-- A sprite on the line is seen where it is solid and not covered. -/
lemma seen_iff {i : Fin 40} (hi : i ∈ g.onLine) :
    g.seen (g.entry i) x (g.layerColour x) = true ↔ g.Solid x i ∧ ¬ g.Covered x i := by
  rw [solid_iff hi, seen, Covered]
  cases (g.entry i).behind with
  | true => simp
  | false => simp

/-! ### The sprite in front -/

/-- Without sprites there is none in front. -/
lemma frontmost?_eq_none_iff {l : List Sprite} : frontmost? l = none ↔ l = [] := by
  cases l with
  | nil => simp [frontmost?]
  | cons s rest =>
    unfold frontmost?
    cases frontmost? rest with
    | none => simp
    | some t =>
      dsimp only
      split
      · simp
      · simp

/-- The sprite in front is to the left of those before it, and not to the right of those after
it. -/
lemma frontmost?_eq_some {l : List Sprite} {s : Sprite} (h : frontmost? l = some s) :
    ∃ before after, l = before ++ s :: after ∧ (∀ t ∈ before, s.x < t.x) ∧
      ∀ t ∈ after, s.x ≤ t.x := by
  induction l generalizing s with
  | nil => cases h
  | cons a rest ih =>
    unfold frontmost? at h
    cases hrest : frontmost? rest with
    | none =>
      rw [hrest] at h
      obtain rfl := Option.some.inj h
      rw [frontmost?_eq_none_iff] at hrest
      exact ⟨[], rest, rfl, by simp, by simp [hrest]⟩
    | some t =>
      obtain ⟨before, after, rfl, hbefore, hafter⟩ := ih hrest
      rw [hrest] at h
      dsimp only at h
      split at h
      · rename_i hlt
        obtain rfl := Option.some.inj h
        refine ⟨a :: before, after, rfl, ?_, hafter⟩
        rintro u (_ | ⟨_, hu⟩)
        · exact hlt
        · exact hbefore u hu
      · rename_i hle
        obtain rfl := Option.some.inj h
        refine ⟨[], before ++ t :: after, rfl, by simp, fun u hu => ?_⟩
        have hat := UInt8.not_lt.mp hle
        rcases List.mem_append.mp hu with hu | _ | ⟨_, hu⟩
        · exact UInt8.le_trans hat (UInt8.le_of_lt (hbefore u hu))
        · exact hat
        · exact UInt8.le_trans hat (hafter u hu)

namespace Foremost

variable {P Q : Fin 40 → Prop} {v w : Fin 40}

/-- Only one sprite is in front. -/
lemma unique (hv : g.Foremost P v) (hw : g.Foremost P w) : v = w := by
  have hvw := hv.least w hw.mem hw.holds
  have hwv := hw.least v hv.mem hv.holds
  rw [UInt8.lt_iff_toNat_lt, ← UInt8.toNat_inj] at hvw hwv
  omega

/-- The property matters only for the sprites on the line. -/
lemma congr (hw : g.Foremost P w) (h : ∀ i ∈ g.onLine, P i ↔ Q i) : g.Foremost Q w :=
  ⟨hw.mem, (h w hw.mem).mp hw.holds, fun i hi hQ => hw.least i hi ((h i hi).mpr hQ)⟩

end Foremost

/-- If any sprite has the property, there is one in front. -/
lemma exists_foremost {P : Fin 40 → Prop} {i : Fin 40} (hi : i ∈ g.onLine) (hP : P i) :
    ∃ w, g.Foremost P w := by
  obtain ⟨w, ⟨hw, hPw⟩, hleast⟩ := Set.exists_min_image {i | i ∈ g.onLine ∧ P i}
    (fun i => toLex ((g.entry i).x.toNat, i)) (Set.toFinite _) ⟨i, hi, hP⟩
  refine ⟨w, hw, hPw, fun j hj hPj => ?_⟩
  have hle := hleast j ⟨hj, hPj⟩
  rw [Prod.Lex.toLex_le_toLex] at hle
  rwa [UInt8.lt_iff_toNat_lt, ← UInt8.toNat_inj]

/-- The sprite that is picked from the sprites on the line is in front. -/
lemma foremost_of_frontmost? {p : Sprite → Bool} {s : Sprite}
    (h : frontmost? ((g.onLine.map g.entry).filter p) = some s) :
    ∃ w, g.Foremost (fun i => p (g.entry i) = true) w ∧ g.entry w = s := by
  rw [List.filter_map] at h
  -- Sprites do not know their numbers, so the list of numbers is divided where theirs is.
  obtain ⟨before, after, hsplit, hbefore, hafter⟩ := frontmost?_eq_some h
  obtain ⟨front, rest, hnumbers, rfl, hrest⟩ := List.map_eq_append_iff.mp hsplit
  obtain ⟨w, back, rfl, rfl, rfl⟩ := List.map_eq_cons_iff.mp hrest
  have hmem (i : Fin 40) : (i ∈ g.onLine ∧ p (g.entry i) = true) ↔ i ∈ front ++ w :: back := by
    rw [← hnumbers, List.mem_filter]
    rfl
  have hordered : (g.onLine.filter (p ∘ g.entry)).Pairwise (· < ·) :=
    g.pairwise_onLine.sublist List.filter_sublist
  rw [hnumbers, List.pairwise_append, List.pairwise_cons] at hordered
  obtain ⟨hw, hp⟩ := (hmem w).mpr (by simp)
  refine ⟨w, ⟨hw, hp, fun i hi hpi => ?_⟩, rfl⟩
  rcases List.mem_append.mp ((hmem i).mp ⟨hi, hpi⟩) with hfront | _ | ⟨_, hback⟩
  · exact .inl (hbefore _ (List.mem_map_of_mem hfront))
  · exact .inr ⟨rfl, Fin.le_refl _⟩
  · have hle := UInt8.le_iff_toNat_le.mp (hafter _ (List.mem_map_of_mem hback))
    have hlt := hordered.2.1.1 i hback
    rw [UInt8.lt_iff_toNat_lt, ← UInt8.toNat_inj]
    omega

/-! ### What a line shows -/

/-- A column shows the sprite in front of those that are not covered, or the layers. -/
lemma shade_sprites (g : Drawing) (hsprites : g.spritesOn = true) (x : Nat) :
    (∃ w, g.Foremost (fun i => g.Solid x i ∧ ¬ g.Covered x i) w ∧
      g.shade g.sprites x = g.spriteShade (g.entry w) x) ∨
    (∀ i ∈ g.onLine, g.Solid x i → g.Covered x i) ∧ g.shade g.sprites x = g.layerShade x := by
  have hseen : ∀ i ∈ g.onLine, g.seen (g.entry i) x (g.layerColour x) = true ↔
      g.Solid x i ∧ ¬ g.Covered x i := fun i hi => seen_iff hi
  unfold shade
  dsimp only
  rw [sprites_eq hsprites]
  cases hfront : frontmost? ((g.onLine.map g.entry).filter
      fun s => g.seen s x (g.layerColour x)) with
  | some s =>
    obtain ⟨w, hw, rfl⟩ := foremost_of_frontmost? hfront
    exact .inl ⟨w, hw.congr hseen, rfl⟩
  | none =>
    rw [frontmost?_eq_none_iff, List.filter_eq_nil_iff] at hfront
    refine .inr ⟨fun i hi hsolid => ?_, rfl⟩
    by_contra hcovered
    exact hfront (g.entry i) (List.mem_map_of_mem hi) ((hseen i hi).mpr ⟨hsolid, hcovered⟩)

/-- A column breaks the rule exactly if the sprite in front of all solid ones is covered, and one
that is not covered has another shade than the layers. -/
lemma ruled_shade_iff (g : Drawing) (hsprites : g.spritesOn = true) (x : Nat) :
    g.Ruled x (g.shade g.sprites x).toNat ↔ ¬ ∃ w v, g.Foremost (g.Solid x) w ∧ g.Covered x w ∧
      g.Foremost (fun i => g.Solid x i ∧ ¬ g.Covered x i) v ∧
      g.spriteShade? (g.entry v) x ≠ some (g.layerShade x).toNat := by
  have hshade {w : Fin 40} (hw : w ∈ g.onLine) :
      g.spriteShade? (g.entry w) x = some (g.spriteShade (g.entry w) x).toNat :=
    spriteShade?_eq (touches_of_mem_onLine hw) x
  constructor
  · rintro hruled ⟨w, v, hw, hcovered, hv, hne⟩
    rcases hruled with ⟨w', hw', hseen, -⟩ | ⟨-, hlayer⟩
    · exact hseen (hw.unique hw' ▸ hcovered)
    · rcases g.shade_sprites hsprites x with ⟨v', hv', hfront⟩ | ⟨hnone, -⟩
      · rw [hfront, hv'.unique hv] at hlayer
        exact hne ((hshade hv.mem).trans (congrArg some hlayer))
      · exact hv.holds.2 (hnone v hv.mem hv.holds.1)
  · intro hrule
    by_cases hcovered : ∀ w, g.Foremost (g.Solid x) w → g.Covered x w
    · refine .inr ⟨hcovered, ?_⟩
      rcases g.shade_sprites hsprites x with ⟨v, hv, hfront⟩ | ⟨-, hlayer⟩
      · obtain ⟨w, hw⟩ := exists_foremost hv.mem hv.holds.1
        by_contra hne
        refine hrule ⟨w, v, hw, hcovered w hw, hv, fun h => hne ?_⟩
        rw [hshade hv.mem] at h
        rw [hfront]
        exact Option.some.inj h
      · exact congrArg UInt8.toNat hlayer
    · push Not at hcovered
      obtain ⟨w, hw, hseen⟩ := hcovered
      -- The sprite in front of all solid ones is also in front of those that are not covered.
      have hw' : g.Foremost (fun i => g.Solid x i ∧ ¬ g.Covered x i) w :=
        ⟨hw.mem, ⟨hw.holds, hseen⟩, fun i hi h => hw.least i hi h.1⟩
      refine .inl ⟨w, hw, hseen, ?_⟩
      rcases g.shade_sprites hsprites x with ⟨v, hv, hfront⟩ | ⟨hnone, -⟩
      · rw [hfront, hv.unique hw']
        exact hshade hw.mem
      · exact absurd (hnone w hw.mem hw.holds) hseen

end Drawing

namespace Display

variable {d : Display} {video : Vector UInt8 0x2000} {oam : Vector UInt8 0xA0}

/-- A line of the screen is drawn pixel by pixel. -/
lemma frame_draw (hline : d.line.toNat < 144) (x : Fin 160) :
    ((d.draw video oam).frame.get ⟨d.line.toNat, hline⟩).get x =
      (d.drawing video oam).shade (d.drawing video oam).sprites x := by
  have hrow : (d.draw video oam).frame.get ⟨d.line.toNat, hline⟩ = (d.drawing video oam).row := by
    rw [draw, dif_pos hline]
    exact Vector.getElem_set_self hline
  rw [hrow]
  change (d.drawing video oam).row[x.val] = _
  rw [Drawing.row, Vector.getElem_ofFn]

/-- The sprites of a line.  A column shows the sprite in front of those that are not covered by the
background or the window, and without one of them it shows these.  This is as it should be, unless
the sprite in front of all solid ones is covered, and one that is not has another shade than what
covers the first. -/
theorem sprites_of_line (d : Display) (video : Vector UInt8 0x2000) (oam : Vector UInt8 0xA0)
    (hline : d.line.toNat < 144) (hsprites : Byte.bit d.control 1 = true) (x : Fin 160) :
    let g := d.drawing video oam
    let shade := (((d.draw video oam).frame.get ⟨d.line.toNat, hline⟩).get x).toNat
    (∀ w, g.Foremost (fun i => g.Solid x i ∧ ¬ g.Covered x i) w →
      g.spriteShade? (g.entry w) x = some shade) ∧
    ((∀ i ∈ g.onLine, g.Solid x i → g.Covered x i) → shade = (g.layerShade x).toNat) ∧
    (g.Ruled x shade ↔ ¬ ∃ w v, g.Foremost (g.Solid x) w ∧ g.Covered x w ∧
      g.Foremost (fun i => g.Solid x i ∧ ¬ g.Covered x i) v ∧
      g.spriteShade? (g.entry v) x ≠ some (g.layerShade x).toNat) := by
  intro g shade
  have hshade : shade = (g.shade g.sprites x).toNat := congrArg UInt8.toNat (frame_draw hline x)
  have hshown := g.shade_sprites hsprites x
  rw [hshade]
  refine ⟨fun w hw => ?_, fun hnone => ?_, g.ruled_shade_iff hsprites x⟩
  · rcases hshown with ⟨v, hv, hfront⟩ | ⟨hnone, -⟩
    · rw [hfront, hv.unique hw]
      exact Drawing.spriteShade?_eq (Drawing.touches_of_mem_onLine hw.mem) x
    · exact absurd (hnone w hw.mem hw.holds.1) hw.holds.2
  · rcases hshown with ⟨v, hv, -⟩ | ⟨-, hlayer⟩
    · exact absurd (hnone v hv.mem hv.holds.1) hv.holds.2
    · rw [hlayer]

/-! ### A sprite behind the background -/

/-- A video memory in which all colours are the last one. -/
def ink : Vector UInt8 0x2000 := .replicate 0x2000 0xFF

lemma mapColour_ink (d : Display) (oam : Vector UInt8 0xA0) (map x y : Nat) :
    (d.drawing ink oam).mapColour map x y = 3 := by
  have hbyte (i : Nat) : (d.drawing ink oam).videoByte i = 0xFF := by
    change (Vector.replicate 0x2000 (0xFF : UInt8))[i]?.getD 0xFF = 0xFF
    rw [Vector.getElem?_replicate]
    split <;> rfl
  have hcolumns : ∀ column < 8, Drawing.planeColour 0xFF 0xFF column = 3 := by decide
  rw [Drawing.mapColour, Drawing.tileColour, hbyte, hbyte]
  exact hcolumns (x % 8) (Nat.mod_lt x (by decide))

/-- A sprite memory with two sprites, which are the entries with the given numbers. -/
def twoSprites (i j : Nat) (s t : Sprite) : Vector UInt8 0xA0 :=
  .ofFn fun k =>
    let sprite : Sprite := if k.val / 4 = i then s else if k.val / 4 = j then t else ⟨0, 0, 0, 0⟩
    [sprite.y, sprite.x, sprite.tile, sprite.flags].getD (k.val % 4) 0

lemma entry_twoSprites (i j : Nat) (s t : Sprite) :
    (d.drawing video (twoSprites i j s t)).entry =
      fun k => if k.val = i then s else if k.val = j then t else ⟨0, 0, 0, 0⟩ := by
  funext k
  have hy : 4 * k.val / 4 = k := by omega
  have hx : (4 * k.val + 1) / 4 = k := by omega
  have htile : (4 * k.val + 2) / 4 = k := by omega
  have hflags : (4 * k.val + 3) / 4 = k := by omega
  change Sprite.ofMemory (twoSprites i j s t) k = _
  simp only [Sprite.ofMemory, twoSprites, Vector.getElem_ofFn, hy, hx, htile, hflags,
    Nat.mul_mod_right, Nat.mul_add_mod]
  rfl

/-- Two sprites in the upper left corner: the first one is behind the background, and the second one
is not and has the other palette. -/
def overlapping : Vector UInt8 0xA0 := twoSprites 0 1 ⟨16, 8, 0, 0x80⟩ ⟨16, 8, 0, 0x10⟩

/-- A display with sprites, the other palette of which is the lightest shade. -/
def inked : Display := (postBoot.write 0x40 0x93).write 0x49 0

lemma entry_inked : (inked.drawing ink overlapping).entry = fun i : Fin 40 =>
    if i.val = 0 then ⟨16, 8, 0, 0x80⟩ else if i.val = 1 then ⟨16, 8, 0, 0x10⟩
    else ⟨0, 0, 0, 0⟩ :=
  entry_twoSprites 0 1 _ _

lemma onLine_inked : (inked.drawing ink overlapping).onLine = [0, 1] := by
  rw [Drawing.onLine, entry_inked]
  decide +kernel

lemma solid_inked {i : Fin 40} (hi : i ∈ (inked.drawing ink overlapping).onLine) :
    (inked.drawing ink overlapping).Solid 0 i := by
  rw [onLine_inked, List.mem_pair] at hi
  rw [Drawing.Solid, entry_inked]
  refine ⟨3, ?_, by decide⟩
  rcases hi with rfl | rfl
  · decide +kernel
  · decide +kernel

lemma layerColour_inked : (inked.drawing ink overlapping).layerColour 0 = 3 := by
  rw [Drawing.layerColour, if_neg (by decide), if_pos (by decide), mapColour_ink]

lemma covered_inked_iff {i : Fin 40} (hi : i ∈ (inked.drawing ink overlapping).onLine) :
    (inked.drawing ink overlapping).Covered 0 i ↔ i = 0 := by
  rw [onLine_inked, List.mem_pair] at hi
  rw [Drawing.Covered, entry_inked, layerColour_inked]
  rcases hi with rfl | rfl
  · decide
  · decide

/-- The first one is in front, and covered. -/
lemma foremost_inked : (inked.drawing ink overlapping).Foremost
    ((inked.drawing ink overlapping).Solid 0) 0 ∧ (inked.drawing ink overlapping).Covered 0 0 := by
  have hmem : 0 ∈ (inked.drawing ink overlapping).onLine := by simp [onLine_inked]
  refine ⟨⟨hmem, solid_inked hmem, fun i hi _ => .inr ⟨?_, Fin.zero_le i⟩⟩,
    (covered_inked_iff hmem).mpr rfl⟩
  rw [onLine_inked, List.mem_pair] at hi
  rw [entry_inked]
  rcases hi with rfl | rfl
  · rfl
  · rfl

/-- The second one is in front of those that are not covered. -/
lemma foremost_uncovered_inked : (inked.drawing ink overlapping).Foremost (fun i =>
    (inked.drawing ink overlapping).Solid 0 i ∧ ¬ (inked.drawing ink overlapping).Covered 0 i)
    1 := by
  have hmem : 1 ∈ (inked.drawing ink overlapping).onLine := by simp [onLine_inked]
  refine ⟨hmem, ⟨solid_inked hmem, by simp [covered_inked_iff hmem]⟩, fun i hi hP => ?_⟩
  have hfirst : i ≠ 0 := fun h => hP.2 ((covered_inked_iff hi).mpr h)
  rw [onLine_inked, List.mem_pair] at hi
  obtain rfl := hi.resolve_left hfirst
  exact .inr ⟨rfl, Fin.le_refl 1⟩

lemma spriteShade?_inked : (inked.drawing ink overlapping).spriteShade?
    ((inked.drawing ink overlapping).entry 1) 0 = some 0 := by
  rw [entry_inked]
  decide +kernel

/-- What `sprites_of_line` says about the corner: it has the shade of the second sprite. -/
theorem sprites_of_line_inked :
    (((inked.draw ink overlapping).frame.get 0).get 0).toNat = 0 := by
  obtain ⟨hfront, -, -⟩ := sprites_of_line inked ink overlapping (by decide) (by decide) 0
  exact (Option.some.inj (spriteShade?_inked.symm.trans (hfront 1 foremost_uncovered_inked))).symm

/-- The second sprite is seen through the first one.  By the rule the first one decides, and the
background would be seen. -/
theorem sprite_through_covered :
    let g := inked.drawing ink overlapping
    let shade := (((inked.draw ink overlapping).frame.get 0).get 0).toNat
    inked.line.toNat < 144 ∧ Byte.bit inked.control 1 = true ∧
      g.spriteShade? (g.entry 1) 0 = some 0 ∧ (g.layerShade 0).toNat = 3 ∧ ¬ g.Ruled 0 shade := by
  intro g shade
  have hlayer : (g.layerShade 0).toNat = 3 := by
    rw [Drawing.layerShade, layerColour_inked]
    decide
  have hdrawn : shade = (g.shade g.sprites 0).toNat :=
    congrArg UInt8.toNat (frame_draw (d := inked) (by decide) 0)
  refine ⟨by decide, by decide, spriteShade?_inked, hlayer, fun hruled => ?_⟩
  rw [hdrawn] at hruled
  refine (g.ruled_shade_iff (by decide) 0).mp hruled
    ⟨0, 1, foremost_inked.1, foremost_inked.2, foremost_uncovered_inked, ?_⟩
  rw [spriteShade?_inked, hlayer]
  decide

end Display

end Handheld
