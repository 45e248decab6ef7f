import Handheld.Proofs.Sprites.Priority

/-!
# What a line depends on

A line shows no more of the sprite memory than the first ten entries that have a row on it.
`Drawing.touching` is the list of all of them; where they are in the sprite memory, and what else is
there, makes no difference.

Their order matters only in two ways: it decides which of them are the first ten, and which of two
sprites in the same column is in front.  If neither can happen, the sprite in front is the one with
the least column, whatever the order (`Drawing.frontmost?_perm`).  Both together are
`Display.draw_of_touching`.
-/

namespace Handheld

namespace Drawing

variable {g : Drawing} {l l' : List Sprite} {s : Sprite}

/-- All entries of the sprite memory that touch the line, in the order of the sprite memory. -/
def touching (g : Drawing) : List Sprite :=
  ((List.finRange 40).map g.entry).filter (·.touches g.spriteHeight g.line)

/-- The sprite in front is one of the leftmost. -/
lemma le_of_frontmost? (h : frontmost? l = some s) : s ∈ l ∧ ∀ t ∈ l, s.x ≤ t.x := by
  obtain ⟨before, after, rfl, hbefore, hafter⟩ := frontmost?_eq_some h
  refine ⟨by simp, fun t ht => ?_⟩
  rcases List.mem_append.mp ht with ht | _ | ⟨_, ht⟩
  · exact UInt8.le_of_lt (hbefore t ht)
  · exact UInt8.le_rfl
  · exact hafter t ht

/-- Of sprites in different columns, the same one is in front in any order. -/
theorem frontmost?_perm (h : l.Perm l') (hcolumns : (l.map (·.x)).Nodup) :
    frontmost? l = frontmost? l' := by
  cases hs : frontmost? l with
  | none =>
    rw [frontmost?_eq_none_iff.mp hs] at h
    exact (frontmost?_eq_none_iff.mpr h.symm.eq_nil).symm
  | some s =>
    cases ht : frontmost? l' with
    | none =>
      rw [frontmost?_eq_none_iff.mp ht] at h
      rw [frontmost?_eq_none_iff.mpr h.eq_nil] at hs
      cases hs
    | some t =>
      obtain ⟨hmem, hleast⟩ := le_of_frontmost? hs
      obtain ⟨hmem', hleast'⟩ := le_of_frontmost? ht
      have hcolumn : s.x = t.x :=
        UInt8.le_antisymm (hleast t (h.mem_iff.mpr hmem')) (hleast' s (h.mem_iff.mp hmem))
      exact congrArg some (List.inj_on_of_nodup_map hcolumns hmem (h.mem_iff.mpr hmem') hcolumn)

end Drawing

namespace Display

variable {d : Display} {video : Vector UInt8 0x2000} {oam oam' : Vector UInt8 0xA0}

/-- A line looks at the sprite memory only for the sprites on it. -/
lemma draw_congr (h : ∀ x, (d.drawing video oam).shade (d.drawing video oam).sprites x =
    (d.drawing video oam).shade (d.drawing video oam').sprites x) :
    d.draw video oam = d.draw video oam' := by
  have hrow : (d.drawing video oam).row = (d.drawing video oam').row := by
    apply Vector.ext
    intro x hx
    rw [Drawing.row, Drawing.row, Vector.getElem_ofFn, Vector.getElem_ofFn]
    exact h x
  have hwindow : (d.drawing video oam).nextWindowLine = (d.drawing video oam').nextWindowLine :=
    rfl
  unfold draw
  simp only [hrow, hwindow]

/-- The sprites on the line are the first ten that touch it, if sprites are drawn. -/
lemma sprites_drawing (d : Display) (video : Vector UInt8 0x2000) (oam : Vector UInt8 0xA0) :
    (d.drawing video oam).sprites =
      if Byte.bit d.control 1 then (d.drawing video oam).touching.take 10 else [] := rfl

/-- If the entries of a sprite memory are exchanged, the same ones touch the line. -/
lemma touching_perm (σ : Equiv.Perm (Fin 40))
    (hσ : ∀ i, (d.drawing video oam').entry i = (d.drawing video oam).entry (σ i)) :
    (d.drawing video oam).touching.Perm (d.drawing video oam').touching := by
  have hentries : (List.finRange 40).map (d.drawing video oam').entry =
      ((List.finRange 40).map σ).map (d.drawing video oam).entry := by
    rw [List.map_map]
    exact List.map_congr_left fun i _ => hσ i
  unfold Drawing.touching
  rw [hentries]
  exact ((σ.map_finRange_perm.map _).filter _).symm

/-- Two sprite memories give the same line, and the same next line of the window, if the first ten
entries that touch the line are the same in both.  They also do if one has the entries of the other
in another order, at most ten of them touch the line, and no two of these are in the same column. -/
theorem draw_of_touching (d : Display) (video : Vector UInt8 0x2000)
    (oam oam' : Vector UInt8 0xA0) :
    let g := d.drawing video oam
    let g' := d.drawing video oam'
    (g.touching.take 10 = g'.touching.take 10 → d.draw video oam = d.draw video oam') ∧
    ∀ σ : Equiv.Perm (Fin 40), (∀ i, g'.entry i = g.entry (σ i)) → g.touching.length ≤ 10 →
      (g.touching.map (·.x)).Nodup → d.draw video oam = d.draw video oam' := by
  intro g g'
  constructor
  · intro hten
    have hsprites : g.sprites = g'.sprites := by
      rw [sprites_drawing, sprites_drawing, hten]
    exact draw_congr fun x => by rw [hsprites]
  · intro σ hσ hlength hcolumns
    have hperm : g.touching.Perm g'.touching := touching_perm σ hσ
    have hall : g.touching.take 10 = g.touching := List.take_of_length_le hlength
    have hall' : g'.touching.take 10 = g'.touching :=
      List.take_of_length_le (hperm.length_eq ▸ hlength)
    -- The two lists of sprites differ, but not the sprite in front in any column.
    refine draw_congr fun x => ?_
    rw [sprites_drawing, sprites_drawing, hall, hall']
    cases Byte.bit d.control 1 with
    | false => rfl
    | true =>
      have hfront := Drawing.frontmost?_perm (hperm.filter fun s => g.seen s x (g.layerColour x))
        (hcolumns.sublist (List.filter_sublist.map _))
      simp only [if_true]
      unfold Drawing.shade
      dsimp only
      rw [hfront]

/-- A sprite memory with two sprites in different columns, which are the entries with the given
numbers. -/
def sideBySide (i j : Nat) : Vector UInt8 0xA0 :=
  twoSprites i j ⟨16, 8, 0, 0x80⟩ ⟨16, 12, 0, 0x10⟩

/-- What `draw_of_touching` says about these two: they may be exchanged, and be anywhere. -/
theorem draw_of_touching_sideBySide :
    inked.draw ink (sideBySide 0 1) = inked.draw ink (sideBySide 1 0) ∧
      inked.draw ink (sideBySide 0 1) = inked.draw ink (sideBySide 5 9) := by
  have htouching : (inked.drawing ink (sideBySide 0 1)).touching =
      [⟨16, 8, 0, 0x80⟩, ⟨16, 12, 0, 0x10⟩] := by
    rw [Drawing.touching, sideBySide, entry_twoSprites]
    decide +kernel
  have hmoved : (inked.drawing ink (sideBySide 5 9)).touching =
      [⟨16, 8, 0, 0x80⟩, ⟨16, 12, 0, 0x10⟩] := by
    rw [Drawing.touching, sideBySide, entry_twoSprites]
    decide +kernel
  have hexchanged : ∀ i, (inked.drawing ink (sideBySide 1 0)).entry i =
      (inked.drawing ink (sideBySide 0 1)).entry (Equiv.swap 0 1 i) := by
    rw [sideBySide, sideBySide, entry_twoSprites, entry_twoSprites]
    decide +kernel
  exact ⟨(draw_of_touching inked ink (sideBySide 0 1) (sideBySide 1 0)).2 (Equiv.swap 0 1)
      hexchanged (by simp [htouching]) (by simp [htouching]),
    (draw_of_touching inked ink (sideBySide 0 1) (sideBySide 5 9)).1 (by rw [htouching, hmoved])⟩

end Display

end Handheld
