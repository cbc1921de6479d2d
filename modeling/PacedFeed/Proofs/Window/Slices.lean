import PacedFeed.Proofs.Window.Viewport

-- Scrolling and slices of any size find the same places in the log, and slices that follow one
-- another lose nothing and repeat nothing.

namespace PacedFeed

section Clamp

variable (offset : Int) (total size : Nat)

-- The same in terms of numbers that may be negative.
theorem cast_clampOffset :
    (clampOffset offset total size : Int) =
      min (max offset 0) (max 0 ((total : Int) - (size : Int))) := by
  unfold clampOffset
  omega

theorem clampOffset_mono {offset further : Int} (h : offset ≤ further) :
    clampOffset offset total size ≤ clampOffset further total size := by
  unfold clampOffset
  omega

theorem clampOffset_clampOffset :
    clampOffset (clampOffset offset total size) total size = clampOffset offset total size := by
  unfold clampOffset
  omega

-- A place at which the view fits is taken as it is.
theorem clampOffset_of_fits {place : Nat} (h : place + size ≤ total) :
    clampOffset place total size = place := by
  unfold clampOffset
  omega

theorem clampOffset_le : clampOffset offset total size ≤ total - size :=
  Nat.min_le_right _ _

end Clamp

namespace Window

variable (window : Window)

-- Scrolling again to where scrolling has led changes nothing.
theorem scrollTo_scrollTo (offset : Int) :
    (window.scrollTo offset).2.scrollTo (window.scrollTo offset).1 = window.scrollTo offset :=
  congrArg (fun place => (place, { window with offset := place }))
    (clampOffset_clampOffset offset window.size window.viewportSize)

theorem length_slice (offset : Int) (size : Nat) :
    (window.slice offset size).length = min size window.size := by
  have hplace := clampOffset_le offset window.size size
  rw [slice, range, List.length_take, List.length_drop, Fifo.length_toList]
  change min size (window.size - _) = _
  omega

-- A slice lies in the log as it is, in one piece.
theorem toList_eq_append_slice (offset : Int) (size : Nat) :
    window.log.toList =
      window.log.toList.take (clampOffset offset window.size size) ++ window.slice offset size ++
        (window.log.toList.drop (clampOffset offset window.size size)).drop size := by
  rw [slice, range, List.append_assoc, List.take_append_drop, List.take_append_drop]

theorem length_take_clampOffset (offset : Int) (size : Nat) :
    (window.log.toList.take (clampOffset offset window.size size)).length =
      clampOffset offset window.size size := by
  rw [List.length_take, Fifo.length_toList]
  exact Nat.min_eq_left (Nat.le_trans (clampOffset_le _ _ _) (Nat.sub_le _ _))

theorem take_add_eq_append_slice {start size : Nat} (h : start + size ≤ window.size) :
    window.log.toList.take (start + size) =
      window.log.toList.take start ++ window.slice start size := by
  rw [slice, range, clampOffset_of_fits _ _ h, List.take_add]

-- Each page begins where the one before it ended.
theorem flatMap_slice {size count : Nat} (h : count * size ≤ window.size) :
    (List.range count).flatMap (fun page => window.slice (page * size : Nat) size) =
      window.log.toList.take (count * size) := by
  induction count with
  | zero => rw [Nat.zero_mul, List.take_zero, List.range_zero, List.flatMap_nil]
  | succ count ih =>
      rw [Nat.add_mul, Nat.one_mul] at h ⊢
      rw [take_add_eq_append_slice _ h, List.range_succ, List.flatMap_append,
        ih (Nat.le_of_add_right_le h), List.flatMap_singleton]

-- Scrolling goes to the nearest place at which the view is filled, and stays there. A slice is
-- what a view of its size would show after scrolling, in one piece and as long as the log allows.
-- Slices laid end to end give back the log.
theorem scrolls_and_slices_agree :
    (∀ offset : Int,
      let moved := window.scrollTo offset
      (moved.1 : Int) =
        min (max offset 0) (max 0 ((window.size : Int) - (window.viewportSize : Int))) ∧
      moved.2 = { window with offset := moved.1 } ∧
      moved.2.scrollTo moved.1 = moved ∧
      window.slice offset window.viewportSize = moved.2.visible) ∧
    (∀ offset further : Int, offset ≤ further →
      (window.scrollTo offset).1 ≤ (window.scrollTo further).1) ∧
    (∀ (offset : Int) (size : Nat),
      (window.slice offset size).length = min size window.size ∧
      ∃ before after, window.log.toList = before ++ window.slice offset size ++ after ∧
        (before.length : Int) =
          min (max offset 0) (max 0 ((window.size : Int) - (size : Int)))) ∧
    ∀ size count : Nat, count * size ≤ window.size →
      (List.range count).flatMap (fun page => window.slice (page * size : Nat) size) =
        window.log.toList.take (count * size) := by
  refine ⟨fun offset => ⟨cast_clampOffset _ _ _, rfl, window.scrollTo_scrollTo offset, rfl⟩,
    fun _ _ h => clampOffset_mono _ _ h,
    fun offset size => ⟨window.length_slice offset size, ?_⟩,
    fun size count h => window.flatMap_slice h⟩
  refine ⟨_, _, window.toList_eq_append_slice offset size, ?_⟩
  rw [length_take_clampOffset, cast_clampOffset]

theorem scrolls_and_slices_agree_odd_length :
    let message : String → Message := fun id => ⟨id, .user, .chunk, "x", 0, []⟩
    let config : WindowConfig := { viewportSize := 3, maxRetained := 5 }
    let window := (new config).run
      [.append (["a", "b", "c", "d", "e", "f"].map message), .scrollTo 1]
    (-2 : Int) ≤ 7 ∧ (window.scrollTo (-2)).1 ≤ (window.scrollTo 7).1 ∧
    2 * 2 ≤ window.size ∧
    (List.range 2).flatMap (fun page => window.slice (page * 2 : Nat) 2) =
      window.log.toList.take (2 * 2) ∧
    window.log.toList.take (2 * 2) = ["b", "c", "d", "e"].map message := by
  intro message config window
  obtain ⟨-, hmono, -, hpages⟩ := window.scrolls_and_slices_agree
  have hle : (-2 : Int) ≤ 7 := by decide
  have hfits : 2 * 2 ≤ window.size := by decide
  exact ⟨hle, hmono _ _ hle, hfits, hpages 2 2 hfits, rfl⟩

end Window

end PacedFeed
