import PacedFeed.Proofs.Double.Order
import PacedFeed.Ring

-- The rates that a ring reports are parts of a whole.

namespace PacedFeed.Ring

open Double

variable {α : Type} {ring : Ring α}

theorem upTo_share {part whole : Nat} (h : part ≤ whole) (hw : whole < wordLimit) :
    (share part whole).UpTo 1 := by
  have hone : unitRank < magnitudeCount := by decide
  rw [one_eq, share]
  split
  · rw [zero_eq]
    exact upTo_of_le hone (Nat.zero_le _)
  · rename_i hne
    obtain ⟨rank, hle, heq⟩ := exists_rank_div_ofNat h (Nat.pos_of_ne_zero hne) hw
    rw [heq]
    exact upTo_of_le hone hle

theorem upTo_dropRate (h : ring.dropped ≤ ring.enqueued) (hw : ring.enqueued < wordLimit)
    (now : Instant) : (ring.metrics now).dropRate.UpTo 1 :=
  upTo_share h hw

theorem upTo_utilization (h : ring.size ≤ ring.capacity) (hpos : 0 < ring.capacity)
    (hw : ring.capacity < wordLimit) (now : Instant) :
    (ring.metrics now).utilization.UpTo 100 := by
  obtain ⟨part, hpart, heq⟩ := exists_rank_div_ofNat h hpos hw
  obtain ⟨percent, hpercent, heq'⟩ := exists_rank_mul_hundred hpart
  have hrate : (ring.metrics now).utilization = ofNat ring.size / ofNat ring.capacity * 100 := rfl
  rw [hrate, heq, heq', hundred_eq]
  exact upTo_of_le (by decide) hpercent

end PacedFeed.Ring
