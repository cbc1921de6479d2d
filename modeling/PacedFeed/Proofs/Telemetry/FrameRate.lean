import PacedFeed.Proofs.Double.Whole
import PacedFeed.Telemetry.FrameMonitor

-- Longer frames make a longer mean, and a longer mean is a lower rate. Only frames that take no
-- time at all have the rate zero, the lowest there is.

namespace PacedFeed

open Double

-- Powers are those of the core library, whatever else is imported.
attribute [local instance (2000)] instPowNat

section Seconds

variable {part n : Nat}

-- Less than a second more does not reach beyond the next second. Where seconds are no longer told
-- apart, it is not seen at all.
theorem ofNat_add_atMost (h : part < unitRank) (n : Nat) :
    (ofNat n + ofRank false part).AtMost (ofNat (n + 1)) := by
  obtain ⟨sum, hsum, hrounds⟩ := ofRank_add_ofRank (nearestRank n 1 1074) part
  refine ⟨sum, nearestRank (n + 1) 1 1074, ?_, hsum, ofNat_eq (n + 1)⟩
  have hpart : (units part : ℚ) < 2 ^ (1074 : Int) := by
    rw [← units_unitRank]
    exact Nat.cast_lt.mpr (units_lt h)
  by_cases hn : n < 2 ^ (53 : Nat)
  · refine hrounds.mono (rounds_ofNat (n + 1)) ?_
    rw [units_eq_magnitude, magnitude_ofNat hn, Nat.cast_add, Nat.cast_one, add_mul, one_mul]
    gcongr
  · have hwide : 1074 < binade (nearestRank n 1 1074) := by
      have hle := nearestRank_mono (Nat.not_lt.mp hn)
      have hlow : 1076 * 2 ^ (52 : Nat) ≤ nearestRank (2 ^ (53 : Nat)) 1 1074 := by decide +kernel
      simp only [binade, Nat.reducePow] at hle hlow ⊢
      omega
    have hunits : units part < 2 ^ (1074 : Nat) := by exact_mod_cast hpart
    have hsame : sum = nearestRank n 1 1074 := by
      refine Rounds.unique ?_ (rounds_units_add hunits hwide)
      exact_mod_cast hrounds
    rw [hsame]
    exact nearestRank_mono (Nat.le_succ n)

-- The part of a second that a duration has beyond its whole seconds.
theorem exists_rank_rest (nanos : Nat) (h : nanos < Duration.nanosPerSecond) :
    ∃ part < unitRank, ofNat nanos / ofNat Duration.nanosPerSecond = ofRank false part := by
  have hrank : nearestRank Duration.nanosPerSecond 1 1074 < magnitudeCount := by decide
  have hpos : nearestRank Duration.nanosPerSecond 1 1074 ≠ 0 := by decide
  obtain ⟨low, high, hle, hlow, hhigh⟩ :=
    (atMost_ofNat (Nat.le_sub_one_of_lt h)).div_right hrank hpos
  have hbelow : ofRank false high < ofRank false unitRank := by
    rw [← hhigh]
    decide +kernel
  exact ⟨low, hle.trans_lt (ofRank_lt_ofRank_iff.mp hbelow).1, hlow⟩

theorem ofDuration_atMost {duration longer : Nat} (h : duration ≤ longer) :
    (ofDuration duration).AtMost (ofDuration longer) := by
  have hpos : 0 < Duration.nanosPerSecond := by decide
  obtain ⟨part, hpart, hrest⟩ := exists_rank_rest _ (Nat.mod_lt duration hpos)
  obtain ⟨part', hpart', hrest'⟩ := exists_rank_rest _ (Nat.mod_lt longer hpos)
  have hseconds := Nat.div_le_div_right (c := Duration.nanosPerSecond) h
  rw [ofDuration, ofDuration, hrest, hrest']
  obtain heq | hlt := Nat.eq_or_lt_of_le hseconds
  · -- of two durations in one second, the longer one has the larger rest
    have hle : duration % Duration.nanosPerSecond ≤ longer % Duration.nanosPerSecond := by
      have hsplit := Nat.div_add_mod duration Duration.nanosPerSecond
      have hsplit' := Nat.div_add_mod longer Duration.nanosPerSecond
      rw [heq] at hsplit
      omega
    have hranks := (atMost_ofNat hle).div_right
      (by decide : nearestRank Duration.nanosPerSecond 1 1074 < magnitudeCount) (by decide)
    rw [heq]
    refine (atMost_ofNat (Nat.le_refl _)).add ?_
    rw [← hrest, ← hrest']
    exact hranks
  · -- the next whole second is between them
    have hbelow := ofNat_add_atMost hpart (duration / Duration.nanosPerSecond)
    have habove := (atMost_ofNat hlt).add_right part'
    exact hbelow.trans habove

end Seconds

-- The seconds that frames add to others.
def addSeconds (sum : Double) (frames : List Duration) : Double :=
  frames.foldl (fun sum frame => sum + ofDuration frame) sum

section Sum

variable {fast slow : List Nat} {sum sum' least : Double}

-- Frame by frame, the sums stay in order.
theorem addSeconds_atMost (h : List.Forall₂ (· ≤ ·) fast slow) (hs : sum.AtMost sum') :
    (addSeconds sum fast).AtMost (addSeconds sum' slow) := by
  induction h generalizing sum sum' with
  | nil => exact hs
  | cons hframe _ ih => exact ih (hs.add (ofDuration_atMost hframe))

-- Frames make a sum no smaller.
theorem atMost_addSeconds (frames : List Nat) (h : least.AtMost sum) :
    least.AtMost (addSeconds sum frames) := by
  induction frames generalizing sum with
  | nil => exact h
  | cons frame frames ih =>
      obtain ⟨rank, -, -, hframe, -⟩ := ofDuration_atMost (Nat.le_refl frame)
      have hnext : least.AtMost (sum + ofDuration frame) := by
        rw [hframe]
        exact h.add_right rank
      exact ih hnext

-- Nor are they smaller than one of the frames.
theorem frame_atMost_addSeconds {frame : Nat} {frames : List Nat} (h : frame ∈ frames) :
    (ofDuration frame).AtMost (addSeconds 0 frames) := by
  obtain ⟨front, back, rfl⟩ := List.append_of_mem h
  have hzero : (0 : Double).AtMost 0 := atMost_ofNat (Nat.le_refl 0)
  obtain ⟨-, rank, -, -, hbefore⟩ := atMost_addSeconds front hzero
  have happend : addSeconds 0 (front ++ frame :: back) =
      addSeconds (addSeconds 0 front + ofDuration frame) back := List.foldl_append
  rw [happend, hbefore]
  exact atMost_addSeconds back ((ofDuration_atMost (Nat.le_refl frame)).add_left rank)

theorem addSeconds_eq_zero {frames : List Nat} (h : ∀ frame ∈ frames, frame = 0) :
    addSeconds 0 frames = 0 := by
  induction frames with
  | nil => rfl
  | cons frame frames ih =>
      obtain ⟨rfl, hrest⟩ := List.forall_mem_cons.mp h
      exact ih hrest

end Sum

section Rate

variable {fast slow frames : List Nat}

theorem meanSeconds_of_ne_nil (h : frames ≠ []) :
    meanSeconds frames = addSeconds 0 frames / ofNat frames.length :=
  if_neg (by simpa using h)

theorem meanSeconds_atMost (h : List.Forall₂ (· ≤ ·) fast slow)
    (hw : fast.length < wordLimit) : (meanSeconds fast).AtMost (meanSeconds slow) := by
  have hzero : (0 : Double).AtMost 0 := atMost_ofNat (Nat.le_refl 0)
  by_cases hnil : fast = []
  · subst hnil
    obtain rfl := List.forall₂_nil_left_iff.mp h
    exact hzero
  · have hpos : 0 < fast.length := List.length_pos_iff.mpr hnil
    have hnil' : slow ≠ [] := List.length_pos_iff.mp (h.length_eq ▸ hpos)
    rw [meanSeconds_of_ne_nil hnil, meanSeconds_of_ne_nil hnil', ← h.length_eq, ofNat_eq]
    exact (addSeconds_atMost h hzero).div_right (nearestRank_lt hw) (ofNat_ne_zero hpos)

-- A mean is above zero as soon as one frame takes any time. Even the shortest frame there is does
-- not get lost in the mean of as many as can be counted.
theorem meanSeconds_pos (h : ∃ frame ∈ frames, frame ≠ 0) (hw : frames.length < wordLimit) :
    0 < meanSeconds frames := by
  obtain ⟨frame, hmem, hframe⟩ := h
  have hpos : 0 < frames.length := List.length_pos_of_mem hmem
  have hshortest : ofDuration 1 = ofRank false (nearestRank 1 1000000000 1074) := by
    decide +kernel
  have hsum : (ofDuration 1).AtMost (addSeconds 0 frames) :=
    (ofDuration_atMost (Nat.one_le_iff_ne_zero.mpr hframe)).trans (frame_atMost_addSeconds hmem)
  have hlength : (ofDuration 1 / ofNat (wordLimit - 1)).AtMost
      (ofDuration 1 / ofNat frames.length) := by
    rw [hshortest]
    refine (atMost_ofNat (Nat.le_sub_one_of_lt hw)).div_left ?_ (by decide +kernel)
    exact pos_ofRank_iff.mpr (ofNat_ne_zero hpos)
  have hmean : (ofDuration 1 / ofNat frames.length).AtMost (meanSeconds frames) := by
    rw [meanSeconds_of_ne_nil (List.ne_nil_of_mem hmem), ofNat_eq]
    exact hsum.div_right (nearestRank_lt hw) (ofNat_ne_zero hpos)
  have hleast : (0 : Double) < ofDuration 1 / ofNat (wordLimit - 1) := by decide +kernel
  exact Double.lt_of_lt_of_le hleast (hlength.trans hmean).le

-- The longer the frames, the lower their rate, unless all of the shorter ones take no time.
theorem fpsOfMean_atMost (h : List.Forall₂ (· ≤ ·) fast slow) (hw : fast.length < wordLimit)
    (hpos : ∃ frame ∈ fast, frame ≠ 0) :
    (fpsOfMean (meanSeconds slow)).AtMost (fpsOfMean (meanSeconds fast)) := by
  have hmean := meanSeconds_atMost h hw
  have hfast := meanSeconds_pos hpos hw
  rw [fpsOfMean, fpsOfMean, if_pos hfast, if_pos (Double.lt_of_lt_of_le hfast hmean.le), one_eq]
  exact hmean.div_left hfast (by decide)

-- Frames that take no time have no rate.
theorem fpsOfMean_eq_zero (h : ∀ frame ∈ frames, frame = 0) (hw : frames.length < wordLimit) :
    fpsOfMean (meanSeconds frames) = 0 := by
  have hmean : ¬0 < meanSeconds frames := by
    by_cases hnil : frames = []
    · subst hnil
      decide
    · have hpos : 0 < frames.length := List.length_pos_iff.mpr hnil
      rw [meanSeconds_of_ne_nil hnil, addSeconds_eq_zero h, ofNat_eq,
        zero_div_ofRank (nearestRank_lt hw) (ofNat_ne_zero hpos)]
      decide
  rw [fpsOfMean, if_neg hmean]

-- There is no lower rate than that.
theorem zero_atMost_fpsOfMean (hw : frames.length < wordLimit) :
    (0 : Double).AtMost (fpsOfMean (meanSeconds frames)) := by
  by_cases h : ∃ frame ∈ frames, frame ≠ 0
  · have hsame : List.Forall₂ (· ≤ ·) frames frames := List.forall₂_refl frames
    obtain ⟨rank, -, -, hrate, -⟩ := fpsOfMean_atMost hsame hw h
    rw [hrate]
    exact ⟨0, rank, Nat.zero_le _, zero_eq, rfl⟩
  · have hzero : ∀ frame ∈ frames, frame = 0 := by simpa using h
    rw [fpsOfMean_eq_zero hzero hw]
    exact atMost_ofNat (Nat.le_refl 0)

end Rate

end PacedFeed
