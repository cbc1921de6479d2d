import Mathlib.Algebra.Order.Floor.Semiring
import Mathlib.Data.List.GetD
import Mathlib.Data.List.Sort
import PacedFeed.Proofs.Double.Error
import PacedFeed.Proofs.Telemetry.FrameRate

-- A percentile is told from counts: how many samples are not above it, and how many are below.

namespace PacedFeed

open Double

-- In increasing order the samples up to a bound come first.
theorem getElem_le_iff {sorted : List Nat} {place bound : Nat} (hs : sorted.Pairwise (· ≤ ·))
    (h : place < sorted.length) : sorted[place] ≤ bound ↔ place < sorted.countP (· ≤ bound) := by
  induction sorted generalizing place with
  | nil => exact absurd h (Nat.not_lt_zero _)
  | cons least rest ih =>
      obtain ⟨hleast, hrest⟩ := List.pairwise_cons.mp hs
      by_cases hb : least ≤ bound
      · have hcount : (least :: rest).countP (· ≤ bound) = rest.countP (· ≤ bound) + 1 :=
          List.countP_cons_of_pos (decide_eq_true hb)
        rw [hcount]
        cases place with
        | zero => exact iff_of_true hb (Nat.succ_pos _)
        | succ place => rw [List.getElem_cons_succ, ih hrest, Nat.succ_lt_succ_iff]
      · have hnone : (least :: rest).countP (· ≤ bound) = 0 := by
          refine List.countP_eq_zero.mpr fun sample hm hle => ?_
          have hsample : sample ≤ bound := of_decide_eq_true hle
          rcases List.mem_cons.mp hm with rfl | hm
          · exact hb hsample
          · exact hb ((hleast sample hm).trans hsample)
        rw [hnone]
        refine iff_of_false (fun hle => hb ?_) (Nat.not_lt_zero _)
        cases place with
        | zero => exact hle
        | succ place => exact (hleast _ (List.getElem_mem _)).trans hle

section Rank

variable {percent count : Nat}

theorem percentileRank_eq_ceil (percent count : Nat) :
    percentileRank percent count = ⌈(percent * count / 100 : ℚ)⌉₊ := by
  refine eq_of_forall_ge_iff fun rank => ?_
  rw [Nat.ceil_le, div_le_iff₀ (by norm_num)]
  norm_cast
  unfold percentileRank
  generalize percent * count = share
  omega

theorem percentileRank_pos (hp : 0 < percent) (hc : 0 < count) :
    0 < percentileRank percent count := by
  have hshare := Nat.mul_pos hp hc
  unfold percentileRank
  omega

theorem percentileRank_le (hp : percent ≤ 100) : percentileRank percent count ≤ count := by
  have hshare := Nat.mul_le_mul_right count hp
  unfold percentileRank
  omega

end Rank

-- What makes a sample the one of nearest rank. It has that place in increasing order, whatever
-- the order of equal samples, and the counts are those that its name promises.
structure NearestRank (percent : Nat) (samples : List Nat) (sample : Nat) : Prop where
  mem : sample ∈ samples
  place : ∀ sorted : List Nat, sorted.Perm samples → sorted.Pairwise (· ≤ ·) →
    sorted[⌈(percent * samples.length / 100 : ℚ)⌉₊ - 1]? = some sample
  atMost : percent * samples.length ≤ 100 * samples.countP (· ≤ sample)
  below : 100 * samples.countP (· < sample) < percent * samples.length

section Percentile

variable {percent : Nat} {samples other : List Nat}

theorem percentile_nil (percent : Nat) : percentile percent [] = 0 := by
  rw [percentile, List.mergeSort_nil]
  rfl

section Bounds

variable (hp : 0 < percent) (hp' : percent ≤ 100) (hs : samples ≠ [])
include hp hp' hs

theorem getElem?_sorted {sorted : List Nat} (h : sorted.Perm samples)
    (hsorted : sorted.Pairwise (· ≤ ·)) :
    sorted[percentileRank percent samples.length - 1]? = some (percentile percent samples) := by
  have hsame : sorted = samples.mergeSort (· ≤ ·) :=
    (h.trans (List.mergeSort_perm _ _).symm).eq_of_pairwise
      (fun _ _ _ _ => Nat.le_antisymm) hsorted (List.pairwise_mergeSort' (· ≤ ·) _)
  have hrank := percentileRank_pos hp (List.length_pos_iff.mpr hs)
  have hle : percentileRank percent samples.length ≤ samples.length := percentileRank_le hp'
  have hlt : percentileRank percent samples.length - 1 < sorted.length := by
    rw [h.length_eq]
    omega
  rw [percentile, ← hsame, List.getD_eq_getElem _ _ hlt, List.getElem?_eq_getElem hlt]

-- The percentile is within a bound as soon as enough samples are.
theorem percentile_le_iff {bound : Nat} :
    percentile percent samples ≤ bound ↔
      percentileRank percent samples.length ≤ samples.countP (· ≤ bound) := by
  have hsorted : (samples.mergeSort (· ≤ ·)).Pairwise (· ≤ ·) := List.pairwise_mergeSort' (· ≤ ·) _
  have hperm := List.mergeSort_perm samples (· ≤ ·)
  have hfound := getElem?_sorted hp hp' hs hperm hsorted
  obtain ⟨hlt, hget⟩ := List.getElem?_eq_some_iff.mp hfound
  have hrank := percentileRank_pos hp (List.length_pos_iff.mpr hs)
  rw [← hget, getElem_le_iff hsorted hlt, hperm.countP_eq]
  omega

theorem nearestRank_percentile : NearestRank percent samples (percentile percent samples) := by
  have hperm := List.mergeSort_perm samples (· ≤ ·)
  have hfound := getElem?_sorted hp hp' hs hperm (List.pairwise_mergeSort' (· ≤ ·) _)
  constructor
  · exact hperm.mem_iff.mp (List.mem_of_getElem? hfound)
  · intro sorted h hsorted
    rw [← percentileRank_eq_ceil]
    exact getElem?_sorted hp hp' hs h hsorted
  · have hcount := (percentile_le_iff hp hp' hs).mp (Nat.le_refl _)
    unfold percentileRank at hcount
    omega
  · have hshare := Nat.mul_pos hp (List.length_pos_iff.mpr hs)
    cases hx : percentile percent samples with
    | zero => simpa using hshare
    | succ lower =>
        -- one less is not within the percentile
        have hbound : ¬percentile percent samples ≤ lower := hx ▸ Nat.not_succ_le_self lower
        rw [percentile_le_iff hp hp' hs] at hbound
        simp only [Nat.lt_succ_iff]
        unfold percentileRank at hbound
        omega

theorem percentile_mono {percent' : Nat} (h : percent ≤ percent') (hp'' : percent' ≤ 100) :
    percentile percent samples ≤ percentile percent' samples := by
  have hrank : percentileRank percent samples.length ≤ percentileRank percent' samples.length := by
    have hshare := Nat.mul_le_mul_right samples.length h
    unfold percentileRank
    omega
  have hcount := (percentile_le_iff (hp.trans_le h) hp'' hs).mp (Nat.le_refl _)
  exact (percentile_le_iff hp hp' hs).mpr (hrank.trans hcount)

end Bounds

theorem percentile_perm (percent : Nat) (h : other.Perm samples) :
    percentile percent other = percentile percent samples := by
  have hsame : other.mergeSort (· ≤ ·) = samples.mergeSort (· ≤ ·) :=
    ((List.mergeSort_perm _ _).trans (h.trans (List.mergeSort_perm _ _).symm)).eq_of_pairwise
      (fun _ _ _ _ => Nat.le_antisymm) (List.pairwise_mergeSort' (· ≤ ·) _)
      (List.pairwise_mergeSort' (· ≤ ·) _)
  rw [percentile, percentile, hsame, h.length_eq]

-- Of larger samples no more are within a bound.
theorem countP_le_of_raised (h : List.Forall₂ (· ≤ ·) samples other) (bound : Nat) :
    other.countP (· ≤ bound) ≤ samples.countP (· ≤ bound) := by
  induction h with
  | nil => exact Nat.le_refl _
  | @cons sample raised samples others hle _ ih =>
      simp only [List.countP_cons, decide_eq_true_eq]
      split <;> split <;> omega

theorem percentile_le_of_raised (hp : 0 < percent) (hp' : percent ≤ 100)
    (h : List.Forall₂ (· ≤ ·) samples other) :
    percentile percent samples ≤ percentile percent other := by
  by_cases hnil : samples = []
  · subst hnil
    rw [percentile_nil]
    exact Nat.zero_le _
  · have hlength := h.length_eq
    have hnil' : other ≠ [] := by
      rintro rfl
      exact hnil (List.length_eq_zero_iff.mp hlength)
    have hcount := (percentile_le_iff hp hp' hnil').mp (Nat.le_refl _)
    rw [percentile_le_iff hp hp' hnil, hlength]
    exact hcount.trans (countP_le_of_raised h _)

end Percentile

-- The double that a sample is in milliseconds: a thousand times its seconds. All roundings together
-- change it by no more than one part in 2^51, for all that lasts less than 2^64 seconds.
structure InMillis (sample : Duration) (millis : Double) : Prop where
  eq : millis = ofDuration sample * 1000
  near : sample < wordLimit * Duration.nanosPerSecond → millis.isFinite = true ∧
    |millis.value - (sample : ℚ) / 10 ^ 6| ≤ (sample : ℚ) / 10 ^ 6 / 2 ^ 51

section Millis

theorem thousand_eq : (1000 : Double) = ofRank false (nearestRank 1000 1 1074) := rfl

theorem thousand_lt : nearestRank 1000 1 1074 < magnitudeCount := by decide

-- Three roundings, of the seconds, of their sum and of the product.
theorem inMillis_mul (sample : Duration) : InMillis sample (ofDuration sample * 1000) := by
  refine ⟨rfl, fun h => ?_⟩
  obtain ⟨seconds, hlt, hseconds, hnear⟩ := exists_near_ofDuration h
  obtain ⟨product, hproduct, hrounds⟩ := ofRank_mul_ofRank hlt thousand_lt
  have hvalue : (units seconds : ℚ) * units (nearestRank 1000 1 1074) / 2 ^ (1074 : Int) =
      magnitude seconds * 1000 * 2 ^ (1074 : Int) := by
    have hscale : (2 : ℚ) ^ (1074 : Int) ≠ 0 := by positivity
    rw [units_eq_magnitude, units_eq_magnitude, magnitude_ofNat (by decide), mul_mul_mul_comm,
      ← mul_assoc, mul_div_cancel_right₀ _ hscale, Nat.cast_ofNat]
  have hexact : (sample : ℚ) / 10 ^ (9 : Nat) * 1000 = (sample : ℚ) / 10 ^ 6 := by ring
  rw [hvalue] at hrounds
  have hmillis : Near 3 ((sample : ℚ) / 10 ^ 6) (magnitude product) := by
    rw [← hexact]
    refine (hnear.mul (by norm_num)).round (by decide) hrounds ?_
    obtain hzero | hpos := Nat.eq_zero_or_pos sample
    · exact .inl (by simp [hzero])
    · have hone : (1 : ℚ) ≤ sample := by exact_mod_cast hpos
      exact .inr (least_le_of_nanos (by linarith))
  have hnonneg : (0 : ℚ) ≤ (sample : ℚ) / 10 ^ 6 := by positivity
  have hfinite : product < magnitudeCount := by
    refine hmillis.lt_magnitudeCount (Nat.le_refl _) hnonneg ?_
    exact (div_le_self (Nat.cast_nonneg _) (by norm_num)).trans_lt (cast_lt_of_duration h)
  have hparts : (1 + roundoff) ^ 3 - 1 ≤ 1 / 2 ^ 51 := by norm_num [roundoff]
  rw [thousand_eq, hseconds, hproduct, value_ofRank hfinite, ofRank_of_lt false hfinite]
  refine ⟨rfl, hmillis.trans ?_⟩
  exact (mul_le_mul_of_nonneg_right hparts hnonneg).trans_eq (one_div_mul_eq_div _ _)

-- A longer sample is reported as no less.
theorem millis_mono {sample longer : Nat} (h : sample ≤ longer) :
    millisOfSeconds (ofDuration sample) ≤ millisOfSeconds (ofDuration longer) := by
  have hmillis := (ofDuration_atMost h).mul_right thousand_lt (by decide)
  rw [← thousand_eq] at hmillis
  exact hmillis.le

-- The order of the samples does not matter to what is reported of them.
theorem millis_percentile_perm (percent : Nat) {samples other : List Nat}
    (h : other.Perm samples) :
    millisOfSeconds (ofDuration (percentile percent other)) =
      millisOfSeconds (ofDuration (percentile percent samples)) := by
  rw [percentile_perm percent h]

end Millis

-- What is reported of a window of samples are its samples of nearest rank. They are the same for
-- every order of the samples, and no lower for larger samples.
theorem percentiles_of_nearest_rank (monitor : FrameMonitor) :
    let stats := monitor.stats
    let frames := monitor.frames.toList
    let latencies := monitor.latencies.toList
    (frames ≠ [] → ∃ p95 p99, NearestRank 95 frames p95 ∧ NearestRank 99 frames p99 ∧ p95 ≤ p99 ∧
      InMillis p95 stats.p95FrameMillis ∧ InMillis p99 stats.p99FrameMillis ∧
      stats.p95FrameMillis ≤ stats.p99FrameMillis) ∧
    (latencies ≠ [] → ∃ p95, NearestRank 95 latencies p95 ∧
      InMillis p95 stats.p95LatencyMillis) ∧
    ∀ other : FrameMonitor,
      (other.frames.toList.Perm frames → other.stats.p95FrameMillis = stats.p95FrameMillis ∧
        other.stats.p99FrameMillis = stats.p99FrameMillis) ∧
      (other.latencies.toList.Perm latencies →
        other.stats.p95LatencyMillis = stats.p95LatencyMillis) ∧
      (List.Forall₂ (· ≤ ·) frames other.frames.toList →
        stats.p95FrameMillis ≤ other.stats.p95FrameMillis ∧
          stats.p99FrameMillis ≤ other.stats.p99FrameMillis) ∧
      (List.Forall₂ (· ≤ ·) latencies other.latencies.toList →
        stats.p95LatencyMillis ≤ other.stats.p95LatencyMillis) := by
  intro stats frames latencies
  have h95 : 0 < 95 ∧ 95 ≤ 100 := by decide
  have h99 : 0 < 99 ∧ 99 ≤ 100 := by decide
  refine ⟨fun hs => ?_, fun hs => ?_, fun other => ⟨fun h => ?_, fun h => ?_, fun h => ?_,
    fun h => ?_⟩⟩
  · have hle : percentile 95 frames ≤ percentile 99 frames :=
      percentile_mono h95.1 h95.2 hs (by decide) h99.2
    exact ⟨_, _, nearestRank_percentile h95.1 h95.2 hs, nearestRank_percentile h99.1 h99.2 hs, hle,
      inMillis_mul _, inMillis_mul _, millis_mono hle⟩
  · exact ⟨_, nearestRank_percentile h95.1 h95.2 hs, inMillis_mul _⟩
  · exact ⟨millis_percentile_perm 95 h, millis_percentile_perm 99 h⟩
  · exact millis_percentile_perm 95 h
  · exact ⟨millis_mono (percentile_le_of_raised h95.1 h95.2 h),
      millis_mono (percentile_le_of_raised h99.1 h99.2 h)⟩
  · exact millis_mono (percentile_le_of_raised h95.1 h95.2 h)

-- Twenty frames of whole milliseconds, the longest of them first, so that the two ranks differ.
theorem percentiles_of_nearest_rank_reversed :
    let sorted : List Nat := (List.range' 1 20).map (· * 1000000)
    let monitor : FrameMonitor :=
      { FrameMonitor.new 16 with
        frames := .ofList sorted.reverse, latencies := .ofList [7000000, 5000000] }
    let other : FrameMonitor := { monitor with frames := .ofList (sorted.map (· + 1)).reverse }
    monitor.frames.toList ≠ [] ∧ monitor.latencies.toList ≠ [] ∧
    NearestRank 95 monitor.frames.toList 19000000 ∧ monitor.stats.p95FrameMillis = 19 ∧
    NearestRank 99 monitor.frames.toList 20000000 ∧ monitor.stats.p99FrameMillis = 20 ∧
    monitor.stats.p95LatencyMillis = 7 ∧
    List.Forall₂ (· ≤ ·) monitor.frames.toList other.frames.toList ∧
    monitor.stats.p95FrameMillis ≤ other.stats.p95FrameMillis := by
  intro sorted monitor other
  have hframes : monitor.frames.toList = sorted.reverse := Fifo.toList_ofList _
  have hsorted : sorted.Perm monitor.frames.toList := hframes ▸ (List.reverse_perm sorted).symm
  have hraised : List.Forall₂ (· ≤ ·) monitor.frames.toList other.frames.toList := by decide
  have hnil : monitor.frames.toList ≠ [] := by decide
  have hnil' : monitor.latencies.toList ≠ [] := by decide
  obtain ⟨hreported, hreported', hother⟩ := percentiles_of_nearest_rank monitor
  obtain ⟨p95, p99, h95, h99, -, hmillis95, hmillis99, -⟩ := hreported hnil
  obtain ⟨latency, hlatency, hmillis, -⟩ := hreported' hnil'
  obtain ⟨-, -, hlonger, -⟩ := hother other
  have hplace95 := h95.place sorted hsorted (by decide)
  have hplace99 := h99.place sorted hsorted (by decide)
  have hplace := hlatency.place [5000000, 7000000] (.swap _ _ _) (by decide)
  rw [← percentileRank_eq_ceil] at hplace95 hplace99 hplace
  have hfound95 : sorted[percentileRank 95 monitor.frames.toList.length - 1]? = some 19000000 := by
    decide
  have hfound99 : sorted[percentileRank 99 monitor.frames.toList.length - 1]? = some 20000000 := by
    decide
  obtain rfl : p95 = 19000000 := Option.some.inj (hplace95.symm.trans hfound95)
  obtain rfl : p99 = 20000000 := Option.some.inj (hplace99.symm.trans hfound99)
  obtain rfl : latency = 7000000 := Option.some.inj (hplace.symm.trans (by decide))
  exact ⟨hnil, hnil', h95, hmillis95.eq.trans (by decide +kernel), h99,
    hmillis99.eq.trans (by decide +kernel), hmillis.trans (by decide +kernel), hraised,
    (hlonger hraised).1⟩

end PacedFeed
