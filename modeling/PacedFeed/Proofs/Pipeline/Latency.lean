import PacedFeed.Proofs.Batcher.Partition
import PacedFeed.Proofs.Coordinator.Ingest
import PacedFeed.Proofs.Pipeline.Flush
import PacedFeed.Proofs.Pipeline.Readings

-- How old the messages of a batch are on the average when it is delivered, and what the monitor is
-- told of it.

namespace PacedFeed

-- Powers and sums are those of the core library, whatever else is imported.
attribute [local instance (2000)] instPowNat Zero.ofOfNat0

-- The mean of some durations, rounded down.
structure IsMean (durations : List Duration) (mean : Duration) : Prop where
  mul_le : mean * durations.length ≤ durations.sum
  lt_mul : durations.sum < (mean + 1) * durations.length

section Mean

variable {durations : List Duration} {mean : Duration}

theorem isMean_iff :
    IsMean durations mean ↔ durations ≠ [] ∧ mean = durations.sum / durations.length := by
  constructor
  · intro h
    have hne : durations ≠ [] := by
      rintro rfl
      exact absurd h.lt_mul (Nat.lt_irrefl 0)
    exact ⟨hne, (Nat.div_eq_of_lt_le h.mul_le h.lt_mul).symm⟩
  · rintro ⟨hne, rfl⟩
    have hpos : 0 < durations.length := List.length_pos_iff.mpr hne
    exact ⟨Nat.div_mul_le_self _ _, Nat.lt_mul_of_div_lt (Nat.lt_succ_self _) hpos⟩

-- A number is more than twice what remains of it, so a quotient of one or more by the remainder is
-- too large for the number.
theorem lt_mod_of_div_mul_le {total count limit : Nat} (hlimit : 0 < limit) (hle : limit ≤ count)
    (hrest : count % limit ≠ 0) (h : total / (count % limit) * count ≤ total) :
    total < count % limit := by
  have hpos : 0 < count % limit := Nat.pos_of_ne_zero hrest
  have htwice : 2 * (count % limit) ≤ count := by
    have hmod := Nat.mod_lt count hlimit
    have hsplit := Nat.mod_add_div count limit
    have hquotient := Nat.mul_le_mul_left limit (Nat.div_pos hle hlimit)
    omega
  by_contra hge
  have hone : 1 ≤ total / (count % limit) := Nat.div_pos (Nat.not_lt.mp hge) hpos
  have hlarge : (total / (count % limit) + 1) * (count % limit) ≤ total / (count % limit) * count :=
    calc (total / (count % limit) + 1) * (count % limit)
        ≤ (total / (count % limit) * 2) * (count % limit) :=
          Nat.mul_le_mul_right _ (by omega)
      _ = total / (count % limit) * (2 * (count % limit)) := Nat.mul_assoc _ _ _
      _ ≤ total / (count % limit) * count := Nat.mul_le_mul_left _ htwice
  have hsmall : total < (total / (count % limit) + 1) * (count % limit) :=
    Nat.lt_mul_of_div_lt (Nat.lt_succ_self _) hpos
  exact absurd (Nat.lt_of_lt_of_le hsmall (Nat.le_trans hlarge h)) (Nat.lt_irrefl _)

-- Dividing by what remains of the number of durations gives their mean if all of it remains, or if
-- nothing comes out either way.
theorem isMean_sum_div_mod_iff (hne : durations ≠ []) {limit : Nat} (hlimit : 0 < limit) :
    durations.length % limit ≠ 0 ∧
        IsMean durations (durations.sum / (durations.length % limit)) ↔
      durations.length < limit ∨ durations.sum < durations.length % limit := by
  have hpos : 0 < durations.length := List.length_pos_iff.mpr hne
  rcases Nat.lt_or_ge durations.length limit with hlt | hge
  · rw [Nat.mod_eq_of_lt hlt]
    exact ⟨fun _ => .inl hlt, fun _ => ⟨Nat.ne_of_gt hpos, isMean_iff.mpr ⟨hne, rfl⟩⟩⟩
  · constructor
    · rintro ⟨hrest, hmean⟩
      exact .inr (lt_mod_of_div_mul_le hlimit hge hrest hmean.mul_le)
    · rintro (hlt | hsum)
      · exact absurd hlt (Nat.not_lt.mpr hge)
      · have hsmall : durations.sum / durations.length = 0 :=
          Nat.div_eq_of_lt (Nat.lt_of_lt_of_le hsum (Nat.mod_le _ _))
        refine ⟨Nat.ne_of_gt (Nat.zero_lt_of_lt hsum), isMean_iff.mpr ⟨hne, ?_⟩⟩
        rw [hsmall, Nat.div_eq_of_lt hsum]

end Mean

-- A batch with the instant of its delivery.
structure Delivery where
  instant : Instant
  batch : Batch

namespace Delivery

-- How old the messages are. One that is still to come has no age.
def ages (delivery : Delivery) : List Duration :=
  delivery.batch.messages.map fun message => delivery.instant.since message.timestamp

def latency (delivery : Delivery) : Duration :=
  Coordinator.latency delivery.batch delivery.instant

section Latency

variable (delivery : Delivery)

theorem length_ages : delivery.ages.length = delivery.batch.size :=
  List.length_map _

theorem latency_eq :
    delivery.latency = delivery.ages.sum / (delivery.ages.length % 2 ^ (32 : Nat)) := by
  rw [length_ages]
  rfl

end Latency

end Delivery

namespace Pipeline

-- The batches that a step delivers.
def dispatch (state : Pipeline) (step : Step) : List Delivery :=
  (deliveries (state.happen step)).map (Delivery.mk state.now)

def dispatches (state : Pipeline) (steps : List Step) : List Delivery :=
  trace step dispatch state steps

section Step

variable (state : Pipeline) (step : Step)

theorem batches_dispatch :
    (state.dispatch step).map Delivery.batch = deliveries (state.happen step) := by
  rw [dispatch, List.map_map]
  exact List.map_id _

-- The monitor is told a latency for each batch.
theorem latencies_readings :
    (state.readings step).flatMap FrameMonitor.latencyOf =
      (state.dispatch step).map Delivery.latency := by
  have hmarks : (state.marks step).flatMap FrameMonitor.latencyOf = [] := by
    unfold marks
    split
    · split <;> rfl
    · split <;> rfl
    · split <;> rfl
    · rfl
  rw [readings, List.flatMap_append, hmarks, List.nil_append, Coordinator.delays, dispatch,
    List.flatMap_map, List.map_map, List.map_eq_flatMap]
  rfl

-- No batch is empty.
theorem messages_ne_nil_of_happen :
    ∀ batch ∈ deliveries (state.happen step), batch.messages ≠ [] := by
  have hnone : ∀ batch ∈ ([] : List Batch), batch.messages ≠ [] := List.forall_mem_nil _
  have houtpour : ∀ batch ∈ deliveries state.outpour, batch.messages ≠ [] := by
    intro batch hm
    rw [outpour, deliveries_collecting, Coordinator.collectAll_fst] at hm
    exact Batching.messages_ne_nil_of_emitAll _ .flush state.now batch (Option.mem_toList.mp hm)
  cases step with
  | tick =>
      rw [happen]
      split
      · rw [frame, deliveries_collecting, Coordinator.collectDue_fst]
        exact Batching.messages_ne_nil_of_poll _ state.now
      · exact hnone
  | flush => exact houtpour
  | stop =>
      rw [happen]
      split
      · exact houtpour
      · exact hnone
  | ingest | ingestAll =>
      rw [happen, deliveries_submitAll]
      exact hnone
  | start | advance | scrollTo | scrollToBottom | setFollowTail => exact hnone

theorem ages_ne_nil_of_dispatch : ∀ delivery ∈ state.dispatch step, delivery.ages ≠ [] := by
  intro delivery hm
  obtain ⟨batch, hb, rfl⟩ := List.mem_map.mp hm
  exact fun he => state.messages_ne_nil_of_happen step batch hb (List.map_eq_nil_iff.mp he)

end Step

section Run

variable (state : Pipeline) (steps : List Step)

theorem batches_dispatches :
    (state.dispatches steps).map Delivery.batch = deliveries (state.history steps) := by
  induction steps generalizing state with
  | nil => rfl
  | cons step steps ih =>
      rw [dispatches, trace, List.map_append, batches_dispatch, history, trace, deliveries_append]
      exact congrArg _ (ih _)

theorem latencies_allReadings :
    (state.allReadings steps).flatMap FrameMonitor.latencyOf =
      (state.dispatches steps).map Delivery.latency := by
  induction steps generalizing state with
  | nil => rfl
  | cons step steps ih =>
      rw [allReadings, trace, List.flatMap_append, latencies_readings, dispatches, trace,
        List.map_append]
      exact congrArg _ (ih _)

theorem ages_ne_nil_of_dispatches :
    ∀ delivery ∈ state.dispatches steps, delivery.ages ≠ [] := by
  induction steps generalizing state with
  | nil => exact List.forall_mem_nil _
  | cons step steps ih =>
      intro delivery hm
      rcases List.mem_append.mp hm with hm | hm
      · exact state.ages_ne_nil_of_dispatch step delivery hm
      · exact ih _ delivery hm

variable {config : PipelineConfig} {start : Instant} {coordinator : Coordinator}

theorem latencies_dispatched (hc : Coordinator.create config start = .ok coordinator) :
    let sent := dispatches ⟨coordinator, start⟩ steps
    (run ⟨coordinator, start⟩ steps).coordinator.monitor.latencies.toList =
      (sent.map Delivery.latency).drop (sent.length - FrameMonitor.defaultLatencyWindow) := by
  intro sent
  have hlatencies := latencies_run steps hc
  dsimp only at hlatencies
  rw [latencies_allReadings, List.length_map] at hlatencies
  exact hlatencies

theorem latencies_of_one_delivery (hc : Coordinator.create config start = .ok coordinator)
    {delivery : Delivery} (hsent : dispatches ⟨coordinator, start⟩ steps = [delivery]) :
    (run ⟨coordinator, start⟩ steps).coordinator.monitor.latencies.toList =
      [delivery.latency] := by
  have hkept : [delivery].length ≤ FrameMonitor.defaultLatencyWindow := by
    rw [List.length_singleton]
    decide
  rw [latencies_dispatched steps hc, hsent, Nat.sub_eq_zero_of_le hkept]
  rfl

end Run

section Fitting

variable {config : PipelineConfig} (start : Instant) {messages : List Message}

theorem items_ingestAll_new
    (hadmitted : Message.admitted config.maxMessageBytes messages = messages)
    (hroom : messages.length ≤ config.ringCapacity) :
    ((Coordinator.new config start).ingestAll messages).2.ring.items.toList = messages := by
  have hring : ((Coordinator.new config start).ingestAll messages).2.ring =
      ((Ring.new config.ringCapacity start).enqueueAll
        (Message.admitted config.maxMessageBytes messages)).2 :=
    congrArg (fun result => result.2.ring) (Coordinator.ingestAll_eq _ messages)
  have hempty : (Ring.new config.ringCapacity start : Ring Message).size + messages.length ≤
      config.ringCapacity :=
    Nat.le_trans (Nat.le_of_eq (Nat.zero_add _)) hroom
  rw [hring, hadmitted, Ring.toList_enqueueAll_of_room hempty]
  rfl

-- Messages that find room in an empty ring are flushed in one batch, if none is dropped or merged.
theorem exists_dispatch_of_fitting (hvalid : config.fault? = none)
    (hd : config.batcher.dedup = false) (hm : config.batcher.merge = false)
    (hadmitted : Message.admitted config.maxMessageBytes messages = messages)
    (hne : messages ≠ []) (hroom : messages.length ≤ config.ringCapacity) :
    ∃ delivery,
      dispatches ⟨.new config start, start⟩ [.ingestAll 0 messages, .flush] = [delivery] ∧
      delivery.ages = messages.map fun message => start.since message.timestamp := by
  let filled := ((Coordinator.new config start).ingestAll messages).2
  have hbatcher : filled.batcher = .new config.batcher start := batcher_ingestAll _ _
  have hsize : filled.ring.size ≤ filled.ring.capacity := by
    have hc : Coordinator.create config start = .ok (.new config start) :=
      Coordinator.create_eq_ok_iff.mpr ⟨hvalid, rfl⟩
    obtain ⟨gone, -, hledger⟩ := (accounted_run hc [.ingestAll 0 messages]).balanced
    exact hledger.size_le
  have hall : filled.batcher.pending.toList ++ filled.ring.items.toList = messages := by
    rw [hbatcher, items_ingestAll_new start hadmitted hroom]
    rfl
  obtain ⟨batch, hb, hmessages⟩ := filled.exists_batch_of_collectAll start
    (by rw [hbatcher]; exact hd) (by rw [hbatcher]; exact hm) hsize (by rwa [hall])
  rw [hall] at hmessages
  refine ⟨⟨start, batch⟩, ?_, congrArg (List.map _) hmessages⟩
  have hingested : dispatch ⟨.new config start, start⟩ (.ingestAll 0 messages) = [] := by
    rw [dispatch, happen, deliveries_submitAll]
    rfl
  have hflushed : dispatch ⟨filled, start⟩ .flush = [⟨start, batch⟩] := by
    rw [dispatch, happen, outpour, deliveries_collecting, hb]
    rfl
  rw [dispatches, trace, trace, trace, hingested]
  exact congrArg (· ++ []) hflushed

theorem exists_dispatch_of_copies {message : Message} {count : Nat}
    (hvalid : config.fault? = none) (hd : config.batcher.dedup = false)
    (hm : config.batcher.merge = false)
    (hadmitted : message.fault? config.maxMessageBytes = none) (hpos : 0 < count)
    (hroom : count ≤ config.ringCapacity) :
    ∃ delivery,
      dispatches ⟨.new config start, start⟩
        [.ingestAll 0 (List.replicate count message), .flush] = [delivery] ∧
      delivery.ages = List.replicate count (start.since message.timestamp) := by
  have hall : Message.admitted config.maxMessageBytes (List.replicate count message) =
      List.replicate count message := by
    refine List.filter_eq_self.mpr fun other ho => ?_
    rw [List.eq_of_mem_replicate ho, hadmitted]
    rfl
  obtain ⟨delivery, hsent, hages⟩ := exists_dispatch_of_fitting start hvalid hd hm hall
    (List.ne_nil_of_length_pos (by rwa [List.length_replicate])) (by rwa [List.length_replicate])
  exact ⟨delivery, hsent, hages.trans List.map_replicate⟩

end Fitting

section Means

variable {config : PipelineConfig} {start : Instant} {coordinator : Coordinator}

-- The monitor is told one latency for each batch that is delivered, when it is delivered. It is the
-- mean age of its messages, between the least and the greatest of them, if there are less than 2^32
-- messages. Of more, it is the mean only when that is nothing.
theorem latencies_are_means (hc : Coordinator.create config start = .ok coordinator)
    (steps : List Step) :
    let origin : Pipeline := ⟨coordinator, start⟩
    let sent := origin.dispatches steps
    sent.map Delivery.batch = deliveries (origin.history steps) ∧
    (origin.run steps).coordinator.monitor.latencies.toList =
      (sent.map Delivery.latency).drop (sent.length - FrameMonitor.defaultLatencyWindow) ∧
    ∀ delivery ∈ sent,
      let ages := delivery.ages
      let divisor := delivery.batch.size % 2 ^ (32 : Nat)
      (divisor ≠ 0 ∧ IsMean ages delivery.latency ↔
        delivery.batch.size < 2 ^ (32 : Nat) ∨ ages.sum < divisor) ∧
      (delivery.batch.size < 2 ^ (32 : Nat) →
        divisor ≠ 0 ∧ IsMean ages delivery.latency ∧
        ∃ hne : ages ≠ [], ages.min hne ≤ delivery.latency ∧ delivery.latency ≤ ages.max hne) := by
  intro origin sent
  refine ⟨origin.batches_dispatches steps, latencies_dispatched steps hc, fun delivery hm => ?_⟩
  intro ages divisor
  have hne : ages ≠ [] := origin.ages_ne_nil_of_dispatches steps delivery hm
  have hiff := isMean_sum_div_mod_iff hne (Nat.two_pow_pos 32)
  rw [← delivery.latency_eq, delivery.length_ages] at hiff
  refine ⟨hiff, fun hlt => ?_⟩
  obtain ⟨hdivisor, hmean⟩ := hiff.mpr (.inl hlt)
  refine ⟨hdivisor, hmean, hne, ?_, ?_⟩
  · rw [(isMean_iff.mp hmean).2]
    exact List.min_le_sum_div_length_nat hne
  · rw [(isMean_iff.mp hmean).2]
    exact List.sum_div_length_le_max_nat hne

-- A message from the future among others.
theorem latencies_are_means_mixed :
    let config : PipelineConfig := { batcher := { dedup := false, merge := false } }
    let message (id : String) (timestamp : Instant) : Message :=
      ⟨id, .assistant, .chunk, "x", timestamp, []⟩
    let messages := [message "a" (-10), message "b" 4, message "c" (-3)]
    let steps : List Step := [.ingestAll 0 messages, .flush]
    let origin : Pipeline := ⟨.new config 0, 0⟩
    Coordinator.create config 0 = .ok (.new config 0) ∧
    (origin.run steps).coordinator.monitor.latencies.toList = [4] ∧
    ∃ delivery, origin.dispatches steps = [delivery] ∧ delivery.ages = [10, 0, 3] ∧
      IsMean delivery.ages delivery.latency := by
  intro config message messages steps origin
  have hvalid : config.fault? = none := by decide +kernel
  have hc : Coordinator.create config 0 = .ok (.new config 0) :=
    Coordinator.create_eq_ok_iff.mpr ⟨hvalid, rfl⟩
  have hadmitted : Message.admitted config.maxMessageBytes messages = messages := by
    decide +kernel
  obtain ⟨delivery, hsent, hages⟩ := exists_dispatch_of_fitting 0 hvalid rfl rfl
    hadmitted (by decide) (by decide +kernel)
  have hages : delivery.ages = [10, 0, 3] := hages
  obtain ⟨-, -, hmeans⟩ := latencies_are_means hc steps
  have hsize : delivery.batch.size = 3 := by
    rw [← delivery.length_ages, hages]
    rfl
  obtain ⟨-, hmean, -⟩ := (hmeans delivery (hsent ▸ List.mem_singleton_self _)).2
    (by rw [hsize]; decide)
  refine ⟨hc, ?_, delivery, hsent, hages, hmean⟩
  rw [latencies_of_one_delivery steps hc hsent, delivery.latency_eq, hages]
  decide

-- With 2^32 messages there is nothing to divide by. One more, all of them a millisecond old, and the
-- monitor is told the sum of their ages.
theorem latency_of_huge_batch :
    let limit := 2 ^ (32 : Nat)
    let config : PipelineConfig :=
      { ringCapacity := limit + 1, batcher := { dedup := false, merge := false } }
    let message : Message := ⟨"m0", .assistant, .chunk, "x", -1000000, []⟩
    let flood (count : Nat) : List Step := [.ingestAll 0 (List.replicate count message), .flush]
    let origin : Pipeline := ⟨.new config 0, 0⟩
    Coordinator.create config 0 = .ok (.new config 0) ∧
    (∃ delivery, origin.dispatches (flood limit) = [delivery] ∧
      delivery.batch.size % limit = 0) ∧
    ∃ delivery, origin.dispatches (flood (limit + 1)) = [delivery] ∧
      delivery.ages = List.replicate (limit + 1) 1000000 ∧
      (origin.run (flood (limit + 1))).coordinator.monitor.latencies.toList =
        [delivery.latency] ∧
      delivery.latency = (limit + 1) * 1000000 ∧ ¬IsMean delivery.ages delivery.latency := by
  intro limit config message flood origin
  have hvalid : config.fault? = none := by decide +kernel
  have hc : Coordinator.create config 0 = .ok (.new config 0) :=
    Coordinator.create_eq_ok_iff.mpr ⟨hvalid, rfl⟩
  have hflood : ∀ count, 0 < count → count ≤ limit + 1 →
      ∃ delivery, origin.dispatches (flood count) = [delivery] ∧
        delivery.ages = List.replicate count 1000000 := fun count hpos hroom =>
    exists_dispatch_of_copies 0 hvalid rfl rfl (by decide +kernel) hpos hroom
  obtain ⟨least, hleast, hyoung⟩ := hflood limit (by decide) (Nat.le_succ _)
  obtain ⟨delivery, hsent, hages⟩ := hflood (limit + 1) (by decide) (Nat.le_refl _)
  have hlatency : delivery.latency = (limit + 1) * 1000000 := by
    rw [delivery.latency_eq, hages, List.length_replicate, List.sum_replicate_nat]
    decide
  refine ⟨hc, ⟨least, hleast, ?_⟩, delivery, hsent, hages, ?_, hlatency, fun hmean => ?_⟩
  · rw [← least.length_ages, hyoung, List.length_replicate, Nat.mod_self]
  · rw [latencies_of_one_delivery _ hc hsent]
  · have hle := hmean.mul_le
    rw [hlatency, hages, List.length_replicate, List.sum_replicate_nat] at hle
    exact absurd hle (by decide)

end Means

end Pipeline

end PacedFeed
