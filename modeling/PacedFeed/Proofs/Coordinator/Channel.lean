import Mathlib.Algebra.GroupWithZero.Nat
import PacedFeed.Coordinator.Run
import PacedFeed.Proofs.Coordinator.Steps
import PacedFeed.Proofs.Window.History

-- What the operations of a coordinator do to what messages pass through.

namespace PacedFeed

-- The parts of a coordinator on the way of messages, with what is counted there.
structure Channel where
  config : PipelineConfig
  ring : Ring Message
  rejected : Nat
  batcher : Batcher
  window : Window
  rendered : Nat

namespace Coordinator

theorem create_eq_ok_iff {config : PipelineConfig} {now : Instant} {coordinator : Coordinator} :
    create config now = .ok coordinator ↔ config.fault? = none ∧ coordinator = new config now := by
  unfold create
  cases config.fault? with
  | none => simp [eq_comm]
  | some fault => simp

-- What a valid configuration says about its parts.
theorem parts_of_valid {config : PipelineConfig} (h : config.fault? = none) :
    0 < config.ringCapacity ∧ config.batcher.fault? = none ∧ config.window.fault? = none ∧
      config.budget.fault? = none ∧ config.tuning.fault? = none := by
  unfold PipelineConfig.fault? at h
  split at h
  · cases h
  · rename_i hcapacity
    split at h
    · cases h
    · split at h
      · cases h
      · simp only [Option.or_eq_none_iff] at h
        exact ⟨Nat.pos_of_ne_zero hcapacity, h⟩

def channel (coordinator : Coordinator) : Channel where
  config := coordinator.config
  ring := coordinator.ring
  rejected := coordinator.rejected
  batcher := coordinator.batcher
  window := coordinator.window
  rendered := coordinator.rendered

-- The advice that an evaluation of the snapshot is to apply, if there is any.
def applied? (coordinator : Coordinator) (snapshot : Snapshot) (now : Instant) :
    Option Recommendation :=
  if coordinator.config.tuning.mode = .apply then coordinator.advice? snapshot now else none

-- The batcher after it got the oldest messages, up to a number, from the ring.
def fed (coordinator : Coordinator) (count : Nat) : Batcher :=
  (coordinator.ring.dequeueMany count).1.foldl Batcher.receive coordinator.batcher

-- The advice that a frame is to apply, if there is any.
def adjustment? (coordinator : Coordinator) (now : Instant) : Option Recommendation :=
  let delivered := coordinator.afterDelivery now
  (delivered.observeOverload (delivered.snapshot now)).applied? (delivered.snapshot now) now

section Channel

variable (coordinator : Coordinator) (now : Instant)

theorem config_channel : coordinator.channel.config = coordinator.config := rfl

theorem batcher_channel : coordinator.channel.batcher = coordinator.batcher := rfl

theorem ring_channel : coordinator.channel.ring = coordinator.ring := rfl

theorem rendered_channel : coordinator.channel.rendered = coordinator.rendered := rfl

theorem channel_setRecorder (recorder : Recorder) :
    Coordinator.channel { coordinator with recorder := recorder } = coordinator.channel := rfl

theorem channel_record (event : Event) :
    (coordinator.record event).channel = coordinator.channel :=
  coordinator.channel_setRecorder _

theorem channel_beginFrame : (coordinator.beginFrame now).channel = coordinator.channel := rfl

theorem channel_ingest (message : Message) :
    (coordinator.ingest message).2.channel =
      match message.fault? coordinator.config.maxMessageBytes with
      | some _ => { coordinator.channel with rejected := coordinator.rejected + 1 }
      | none => { coordinator.channel with ring := (coordinator.ring.enqueue message).2 } := by
  unfold ingest
  cases message.fault? coordinator.config.maxMessageBytes <;> rfl

-- What no batch changes, no number of them changes.
theorem deliver_keeps {α : Type} (f : Coordinator → α)
    (h : ∀ (coordinator : Coordinator) (batch : Batch),
      f (coordinator.deliverBatch now batch) = f coordinator)
    (batches : List Batch) : f (coordinator.deliver batches now).2 = f coordinator := by
  rw [deliver_eq]
  dsimp only
  induction batches generalizing coordinator with
  | nil => rfl
  | cons batch batches ih => rw [List.foldl_cons, ih, h]

theorem channel_deliver (batches : List Batch) :
    (coordinator.deliver batches now).2.channel =
      { coordinator.channel with
        window := coordinator.window.appendBatches batches
        rendered := coordinator.rendered + (batches.map Batch.size).sum } := by
  rw [deliver_eq]
  dsimp only
  induction batches generalizing coordinator with
  | nil => rfl
  | cons batch batches ih =>
      rw [List.foldl_cons, ih, List.map_cons, List.sum_cons, ← Nat.add_assoc]
      rfl

theorem collectDue_fst :
    (coordinator.collectDue now).1.2 = ((coordinator.fed coordinator.budget).poll now).1 := rfl

theorem channel_collectDue :
    (coordinator.collectDue now).2.channel =
      { coordinator.channel with
        ring := (coordinator.ring.dequeueMany coordinator.budget).2
        batcher := ((coordinator.fed coordinator.budget).poll now).2 } := rfl

theorem collectAll_fst :
    (coordinator.collectAll now).1 =
      ((coordinator.fed coordinator.ring.capacity).flush now).1 := rfl

theorem channel_collectAll :
    (coordinator.collectAll now).2.channel =
      { coordinator.channel with
        ring := (coordinator.ring.dequeueMany coordinator.ring.capacity).2
        batcher := ((coordinator.fed coordinator.ring.capacity).flush now).2 } := rfl

theorem channel_flushFor (reason : FlushReason) :
    (coordinator.flushFor reason now).2.channel =
      { coordinator.channel with
        ring := (coordinator.ring.dequeueMany coordinator.ring.capacity).2
        batcher := ((coordinator.fed coordinator.ring.capacity).flush now).2
        window := coordinator.window.appendBatches (coordinator.collectAll now).1.toList
        rendered := coordinator.rendered +
          ((coordinator.collectAll now).1.toList.map Batch.size).sum } := by
  have hcollected := coordinator.channel_collectAll now
  have hwindow := congrArg Channel.window hcollected
  have hrendered := congrArg Channel.rendered hcollected
  simp only [channel] at hwindow hrendered
  rw [flushFor_eq, channel_record, channel_deliver, hwindow, hrendered, hcollected]

theorem channel_observeOverload (snapshot : Snapshot) :
    (coordinator.observeOverload snapshot).channel = coordinator.channel := by
  obtain hcounted | ⟨since?, event, hrecorded⟩ := coordinator.observeOverload_cases snapshot
  · rw [hcounted]
    rfl
  · rw [hrecorded, channel_record]
    rfl

theorem channel_tune (snapshot : Snapshot) :
    (coordinator.tune snapshot now).2.channel =
      { coordinator.channel with
        batcher := (coordinator.applied? snapshot now).elim coordinator.batcher
          fun recommendation =>
            coordinator.config.tuning.follow recommendation coordinator.batcher } := by
  obtain ⟨ha, ht⟩ | ⟨recommendation, ha, hadvised⟩ := coordinator.tune_cases now snapshot
  · rw [ht, applied?, ha, ite_self]
    rfl
  · by_cases hm : coordinator.config.tuning.mode = .apply
    · rw [applied?, if_pos hm, ha, Option.elim_some]
      obtain ⟨batcher, hh, ht⟩ | ⟨overflow, hh, ht⟩ := hadvised
      · rw [heed_eq, if_pos hm] at hh
        rw [ht, channel_record, TuningConfig.follow_of_ok hh]
        rfl
      · rw [heed_eq, if_pos hm] at hh
        rw [ht, TuningConfig.follow_of_error hh]
        rfl
    · rw [applied?, if_neg hm, Option.elim_none]
      obtain ⟨batcher, hh, ht⟩ | ⟨overflow, hh, -⟩ := hadvised
      · rw [heed_eq, if_neg hm] at hh
        obtain rfl := Except.ok.inj hh
        rw [ht, channel_record]
        rfl
      · rw [heed_eq, if_neg hm] at hh
        cases hh

-- All that can fail is to apply advice.
theorem tune_error_iff {snapshot : Snapshot} {overflow : Overflow} :
    (coordinator.tune snapshot now).1 = .error overflow ↔
      ∃ recommendation, coordinator.applied? snapshot now = some recommendation ∧
        coordinator.config.tuning.apply recommendation coordinator.batcher = .error overflow := by
  rw [applied?]
  obtain ⟨ha, ht⟩ | ⟨recommendation, ha, hadvised⟩ := coordinator.tune_cases now snapshot
  · rw [ht, ha, ite_self]
    simp
  · rw [heed_eq] at hadvised
    by_cases hm : coordinator.config.tuning.mode = .apply
    · rw [if_pos hm] at hadvised
      rw [if_pos hm, ha]
      obtain ⟨batcher, hh, ht⟩ | ⟨failure, hh, ht⟩ := hadvised
      · simp [ht, hh]
      · simp [ht, hh]
    · rw [if_neg hm] at hadvised
      rw [if_neg hm]
      obtain ⟨batcher, -, ht⟩ | ⟨failure, hh, -⟩ := hadvised
      · simp [ht]
      · cases hh

theorem channel_afterDelivery :
    (coordinator.afterDelivery now).channel =
      { coordinator.channel with
        ring := (coordinator.ring.dequeueMany (coordinator.beginFrame now).budget).2
        batcher := ((coordinator.fed (coordinator.beginFrame now).budget).poll now).2
        window :=
          coordinator.window.appendBatches ((coordinator.beginFrame now).collectDue now).1.2
        rendered := coordinator.rendered +
          (((coordinator.beginFrame now).collectDue now).1.2.map Batch.size).sum } := by
  have hcollected := (coordinator.beginFrame now).channel_collectDue now
  have hwindow := congrArg Channel.window hcollected
  have hrendered := congrArg Channel.rendered hcollected
  simp only [channel] at hwindow hrendered
  rw [afterDelivery, channel_deliver, hwindow, hrendered, hcollected, channel_beginFrame]
  rfl

-- What tuning goes by, besides the snapshot, is what the frame left.
theorem observed_keeps :
    let delivered := coordinator.afterDelivery now
    let observed := delivered.observeOverload (delivered.snapshot now)
    observed.channel = delivered.channel ∧ observed.config = coordinator.config ∧
      observed.batcher = delivered.batcher := by
  intro delivered observed
  have hobserved : observed.channel = delivered.channel := delivered.channel_observeOverload _
  have hconfig : observed.config = delivered.config := congrArg Channel.config hobserved
  have hdelivered : delivered.config = coordinator.config :=
    congrArg Channel.config (coordinator.channel_afterDelivery now)
  exact ⟨hobserved, hconfig.trans hdelivered, congrArg Channel.batcher hobserved⟩

theorem channel_runFrame (h : coordinator.lifecycle = .running) :
    (coordinator.runFrame now).2.channel =
      { (coordinator.afterDelivery now).channel with
        batcher := (coordinator.adjustment? now).elim (coordinator.afterDelivery now).batcher
          fun recommendation =>
            coordinator.config.tuning.follow recommendation
              (coordinator.afterDelivery now).batcher } := by
  obtain ⟨hobserved, hconfig, hbatcher⟩ := coordinator.observed_keeps now
  rw [coordinator.runFrame_snd now h, channel_tune, hobserved, hbatcher, hconfig]
  rfl

-- A frame fails if what it is to apply is too much for a word, and for no other reason.
theorem runFrame_error_iff {overflow : Overflow} :
    (coordinator.runFrame now).1 = .error overflow ↔
      coordinator.lifecycle = .running ∧ ∃ recommendation,
        coordinator.adjustment? now = some recommendation ∧
        coordinator.config.tuning.apply recommendation (coordinator.afterDelivery now).batcher =
          .error overflow := by
  by_cases hr : coordinator.lifecycle = .running
  · let delivered := coordinator.afterDelivery now
    let observed := delivered.observeOverload (delivered.snapshot now)
    have hfails : (coordinator.runFrame now).1 = .error overflow ↔
        (observed.tune (delivered.snapshot now) now).1 = .error overflow := by
      rw [coordinator.runFrame_of_running now hr]
      cases (observed.tune (delivered.snapshot now) now).1 with
      | ok => simp [Except.map]
      | error failure => simp [Except.map]
    obtain ⟨-, hconfig, hbatcher⟩ := coordinator.observed_keeps now
    rw [hfails, tune_error_iff, hconfig, hbatcher]
    exact (and_iff_right hr).symm
  · simp [coordinator.runFrame_of_not_running now hr, hr]

theorem channel_runFrame_of_not_running (h : coordinator.lifecycle ≠ .running) :
    (coordinator.runFrame now).2 = coordinator := by
  rw [coordinator.runFrame_of_not_running now h]

-- Tuning leaves the batcher alone unless it is told to apply what it finds.
theorem adjustment?_eq_none (h : coordinator.config.tuning.mode ≠ .apply) :
    coordinator.adjustment? now = none := by
  have hconfig : ((coordinator.afterDelivery now).observeOverload
      ((coordinator.afterDelivery now).snapshot now)).config = coordinator.config := by
    rw [← config_channel, channel_observeOverload, channel_afterDelivery, config_channel]
  exact if_neg (by rwa [hconfig])

theorem mode_of_adjustment? {recommendation : Recommendation}
    (h : coordinator.adjustment? now = some recommendation) :
    coordinator.config.tuning.mode = .apply := by
  by_contra hm
  exact Option.some_ne_none _ (h.symm.trans (coordinator.adjustment?_eq_none now hm))

theorem channel_request? {request : LifecycleRequest} {next : Coordinator}
    (h : coordinator.request? request = some next) : next.channel = coordinator.channel := by
  obtain ⟨lifecycle, -, rfl⟩ := Option.map_eq_some_iff.mp h
  exact channel_record _ _

theorem request?_stop_eq_none_iff :
    coordinator.request? .stop = none ↔ coordinator.lifecycle ≠ .running := by
  rw [request?, Option.map_eq_none_iff, Lifecycle.transition_stop_eq_none_iff]

theorem channel_pause :
    Coordinator.channel { coordinator with monitor := coordinator.monitor.pause } =
      coordinator.channel := rfl

theorem channel_start : coordinator.start.2.channel = coordinator.channel := by
  unfold start
  cases h : coordinator.request? .start with
  | none => rfl
  | some started => exact started.channel_pause.trans (coordinator.channel_request? h)

-- What a flush delivers depends on nothing else.
theorem channel_flushFor_congr {other : Coordinator} (h : other.channel = coordinator.channel)
    (reason : FlushReason) :
    (other.flushFor reason now).2.channel = (coordinator.flushFor reason now).2.channel := by
  have hring : other.ring = coordinator.ring := congrArg Channel.ring h
  have hbatcher : other.batcher = coordinator.batcher := congrArg Channel.batcher h
  have hwindow : other.window = coordinator.window := congrArg Channel.window h
  have hrendered : other.rendered = coordinator.rendered := congrArg Channel.rendered h
  simp only [channel_flushFor, collectAll_fst, fed, hring, hbatcher, hwindow, hrendered, h]

theorem channel_stop :
    (coordinator.stop now).2.channel =
      if coordinator.lifecycle = .running ∧ coordinator.config.flushOnStop = true then
        (coordinator.flushFor .stop now).2.channel
      else coordinator.channel := by
  rw [stop, stopM]
  cases h : coordinator.request? .stop with
  | none =>
      have hr := coordinator.request?_stop_eq_none_iff.mp h
      rw [if_neg fun hc => hr hc.1]
      rfl
  | some stopped =>
      have hr : coordinator.lifecycle = .running := by
        by_cases hr : coordinator.lifecycle = .running
        · exact hr
        · rw [coordinator.request?_stop_eq_none_iff.mpr hr] at h
          cases h
      have hs := stopped.channel_pause.trans (coordinator.channel_request? h)
      by_cases hf : coordinator.config.flushOnStop = true
      · rw [if_pos ⟨hr, hf⟩]
        simp only [hf, if_true]
        exact coordinator.channel_flushFor_congr now hs .stop
      · rw [if_neg fun hc => hf hc.2]
        simp only [hf]
        exact hs

end Channel

end Coordinator

end PacedFeed
