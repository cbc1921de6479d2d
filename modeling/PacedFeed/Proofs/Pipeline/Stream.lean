import PacedFeed.Proofs.Broadcast.Readers
import PacedFeed.Proofs.Pipeline.Accounts
import PacedFeed.Proofs.Pipeline.Feed

-- Those who read the stream of batches and those who look at the window see the same messages.

namespace PacedFeed

-- A batcher sends what it emits.
theorem Batching.stream_preserved : Preserved fun state past =>
    state.batcher.stream = (batches past).foldl Broadcast.send .empty where
  receive state past message h := by
    have hnone : batches [.arrival message (state.batcher.discards message)] = [] := rfl
    rw [Batcher.stream_receive, batches_append, hnone, List.append_nil]
    exact h
  emit state past count trigger _ _ h := by
    rw [Batcher.stream_emitOldest, batches_append, List.foldl_append, ← h]
    rfl
  configure _ _ _ _ h := h
  advance _ _ _ h := h

namespace Pipeline

section Run

variable {config : PipelineConfig} {start : Instant} {coordinator : Coordinator}

-- What is sent is what is delivered.
theorem stream_run (hc : Coordinator.create config start = .ok coordinator) (steps : List Step) :
    (run ⟨coordinator, start⟩ steps).coordinator.batcher.stream =
      (deliveries (history ⟨coordinator, start⟩ steps)).foldl Broadcast.send .empty := by
  obtain ⟨hb, hbatching⟩ := batcher_run hc steps
  obtain ⟨-, hnew⟩ := Batcher.create_eq_ok_iff.mp hb
  have hempty : coordinator.batcher.stream = .empty := by
    rw [hnew]
    rfl
  have hstream :=
    @Batching.Preserved.run _ Batching.stream_preserved ⟨coordinator.batcher, start⟩ hempty
      (feeds ⟨coordinator, start⟩ steps)
  have hbatches := batches_feeds ⟨coordinator, start⟩ steps
  have hsame := congrArg (fun state : Batching => state.batcher.stream) hbatching
  rw [← hbatches]
  exact hsame.trans hstream

theorem seqs_run (hc : Coordinator.create config start = .ok coordinator) (steps : List Step) :
    (deliveries (history ⟨coordinator, start⟩ steps)).map Batch.seq =
      List.range' 1 (deliveries (history ⟨coordinator, start⟩ steps)).length := by
  obtain ⟨hb, -⟩ := batcher_run hc steps
  have hbatches := batches_feeds ⟨coordinator, start⟩ steps
  have hseqs := (Batching.partitioned_run hb (feeds ⟨coordinator, start⟩ steps)).seqs
  rw [← hbatches]
  exact hseqs

-- Whenever readers come and read, even between two batches of one frame: each of them can account
-- for every batch since it came, in order, as received, as counted by a marker or as still unread.
-- A marker counts those that 1024 newer ones have followed. Who came first and missed nothing has
-- received what the window was given, and what others read makes no difference to it.
theorem stream_agrees_with_window (hc : Coordinator.create config start = .ok coordinator)
    (steps : List Step) (schedule : List (Audience.Step Batch))
    (hs : Audience.sends schedule = deliveries (history ⟨coordinator, start⟩ steps)) :
    let state := (run ⟨coordinator, start⟩ steps).coordinator
    let sent := deliveries (history ⟨coordinator, start⟩ steps)
    let appended := delivered (history ⟨coordinator, start⟩ steps)
    let audience := Audience.run .empty schedule
    audience.stream = state.batcher.stream ∧
    state.window.appended = appended.length ∧
    state.window.log.toList = appended.drop (appended.length - config.window.maxRetained) ∧
    (∀ reader ∈ audience.readers,
      let unread := sent.drop reader.cursor.position
      ∃ past, sent.drop reader.joined = past ++ unread ∧ Accounts reader.seen past ∧
        ((received reader.seen).map Batch.seq).Pairwise (· < ·) ∧
        (reader.joined = 0 → (∀ reading ∈ reader.seen, reading.isLagged = false) →
          (received reader.seen ++ unread).flatMap Batch.messages = appended ∧
          (unread = [] → (received reader.seen).flatMap Batch.messages = appended)) ∧
        let (rest, cursor) := audience.stream.drain reader.cursor
        cursor.position = sent.length ∧
          Accounts (reader.seen ++ rest) (sent.drop reader.joined)) ∧
    (∀ before index after, schedule = before ++ .read index :: after →
      ∀ reader, (Audience.run .empty before).readers[index]? = some reader →
        let reading := Reading.next ((Audience.sends before).drop reader.cursor.position)
        let place := reader.cursor.position + reading.passed
        (Audience.run .empty (before ++ [.read index])).readers[index]? =
          some ⟨reader.joined, ⟨place⟩, reader.seen ++ [reading]⟩ ∧
        ∀ missed, reading = .lagged missed → 0 < missed ∧
          place = reader.cursor.position + missed ∧
          place + 1024 = (Audience.sends before).length) ∧
    (∀ before after, schedule = before ++ .subscribe :: after →
      ∃ reader, audience.readers[(Audience.run .empty before).readers.length]? = some reader ∧
        reader.joined = (Audience.sends before).length) ∧
    ∀ index,
      (Audience.run .empty (schedule.filter (Audience.Step.concerns index))).readers[index]? =
        audience.readers[index]? := by
  intro state sent appended audience
  have hretains := (accounted_run hc steps).retains
  obtain ⟨hcarries, hfollows⟩ := Audience.follows_run schedule
  rw [hs] at hcarries hfollows
  have hstream : audience.stream = state.batcher.stream := by
    rw [Audience.stream_run, hs]
    exact (stream_run hc steps).symm
  have hseqs : (sent.map Batch.seq).Pairwise (· < ·) := by
    rw [seqs_run hc steps]
    exact List.pairwise_lt_range'
  refine ⟨hstream, hretains.appended, hretains.log, fun reader hm => ?_, ?_, ?_,
    fun index => (Audience.run_filter_concerns index schedule).2.2⟩
  · have hreader := hfollows reader hm
    have hsplit := hreader.split
    have hdrain := hcarries.drain hreader.position_le hreader.accounts
    rw [← hsplit] at hdrain
    refine ⟨_, hsplit, hreader.accounts, ?_, fun hj hl => ?_, hdrain⟩
    · have hsublist := hreader.accounts.received_sublist.trans
        ((List.drop_sublist _ _).trans (List.take_sublist _ _))
      exact hseqs.sublist (hsublist.map Batch.seq)
    · have hall : received reader.seen ++ sent.drop reader.cursor.position = sent := by
        rw [hreader.accounts.received_eq hl, ← hsplit, hj, List.drop_zero]
      refine ⟨congrArg (List.flatMap Batch.messages) hall, fun hu => ?_⟩
      rw [hu, List.append_nil] at hall
      exact congrArg (List.flatMap Batch.messages) hall
  · intro before index after _ reader hr
    refine ⟨Audience.readers_run_read before index hr, fun missed hmissed => ?_⟩
    obtain ⟨hpos, hlength⟩ := Reading.next_eq_lagged_iff.mp hmissed
    rw [List.length_drop] at hlength
    rw [hmissed, Reading.passed]
    unfold Broadcast.depth at hlength
    omega
  · rintro before after rfl
    exact Audience.joined_run before after

end Run

theorem stream_agrees_with_window_interleaved :
    let config : PipelineConfig := { batcher := { maxBatchSize := 1 } }
    let message : String → Message := fun id => ⟨id, .assistant, .chunk, "x", 0, []⟩
    let steps : List Step :=
      [.ingestAll 0 [message "a", message "b"], .start, .tick, .ingest 1 (message "c"),
        .advance 16000000, .tick, .ingest 0 (message "d"), .flush]
    let sent := deliveries (history ⟨.new config 0, 0⟩ steps)
    let schedule : List (Audience.Step Batch) :=
      .subscribe :: sent.flatMap (fun batch => [.send batch, .read 0]) ++ [.subscribe, .read 1]
    let audience := Audience.run .empty schedule
    Coordinator.create config 0 = .ok (.new config 0) ∧ Audience.sends schedule = sent ∧
    audience.stream = (run ⟨.new config 0, 0⟩ steps).coordinator.batcher.stream ∧
    ∀ reader ∈ audience.readers,
      ∃ past, sent.drop reader.joined = past ++ sent.drop reader.cursor.position ∧
        Accounts reader.seen past := by
  intro config message steps sent schedule audience
  have hc : Coordinator.create config 0 = .ok (.new config 0) :=
    Coordinator.create_eq_ok_iff.mpr ⟨rfl, rfl⟩
  have hturns : ∀ batches : List Batch,
      Audience.sends (batches.flatMap fun batch => [.send batch, .read 0]) = batches := by
    intro batches
    induction batches with
    | nil => rfl
    | cons batch batches ih => exact congrArg (batch :: ·) ih
  have hs : Audience.sends schedule = sent := by
    have hall : Audience.sends schedule = sent ++ [] := by
      rw [Audience.sends_append, Audience.sends_cons, hturns]
      rfl
    rw [hall, List.append_nil]
  obtain ⟨hstream, -, -, hreaders, -⟩ := stream_agrees_with_window hc steps schedule hs
  refine ⟨hc, hs, hstream, fun reader hm => ?_⟩
  obtain ⟨past, hpast, haccounts, -⟩ := hreaders reader hm
  exact ⟨past, hpast, haccounts⟩

end Pipeline

end PacedFeed
