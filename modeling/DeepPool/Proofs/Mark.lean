import DeepPool.Proofs.Oracle

/-! The mark against the prices that held. The average is over everything the journal
counts, but the time it divides by includes what the journal does not count. -/

namespace DeepPool
open Library

variable {Key : Type} {started now lookback start other : U64} {pool after : Pool Key} {journal : Journal}
  {current : Reserves}

theorem Journal.Anchor.unique (first : journal.Anchor now lookback start) (second : journal.Anchor now lookback other) :
    start = other := by
  apply Fin.ext
  exact le_antisymm (second.latest start first.kept first.old) (first.latest other second.kept second.old)

/-- The reserves that held at some time since the slot. -/
def Journal.held (journal : Journal) (start : U64) (current : Reserves) (reserves : Reserves) : Prop :=
  reserves = current ∨ ∃ interval ∈ journal.timeline, start.val < interval.stop ∧ interval.held = reserves

private theorem Records.window_eq (records : Records started pool journal) (current : Reserves)
    (later : pool.lastCumSlot.val ≤ now.val)
    (kept : start ∈ journal.snapshots)
    (counted : ∀ interval ∈ journal.timeline, start.val < interval.stop → interval.held.counted) :
    journal.window started start now current =
        Timeline.weight Reserves.solPerTok
          (⟨now.val, now.val - pool.lastCumSlot.val, current⟩ :: journal.timeline.since start.val) ∧
      now.val - start.val =
        Timeline.duration (⟨now.val, now.val - pool.lastCumSlot.val, current⟩ :: journal.timeline.since start.val) := by
  have whole : (journal.timeline.since start.val).weight Reserves.countedSolPerTok =
      (journal.timeline.since start.val).weight Reserves.solPerTok := by
    apply Timeline.weight_congr
    intro interval member
    obtain ⟨inside, after⟩ := Timeline.mem_since.mp member
    rw [Reserves.countedSolPerTok, if_pos (counted interval inside after)]
  have fills := records.chained.duration_since (records.written start kept).2
  rw [← records.last] at fills
  constructor
  · rw [Journal.window, whole, ← records.last, Timeline.weight, Nat.add_comm]
  · simp only [Timeline.duration]
    omega

/-- While no interval of the window is left out, the mark is an average of its prices. -/
theorem mark_between_prices (current : Reserves) {calls : List Observed} {m : U128}
    (nonzero : ∀ call ∈ calls, 0 < call.reserves.sol.val ∧ 0 < call.reserves.token.val)
    (run : calls.foldlM Pool.observe (pool.initOracle started) = .ok after) (later : after.lastCumSlot.val ≤ now.val)
    (reads : after.readTwapSolPerTok current.sol current.token now lookback = some m)
    (anchor : (Journal.of started calls).Anchor now lookback start)
    (counted : ∀ interval ∈ (Journal.of started calls).timeline, start.val < interval.stop →
      minSpotReserve.val ≤ interval.held.sol.val)
    (fits : (Journal.of started calls).window started start now current < 2 ^ 128) :
    (∃ reserves, (Journal.of started calls).held start current reserves ∧ reserves.solPerTok ≤ m.val) ∧
      ∃ reserves, (Journal.of started calls).held start current reserves ∧ m.val ≤ reserves.solPerTok := by
  obtain ⟨_, done, records⟩ := (Records.initial pool started).run fun call member => (nonzero call member).2
  cases run.symm.trans done
  obtain ⟨found, anchored, early, exact⟩ := records.read reads
  obtain rfl := anchor.unique anchored
  obtain ⟨weight, duration⟩ := records.window_eq current later (List.mem_of_mem_take anchor.kept)
    fun interval inside after => decide_eq_true (counted interval inside after)
  have mark := exact fits
  have elapsed : 0 < now.val - start.val := by omega
  rw [weight, duration] at mark
  rw [duration] at elapsed
  rw [mark]
  have members : ∀ interval ∈ (⟨now.val, now.val - after.lastCumSlot.val, current⟩ ::
      (Journal.of started calls).timeline.since start.val : Timeline Reserves),
      (Journal.of started calls).held start current interval.held := by
    intro interval member
    rcases List.mem_cons.mp member with rfl | old
    · exact .inl rfl
    · obtain ⟨inside, after⟩ := Timeline.mem_since.mp old
      exact .inr ⟨interval, inside, after, rfl⟩
  obtain ⟨⟨low, lowMember, below⟩, high, highMember, above⟩ :=
    Timeline.average_between Reserves.solPerTok elapsed
  exact ⟨⟨low.held, members low lowMember, below⟩, high.held, members high highMember, above⟩

private theorem sampleCalls_anchor : (Journal.of 1000 sampleCalls).Anchor 2500 500 1600 := by
  have snapshots : (Journal.of 1000 sampleCalls).snapshots.take twapRingSize = [2300, 1600] := by decide +kernel
  refine ⟨by rw [snapshots]; decide, by decide, ?_⟩
  rw [snapshots]
  intro other kept old
  simp only [List.mem_cons, List.not_mem_nil, or_false] at kept
  rcases kept with rfl | rfl
  · exact absurd old (by decide)
  · exact le_refl _

theorem mark_between_prices_sample : ∃ reserves : Reserves,
    (Journal.of 1000 sampleCalls).held 1600 ⟨10000000000, 1000000000⟩ reserves ∧
      reserves.solPerTok ≤ 327942116865947584284 := by
  have found : accepts (sampleCalls.foldlM Pool.observe ((Pool.zeroed ()).initOracle 1000))
      (fun after => after.lastCumSlot.val ≤ 2500 ∧
        after.readTwapSolPerTok 10000000000 1000000000 2500 500 = some 327942116865947584284) = true := by decide +kernel
  obtain ⟨after, run, checked⟩ := accepts_iff.mp found
  obtain ⟨later, reads⟩ := of_decide_eq_true checked
  exact (mark_between_prices ⟨10000000000, 1000000000⟩ (by decide) run later reads sampleCalls_anchor
    (by decide +kernel) (by decide +kernel)).1

def thinCalls : List Observed := [⟨⟨10000000000, 1000000000⟩, 1600⟩, ⟨⟨4000000000, 400000000⟩, 2600⟩]

/-- One price throughout, and a mark of an eleventh of it: the pool was thin for most of the window. -/
theorem thin_interval_lowers_mark : ∃ (after : Pool Unit) (m : U128),
    thinCalls.foldlM Pool.observe ((Pool.zeroed ()).initOracle 1000) = .ok after ∧ after.lastCumSlot.val = 2600 ∧
      after.readTwapSolPerTok 4000000000 400000000 2700 500 = some m ∧
      (Journal.of 1000 thinCalls).Anchor 2700 500 1600 ∧
      (Journal.of 1000 thinCalls).window 1000 1600 2700 ⟨4000000000, 400000000⟩ < 2 ^ 128 ∧
      m.val = 10 * 2 ^ 64 / 11 ∧
      ∀ reserves, (Journal.of 1000 thinCalls).held 1600 ⟨4000000000, 400000000⟩ reserves →
        reserves.solPerTok = 10 * 2 ^ 64 := by
  have found : accepts (thinCalls.foldlM Pool.observe ((Pool.zeroed ()).initOracle 1000))
      (fun after => after.lastCumSlot.val = 2600 ∧
        after.readTwapSolPerTok 4000000000 400000000 2700 500 = some 16769767339735956014) = true := by decide +kernel
  obtain ⟨after, run, checked⟩ := accepts_iff.mp found
  obtain ⟨last, reads⟩ := of_decide_eq_true checked
  have snapshots : (Journal.of 1000 thinCalls).snapshots.take twapRingSize = [1600] := by decide +kernel
  have anchor : (Journal.of 1000 thinCalls).Anchor 2700 500 1600 := by
    refine ⟨by rw [snapshots]; decide, by decide, ?_⟩
    rw [snapshots]
    intro other kept _
    rw [List.mem_singleton.mp kept]
  refine ⟨after, 16769767339735956014, run, last, reads, anchor, by decide +kernel, by decide, ?_⟩
  have prices : ∀ interval ∈ (Journal.of 1000 thinCalls).timeline, interval.held.solPerTok = 10 * 2 ^ 64 :=
    by decide +kernel
  rintro reserves (rfl | ⟨interval, inside, _, rfl⟩)
  · rfl
  · exact prices interval inside

end DeepPool
