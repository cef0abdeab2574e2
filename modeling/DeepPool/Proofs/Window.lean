import DeepPool.Proofs.Oracle

/-! How long a window the oracle averages over. Snapshots are taken by trades, so a window
is as tight as the spacing only where trading at depth went on. -/

namespace DeepPool
open Library

variable {Key : Type} {started : U64} {journal : Journal} {pool : Pool Key}

/-- After every snapshot in the ring that is more than a spacing too old for the window, a
counted trade came once the spacing was over, and before the window opened. -/
def Journal.Followed (journal : Journal) (now lookback : U64) : Prop :=
  ∀ start ∈ journal.snapshots.take twapRingSize, start.val + 500 + lookback.val < now.val →
    ∃ interval ∈ journal.timeline, interval.held.counted = true ∧ start.val + 500 ≤ interval.stop ∧
      interval.stop + lookback.val ≤ now.val

/-- How snapshots follow the counted trades. -/
structure Journal.Paced (started : U64) (journal : Journal) : Prop where
  chained : journal.timeline.Chained started.val
  taken : ∀ slot ∈ journal.snapshots, ∃ interval ∈ journal.timeline, interval.held.counted = true ∧
    interval.stop = slot.val
  apart : journal.snapshots.Pairwise fun newer older => older.val + 500 ≤ newer.val
  covered : ∀ interval ∈ journal.timeline, interval.held.counted = true → 500 ≤ interval.stop →
    ∃ slot ∈ journal.snapshots, slot.val ≤ interval.stop ∧ interval.stop < slot.val + 500

namespace Journal.Paced

theorem empty : Journal.empty.Paced started where
  chained := trivial
  taken := fun _ impossible => by cases impossible
  apart := .nil
  covered := fun _ impossible => by cases impossible

private theorem newest_le (paced : journal.Paced started) {newest : U64} (first : journal.snapshots.head? = some newest) :
    newest.val ≤ journal.timeline.latest started.val ∧ ∀ slot ∈ journal.snapshots, slot.val ≤ newest.val := by
  obtain ⟨interval, inside, _, stop⟩ := paced.taken newest (List.mem_of_mem_head? first)
  refine ⟨stop ▸ paced.chained.stop_le inside, ?_⟩
  cases listed : journal.snapshots with
  | nil =>
    intro slot impossible
    cases impossible
  | cons head rest =>
    have apart := paced.apart
    rw [listed] at first apart
    cases first
    intro slot member
    rcases List.mem_cons.mp member with rfl | old
    · exact le_refl _
    · have distance := List.rel_of_pairwise_cons apart old
      omega

theorem record (paced : journal.Paced started) (observed : Observed) :
    (journal.record started observed).Paced started := by
  by_cases early : observed.now.val ≤ journal.timeline.latest started.val
  · rw [Journal.record, if_pos early]
    exact paced
  have later := not_le.mp early
  have spacing : minObsSpacingSlots.val = 500 := rfl
  have chained : Timeline.Chained started.val (⟨observed.now.val,
      observed.now.val - journal.timeline.latest started.val, observed.reserves⟩ :: journal.timeline) :=
    ⟨by simp only; omega, by simp only; omega, paced.chained⟩
  have older : ∀ slot ∈ journal.snapshots, slot.val ≤ (journal.snapshots.headD 0).val ∧
      (journal.snapshots.headD 0).val ≤ journal.timeline.latest started.val := by
    cases first : journal.snapshots.head? with
    | none =>
      rw [List.head?_eq_none_iff] at first
      simp [first]
    | some newest =>
      obtain ⟨recent, greatest⟩ := paced.newest_le first
      intro slot member
      rw [List.headD_eq_head?_getD, first]
      exact ⟨greatest slot member, recent⟩
  rw [Journal.record_later later, spacing]
  split
  next snaps =>
    refine ⟨chained, ?_, ?_, ?_⟩
    · intro slot member
      rcases List.mem_cons.mp member with rfl | old
      · exact ⟨_, List.mem_cons_self, snaps.1, rfl⟩
      · obtain ⟨interval, inside, facts⟩ := paced.taken slot old
        exact ⟨interval, List.mem_cons_of_mem _ inside, facts⟩
    · refine .cons ?_ paced.apart
      intro slot old
      have below := older slot old
      omega
    · intro interval member deep aged
      rcases List.mem_cons.mp member with rfl | old
      · exact ⟨observed.now, List.mem_cons_self, le_refl _, by simp only; omega⟩
      · obtain ⟨slot, kept, facts⟩ := paced.covered interval old deep aged
        exact ⟨slot, List.mem_cons_of_mem _ kept, facts⟩
  next skips =>
    refine ⟨chained, ?_, paced.apart, ?_⟩
    · intro slot member
      obtain ⟨interval, inside, facts⟩ := paced.taken slot member
      exact ⟨interval, List.mem_cons_of_mem _ inside, facts⟩
    · intro interval member deep aged
      rcases List.mem_cons.mp member with rfl | old
      · simp only at deep aged ⊢
        have close : observed.now.val - (journal.snapshots.headD 0).val < 500 := by
          by_contra far
          exact skips ⟨deep, not_lt.mp far⟩
        cases listed : journal.snapshots with
        | nil =>
          rw [listed] at close
          simp only [List.headD_nil, Fin.val_zero] at close
          omega
        | cons newest rest =>
          have below := older newest (by rw [listed]; exact List.mem_cons_self)
          rw [listed, List.headD_cons] at close below
          exact ⟨newest, List.mem_cons_self, by omega, by omega⟩
      · exact paced.covered interval old deep aged

theorem of (started : U64) (calls : List Observed) : (Journal.of started calls).Paced started := by
  unfold Journal.of
  generalize Journal.empty = journal, (empty : Journal.empty.Paced started) = paced
  induction calls generalizing journal with
  | nil => exact paced
  | cons observed calls ih => exact ih _ (paced.record observed)

private theorem distance (paced : journal.Paced started) {older newer : U64} (old : older ∈ journal.snapshots)
    (recent : newer ∈ journal.snapshots) (later : older.val < newer.val) : older.val + 500 ≤ newer.val := by
  apply List.Pairwise.forall_of_forall_of_flip (R := fun a b : U64 => a.val < b.val → a.val + 500 ≤ b.val) _ _ _
    old recent later
  · intro slot _ before
    omega
  · apply paced.apart.imp
    intro newer older apart before
    omega
  · apply paced.apart.imp
    intro newer older apart _
    exact apart

/-- What is newer than an entry of the ring is in the ring. -/
private theorem ring_upward (paced : journal.Paced started) {size : ℕ} {start slot : U64}
    (kept : start ∈ journal.snapshots.take size) (member : slot ∈ journal.snapshots) (newer : start.val < slot.val) :
    slot ∈ journal.snapshots.take size := by
  have apart := paced.apart
  rw [← List.take_append_drop size journal.snapshots] at member apart
  rcases List.mem_append.mp member with listed | dropped
  · exact listed
  · have older := (List.pairwise_append.mp apart).2.2 start kept slot dropped
    omega

/-- A window is at most a spacing longer than asked for exactly when trading went on. -/
theorem anchored (paced : journal.Paced started) {now lookback start : U64}
    (anchor : journal.Anchor now lookback start) :
    now.val ≤ start.val + lookback.val + 500 ↔ journal.Followed now lookback := by
  constructor
  · intro tight other kept old
    obtain ⟨interval, inside, deep, stop⟩ := paced.taken start (List.mem_of_mem_take anchor.kept)
    have newest := anchor.latest other kept (by omega)
    have apart := paced.distance (List.mem_of_mem_take kept) (List.mem_of_mem_take anchor.kept) (by omega)
    have opened := anchor.old
    exact ⟨interval, inside, deep, by omega, by omega⟩
  · intro followed
    by_contra long
    obtain ⟨interval, inside, deep, due, opened⟩ := followed start anchor.kept (by omega)
    obtain ⟨slot, member, before, close⟩ := paced.covered interval inside deep (by omega)
    have kept := paced.ring_upward anchor.kept member (by omega)
    have latest := anchor.latest slot kept (by omega)
    omega

end Journal.Paced

/-- Whatever the trades were, a window is never shorter than asked for; when it is at most a
spacing longer. -/
theorem window_bounded (pool : Pool Key) (started : U64) (calls : List Observed)
    (nonzero : ∀ call ∈ calls, 0 < call.reserves.sol.val ∧ 0 < call.reserves.token.val) :
    ∃ after, calls.foldlM Pool.observe (pool.initOracle started) = .ok after ∧
      ∀ (current : Reserves) (now lookback : U64) (m : U128), after.lastCumSlot.val ≤ now.val →
        after.readTwapSolPerTok current.sol current.token now lookback = some m →
        ∃ start, after.observations.toList.foldl (Pool.windowStart (now.saturatingSub lookback)) none = some start ∧
          lookback.val ≤ (now.saturatingSub start.slot).val ∧
          ((now.saturatingSub start.slot).val ≤ lookback.val + minObsSpacingSlots.val ↔
            (Journal.of started calls).Followed now lookback) := by
  obtain ⟨after, done, records⟩ := (Records.initial pool started).run fun call member => (nonzero call member).2
  refine ⟨after, done, ?_⟩
  intro current now lookback m _ reads
  obtain ⟨start, found⟩ : ∃ start, after.observations.toList.foldl (Pool.windowStart (now.saturatingSub lookback)) none =
      some start := by
    simp only [Pool.readTwapSolPerTok, Option.bind_eq_bind, Option.bind_eq_some_iff] at reads
    obtain ⟨_, _, start, found, _⟩ := reads
    exact ⟨start, found⟩
  have anchor : (Journal.of started calls).Anchor now lookback start.slot := (records.scan found).1
  have opened := anchor.old
  have spacing : minObsSpacingSlots.val = 500 := rfl
  refine ⟨start, found, ?_, ?_⟩
  · rw [Word.saturatingSub_val]
    omega
  · rw [← (Journal.Paced.of started calls).anchored anchor, Word.saturatingSub_val, spacing]
    omega

/-- A trade every 499 slots. -/
def briskCalls : List Observed :=
  [⟨⟨10000000000, 1000000000⟩, 1000⟩, ⟨⟨10000000000, 1000000000⟩, 1499⟩, ⟨⟨10000000000, 1000000000⟩, 1998⟩]

theorem window_bounded_sample : ∃ (after : Pool Unit) (start : Observation),
    briskCalls.foldlM Pool.observe ((Pool.zeroed ()).initOracle 900) = .ok after ∧
      after.observations.toList.foldl (Pool.windowStart 2000) none = some start ∧
      600 ≤ 2600 - start.slot.val ∧ 2600 - start.slot.val ≤ 1100 := by
  obtain ⟨after, done, reads⟩ := window_bounded (Pool.zeroed ()) 900 briskCalls (by decide)
  have found : accepts (briskCalls.foldlM Pool.observe ((Pool.zeroed ()).initOracle 900)) (fun after =>
      after.lastCumSlot.val = 1998 ∧ (after.readTwapSolPerTok 10000000000 1000000000 2600 600).isSome) = true := by
    decide +kernel
  obtain ⟨_, same, facts⟩ := accepts_iff.mp found
  cases done.symm.trans same
  obtain ⟨last, some_⟩ := of_decide_eq_true facts
  obtain ⟨m, read⟩ := Option.isSome_iff_exists.mp some_
  obtain ⟨start, chosen, low, high⟩ := reads ⟨10000000000, 1000000000⟩ 2600 600 m (by rw [last]; decide) read
  have trades : (Journal.of 900 briskCalls).timeline.any (fun interval =>
      interval.held.counted && decide (1500 ≤ interval.stop ∧ interval.stop + 600 ≤ 2600)) = true := by decide +kernel
  have snapshots : (Journal.of 900 briskCalls).snapshots.take twapRingSize = [1998, 1000] := by decide +kernel
  have followed : (Journal.of 900 briskCalls).Followed 2600 600 := by
    obtain ⟨interval, inside, facts⟩ := List.any_eq_true.mp trades
    obtain ⟨deep, timely⟩ := Bool.and_eq_true_iff.mp facts
    obtain ⟨due, opened⟩ := of_decide_eq_true timely
    intro slot kept old
    rw [snapshots] at kept
    simp only [List.mem_cons, List.not_mem_nil, or_false] at kept
    rcases kept with rfl | rfl
    · exact absurd old (by decide)
    · exact ⟨interval, inside, deep, due, opened⟩
  exact ⟨after, start, done, chosen, low, high.mpr followed⟩

/-- A read of the last 500 slots averages over 1300 of them. -/
theorem window_unbounded : ∃ (after : Pool Unit) (start : Observation),
    briskCalls.foldlM Pool.observe ((Pool.zeroed ()).initOracle 900) = .ok after ∧ after.lastCumSlot.val ≤ 2300 ∧
      (after.readTwapSolPerTok 10000000000 1000000000 2300 500).isSome ∧
      after.observations.toList.foldl (Pool.windowStart 1800) none = some start ∧
      2300 - start.slot.val = 1300 ∧ ¬ 2300 - start.slot.val ≤ 500 + minObsSpacingSlots.val := by
  have found : accepts (briskCalls.foldlM Pool.observe ((Pool.zeroed ()).initOracle 900)) (fun after =>
      after.lastCumSlot.val ≤ 2300 ∧ (after.readTwapSolPerTok 10000000000 1000000000 2300 500).isSome ∧
      ((after.observations.toList.foldl (Pool.windowStart 1800) none).map fun start => start.slot) = some 1000) =
      true := by decide +kernel
  obtain ⟨after, done, facts⟩ := accepts_iff.mp found
  obtain ⟨last, reads, chosen⟩ := of_decide_eq_true facts
  obtain ⟨start, scanned, slot⟩ := Option.map_eq_some_iff.mp chosen
  refine ⟨after, start, done, last, reads, scanned, ?_, ?_⟩
  · rw [slot]
    rfl
  · rw [slot]
    decide

end DeepPool
