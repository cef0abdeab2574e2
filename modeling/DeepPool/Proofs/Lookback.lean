import DeepPool.Proofs.Oracle

/-! How far back the ring reaches. Snapshots keep their distance whatever the calls
are, so a full ring spans fifteen spacings. -/

namespace DeepPool
open Library

variable {Key : Type} {pool next : Pool Key} {observed : Observed} {taped : Taped Key}

theorem minObsSpacingSlots_val : minObsSpacingSlots.val = 500 := rfl

/-- A call that writes a snapshot: its slot is the new clock, far enough from the last one. -/
structure Snapped (pool next : Pool Key) (entry : Observation) : Prop where
  inside : pool.obsHead.val < twapRingSize
  stored : next.observations = pool.observations.set pool.obsHead.val entry inside
  moved : next.obsHead.val = (pool.obsHead.val + 1) % twapRingSize
  clock : next.lastCumSlot = entry.slot
  later : pool.lastCumSlot.val < entry.slot.val
  apart : ∀ newest, pool.newestObs = some newest → newest.slot.val + 500 ≤ entry.slot.val

theorem Snapped.ring {entry : Observation} {log : List Observation} (snapped : Snapped pool next entry)
    (ring : Recent pool.observations pool.obsHead.val default log) :
    Recent next.observations next.obsHead.val default (entry :: log) := by
  rw [snapped.stored, snapped.moved]
  exact ring.write entry

private theorem Pool.writeObservation_snapped {sol token : U128} {now : U64} {newest : Observation}
    (later : pool.lastCumSlot.val < now.val) (found : pool.newestObs = some newest)
    (apart : minObsSpacingSlots.val ≤ (now.saturatingSub newest.slot).val)
    (wrote : Pool.writeObservation { pool with cumSolPerTok := sol, cumTokPerSol := token, lastCumSlot := now } now =
      some next) : Snapped pool next ⟨now, sol, token⟩ := by
  unfold Pool.writeObservation at wrote
  split at wrote
  next inside =>
    cases wrote
    refine ⟨inside, rfl, rfl, rfl, later, ?_⟩
    intro other same
    obtain rfl := Option.some.inj (found.symm.trans same)
    rw [minObsSpacingSlots_val, Word.saturatingSub_val] at apart
    simp only
    omega
  · cases wrote

/-- Any other call leaves the ring alone, and the clock never goes back. -/
theorem Pool.observe_cases (done : pool.observe observed = .ok next) :
    (next.observations = pool.observations ∧ next.obsHead = pool.obsHead ∧
      pool.lastCumSlot.val ≤ next.lastCumSlot.val) ∨ ∃ entry, Snapped pool next entry := by
  unfold Pool.observe Pool.recordObservation at done
  split at done
  · cases done
    exact .inl ⟨rfl, rfl, le_refl _⟩
  next late =>
    have later := not_le.mp late
    split at done
    · cases done
      exact .inl ⟨rfl, rfl, le_of_lt later⟩
    · obtain ⟨elapsed, _, done⟩ := bind_ok.mp done
      obtain ⟨solPerTok, _, done⟩ := bind_ok.mp done
      obtain ⟨tokPerSol, _, done⟩ := bind_ok.mp done
      obtain ⟨newest, found, done⟩ := bind_ok.mp done
      split at done
      next apart =>
        exact .inr ⟨_, Pool.writeObservation_snapped later (orFail_ok.mp found) apart (orFail_ok.mp done)⟩
      · cases done
        exact .inl ⟨rfl, rfl, le_of_lt later⟩

theorem Pool.attempt_cases (pool : Pool Key) (observed : Observed) :
    ((pool.attempt observed).observations = pool.observations ∧ (pool.attempt observed).obsHead = pool.obsHead ∧
      pool.lastCumSlot.val ≤ (pool.attempt observed).lastCumSlot.val) ∨
      ∃ entry, Snapped pool (pool.attempt observed) entry := by
  unfold Pool.attempt
  cases outcome : pool.observe observed with
  | ok next => exact Pool.observe_cases outcome
  | error failure => exact .inl ⟨rfl, rfl, le_refl _⟩

private theorem Pool.newestObs_isSome (inside : pool.obsHead.val < twapRingSize) :
    ∃ newest, pool.newestObs = some newest := by
  have young : (if pool.obsHead.val = 0 then twapRingSize - 1 else pool.obsHead.val - 1) < twapRingSize := by
    rw [twapRingSize] at inside ⊢
    split <;> omega
  exact ⟨_, Vector.getElem?_eq_getElem young⟩

/-- A head inside the ring leaves nothing to go wrong. -/
theorem Pool.recordObservation_isOk {solReserve tokenReserve : U64} (now : U64) (inside : pool.obsHead.val < twapRingSize)
    (sol : 0 < solReserve.val) (token : 0 < tokenReserve.val) :
    ∃ next, pool.recordObservation solReserve tokenReserve now = .ok next := by
  unfold Pool.recordObservation
  split
  · exact ⟨_, rfl⟩
  next late =>
    split
    · exact ⟨_, rfl⟩
    · obtain ⟨solPerTok, priced, _⟩ := priceQ64_some solReserve token
      obtain ⟨tokPerSol, inverse, _⟩ := priceQ64_some tokenReserve sol
      obtain ⟨newest, found⟩ := Pool.newestObs_isSome inside
      have elapsed : now.checkedSub pool.lastCumSlot = some (now.saturatingSub pool.lastCumSlot) :=
        Word.checkedSub_of_le (by omega)
      have advanced : ∀ sol token, Pool.newestObs { pool with
          cumSolPerTok := sol, cumTokPerSol := token, lastCumSlot := now } = some newest := fun _ _ => found
      simp only [elapsed, priced, inverse, orFail_bind, okOr_bind, advanced]
      split
      · simp only [Pool.writeObservation, dif_pos inside]
        exact ⟨_, rfl⟩
      · exact ⟨_, rfl⟩

theorem Pool.observe_inside (inside : pool.obsHead.val < twapRingSize) (done : pool.observe observed = .ok next) :
    next.obsHead.val < twapRingSize := by
  rcases Pool.observe_cases done with ⟨_, idle, _⟩ | ⟨entry, snapped⟩
  · rw [idle]
    exact inside
  · rw [snapped.moved]
    exact Nat.mod_lt _ (by decide)

/-- The ring against everything ever written to it. -/
structure Taped.Kept (taped : Taped Key) : Prop where
  ring : Recent taped.pool.observations taped.pool.obsHead.val default taped.written
  spaced : taped.written.IsChain fun newer older => older.slot.val + 500 ≤ newer.slot.val
  dated : ∀ obs ∈ taped.written, 0 < obs.slot.val ∧ obs.slot.val ≤ taped.pool.lastCumSlot.val

theorem Taped.Kept.initial (pool : Pool Key) (started : U64) : Taped.Kept ⟨pool.initOracle started, []⟩ where
  ring := Recent.unwritten (by decide)
  spaced := .nil
  dated := fun _ impossible => by cases impossible

private theorem Taped.call_idle (taped : Taped Key) (observed : Observed)
    (idle : (taped.pool.attempt observed).obsHead = taped.pool.obsHead) :
    taped.call observed = ⟨taped.pool.attempt observed, taped.written⟩ := by
  simp only [Taped.call, if_pos idle]

private theorem Taped.call_snapped {entry : Observation}
    (snapped : Snapped taped.pool (taped.pool.attempt observed) entry)
    (newest : (taped.pool.attempt observed).newestObs = some entry) :
    taped.call observed = ⟨taped.pool.attempt observed, entry :: taped.written⟩ := by
  have moves : (taped.pool.attempt observed).obsHead ≠ taped.pool.obsHead := by
    intro same
    have moved := snapped.moved
    have inside := snapped.inside
    rw [same, twapRingSize] at moved
    rw [twapRingSize] at inside
    omega
  simp only [Taped.call, if_neg moves, newest]
  rfl

theorem Taped.Kept.call (kept : taped.Kept) (observed : Observed) : (taped.call observed).Kept := by
  rcases taped.pool.attempt_cases observed with ⟨same, idle, clock⟩ | ⟨entry, snapped⟩
  · rw [Taped.call_idle taped observed idle]
    refine ⟨?_, kept.spaced, ?_⟩
    · simp only [same, idle]
      exact kept.ring
    · intro obs member
      obtain ⟨positive, before⟩ := kept.dated obs member
      exact ⟨positive, le_trans before clock⟩
  · have ring := snapped.ring kept.ring
    rw [Taped.call_snapped snapped ring.newest]
    refine ⟨ring, kept.spaced.cons ?_, ?_⟩
    · intro older first
      apply snapped.apart
      have newest := kept.ring.newest
      rw [List.headD_eq_head?_getD, first] at newest
      exact newest
    · intro obs member
      rw [snapped.clock]
      rcases List.mem_cons.mp member with rfl | old
      · exact ⟨Nat.zero_lt_of_lt snapped.later, le_refl _⟩
      · obtain ⟨positive, before⟩ := kept.dated obs old
        exact ⟨positive, le_trans before (le_of_lt snapped.later)⟩

theorem Taped.Kept.of (pool : Pool Key) (started : U64) (calls : List Observed) : (Taped.of pool started calls).Kept := by
  unfold Taped.of
  generalize Taped.mk (pool.initOracle started) [] = first, Taped.Kept.initial pool started = kept
  induction calls generalizing first with
  | nil => exact kept
  | cons observed calls ih => exact ih _ (kept.call observed)

/-- A call with a later slot may add it to the snapshots; no other one changes them. -/
theorem Journal.record_snapshots (journal : Journal) (started : U64) (observed : Observed) :
    (journal.record started observed).snapshots = journal.snapshots ∨
      journal.timeline.latest started.val < observed.now.val ∧
        (journal.record started observed).snapshots = observed.now :: journal.snapshots := by
  unfold Journal.record
  simp only
  split
  · exact .inl rfl
  next late =>
    split
    · exact .inr ⟨not_le.mp late, rfl⟩
    · exact .inl rfl

section Journal
variable {started : U64} {journal : Journal}

theorem Records.snapshots_kept (records : Records started pool journal) (observed : Observed) :
    journal.snapshots.map (journal.record started observed).snapshot = journal.snapshots.map journal.snapshot := by
  by_cases early : observed.now.val ≤ journal.timeline.latest started.val
  · rw [Journal.record, if_pos early]
  · rw [Journal.record_later (not_le.mp early)]
    apply List.map_congr_left
    intro slot member
    exact records.snapshot_later (not_le.mp early) member

theorem Records.newest_le (records : Records started pool journal) :
    (journal.snapshots.headD 0).val ≤ journal.timeline.latest started.val := by
  cases listed : journal.snapshots with
  | nil => exact Nat.zero_le _
  | cons newest older =>
    obtain ⟨_, interval, inside, stop⟩ := records.written newest (listed ▸ List.mem_cons_self)
    rw [List.headD_cons, ← stop]
    exact records.chained.stop_le inside

/-- The tape is the journal's own list of snapshots. -/
structure Taped.Follows (started : U64) (taped : Taped Key) (journal : Journal) : Prop where
  records : Records started taped.pool journal
  written : taped.written = journal.snapshots.map journal.snapshot

theorem Taped.Follows.call (follows : taped.Follows started journal) (token : 0 < observed.reserves.token.val) :
    (taped.call observed).Follows started (journal.record started observed) := by
  obtain ⟨next, done, records⟩ := follows.records.record token
  have moved : taped.pool.attempt observed = next := by rw [Pool.attempt, done]
  subst moved
  have kept := follows.records.snapshots_kept observed
  have bound := follows.records.newest_le
  obtain ⟨newest, found, slot⟩ := follows.records.spacing
  obtain ⟨latest, shown, now⟩ := records.spacing
  rcases taped.pool.attempt_cases observed with ⟨same, idle, _⟩ | ⟨entry, snapped⟩
  · rw [Taped.call_idle taped observed idle]
    refine ⟨records, ?_⟩
    rcases journal.record_snapshots started observed with stays | ⟨later, grows⟩
    · rw [stays, kept]
      exact follows.written
    · rw [grows, List.headD_cons] at now
      rw [Pool.newestObs, same, idle, ← Pool.newestObs, found] at shown
      cases shown
      have again : observed.now.val = (journal.snapshots.headD 0).val := congrArg Fin.val (now.symm.trans slot)
      omega
  · have stored : (taped.pool.attempt observed).newestObs = some entry := (snapped.ring follows.records.ring).newest
    rw [Taped.call_snapped snapped stored]
    refine ⟨records, ?_⟩
    obtain rfl := Option.some.inj (stored.symm.trans shown)
    rcases journal.record_snapshots started observed with stays | ⟨later, grows⟩
    · have last := follows.records.last
      have apart := snapped.later
      rw [stays] at now
      have again : entry.slot.val = (journal.snapshots.headD 0).val := congrArg Fin.val now
      omega
    · have top : (taped.pool.attempt observed).newestObs = _ := records.ring.newest
      rw [grows, List.map_cons, List.headD_cons, shown] at top
      rw [grows, List.map_cons, kept, follows.written, Option.some.inj top]

theorem Taped.Follows.of (pool : Pool Key) (started : U64) {calls : List Observed}
    (token : ∀ call ∈ calls, 0 < call.reserves.token.val) :
    (Taped.of pool started calls).Follows started (.of started calls) := by
  unfold Taped.of Journal.of
  have start : Taped.Follows started ⟨pool.initOracle started, []⟩ .empty := ⟨.initial pool started, rfl⟩
  generalize Taped.mk (pool.initOracle started) [] = taped at start
  generalize Journal.empty = journal at start
  induction calls generalizing taped journal with
  | nil => exact start
  | cons observed calls ih =>
    have rest : ∀ call ∈ calls, 0 < call.reserves.token.val := fun call member => token call (List.mem_cons_of_mem _ member)
    exact ih rest _ _ (start.call (token observed List.mem_cons_self))

end Journal

/-- The blanks of a ring that is not full yet are the entries without a slot. -/
theorem Taped.Kept.ring_perm (kept : taped.Kept) :
    (taped.pool.observations.toList.filter fun obs => obs.slot.val ≠ 0).Perm (taped.written.take twapRingSize) := by
  have used : (taped.written.take twapRingSize).filter (fun obs => obs.slot.val ≠ 0) =
      taped.written.take twapRingSize := by
    rw [List.filter_eq_self]
    intro obs member
    obtain ⟨positive, _⟩ := kept.dated obs (List.mem_of_mem_take member)
    exact decide_eq_true (Nat.ne_of_gt positive)
  have blank : (List.replicate (twapRingSize - taped.written.length) (default : Observation)).filter
      (fun obs => obs.slot.val ≠ 0) = [] := by
    rw [List.filter_eq_nil_iff]
    intro obs member
    rw [List.eq_of_mem_replicate member]
    decide
  have entries := kept.ring.perm.filter fun obs => obs.slot.val ≠ 0
  rw [List.filter_append, used, blank, List.append_nil] at entries
  exact entries

/-- A full ring holds an observation old enough for any window of fifteen spacings. -/
theorem Taped.Kept.reads (kept : taped.Kept) (full : 16 ≤ taped.written.length)
    {solReserve tokenReserve now lookback : U64}
    (current : taped.pool.lastCumSlot.val ≤ now.val) (positive : 0 < lookback.val) (within : lookback.val ≤ 15 * 500)
    (token : 0 < tokenReserve.val) :
    (taped.pool.readTwapSolPerTok solReserve tokenReserve now lookback).isSome := by
  obtain ⟨newest, first⟩ : ∃ newest, taped.written.head? = some newest :=
    Option.isSome_iff_exists.mp (List.isSome_head?.mpr (List.ne_nil_of_length_pos (by omega)))
  obtain ⟨oldest, last⟩ : ∃ oldest, taped.written[15]? = some oldest := ⟨_, List.getElem?_eq_getElem (by omega)⟩
  have reach := spread (fun obs : Observation => obs.slot.val) kept.spaced first last
  obtain ⟨_, latest⟩ := kept.dated newest (List.mem_of_mem_head? first)
  obtain ⟨dated, _⟩ := kept.dated oldest (List.mem_of_getElem? last)
  have stored : oldest ∈ taped.pool.observations.toList := by
    apply List.mem_of_mem_filter (p := fun obs => obs.slot.val ≠ 0)
    rw [kept.ring_perm.mem_iff]
    exact List.mem_of_getElem? ((List.getElem?_take_of_lt (by decide)).trans last)
  have eligible : ¬ (oldest.slot.val = 0 ∨ (now.saturatingSub lookback).val < oldest.slot.val) := by
    rw [Word.saturatingSub_val]
    omega
  obtain ⟨start, found, _⟩ := scan_greatest
    (fun obs => ¬ (obs.slot.val = 0 ∨ (now.saturatingSub lookback).val < obs.slot.val)) (fun obs => obs.slot.val) none
    stored eligible
  obtain ⟨_, old⟩ := scan_some found
  rw [Word.saturatingSub_val] at old
  obtain ⟨price, priced, _⟩ := priceQ64_some solReserve token
  have elapsed : (now.saturatingSub start.slot).val ≠ 0 := by
    rw [Word.saturatingSub_val]
    omega
  rw [← windowStart_eq] at found
  obtain ⟨mark, divided, _⟩ := Word.checkedDiv_widen
    ((accumulatePrice taped.pool.cumSolPerTok price (now.saturatingSub taped.pool.lastCumSlot)).wrappingSub
      start.cumSolPerTok) (b := widen (now.saturatingSub start.slot)) (Nat.pos_of_ne_zero elapsed)
  simp only [Pool.readTwapSolPerTok, priced, found, Option.bind_eq_bind, Option.bind_some, if_neg elapsed, divided,
    Option.isSome_some]

/-- Whatever the calls are, the ring holds the newest snapshots at their distances,
and once it is full it answers every window of up to fifteen spacings. Which snapshots these
are, the calls alone decide. -/
theorem lookback_span_kept (pool : Pool Key) (started : U64) (calls : List Observed) :
    (Taped.of pool started calls).pool.obsHead.val < 16 ∧
      ((Taped.of pool started calls).pool.observations.toList.filter fun obs => obs.slot.val ≠ 0).Perm
        ((Taped.of pool started calls).written.take 16) ∧
      ((Taped.of pool started calls).written.IsChain fun newer older => older.slot.val + 500 ≤ newer.slot.val) ∧
      (∀ obs ∈ (Taped.of pool started calls).written,
        0 < obs.slot.val ∧ obs.slot.val ≤ (Taped.of pool started calls).pool.lastCumSlot.val) ∧
      (16 ≤ (Taped.of pool started calls).written.length → ∀ solReserve tokenReserve now lookback : U64,
        (Taped.of pool started calls).pool.lastCumSlot.val ≤ now.val → 0 < lookback.val → lookback.val ≤ 15 * 500 →
          0 < tokenReserve.val →
            ((Taped.of pool started calls).pool.readTwapSolPerTok solReserve tokenReserve now lookback).isSome) ∧
      ((∀ call ∈ calls, 0 < call.reserves.token.val) →
        (Taped.of pool started calls).written =
          (Journal.of started calls).snapshots.map (Journal.of started calls).snapshot) := by
  have kept := Taped.Kept.of pool started calls
  refine ⟨kept.ring.inside, kept.ring_perm, kept.spaced, kept.dated, ?_, ?_⟩
  · intro full solReserve tokenReserve now lookback current positive within token
    exact kept.reads full current positive within token
  · intro token
    exact (Taped.Follows.of pool started token).written

/-- Eighteen calls of a deep pool at the least distance fill the ring. -/
theorem lookback_span_kept_full : ∃ calls : List Observed, (Journal.of 1000 calls).snapshots.length = 18 ∧
    ((Taped.of (Pool.zeroed 0) 1000 calls).pool.readTwapSolPerTok 5000000000 1000000 10000 7500).isSome := by
  let calls : List Observed := (List.range 18).map fun n => ⟨⟨5000000000, 1000000⟩, Fin.ofNat _ (1500 + 500 * n)⟩
  have count : (Journal.of 1000 calls).snapshots.length = 18 := by decide +kernel
  obtain ⟨_, _, _, _, reads, written⟩ := lookback_span_kept (Pool.zeroed 0) 1000 calls
  have full : 16 ≤ (Taped.of (Pool.zeroed 0) 1000 calls).written.length := by
    rw [written (by decide +kernel), List.length_map, count]
    decide
  exact ⟨calls, count, reads full _ _ _ _ (by decide +kernel) (by decide) (by decide) (by decide)⟩

end DeepPool
