import DeepPool.Journal
import DeepPool.Proofs.Handlers
import DeepPool.Proofs.Math
import DeepPool.Library.Ring
import DeepPool.Library.Transition

/-! The oracle in the account keeps the journal modulo its word size, and the newest
snapshots of it. -/

namespace DeepPool
open Library

variable {Key : Type} {started : U64} {pool next : Pool Key} {journal : Journal} {observed : Observed}

def wrapped (n : Nat) : U128 := ⟨n % 2 ^ 128, Nat.mod_lt _ (by decide)⟩

@[simp] theorem wrapped_val (n : Nat) : (wrapped n).val = n % 2 ^ 128 := rfl

theorem Journal.record_later (later : journal.timeline.latest started.val < observed.now.val) :
    journal.record started observed =
      { timeline := ⟨observed.now.val, observed.now.val - journal.timeline.latest started.val, observed.reserves⟩ ::
          journal.timeline
        snapshots :=
          if observed.reserves.counted ∧ minObsSpacingSlots.val ≤ observed.now.val - (journal.snapshots.headD 0).val then
            observed.now :: journal.snapshots
          else journal.snapshots } := by
  rw [Journal.record, if_neg (not_le.mpr later)]

/-- What a snapshot taken at the slot must contain. -/
def Journal.snapshot (journal : Journal) (slot : U64) : Observation :=
  { slot
    cumSolPerTok := wrapped ((journal.timeline.upTo slot.val).weight Reserves.countedSolPerTok)
    cumTokPerSol := wrapped ((journal.timeline.upTo slot.val).weight Reserves.countedTokPerSol) }

structure Records (started : U64) (pool : Pool Key) (journal : Journal) : Prop where
  last : pool.lastCumSlot.val = journal.timeline.latest started.val
  sol : pool.cumSolPerTok = wrapped (journal.timeline.weight Reserves.countedSolPerTok)
  token : pool.cumTokPerSol = wrapped (journal.timeline.weight Reserves.countedTokPerSol)
  ring : Recent pool.observations pool.obsHead.val default (journal.snapshots.map journal.snapshot)
  chained : journal.timeline.Chained started.val
  written : ∀ slot ∈ journal.snapshots, 0 < slot.val ∧ ∃ interval ∈ journal.timeline, interval.stop = slot.val

theorem Records.initial (pool : Pool Key) (started : U64) : Records started (pool.initOracle started) .empty := by
  refine ⟨rfl, rfl, rfl, Recent.unwritten (by decide), trivial, ?_⟩
  intro slot member
  cases member

theorem accumulatePrice_wrapped (total price : Nat) (slotDelta : U64) :
    accumulatePrice (wrapped total) (wrapped price) slotDelta = wrapped (price * slotDelta.val + total) := by
  apply Fin.ext
  simp only [accumulatePrice, Word.wrappingAdd_val, Word.wrappingMul_val, wrapped_val, widen_val]
  rw [Nat.mod_mul_mod, ← Nat.add_mod, Nat.add_comm]

/-- The accumulator closes an interval exactly as the timeline does. -/
private theorem accumulate_weight {timeline : Timeline Reserves} {value : Reserves → Nat} {cum : U128} {price : Nat}
    {reserves : Reserves} (stop : Nat) (now last : U64) (sum : cum = wrapped (timeline.weight value))
    (same : value reserves = price) :
    accumulatePrice cum (wrapped price) (now.saturatingSub last) =
      wrapped (Timeline.weight value (⟨stop, now.val - last.val, reserves⟩ :: timeline)) := by
  rw [sum, accumulatePrice_wrapped, Timeline.weight, same, Word.saturatingSub_val]

/-- A new interval after every stop leaves the older snapshots as they are. -/
theorem Records.snapshot_later (records : Records started pool journal) {interval : Interval Reserves}
    {snapshots : List U64} (later : journal.timeline.latest started.val < interval.stop) {slot : U64}
    (member : slot ∈ journal.snapshots) :
    Journal.snapshot ⟨interval :: journal.timeline, snapshots⟩ slot = journal.snapshot slot := by
  obtain ⟨_, old, inside, stop⟩ := records.written slot member
  have bounded := records.chained.stop_le inside
  simp only [Journal.snapshot]
  rw [Timeline.upTo_cons_later (by omega)]

/-- The parts of the refinement that do not depend on whether a snapshot is taken. -/
private theorem Records.extend (records : Records started pool journal) (later : pool.lastCumSlot.val < observed.now.val)
    {timeline : Timeline Reserves}
    (same : timeline =
      ⟨observed.now.val, observed.now.val - pool.lastCumSlot.val, observed.reserves⟩ :: journal.timeline) :
    timeline.Chained started.val ∧
      (∀ slot ∈ journal.snapshots, 0 < slot.val ∧ ∃ interval ∈ timeline, interval.stop = slot.val) ∧
      ∀ snapshots, journal.snapshots.map (Journal.snapshot ⟨timeline, snapshots⟩) =
        journal.snapshots.map journal.snapshot := by
  subst same
  have last := records.last
  refine ⟨⟨by simp only; omega, by simp only; omega, records.chained⟩, ?_, ?_⟩
  · intro slot member
    obtain ⟨positive, interval, inside, stop⟩ := records.written slot member
    exact ⟨positive, interval, List.mem_cons_of_mem _ inside, stop⟩
  · intro snapshots
    apply List.map_congr_left
    intro slot member
    exact records.snapshot_later (by simp only; omega) member

theorem Records.spacing (records : Records started pool journal) :
    ∃ newest, pool.newestObs = some newest ∧ newest.slot = journal.snapshots.headD 0 := by
  refine ⟨_, records.ring.newest, ?_⟩
  cases journal.snapshots <;> rfl

private theorem Records.gated (records : Records started pool journal) (later : pool.lastCumSlot.val < observed.now.val)
    (thin : observed.reserves.sol.val < minSpotReserve.val) :
    Records started { pool with lastCumSlot := observed.now } (journal.record started observed) := by
  have uncounted : observed.reserves.counted = false := decide_eq_false (not_le.mpr thin)
  rw [Journal.record_later (records.last ▸ later), ← records.last]
  simp only [uncounted, Bool.false_eq_true, false_and, if_false]
  obtain ⟨chained, written, unchanged⟩ := records.extend later rfl
  refine ⟨rfl, ?_, ?_, ?_, chained, written⟩
  · simp only [Timeline.weight, Reserves.countedSolPerTok, uncounted, Bool.false_eq_true, if_false, Nat.zero_mul,
      Nat.zero_add]
    exact records.sol
  · simp only [Timeline.weight, Reserves.countedTokPerSol, uncounted, Bool.false_eq_true, if_false, Nat.zero_mul,
      Nat.zero_add]
    exact records.token
  · rw [unchanged]
    exact records.ring

/-- The account after a counted interval, before any snapshot. -/
private def Pool.advanced (pool : Pool Key) (sol token : U128) (now : U64) : Pool Key :=
  { pool with
    cumSolPerTok := sol
    cumTokPerSol := token
    lastCumSlot := now }

private theorem Pool.advanced_newest (sol token : U128) (now : U64) :
    (pool.advanced sol token now).newestObs = pool.newestObs := rfl

private theorem Pool.advanced_write (pool : Pool Key) (sol token : U128) (now : U64)
    (inside : pool.obsHead.val < twapRingSize) :
    ∃ next, (pool.advanced sol token now).writeObservation now = some next ∧ next.cumSolPerTok = sol ∧
      next.cumTokPerSol = token ∧ next.lastCumSlot = now ∧
      next.observations = pool.observations.set pool.obsHead.val ⟨now, sol, token⟩ inside ∧
      next.obsHead.val = (pool.obsHead.val + 1) % twapRingSize := by
  have same : (pool.advanced sol token now).obsHead = pool.obsHead := rfl
  rw [Pool.writeObservation]
  simp only [same, inside, dite_true]
  exact ⟨_, rfl, rfl, rfl, rfl, rfl, rfl⟩

private theorem Pool.writeObservation_some {now : U64} (wrote : pool.writeObservation now = some next) :
    next.cumSolPerTok = pool.cumSolPerTok ∧ next.lastCumSlot = pool.lastCumSlot := by
  unfold Pool.writeObservation at wrote
  split at wrote
  · cases wrote
    exact ⟨rfl, rfl⟩
  · cases wrote

/-- The clock and the accumulator after a call, whatever state the ring is in. -/
theorem Pool.recordObservation_ok {solReserve tokenReserve now : U64}
    (done : pool.recordObservation solReserve tokenReserve now = .ok next) :
    (now.val ≤ pool.lastCumSlot.val → next = pool) ∧
    (pool.lastCumSlot.val < now.val → next.lastCumSlot = now ∧
      (solReserve.val < minSpotReserve.val → next.cumSolPerTok = pool.cumSolPerTok) ∧
      (minSpotReserve.val ≤ solReserve.val → ∃ price, priceQ64 solReserve tokenReserve = some price ∧
        next.cumSolPerTok = accumulatePrice pool.cumSolPerTok price (now.saturatingSub pool.lastCumSlot))) := by
  unfold Pool.recordObservation at done
  split at done
  next early =>
    cases done
    exact ⟨fun _ => rfl, fun later => absurd later (not_lt.mpr early)⟩
  next late =>
    refine ⟨fun early => absurd early late, fun _ => ?_⟩
    split at done
    next thin =>
      cases done
      exact ⟨rfl, fun _ => rfl, fun deep => absurd thin (not_lt.mpr deep)⟩
    next deep =>
      obtain ⟨elapsed, spent, done⟩ := bind_ok.mp done
      obtain ⟨price, priced, done⟩ := bind_ok.mp done
      obtain ⟨inverse, _, done⟩ := bind_ok.mp done
      obtain ⟨newest, _, done⟩ := bind_ok.mp done
      rw [orFail_ok, Word.checkedSub_eq_some] at spent
      have same : elapsed = now.saturatingSub pool.lastCumSlot := by
        apply Fin.ext
        rw [Word.saturatingSub_val]
        omega
      have clock : next.cumSolPerTok = accumulatePrice pool.cumSolPerTok price elapsed ∧ next.lastCumSlot = now := by
        split at done
        · exact Pool.writeObservation_some (orFail_ok.mp done)
        · cases done
          exact ⟨rfl, rfl⟩
      exact ⟨clock.2, fun thin => absurd thin deep, fun _ => ⟨price, okOr_ok.mp priced, same ▸ clock.1⟩⟩

private theorem price_wrapped {price : U128} {value : Nat} (same : price.val = value) : price = wrapped value := by
  apply Fin.ext
  rw [wrapped_val, ← same, Nat.mod_eq_of_lt price.isLt]

theorem Reserves.solPerTok_eq {reserves : Reserves} (token : 0 < reserves.token.val) :
    priceQ64 reserves.sol reserves.token = some (wrapped reserves.solPerTok) := by
  obtain ⟨price, priced, value⟩ := priceQ64_some reserves.sol token
  rw [priced, price_wrapped value, Reserves.solPerTok]

theorem Reserves.tokPerSol_eq {reserves : Reserves} (sol : 0 < reserves.sol.val) :
    priceQ64 reserves.token reserves.sol = some (wrapped reserves.tokPerSol) := by
  obtain ⟨price, priced, value⟩ := priceQ64_some reserves.token sol
  rw [priced, price_wrapped value, Reserves.tokPerSol]

private theorem observe_deep (later : pool.lastCumSlot.val < observed.now.val)
    (deep : ¬ observed.reserves.sol.val < minSpotReserve.val)
      (token : 0 < observed.reserves.token.val) {newest : Observation}
    (found : pool.newestObs = some newest) {sol tok : U128}
    (solSum : sol = accumulatePrice pool.cumSolPerTok (wrapped observed.reserves.solPerTok)
      (observed.now.saturatingSub pool.lastCumSlot))
    (tokSum : tok = accumulatePrice pool.cumTokPerSol (wrapped observed.reserves.tokPerSol)
      (observed.now.saturatingSub pool.lastCumSlot)) :
    pool.observe observed =
      if minObsSpacingSlots.val ≤ observed.now.val - newest.slot.val then
        orFail ((pool.advanced sol tok observed.now).writeObservation observed.now) .panicked
      else .ok (pool.advanced sol tok observed.now) := by
  have positive : 0 < observed.reserves.sol.val := by
    rw [minSpotReserve_val] at deep
    omega
  have elapsed : observed.now.checkedSub pool.lastCumSlot = some (observed.now.saturatingSub pool.lastCumSlot) :=
    Word.checkedSub_of_le (by omega)
  have kept := (Pool.advanced_newest sol tok observed.now).trans found
  unfold Pool.advanced at kept ⊢
  unfold Pool.observe Pool.recordObservation
  rw [if_neg (not_le.mpr later), if_neg deep, elapsed, Reserves.solPerTok_eq token, Reserves.tokPerSol_eq positive]
  simp only [orFail_bind, okOr_bind, ← solSum, ← tokSum]
  rw [kept, orFail_bind, Word.saturatingSub_val]

private theorem Records.counted (records : Records started pool journal) (later : pool.lastCumSlot.val < observed.now.val)
    (deep : ¬ observed.reserves.sol.val < minSpotReserve.val) (token : 0 < observed.reserves.token.val) :
    ∃ next, pool.observe observed = .ok next ∧ Records started next (journal.record started observed) := by
  have counted : observed.reserves.counted = true := decide_eq_true (not_lt.mp deep)
  obtain ⟨newest, found, slot⟩ := records.spacing
  obtain ⟨chained, written, unchanged⟩ := records.extend later rfl
  have solSum := accumulate_weight observed.now.val observed.now pool.lastCumSlot records.sol (if_pos counted)
  have tokSum := accumulate_weight observed.now.val observed.now pool.lastCumSlot records.token (if_pos counted)
  rw [observe_deep later deep token found solSum.symm tokSum.symm, slot, Journal.record_later (records.last ▸ later),
    ← records.last]
  simp only [counted, true_and]
  by_cases spaced : minObsSpacingSlots.val ≤ observed.now.val - (journal.snapshots.headD 0).val
  · simp only [if_pos spaced]
    obtain ⟨next, wrote, sol, tok, last, slots, head⟩ := Pool.advanced_write pool
      (wrapped (Timeline.weight Reserves.countedSolPerTok
        (⟨observed.now.val, observed.now.val - pool.lastCumSlot.val, observed.reserves⟩ :: journal.timeline)))
      (wrapped (Timeline.weight Reserves.countedTokPerSol
        (⟨observed.now.val, observed.now.val - pool.lastCumSlot.val, observed.reserves⟩ :: journal.timeline)))
      observed.now records.ring.inside
    refine ⟨next, orFail_ok.mpr wrote, by rw [last]; rfl, sol, tok, ?_, chained, ?_⟩
    · have whole := chained.upTo_latest
      simp only [Timeline.latest] at whole
      rw [slots, head, List.map_cons, unchanged]
      simp only [Journal.snapshot, whole]
      exact records.ring.write _
    · intro slot member
      rcases List.mem_cons.mp member with rfl | old
      · exact ⟨by omega, _, List.mem_cons_self, rfl⟩
      · exact written slot old
  · simp only [if_neg spaced]
    refine ⟨_, rfl, rfl, rfl, rfl, ?_, chained, written⟩
    rw [unchanged]
    exact records.ring

/-- With nonzero reserves a call never fails, and it moves the account and the journal alike. -/
theorem Records.record (records : Records started pool journal)
    (token : 0 < observed.reserves.token.val) :
    ∃ next, pool.observe observed = .ok next ∧ Records started next (journal.record started observed) := by
  have last := records.last
  by_cases early : observed.now.val ≤ pool.lastCumSlot.val
  · refine ⟨pool, ?_, ?_⟩
    · unfold Pool.observe Pool.recordObservation
      rw [if_pos early]
    · rw [Journal.record, if_pos (by omega)]
      exact records
  · have later : pool.lastCumSlot.val < observed.now.val := not_le.mp early
    by_cases thin : observed.reserves.sol.val < minSpotReserve.val
    · refine ⟨_, ?_, records.gated later thin⟩
      unfold Pool.observe Pool.recordObservation
      rw [if_neg early, if_pos thin]
    · exact records.counted later thin token

theorem Records.run {calls : List Observed} (records : Records started pool journal)
    (nonzero : ∀ call ∈ calls, 0 < call.reserves.token.val) :
    ∃ after, calls.foldlM Pool.observe pool = .ok after ∧
      Records started after (calls.foldl (Journal.record started) journal) := by
  induction calls generalizing pool journal with
  | nil => exact ⟨pool, rfl, records⟩
  | cons call calls ih =>
    obtain ⟨next, done, kept⟩ := records.record (nonzero call List.mem_cons_self)
    obtain ⟨after, finished, last⟩ := ih kept fun call member => nonzero call (List.mem_cons_of_mem _ member)
    refine ⟨after, ?_, last⟩
    rw [List.foldlM_cons]
    exact bind_ok.mpr ⟨next, done, finished⟩

/-! Reading the mark. -/

theorem windowStart_eq (target : U64) :
    Pool.windowStart target =
      keepGreatest (fun obs => ¬ (obs.slot.val = 0 ∨ target.val < obs.slot.val)) (fun obs => obs.slot.val) := by
  funext start obs
  unfold Pool.windowStart keepGreatest
  rw [ite_not]
  cases start <;> rfl

/-- The ring holds the newest snapshots of the journal and, besides them, only blanks. -/
theorem Records.mem_ring (records : Records started pool journal) (obs : Observation) (used : obs.slot.val ≠ 0) :
    obs ∈ pool.observations.toList ↔ ∃ slot ∈ journal.snapshots.take twapRingSize, obs = journal.snapshot slot := by
  rw [records.ring.mem_iff, ← List.map_take, List.mem_map]
  constructor
  · rintro (⟨slot, member, rfl⟩ | ⟨_, rfl⟩)
    · exact ⟨slot, member, rfl⟩
    · exact absurd rfl used
  · rintro ⟨slot, member, rfl⟩
    exact .inl ⟨slot, member, rfl⟩

/-- The scan finds the anchor of the window, with what the journal says it holds. -/
theorem Records.scan (records : Records started pool journal) {now lookback : U64} {obs : Observation}
    (found : pool.observations.toList.foldl (Pool.windowStart (now.saturatingSub lookback)) none = some obs) :
    journal.Anchor now lookback obs.slot ∧ obs = journal.snapshot obs.slot := by
  rw [windowStart_eq] at found
  obtain ⟨member, eligible⟩ := scan_some found
  rw [Word.saturatingSub_val] at eligible
  obtain ⟨slot, kept, rfl⟩ := (records.mem_ring _ (by omega)).mp member
  refine ⟨⟨kept, ?_, ?_⟩, rfl⟩
  · simp only [Journal.snapshot] at eligible ⊢
    omega
  · intro other inside old
    obtain ⟨positive, _⟩ := records.written other (List.mem_of_mem_take inside)
    have stored := (records.mem_ring (journal.snapshot other) (by simp only [Journal.snapshot]; omega)).mpr
      ⟨other, inside, rfl⟩
    have passes : ¬ ((journal.snapshot other).slot.val = 0 ∨
        (now.saturatingSub lookback).val < (journal.snapshot other).slot.val) := by
      simp only [Journal.snapshot, Word.saturatingSub_val]
      omega
    obtain ⟨best, chosen, above⟩ := scan_greatest
      (fun obs => ¬ (obs.slot.val = 0 ∨ (now.saturatingSub lookback).val < obs.slot.val)) (fun obs => obs.slot.val) none
      stored passes
    rw [Option.some.inj (chosen.symm.trans found)] at above
    exact above

theorem solPerTok_some (reserves : Reserves) {price : U128} (priced : priceQ64 reserves.sol reserves.token = some price) :
    price = wrapped reserves.solPerTok := by
  obtain ⟨_, value⟩ := Word.checkedDiv_eq_some.mp priced
  exact price_wrapped value

/-- The wrapping difference of the extended head and the snapshot is the window. -/
theorem Records.difference (records : Records started pool journal) {start now : U64} {current : Reserves}
    (fits : journal.window started start now current < 2 ^ 128) :
    ((accumulatePrice pool.cumSolPerTok (wrapped current.solPerTok) (now.saturatingSub pool.lastCumSlot)).wrappingSub
      (journal.snapshot start).cumSolPerTok).val = journal.window started start now current := by
  have split := Timeline.weight_split Reserves.countedSolPerTok start.val journal.timeline
  have value : current.solPerTok * (now.saturatingSub pool.lastCumSlot).val +
      journal.timeline.weight Reserves.countedSolPerTok -
        (journal.timeline.upTo start.val).weight Reserves.countedSolPerTok =
      journal.window started start now current := by
    rw [Journal.window, ← records.last, Word.saturatingSub_val]
    omega
  have past : (journal.snapshot start).cumSolPerTok =
      wrapped ((journal.timeline.upTo start.val).weight Reserves.countedSolPerTok) := rfl
  rw [records.sol, accumulatePrice_wrapped, past,
    Word.wrappingSub_of_mod (wrapped_val _) (wrapped_val _) (by omega), value, Nat.mod_eq_of_lt fits]

theorem Records.read (records : Records started pool journal) {now lookback : U64} {current : Reserves} {m : U128}
    (reads : pool.readTwapSolPerTok current.sol current.token now lookback = some m) :
    ∃ start, journal.Anchor now lookback start ∧ start.val < now.val ∧
      (journal.window started start now current < 2 ^ 128 →
        m.val = journal.window started start now current / (now.val - start.val)) := by
  simp only [Pool.readTwapSolPerTok, Option.bind_eq_bind, Option.bind_eq_some_iff] at reads
  obtain ⟨price, priced, obs, found, divided⟩ := reads
  obtain rfl := solPerTok_some current priced
  obtain ⟨anchor, stored⟩ := records.scan found
  split at divided
  · cases divided
  next elapsed =>
    rw [Word.saturatingSub_val] at elapsed
    refine ⟨obs.slot, anchor, by omega, ?_⟩
    intro fits
    rw [Word.checkedDiv_eq_some, widen_val, Word.saturatingSub_val, stored, records.difference fits] at divided
    exact divided.2

/-- However often the accumulator wraps and the ring is overwritten, the account shows
the exact sums modulo its word, and the mark is the floored exact average. -/
theorem twap_read_exact (pool : Pool Key) (started : U64) (calls : List Observed)
    (nonzero : ∀ call ∈ calls, 0 < call.reserves.sol.val ∧ 0 < call.reserves.token.val) :
    ∃ after, calls.foldlM Pool.observe (pool.initOracle started) = .ok after ∧
      after.lastCumSlot.val = (Journal.of started calls).timeline.latest started.val ∧
      after.cumSolPerTok.val = (Journal.of started calls).timeline.weight Reserves.countedSolPerTok % 2 ^ 128 ∧
      (∀ obs ∈ after.observations.toList, obs.slot.val ≠ 0 →
        obs.slot ∈ (Journal.of started calls).snapshots.take 16 ∧
        obs.cumSolPerTok.val =
          ((Journal.of started calls).timeline.upTo obs.slot.val).weight Reserves.countedSolPerTok % 2 ^ 128) ∧
      (∀ slot ∈ (Journal.of started calls).snapshots.take 16, ∃ obs ∈ after.observations.toList, obs.slot = slot) ∧
      ∀ (current : Reserves) (now lookback : U64) (m : U128), after.lastCumSlot.val ≤ now.val →
        after.readTwapSolPerTok current.sol current.token now lookback = some m →
        ∃ start, (Journal.of started calls).Anchor now lookback start ∧ start.val < now.val ∧
          ((Journal.of started calls).window started start now current < 2 ^ 128 →
            m.val = (Journal.of started calls).window started start now current / (now.val - start.val)) := by
  obtain ⟨after, done, records⟩ := (Records.initial pool started).run fun call member => (nonzero call member).2
  refine ⟨after, done, records.last, ?_, ?_, ?_, fun current now lookback m _ reads => records.read reads⟩
  · rw [records.sol, wrapped_val]
    rfl
  · intro obs member used
    obtain ⟨slot, kept, rfl⟩ := (records.mem_ring _ used).mp member
    exact ⟨kept, rfl⟩
  · intro slot kept
    obtain ⟨positive, _⟩ := records.written slot (List.mem_of_mem_take kept)
    exact ⟨_, (records.mem_ring (Journal.snapshot _ slot) (Nat.ne_of_gt positive)).mpr ⟨slot, kept, rfl⟩, rfl⟩

def sampleCalls : List Observed := [⟨⟨10000000000, 1000000000⟩, 1600⟩, ⟨⟨20000000000, 1000000000⟩, 2300⟩]

theorem twap_read_exact_sample : ∃ (after : Pool Unit) (m : U128),
    sampleCalls.foldlM Pool.observe ((Pool.zeroed ()).initOracle 1000) = .ok after ∧
      after.readTwapSolPerTok 10000000000 1000000000 2500 500 = some m ∧ m.val = 16000 * 2 ^ 64 / 900 := by
  obtain ⟨after, done, last, _, _, _, reads⟩ := twap_read_exact (Pool.zeroed ()) 1000 sampleCalls (by decide)
  have found : accepts (sampleCalls.foldlM Pool.observe ((Pool.zeroed ()).initOracle 1000))
      (fun after => (after.readTwapSolPerTok 10000000000 1000000000 2500 500).isSome) = true := by decide +kernel
  obtain ⟨_, same, some⟩ := accepts_iff.mp found
  cases done.symm.trans same
  obtain ⟨m, read⟩ := Option.isSome_iff_exists.mp some
  obtain ⟨start, anchor, _, exact⟩ := reads ⟨10000000000, 1000000000⟩ 2500 500 m (by rw [last]; decide +kernel) read
  have kept := anchor.kept
  have snapshots : (Journal.of 1000 sampleCalls).snapshots.take twapRingSize = [2300, 1600] := by decide +kernel
  rw [snapshots, List.mem_cons, List.mem_singleton] at kept
  rcases kept with rfl | rfl
  · exact absurd anchor.old (by decide)
  · have window : (Journal.of 1000 sampleCalls).window 1000 1600 2500 ⟨10000000000, 1000000000⟩ = 16000 * 2 ^ 64 := by
      decide +kernel
    rw [window] at exact
    exact ⟨after, m, done, read, exact (by decide)⟩

end DeepPool
