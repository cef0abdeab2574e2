import DeepPool.Library.Carry
import DeepPool.Indexer.Live
import DeepPool.Proofs.Ingest

/-! What the index holds, apart from ids, caches and tables: for each known pool the
line of its recorded events. A write adds the events that the line does not have yet,
and the tables are those lines as rows. -/

namespace DeepPool.Indexer
open Library

def eventsOf (pubkey : String) (events : List DecodedEvent) : List DecodedEvent :=
  events.filter fun de => poolPubkey de.event = pubkey

/-- The LP supply that an event states. -/
def supply (de : DecodedEvent) : Option Int :=
  match de.event with
  | .poolCreated p => some (asI64 p.lpSupplyAfter)
  | .swapExecuted _ => none
  | .liquidityAdded la => some (asI64 la.lpSupplyAfter)
  | .liquidityRemoved lr => some (asI64 lr.lpSupplyAfter)

/-- The reserves rows of a line, from the LP supply carried into it. -/
def reservesFrom (now : Int) (poolId : Nat) : Option Int → List DecodedEvent → List NewReservesRow
  | _, [] => []
  | carried, de :: events =>
    reservesRow now poolId carried de :: reservesFrom now poolId ((supply de).or carried) events

abbrev Archive := String → Option (List DecodedEvent)

/-- One write: a known pool's line takes what is new, a pool created here starts its line. -/
def Archive.add (archive : Archive) (events : List DecodedEvent) : Archive := fun pubkey =>
  match archive pubkey with
  | some line => some (line ++ (eventsOf pubkey events).filter (· ∉ line))
  | none => if (eventsOf pubkey events).any DecodedEvent.creates then some (eventsOf pubkey events) else none

section Add
variable {archive : Archive} {pubkey : String} {events line : List DecodedEvent}

theorem Archive.add_known (known : archive pubkey = some line) :
    archive.add events pubkey = some (line ++ (eventsOf pubkey events).filter (· ∉ line)) := by
  rw [Archive.add, known]

theorem Archive.add_some (added : archive.add events pubkey = some line) :
    (∃ old, archive pubkey = some old ∧ line = old ++ (eventsOf pubkey events).filter (· ∉ old)) ∨
      archive pubkey = none ∧ line = eventsOf pubkey events ∧ ∃ creation ∈ eventsOf pubkey events, creation.creates := by
  cases known : archive pubkey with
  | some old =>
    rw [Archive.add_known known] at added
    exact .inl ⟨old, rfl, (Option.some.inj added).symm⟩
  | none =>
    simp only [Archive.add, known] at added
    split at added
    next creates => exact .inr ⟨rfl, (Option.some.inj added).symm, List.any_eq_true.mp creates⟩
    · cases added

theorem Archive.add_none (added : archive.add events pubkey = none) :
    archive pubkey = none ∧ ∀ de ∈ eventsOf pubkey events, ¬ de.creates := by
  cases known : archive pubkey with
  | some old =>
    rw [Archive.add_known known] at added
    cases added
  | none =>
    simp only [Archive.add, known] at added
    split at added
    · cases added
    next none => exact ⟨rfl, fun de mine creates => none (List.any_eq_true.mpr ⟨de, mine, creates⟩)⟩

theorem filter_old (old : ∀ de ∈ events, de ∈ line) : events.filter (· ∉ line) = [] := by
  rw [List.filter_eq_nil_iff]
  intro de mine
  simpa using old de mine

theorem filter_new (new : ∀ de ∈ events, de ∉ line) : events.filter (· ∉ line) = events := by
  rw [List.filter_eq_self]
  exact fun de mine => decide_eq_true (new de mine)

end Add

section Batches
variable {now : Int} {poolId : Nat} {pubkey : String} {poolCache : String → Option Nat}
  {lpSupplyCache : Nat → Option Int} {events : List DecodedEvent} {start : Batches} {de : DecodedEvent}

theorem mem_eventsOf : de ∈ eventsOf pubkey events ↔ de ∈ events ∧ poolPubkey de.event = pubkey := by
  rw [eventsOf, List.mem_filter, decide_eq_true_eq]

theorem reservesFrom_append (carried : Option Int) (early late : List DecodedEvent) :
    reservesFrom now poolId carried (early ++ late) =
      reservesFrom now poolId carried early ++ reservesFrom now poolId (carry supply carried early) late := by
  induction early generalizing carried with
  | nil => rfl
  | cons de early ih =>
    rw [List.cons_append, reservesFrom, reservesFrom, ih, List.cons_append, carry_cons]

theorem reservesFrom_keys (carried : Option Int) (line : List DecodedEvent) :
    (reservesFrom now poolId carried line).map NewReservesRow.key = line.map DecodedEvent.key := by
  induction line generalizing carried with
  | nil => rfl
  | cons de line ih => rw [reservesFrom, List.map_cons, List.map_cons, ih, reservesRow_key]

theorem reservesRow_poolId (carried : Option Int) (de : DecodedEvent) :
    (reservesRow now poolId carried de).poolId = poolId := by
  unfold reservesRow
  split <;> rfl

private theorem add_supply {other : Nat} (known : poolCache (poolPubkey de.event) = some other) :
    (start.add now poolCache de).lpSupplyCache poolId =
      if other = poolId then (supply de).or (start.lpSupplyCache poolId) else start.lpSupplyCache poolId := by
  rw [Batches.add, known]
  unfold supply
  cases de.event with
  | swapExecuted s => simp
  | _ => simp [Function.update_apply, eq_comm]

/-- What the second pass makes of one pool: its rows, and the supply it carries on. -/
theorem fold_pool (now : Int) (addressed : ∀ de ∈ events,
    poolCache (poolPubkey de.event) = some poolId ↔ poolPubkey de.event = pubkey)
    (start : Batches) :
    ((events.foldl (Batches.add now poolCache) start).reserves.filter (·.poolId = poolId) =
      start.reserves.filter (·.poolId = poolId) ++
        reservesFrom now poolId (start.lpSupplyCache poolId) (eventsOf pubkey events)) ∧
      (events.foldl (Batches.add now poolCache) start).lpSupplyCache poolId =
        carry supply (start.lpSupplyCache poolId) (eventsOf pubkey events) := by
  induction events generalizing start with
  | nil => exact ⟨(List.append_nil _).symm, rfl⟩
  | cons de events ih =>
    have rest := ih (fun later member => addressed later (List.mem_cons_of_mem _ member)) (start.add now poolCache de)
    have first := addressed de List.mem_cons_self
    rw [List.foldl_cons, rest.1, rest.2]
    cases known : poolCache (poolPubkey de.event) with
    | none =>
      have other : poolPubkey de.event ≠ pubkey := by
        rw [known] at first
        exact fun same => by cases first.mpr same
      rw [add_unknown known, eventsOf, eventsOf, List.filter_cons_of_neg (by simpa using other)]
      exact ⟨rfl, rfl⟩
    | some id =>
      rw [known, Option.some.injEq] at first
      rw [(add_rows known).2.2, add_supply known]
      by_cases same : id = poolId
      · subst same
        rw [if_pos rfl, eventsOf, eventsOf, List.filter_cons_of_pos (by simpa using first.mp rfl), reservesFrom,
          carry_cons,
          List.filter_append, List.filter_cons_of_pos (by simp [reservesRow_poolId]), List.filter_nil, List.append_assoc,
          List.singleton_append]
        exact ⟨rfl, rfl⟩
      · have other : poolPubkey de.event ≠ pubkey := fun equal => same (first.mpr equal)
        rw [if_neg same, eventsOf, eventsOf, List.filter_cons_of_neg (by simpa using other), List.filter_append,
          List.filter_cons_of_neg (by simpa [reservesRow_poolId] using same), List.filter_nil, List.append_nil]
        exact ⟨rfl, rfl⟩

/-- The supply of a pool that no event is of stays as it was. -/
theorem fold_untouched (others : ∀ de ∈ events, poolCache (poolPubkey de.event) ≠ some poolId) (start : Batches) :
    (events.foldl (Batches.add now poolCache) start).lpSupplyCache poolId = start.lpSupplyCache poolId := by
  induction events generalizing start with
  | nil => rfl
  | cons de events ih =>
    rw [List.foldl_cons, ih fun later member => others later (List.mem_cons_of_mem _ member)]
    cases known : poolCache (poolPubkey de.event) with
    | none => rw [add_unknown known]
    | some id =>
      have other : id ≠ poolId := fun same => others de List.mem_cons_self (same ▸ known)
      rw [add_supply known, if_neg other]

/-- A supply is remembered only for the pools of the cache. -/
theorem fold_supplied (start : Batches)
    (supplied : ((events.foldl (Batches.add now poolCache) start).lpSupplyCache poolId).isSome) :
    (start.lpSupplyCache poolId).isSome ∨ ∃ de ∈ events, poolCache (poolPubkey de.event) = some poolId := by
  by_cases touched : ∃ de ∈ events, poolCache (poolPubkey de.event) = some poolId
  · exact .inr touched
  · rw [fold_untouched fun de member known => touched ⟨de, member, known⟩] at supplied
    exact .inl supplied

/-- A supply that is remembered is never forgotten. -/
theorem fold_remembers (start : Batches) (supplied : (start.lpSupplyCache poolId).isSome) :
    ((events.foldl (Batches.add now poolCache) start).lpSupplyCache poolId).isSome := by
  induction events generalizing start with
  | nil => exact supplied
  | cons de events ih =>
    apply ih
    cases known : poolCache (poolPubkey de.event) with
    | none =>
      rw [add_unknown known]
      exact supplied
    | some id =>
      rw [add_supply known]
      split
      · cases supply de with
        | none => exact supplied
        | some stated => rfl
      · exact supplied

theorem batchesOf_reserves_pools : (batchesOf now poolCache lpSupplyCache events).reserves.map NewReservesRow.poolId =
    events.filterMap fun de => poolCache (poolPubkey de.event) := by
  suffices each : ∀ start : Batches, (events.foldl (Batches.add now poolCache) start).reserves.map NewReservesRow.poolId =
      start.reserves.map NewReservesRow.poolId ++ events.filterMap fun de => poolCache (poolPubkey de.event) from each _
  intro start
  induction events generalizing start with
  | nil => exact (List.append_nil _).symm
  | cons de events ih =>
    rw [List.foldl_cons, ih, List.filterMap_cons]
    cases known : poolCache (poolPubkey de.event) with
    | none => rw [add_unknown known]
    | some id =>
      rw [(add_rows known).2.2, List.map_append, List.map_cons, List.map_nil, reservesRow_poolId, List.append_assoc,
        List.singleton_append]

/-- The clock is read only where a block has no time. -/
theorem ts_timed (timed : de.blockTime.isSome) (now : Int) : ts now de = ts 0 de := by
  obtain ⟨time, known⟩ := Option.isSome_iff_exists.mp timed
  rw [ts, ts, known]
  rfl

theorem batchesOf_timed (timed : ∀ de ∈ events, de.blockTime.isSome) :
    batchesOf now poolCache lpSupplyCache events = batchesOf 0 poolCache lpSupplyCache events := by
  apply List.foldl_ext
  intro batches de member
  have clock := ts_timed (timed de member) now
  simp only [Batches.add, newReserves, newSwap, newLiquidityAdd, newLiquidityRemove, clock]

theorem newPools_eq (events : List DecodedEvent) : newPools now events = events.filterMap (poolRow now) := rfl

theorem newPools_timed (timed : ∀ de ∈ events, de.blockTime.isSome) : newPools now events = newPools 0 events := by
  apply List.filterMap_congr
  intro de member
  simp only [newPool, ts_timed (timed de member) now]

theorem poolRow_pubkey {row : NewPoolRow} (made : poolRow now de = some row) : row.pubkey = poolPubkey de.event := by
  unfold poolRow at made
  split at made
  next p created =>
    cases made
    rw [created]
    rfl
  · cases made

/-- The creations of one pool, wherever they stand among the events. -/
theorem newPools_find : (newPools now events).find? (fun row => row.pubkey = pubkey) =
    (eventsOf pubkey events).findSome? (poolRow now) := by
  induction events with
  | nil => rfl
  | cons de events ih =>
    rw [newPools_eq] at ih ⊢
    by_cases same : poolPubkey de.event = pubkey
    · rw [eventsOf, List.filter_cons_of_pos (by simpa using same), List.findSome?_cons]
      cases made : poolRow now de with
      | none => rw [List.filterMap_cons_none made, ih, eventsOf]
      | some row =>
        rw [List.filterMap_cons_some made, List.find?_cons_of_pos]
        rw [poolRow_pubkey made, same, decide_eq_true rfl]
    · rw [eventsOf, List.filter_cons_of_neg (by simpa using same), ← eventsOf, ← ih]
      cases made : poolRow now de with
      | none => rw [List.filterMap_cons_none made]
      | some row =>
        rw [List.filterMap_cons_some made, List.find?_cons_of_neg]
        rw [poolRow_pubkey made]
        simpa using same

theorem batchesOf_reserves_keys : (batchesOf now poolCache lpSupplyCache events).reserves.map NewReservesRow.key =
    (events.filter fun de => (poolCache (poolPubkey de.event)).isSome).map DecodedEvent.key := by
  suffices each : ∀ start : Batches, (events.foldl (Batches.add now poolCache) start).reserves.map NewReservesRow.key =
      start.reserves.map NewReservesRow.key ++
        (events.filter fun de => (poolCache (poolPubkey de.event)).isSome).map DecodedEvent.key from each _
  intro start
  induction events generalizing start with
  | nil => exact (List.append_nil _).symm
  | cons de events ih =>
    rw [List.foldl_cons, ih]
    cases known : poolCache (poolPubkey de.event) with
    | none => rw [add_unknown known, List.filter_cons_of_neg (by simp [known])]
    | some poolId =>
      rw [(add_rows known).2.2, List.filter_cons_of_pos (by simp [known]), List.map_append, List.map_cons, List.map_nil,
        List.map_cons, reservesRow_key, List.append_assoc, List.singleton_append]

section Column
variable {Row : Type} {pool : Row → Nat} {key : Row → EventKey} {row : Nat → DecodedEvent → Option Row}

theorem column_pool (named : ∀ id de made, row id de = some made → pool made = id)
    (addressed : ∀ de ∈ events, poolCache (poolPubkey de.event) = some poolId ↔ poolPubkey de.event = pubkey) :
    (events.filterMap fun de => (poolCache (poolPubkey de.event)).bind fun id => row id de).filter (pool · = poolId) =
      (eventsOf pubkey events).filterMap (row poolId) := by
  rw [List.filter_filterMap, eventsOf, List.filterMap_filter]
  apply List.filterMap_congr
  intro de member
  have first := addressed de member
  by_cases same : poolPubkey de.event = pubkey
  · rw [first.mpr same, if_pos (by simpa using same), Option.bind_some]
    cases made : row poolId de with
    | none => rfl
    | some found => simp [named poolId de found made]
  · rw [if_neg (by simpa using same)]
    cases known : poolCache (poolPubkey de.event) with
    | none => rfl
    | some id =>
      rw [Option.bind_some]
      cases made : row id de with
      | none => rfl
      | some found =>
        have other : id ≠ poolId := by
          intro equal
          exact same (first.mp (known.trans (congrArg some equal)))
        simp [named id de found made, other]

variable {kind : DecodedEvent → Bool}

theorem column_keys (keyed : ∀ id de, (row id de).map key = if kind de then some de.key else none)
    (line : List DecodedEvent) : (line.filterMap (row poolId)).map key = (line.filter kind).map DecodedEvent.key := by
  induction line with
  | nil => rfl
  | cons de line ih =>
    have first := keyed poolId de
    cases made : row poolId de with
    | none =>
      rw [List.filterMap_cons_none made, ih, List.filter_cons_of_neg]
      intro records
      rw [made, if_pos records] at first
      cases first
    | some found =>
      have records : kind de = true := by
        by_contra omitted
        rw [made, if_neg omitted] at first
        cases first
      rw [made, if_pos records, Option.map_some, Option.some.injEq] at first
      rw [List.filterMap_cons_some made, List.map_cons, ih, List.filter_cons_of_pos records, List.map_cons, first]

/-- No event is proposed twice. -/
theorem column_distinct (keyed : ∀ id de, (row id de).map key = if kind de then some de.key else none)
    (distinct : (events.map DecodedEvent.key).Nodup) :
    ((events.filterMap fun de => (poolCache (poolPubkey de.event)).bind fun id => row id de).map key).Nodup := by
  refine List.Nodup.sublist ?_ distinct
  clear distinct
  induction events with
  | nil => exact List.Sublist.refl _
  | cons de events ih =>
    rw [List.map_cons]
    cases made : (poolCache (poolPubkey de.event)).bind fun id => row id de with
    | none =>
      rw [List.filterMap_cons, made]
      exact ih.cons _
    | some found =>
      obtain ⟨id, _, first⟩ := Option.bind_eq_some_iff.mp made
      have same := keyed id de
      rw [first] at same
      split at same
      · rw [List.filterMap_cons, made, List.map_cons, Option.some.inj same]
        exact ih.cons_cons _
      · cases same

end Column
end Batches
end DeepPool.Indexer
