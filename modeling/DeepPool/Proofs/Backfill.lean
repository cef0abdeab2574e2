import DeepPool.Indexer.Walk
import DeepPool.Proofs.Checkpoint
import DeepPool.Proofs.Recording

/-! What one run of the backfill leaves. An event is stored in the end if it was at the
start, or if the walk reaches its page and knows its pool by then. -/

namespace DeepPool.Indexer
open Library

section Page
variable {env : Environment} {events : List DecodedEvent} {before after : Session} {written : Written} {de : DecodedEvent}
  {count : Nat} {taken : EventKey}

theorem swapRow_source {now : Int} {poolId : Nat} {row : NewSwapRow} (made : swapRow now poolId de = some row) :
    row.key = de.key ∧ ∃ s, de.event = .swapExecuted s := by
  unfold swapRow at made
  split at made
  next s swapped =>
    rw [← Option.some.inj made]
    exact ⟨rfl, s, swapped⟩
  · cases made

theorem liquidityRow_source {now : Int} {poolId : Nat} {row : NewLiquidityRow}
    (made : liquidityRow now poolId de = some row) :
    row.key = de.key ∧ ((∃ la, de.event = .liquidityAdded la) ∨ ∃ lr, de.event = .liquidityRemoved lr) := by
  unfold liquidityRow at made
  split at made
  next la added =>
    rw [← Option.some.inj made]
    exact ⟨rfl, .inl ⟨la, added⟩⟩
  next lr removed =>
    rw [← Option.some.inj made]
    exact ⟨rfl, .inr ⟨lr, removed⟩⟩
  · cases made

/-- Every row that a write inserts is that of an event of a known pool, stored under a free key. -/
structure Sourced (events : List DecodedEvent) (before after : Db) (written : Written) : Prop where
  pools : ∀ row ∈ written.pools, ¬ before.pools.Holds row.data.pubkey ∧
    ∃ de ∈ events, de.creates ∧ poolPubkey de.event = row.data.pubkey
  reserves : ∀ row ∈ written.reserves, ¬ before.reserves.Holds row.data.key ∧
    ∃ de ∈ events, de.key = row.data.key ∧ after.pools.Holds (poolPubkey de.event)
  swaps : ∀ row ∈ written.swaps, ¬ before.swaps.Holds row.data.key ∧
    ∃ de ∈ events, de.key = row.data.key ∧ after.pools.Holds (poolPubkey de.event) ∧ ∃ s, de.event = .swapExecuted s
  liquidity : ∀ row ∈ written.liquidity, ¬ before.liquidityEvents.Holds row.data.key ∧
    ∃ de ∈ events, de.key = row.data.key ∧ after.pools.Holds (poolPubkey de.event) ∧
      ((∃ la, de.event = .liquidityAdded la) ∨ ∃ lr, de.event = .liquidityRemoved lr)

theorem Ingested.sources (ingested : Ingested env events before after written)
    (cached : ∀ pubkey poolId, before.poolCache pubkey = some poolId →
      ∃ row ∈ before.db.pools.rows, row.data.pubkey = pubkey ∧ row.id = poolId) :
    Sourced events before.db after.db written := by
  have known : ∀ pubkey poolId, after.poolCache pubkey = some poolId → after.db.pools.Holds pubkey := by
    intro pubkey poolId found
    obtain ⟨row, member, named, _⟩ := ingested.caches cached pubkey poolId found
    exact ⟨row, member, named⟩
  constructor
  · intro row member
    rw [ingested.pools] at member
    obtain ⟨offered, free⟩ := Table.insert_proposed member
    obtain ⟨de, listed, made⟩ := List.mem_filterMap.mp offered
    exact ⟨free, de, listed, poolRow_source made⟩
  · intro row member
    rw [ingested.reserves] at member
    obtain ⟨offered, free⟩ := Table.insert_proposed member
    obtain ⟨de, listed, poolId, carried, found, made⟩ := batchesOf_reserves offered
    exact ⟨free, de, listed, by rw [made, reservesRow_key], known _ _ found⟩
  · intro row member
    rw [ingested.swaps] at member
    obtain ⟨offered, free⟩ := Table.insert_proposed member
    rw [batchesOf_swaps] at offered
    obtain ⟨de, listed, made⟩ := List.mem_filterMap.mp offered
    obtain ⟨poolId, found, made⟩ := Option.bind_eq_some_iff.mp made
    obtain ⟨keyed, kind⟩ := swapRow_source made
    exact ⟨free, de, listed, keyed.symm, known _ _ found, kind⟩
  · intro row member
    rw [ingested.liquidity] at member
    obtain ⟨offered, free⟩ := Table.insert_proposed member
    rw [batchesOf_liquidity] at offered
    obtain ⟨de, listed, made⟩ := List.mem_filterMap.mp offered
    obtain ⟨poolId, found, made⟩ := Option.bind_eq_some_iff.mp made
    obtain ⟨keyed, kind⟩ := liquidityRow_source made
    exact ⟨free, de, listed, keyed.symm, known _ _ found, kind⟩

/-- What a page did to the tables, and when it did nothing. -/
structure Applied (events : List DecodedEvent) (before after : Db) (count : Nat) : Prop where
  pools : ∀ pubkey, after.pools.Holds pubkey ↔ before.pools.Holds pubkey ∨
    ∃ creation ∈ events, creation.creates ∧ poolPubkey creation.event = pubkey
  keeps : ∀ de, before.Commits de → after.Commits de
  commits : ∀ de ∈ events, after.pools.Holds (poolPubkey de.event) → after.Commits de
  reserves : ∀ taken, after.reserves.Holds taken → before.reserves.Holds taken ∨
    ∃ de ∈ events, de.key = taken ∧ after.pools.Holds (poolPubkey de.event)
  others : ∀ de, (∀ other ∈ events, other.key ≠ de.key) → before.pools.Holds (poolPubkey de.event) →
    after.Commits de → before.Commits de
  idle : count = 0 ↔ ∀ de ∈ events, before.Commits de ∨ ¬ after.pools.Holds (poolPubkey de.event)

/-- An event none of whose rows was inserted was stored before. -/
theorem Ingested.stored (ingested : Ingested env events before after written) (commits : after.db.Commits de)
    (known : before.db.pools.Holds (poolPubkey de.event)) (reserves : ∀ row ∈ written.reserves, row.data.key ≠ de.key)
    (swaps : ∀ row ∈ written.swaps, row.data.key ≠ de.key)
    (liquidity : ∀ row ∈ written.liquidity, row.data.key ≠ de.key) :
    before.db.Commits de := by
  have old : ∀ {Data : Type} {key : Data →
    EventKey} {table : Table key} {proposed : List Data} {inserted : List (Stored Data)},
      inserted = (table.insert proposed).2 → (∀ row ∈ inserted, key row.data ≠ de.key) →
        (table.insert proposed).1.Holds de.key → table.Holds de.key := by
    rintro Data key table proposed inserted rfl others holds
    rcases Table.holds_insert holds with old | ⟨row, new, keyed⟩
    · exact old
    · exact absurd keyed (others row new)
  obtain ⟨held, row⟩ := commits
  rw [ingested.database.reserves] at held
  refine ⟨old ingested.reserves reserves held, ?_⟩
  cases kind : de.event with
  | poolCreated p =>
    rw [kind] at known
    exact known
  | swapExecuted s =>
    rw [kind] at row
    simp only [ingested.database.swaps] at row
    exact old ingested.swaps swaps row
  | liquidityAdded la =>
    rw [kind] at row
    simp only [ingested.database.liquidity] at row
    exact old ingested.liquidity liquidity row
  | liquidityRemoved lr =>
    rw [kind] at row
    simp only [ingested.database.liquidity] at row
    exact old ingested.liquidity liquidity row

/-- A write that inserts nothing left out only events that are stored or of unknown pools. -/
theorem Ingested.stored_of_idle (ingested : Ingested env events before after written)
    (none : written.pools.length + written.reserves.length + written.swaps.length + written.liquidity.length = 0)
    (member : de ∈ events) : before.db.Commits de ∨ ¬ after.db.pools.Holds (poolPubkey de.event) := by
  have pools : written.pools = [] := List.length_eq_zero_iff.mp (by omega)
  have reserves : written.reserves = [] := List.length_eq_zero_iff.mp (by omega)
  have swaps : written.swaps = [] := List.length_eq_zero_iff.mp (by omega)
  have liquidity : written.liquidity = [] := List.length_eq_zero_iff.mp (by omega)
  by_cases known : after.db.pools.Holds (poolPubkey de.event)
  · left
    have commits := ingested.database.commits member known
    rw [ingested.database.pools] at known
    rcases Table.holds_insert known with old | ⟨row, new, _⟩
    · apply ingested.stored commits old
      · simp [reserves]
      · simp [swaps]
      · simp [liquidity]
    · rw [← ingested.pools, pools] at new
      cases new
  · exact .inr known

/-- Events that are stored or of unknown pools insert nothing. -/
theorem Sourced.idle (ingested : Ingested env events before after written)
    (sourced : Sourced events before.db after.db written)
    (idle : ∀ de ∈ events, before.db.Commits de ∨ ¬ after.db.pools.Holds (poolPubkey de.event)) :
    written.pools.length + written.reserves.length + written.swaps.length + written.liquidity.length = 0 := by
  have pools : written.pools = [] := by
    rw [List.eq_nil_iff_forall_not_mem]
    intro row new
    obtain ⟨free, de, member, creates, named⟩ := sourced.pools row new
    have known := ingested.database.creates member creates
    have commits := (idle de member).resolve_right (not_not.mpr known)
    exact free (named ▸ commits.created creates)
  have reserves : written.reserves = [] := by
    rw [List.eq_nil_iff_forall_not_mem]
    intro row new
    obtain ⟨free, de, member, keyed, known⟩ := sourced.reserves row new
    have commits := (idle de member).resolve_right (not_not.mpr known)
    exact free (keyed ▸ commits.1)
  have swaps : written.swaps = [] := by
    rw [List.eq_nil_iff_forall_not_mem]
    intro row new
    obtain ⟨free, de, member, keyed, known, s, kind⟩ := sourced.swaps row new
    obtain ⟨_, stored⟩ := (idle de member).resolve_right (not_not.mpr known)
    rw [kind] at stored
    exact free (keyed ▸ stored)
  have liquidity : written.liquidity = [] := by
    rw [List.eq_nil_iff_forall_not_mem]
    intro row new
    obtain ⟨free, de, member, keyed, known, kind⟩ := sourced.liquidity row new
    obtain ⟨_, stored⟩ := (idle de member).resolve_right (not_not.mpr known)
    rcases kind with ⟨la, kind⟩ | ⟨lr, kind⟩
    · rw [kind] at stored
      exact free (keyed ▸ stored)
    · rw [kind] at stored
      exact free (keyed ▸ stored)
  simp [pools, reserves, swaps, liquidity]

theorem Ingested.applied (ingested : Ingested env events before after written)
    (cached : ∀ pubkey poolId, before.poolCache pubkey = some poolId →
      ∃ row ∈ before.db.pools.rows, row.data.pubkey = pubkey ∧ row.id = poolId) :
    Applied events before.db after.db
      (written.pools.length + written.reserves.length + written.swaps.length + written.liquidity.length) := by
  have sourced := ingested.sources cached
  refine ⟨?_, fun de => ingested.database.keeps, fun de => ingested.database.commits, ?_, ?_,
    fun none de => ingested.stored_of_idle none, sourced.idle ingested⟩
  · intro pubkey
    constructor
    · exact ingested.database.holds_pool
    · rintro (old | ⟨creation, member, creates, rfl⟩)
      · exact ingested.database.keeps_pool old
      · exact ingested.database.creates member creates
  · intro taken holds
    rw [ingested.database.reserves] at holds
    rcases Table.holds_insert holds with old | ⟨row, new, rfl⟩
    · exact .inl old
    · rw [← ingested.reserves] at new
      exact .inr (sourced.reserves row new).2
  · intro de distinct known commits
    apply ingested.stored commits known
    · intro row new same
      obtain ⟨_, other, listed, keyed, _⟩ := sourced.reserves row new
      exact distinct other listed (keyed.trans same)
    · intro row new same
      obtain ⟨_, other, listed, keyed, _⟩ := sourced.swaps row new
      exact distinct other listed (keyed.trans same)
    · intro row new same
      obtain ⟨_, other, listed, keyed, _⟩ := sourced.liquidity row new
      exact distinct other listed (keyed.trans same)

theorem applyPage_applied (done : applyPage env events before = .ok count after)
    (cached : ∀ pubkey poolId, before.poolCache pubkey = some poolId →
      ∃ row ∈ before.db.pools.rows, row.data.pubkey = pubkey ∧ row.id = poolId) :
    Applied events before.db after.db count := by
  rcases applyPage_done done with ⟨rfl, rfl, rfl⟩ | ⟨written, ingested, rfl⟩
  · constructor
    · simp
    · exact fun _ commits => commits
    · simp
    · exact fun _ holds => .inl holds
    · exact fun _ _ _ commits => commits
    · simp
  · have applied := ingested.applied cached
    have sorted : ∀ de, de ∈ events.insertionSort (DecodedEvent.earlier · ·) ↔ de ∈ events :=
      fun _ => List.mem_insertionSort _
    refine ⟨?_, applied.keeps, ?_, ?_, ?_, ?_⟩
    · simpa only [sorted] using applied.pools
    · simpa only [sorted] using applied.commits
    · simpa only [sorted] using applied.reserves
    · simpa only [sorted] using applied.others
    · simpa only [sorted] using applied.idle

theorem applyPage_caches (done : applyPage env events before = .ok count after)
    (cached : ∀ pubkey poolId, before.poolCache pubkey = some poolId →
      ∃ row ∈ before.db.pools.rows, row.data.pubkey = pubkey ∧ row.id = poolId) :
    ∀ pubkey poolId, after.poolCache pubkey = some poolId →
      ∃ row ∈ after.db.pools.rows, row.data.pubkey = pubkey ∧ row.id = poolId := by
  rcases applyPage_done done with ⟨_, _, rfl⟩ | ⟨written, ingested, _⟩
  · exact cached
  · exact ingested.caches cached

/-- A page leaves the events of other pages as they are. -/
theorem Applied.frame {before after : Db} (applied : Applied events before after count)
    (distinct : ∀ other ∈ events, other.key ≠ de.key)
    (linked : before.reserves.Holds de.key → before.pools.Holds (poolPubkey de.event)) :
    after.Commits de ↔ before.Commits de := by
  constructor
  · intro commits
    rcases applied.reserves de.key commits.1 with old | ⟨other, member, same, _⟩
    · exact applied.others de distinct (linked old) commits
    · exact absurd same (distinct other member)
  · exact applied.keeps de

end Page

section Walk
variable {rpc : Rpc} {programId : String} {envs : Nat → Environment} {env : Environment} {db : Db}
  {pages : List (List DecodedEvent)} {page : List DecodedEvent} {n : Nat} {session after : Session} {de : DecodedEvent}

section Rounds
variable {fuel pageNum count : Nat} {before : Option String} {shown : List SignatureEntry} {oldest : SignatureEntry}

theorem Backfill.loop_done (answer : getSignatures (rpc.signatures before) = .ok []) :
    Backfill.loop rpc programId envs (fuel + 1) pageNum before session = some (.ok (), session) := by
  unfold Backfill.loop
  rw [answer]
  rfl

theorem Backfill.loop_idle (answer : getSignatures (rpc.signatures before) = .ok shown)
    (last : shown.getLast? = some oldest)
    (outcome : applyPage (envs pageNum) (rpc.decode programId shown) session = .ok 0 after) :
    Backfill.loop rpc programId envs (fuel + 1) pageNum before session = some (.ok (), after) := by
  unfold Backfill.loop
  rw [answer]
  simp only [last, outcome, if_true]

theorem Backfill.loop_more (answer : getSignatures (rpc.signatures before) = .ok shown)
    (last : shown.getLast? = some oldest)
    (outcome : applyPage (envs pageNum) (rpc.decode programId shown) session = .ok count after) (some_ : count ≠ 0) :
    Backfill.loop rpc programId envs (fuel + 1) pageNum before session =
      Backfill.loop rpc programId envs fuel (pageNum + 1) (some oldest.signature) after := by
  rw [Backfill.loop, answer]
  simp only [last, outcome, if_neg some_]

/-- One page, and then no more. -/
theorem Backfill.run_page (answer : getSignatures (rpc.signatures none) = .ok shown) (last : shown.getLast? = some oldest)
    (outcome : applyPage (envs 1) (rpc.decode programId shown) (.load db) = .ok count after) (some_ : count ≠ 0)
    (ended : getSignatures (rpc.signatures (some oldest.signature)) = .ok []) :
    Backfill.run rpc programId envs (fuel + 2) db = some (.ok (), after) :=
  (Backfill.loop_more answer last outcome some_).trans (Backfill.loop_done ended)

end Rounds

/-- The walk has taken some pages. Their events are stored where their pools are known,
and those of the others as they were at the start. -/
structure Visited (db : Db) (pages : List (List DecodedEvent)) (n : Nat) (session : Session) : Prop where
  cached : ∀ pubkey poolId, session.poolCache pubkey = some poolId →
    ∃ row ∈ session.db.pools.rows, row.data.pubkey = pubkey ∧ row.id = poolId
  pools : ∀ pubkey, session.db.pools.Holds pubkey ↔ db.pools.Holds pubkey ∨
    ∃ page ∈ pages.take n, ∃ creation ∈ page, creation.creates ∧ poolPubkey creation.event = pubkey
  linked : ∀ page ∈ pages, ∀ de ∈ page, session.db.reserves.Holds de.key → session.db.pools.Holds (poolPubkey de.event)
  taken : ∀ i < n, ∀ page, pages[i]? = some page → ∀ de ∈ page,
    (session.db.Commits de ↔ db.Knows (pages.take (i + 1)) de)
  rest : ∀ i, n ≤ i → ∀ page, pages[i]? = some page → ∀ de ∈ page, (session.db.Commits de ↔ db.Commits de)

/-- No key is on two pages. -/
theorem page_distinct (keyed : (pages.flatten.map DecodedEvent.key).Nodup) {i j : Nat} {events others : List DecodedEvent}
    (first : pages[i]? = some events) (second : pages[j]? = some others) (different : i ≠ j) (member : de ∈ events) :
    ∀ other ∈ others, other.key ≠ de.key := by
  intro other listed same
  rw [List.map_flatten, List.nodup_flatten] at keyed
  have apart := List.pairwise_iff_getElem.mp keyed.2
  obtain ⟨inside, rfl⟩ := List.getElem?_eq_some_iff.mp first
  obtain ⟨within, rfl⟩ := List.getElem?_eq_some_iff.mp second
  rcases Nat.lt_or_gt_of_ne different with before | behind
  · apply apart i j (by simpa using inside) (by simpa using within) before
    · rw [List.getElem_map]
      exact List.mem_map_of_mem member
    · rw [List.getElem_map, ← same]
      exact List.mem_map_of_mem listed
  · apply apart j i (by simpa using within) (by simpa using inside) behind
    · rw [List.getElem_map]
      exact List.mem_map_of_mem listed
    · rw [List.getElem_map, same]
      exact List.mem_map_of_mem member

theorem Visited.step {count : Nat} (visited : Visited db pages n session) (found : pages[n]? = some page)
    (keyed : (pages.flatten.map DecodedEvent.key).Nodup) (done : applyPage env page session = .ok count after) :
    Visited db pages (n + 1) after ∧ (count = 0 ↔ db.Idle pages n) := by
  have applied := applyPage_applied done visited.cached
  have listed : page ∈ pages := List.mem_of_getElem? found
  have pools : ∀ pubkey, after.db.pools.Holds pubkey ↔ db.pools.Holds pubkey ∨
      ∃ page ∈ pages.take (n + 1), ∃ creation ∈ page, creation.creates ∧ poolPubkey creation.event = pubkey := by
    intro pubkey
    rw [applied.pools, visited.pools, List.take_add_one, found]
    simp only [Option.toList_some, List.mem_append, List.mem_singleton, or_and_right, exists_or, exists_eq_left, or_assoc]
  have linked : ∀ other ∈ pages, ∀ de ∈ other, after.db.reserves.Holds de.key →
      after.db.pools.Holds (poolPubkey de.event) := by
    intro other present de member holds
    rcases applied.reserves de.key holds with old | ⟨twin, new, same, known⟩
    · exact (applied.pools _).mpr (.inl (visited.linked other present de member old))
    · have equal := List.inj_on_of_nodup_map keyed (List.mem_flatten.mpr ⟨page, listed, new⟩)
        (List.mem_flatten.mpr ⟨other, present, member⟩) same
      exact equal ▸ known
  have frame : ∀ i, i ≠ n → ∀ other, pages[i]? = some other →
    ∀ de ∈ other, (after.db.Commits de ↔ session.db.Commits de) := by
    intro i different other present de member
    exact applied.frame (page_distinct keyed present found different member)
      (visited.linked other (List.mem_of_getElem? present) de member)
  refine ⟨⟨applyPage_caches done visited.cached, pools, linked, ?_, ?_⟩, ?_⟩
  · intro i inside other present de member
    by_cases here : i = n
    · subst here
      obtain rfl := Option.some.inj (found.symm.trans present)
      constructor
      · intro commits
        exact (pools _).mp (linked page listed de member commits.1)
      · intro known
        exact applied.commits de member ((pools _).mpr known)
    · rw [frame i here other present de member]
      exact visited.taken i (by omega) other present de member
  · intro i beyond other present de member
    rw [frame i (by omega) other present de member]
    exact visited.rest i (by omega) other present de member
  · rw [applied.idle]
    have each : ∀ de ∈ page, (session.db.Commits de ∨ ¬ after.db.pools.Holds (poolPubkey de.event)) ↔
        (db.Commits de ∨ ¬ db.Knows (pages.take (n + 1)) de) := by
      intro de member
      rw [visited.rest n (le_refl _) page found de member, pools]
      exact Iff.rfl
    constructor
    · intro idle other present de member
      obtain rfl := Option.some.inj (found.symm.trans present)
      exact (each de member).mp (idle de member)
    · intro idle de member
      exact (each de member).mpr (idle page found de member)

/-- The walk ends after the pages that it reaches. -/
theorem Visited.loop {fuel pageNum : Nat} {before : Option String} {older : List (List SignatureEntry)}
    (visited : Visited db pages n session) (keyed : (pages.flatten.map DecodedEvent.key).Nodup)
    (paged : rpc.Pages before older) (remaining : pages.drop n = older.map (rpc.decode programId))
    (moving : ∀ k < n, ¬ db.Idle pages k)
    (returned : Backfill.loop rpc programId envs fuel pageNum before session = some (.ok (), after)) :
    ∃ m, Visited db pages m after ∧ ∀ i < pages.length, (i < m ↔ db.Reaches pages i) := by
  induction fuel generalizing n pageNum before older session with
  | zero => cases returned
  | succ fuel ih =>
    unfold Backfill.loop at returned
    cases paged with
    | done answer =>
      rw [answer] at returned
      cases returned
      refine ⟨n, visited, ?_⟩
      intro i inside
      have ended : pages.length ≤ n := List.drop_eq_nil_iff.mp remaining
      constructor
      · intro _ k earlier
        exact moving k (by omega)
      · intro _
        omega
    | @more _ page oldest older answer last rest =>
      rw [answer] at returned
      simp only [last] at returned
      have found : pages[n]? = some (rpc.decode programId page) := by
        rw [← List.head?_drop, remaining]
        rfl
      cases outcome : applyPage (envs pageNum) (rpc.decode programId page) session with
      | error error failed =>
        rw [outcome] at returned
        cases returned
      | ok count next =>
        rw [outcome] at returned
        dsimp only at returned
        obtain ⟨stepped, idle⟩ := visited.step found keyed outcome
        split at returned
        next none =>
          cases returned
          refine ⟨n + 1, stepped, ?_⟩
          intro i _
          constructor
          · intro _ k earlier
            exact moving k (by omega)
          · intro reaches
            by_contra beyond
            exact reaches n (by omega) (idle.mp none)
        next some_ =>
          apply ih stepped rest _ _ returned
          · rw [← List.tail_drop, remaining]
            rfl
          · intro k earlier
            by_cases here : k = n
            · subst here
              exact fun still => some_ (idle.mpr still)
            · exact moving k (by omega)

/-- Fuel for one more round than there are pages is enough. -/
theorem Backfill.loop_returns {fuel pageNum : Nat} {before : Option String} {older : List (List SignatureEntry)}
    (paged : rpc.Pages before older) (enough : older.length < fuel) :
    (Backfill.loop rpc programId envs fuel pageNum before session).isSome := by
  induction paged generalizing fuel pageNum session with
  | done answer =>
    cases fuel with
    | zero => omega
    | succ fuel =>
      unfold Backfill.loop
      rw [answer]
      rfl
  | @more before page oldest older answer last rest ih =>
    cases fuel with
    | zero => omega
    | succ fuel =>
      unfold Backfill.loop
      rw [answer]
      simp only [last]
      split
      · rfl
      · split
        · rfl
        · exact ih (by simpa using enough)

end Walk

section History
variable {history : ProgramHistory} {program : Pubkey} {rpc : Rpc} {pages : List (List SignatureEntry)}
  {block : ConfirmedBlock} {tx : ConfirmedTransaction} {de : DecodedEvent} {db : Db}

theorem ProgramHistory.mem_listing : (block, tx) ∈ history.listing ↔ block ∈ history.blocks ∧
    tx ∈ block.transactions := by
  unfold ProgramHistory.listing
  rw [List.mem_reverse, List.mem_flatMap]
  constructor
  · rintro ⟨_, member, listed⟩
    obtain ⟨_, present, same⟩ := List.mem_map.mp listed
    cases same
    exact ⟨member, present⟩
  · rintro ⟨member, present⟩
    exact ⟨block, member, List.mem_map_of_mem present⟩

theorem ProgramHistory.mem_recorded : de ∈ history.recorded program ↔
    ∃ block ∈ history.blocks, ∃ tx ∈ block.transactions, de ∈ block.recorded .compute program tx := by
  unfold ProgramHistory.recorded
  rw [List.mem_flatMap]
  constructor
  · rintro ⟨⟨block, tx⟩, listed, member⟩
    obtain ⟨within, present⟩ := ProgramHistory.mem_listing.mp listed
    exact ⟨block, within, tx, present, member⟩
  · rintro ⟨block, within, tx, present, member⟩
    exact ⟨(block, tx), ProgramHistory.mem_listing.mpr ⟨within, present⟩, member⟩

theorem decodeInner_place {discs : Discriminators} {programIdx flatIdx : Nat}
    {decoded : Nat → DeepPoolEvent → DecodedEvent}
    {ix : CompiledInstruction} (found : decodeInner discs programIdx decoded (ix, flatIdx) = some de) :
    ∃ event, de = decoded flatIdx event := by
  rw [decodeInner] at found
  split at found
  · split at found
    next event _ => exact ⟨event, (Option.some.inj found).symm⟩
    · cases found
  · cases found

theorem recorded_signature (member : de ∈ block.recorded .compute program tx) : de.signature = tx.signatureText := by
  unfold ConfirmedBlock.recorded at member
  split at member
  · cases member
  · obtain ⟨⟨ix, flatIdx⟩, _, found⟩ := List.mem_filterMap.mp member
    obtain ⟨event, rfl⟩ := decodeInner_place found
    rfl

/-- The events of one transaction are told apart by their places. -/
theorem recorded_keys : ((block.recorded .compute program tx).map DecodedEvent.key).Nodup := by
  unfold ConfirmedBlock.recorded
  split
  · exact List.nodup_nil
  next programIdx _ =>
    have places : (tx.innerInstructions.flatten.zipIdx.map Prod.snd).Nodup := by
      rw [List.zipIdx_map_snd]
      exact List.nodup_range'
    rw [List.Nodup, List.pairwise_map] at places ⊢
    apply places.filterMap
    rintro ⟨ix, flatIdx⟩ ⟨other, place⟩ different de found twin listed same
    obtain ⟨event, rfl⟩ := decodeInner_place found
    obtain ⟨_, rfl⟩ := decodeInner_place listed
    have equal : flatIdx = place := congrArg Prod.snd same
    exact different equal

theorem ProgramHistory.listing_distinct (history : ProgramHistory) :
    (history.listing.map fun item => item.2.signature).Nodup := by
  have distinct := history.distinct
  rw [List.map_flatMap] at distinct
  unfold ProgramHistory.listing
  rw [List.map_reverse, List.nodup_reverse, List.map_flatMap]
  simp only [List.map_map]
  exact distinct

theorem ProgramHistory.keyed : ((history.recorded program).map DecodedEvent.key).Nodup := by
  unfold ProgramHistory.recorded
  rw [List.map_flatMap, List.nodup_flatMap]
  refine ⟨fun item _ => recorded_keys, ?_⟩
  have signatures := history.listing_distinct
  rw [List.Nodup, List.pairwise_map] at signatures
  apply signatures.imp
  rintro ⟨block, tx⟩ ⟨other, twin⟩ different key mine also
  obtain ⟨de, member, rfl⟩ := List.mem_map.mp mine
  obtain ⟨copy, listed, same⟩ := List.mem_map.mp also
  have texts : twin.signatureText = tx.signatureText := by
    rw [← recorded_signature listed, ← recorded_signature member]
    exact congrArg Prod.fst same
  exact different (Vector.toList_inj.mp (encodeBase58_inj.mp texts)).symm

theorem ProgramHistory.mem_entries {entry : SignatureEntry} : entry ∈ history.entries ↔
    ∃ block ∈ history.blocks, ∃ tx ∈ block.transactions, entry = block.entry tx := by
  unfold ProgramHistory.entries
  rw [List.mem_map]
  constructor
  · rintro ⟨⟨block, tx⟩, listed, rfl⟩
    obtain ⟨within, present⟩ := ProgramHistory.mem_listing.mp listed
    exact ⟨block, within, tx, present, rfl⟩
  · rintro ⟨block, within, tx, present, rfl⟩
    exact ⟨(block, tx), ProgramHistory.mem_listing.mpr ⟨within, present⟩, rfl⟩

/-- A page is read transaction by transaction, the oldest first. -/
theorem Rpc.decode_each (rpc : Rpc) (programId : String) (page : List SignatureEntry) :
    rpc.decode programId page = page.reverse.flatMap fun entry => rpc.decode programId [entry] := by
  unfold Rpc.decode decodePage
  simp only [← List.map_reverse, List.flatMap_map, List.map_singleton, List.reverse_singleton, List.flatMap_singleton]

theorem Rpc.decode_found (answer : rpc.transaction (block.entry tx).signature = .ok tx.response) :
    rpc.decode (encodeBase58 program.toList) [block.entry tx] = block.recorded .compute program tx := by
  unfold Rpc.decode decodePage
  simp only [List.map_singleton, List.reverse_singleton, List.flatMap_singleton, answer, decodeTx_recorded]

/-- The pages hold the events of the history, in another order. -/
theorem Rpc.Serves.decoded (serves : rpc.Serves history pages) :
    (pages.map (rpc.decode (encodeBase58 program.toList))).flatten.Perm (history.recorded program) := by
  let events (entry : SignatureEntry) : List DecodedEvent := rpc.decode (encodeBase58 program.toList) [entry]
  have paged : ∀ pages : List (List SignatureEntry),
      (pages.map (rpc.decode (encodeBase58 program.toList))).flatten.Perm (pages.flatten.flatMap events) := by
    intro pages
    induction pages with
    | nil => exact List.Perm.refl _
    | cons page older ih =>
      rw [List.map_cons, List.flatten_cons, List.flatten_cons, List.flatMap_append, Rpc.decode_each]
      exact ((List.reverse_perm page).flatMap_right events).append ih
  have whole : history.entries.flatMap events = history.recorded program := by
    unfold ProgramHistory.entries ProgramHistory.recorded
    rw [List.flatMap_map]
    apply List.flatMap_congr
    rintro ⟨block, tx⟩ listed
    obtain ⟨within, present⟩ := ProgramHistory.mem_listing.mp listed
    have answer : rpc.transaction (block.entry tx).signature = .ok tx.response := serves.found block within tx present
    exact Rpc.decode_found answer
  rw [← whole, ← serves.complete]
  exact paged pages

/-- Every row is that of an event, and the rows of a pool's events belong to it. -/
structure Db.Within (events : List DecodedEvent) (db : Db) : Prop where
  pools : ∀ row ∈ db.pools.rows, ∃ de ∈ events, ∃ now, poolRow now de = some row.data
  reserves : ∀ row ∈ db.reserves.rows, ∃ de ∈ events, ∃ pool ∈ db.pools.rows, pool.data.pubkey = poolPubkey de.event ∧
    ∃ now carried, row.data = reservesRow now pool.id carried de
  swaps : ∀ row ∈ db.swaps.rows, ∃ de ∈ events, ∃ pool ∈ db.pools.rows, pool.data.pubkey = poolPubkey de.event ∧
    ∃ now, swapRow now pool.id de = some row.data
  liquidity : ∀ row ∈ db.liquidityEvents.rows, ∃ de ∈ events, ∃ pool ∈ db.pools.rows,
    pool.data.pubkey = poolPubkey de.event ∧ ∃ now, liquidityRow now pool.id de = some row.data

theorem Db.Within.linked (within : db.Within (history.recorded program)) (member : de ∈ history.recorded program)
    (holds : db.reserves.Holds de.key) : db.pools.Holds (poolPubkey de.event) := by
  obtain ⟨row, stored, keyed⟩ := holds
  obtain ⟨other, listed, pool, known, named, now, carried, made⟩ := within.reserves row stored
  rw [made, reservesRow_key] at keyed
  obtain rfl := List.inj_on_of_nodup_map ProgramHistory.keyed listed member keyed
  exact ⟨pool, known, named⟩

/-- What a completed backfill stores: what was there, and the events on the pages it
reaches while it knows their pools. -/
theorem backfill_commits {events : List (List DecodedEvent)} {fuel : Nat} {envs : Nat → Environment} {after : Session}
    (serves : rpc.Serves history pages) (within : db.Within (history.recorded program))
    (decoded : pages.map (rpc.decode (encodeBase58 program.toList)) = events)
    (returned : Backfill.run rpc (encodeBase58 program.toList) envs fuel db = some (.ok (), after)) {i : Nat}
    {page : List DecodedEvent} (found : events[i]? = some page) (member : de ∈ page) :
    after.db.Commits de ↔ db.Commits de ∨ db.Knows (events.take (i + 1)) de ∧ db.Reaches events i := by
  have whole : events.flatten.Perm (history.recorded program) := decoded ▸ serves.decoded
  have keyed : (events.flatten.map DecodedEvent.key).Nodup :=
    (whole.map DecodedEvent.key).nodup_iff.mpr ProgramHistory.keyed
  have linked : ∀ page ∈ events, ∀ de ∈ page, db.reserves.Holds de.key → db.pools.Holds (poolPubkey de.event) :=
    fun page listed de member => within.linked (whole.mem_iff.mp (List.mem_flatten.mpr ⟨page, listed, member⟩))
  have start : Visited db events 0 (.load db) := by
    refine ⟨fun _ _ => loadPoolCache_stored, ?_, linked, ?_, ?_⟩
    · intro pubkey
      simp [Session.load]
    · intro i impossible
      omega
    · exact fun _ _ _ _ _ _ => Iff.rfl
  obtain ⟨m, visited, reached⟩ := start.loop keyed serves.paged decoded.symm (fun k impossible => by omega) returned
  have inside : i < events.length := (List.getElem?_eq_some_iff.mp found).1
  rcases Nat.lt_or_ge i m with taken | beyond
  · rw [visited.taken i taken page found de member]
    constructor
    · intro known
      exact .inr ⟨known, (reached i inside).mp taken⟩
    · rintro (stored | ⟨known, _⟩)
      · exact .inl (linked page (List.mem_of_getElem? found) de member stored.1)
      · exact known
  · rw [visited.rest i beyond page found de member]
    constructor
    · exact .inl
    · rintro (stored | ⟨_, reaches⟩)
      · exact stored
      · exact absurd ((reached i inside).mpr reaches) (not_lt.mpr beyond)

/-- The backfill returns, and its run is complete exactly when every executed event is
stored at the start, or is on a page that is reached while its pool is known. -/
theorem backfill_complete_iff {envs : Nat → Environment} (serves : rpc.Serves history pages)
    (within : db.Within (history.recorded program)) :
    (∀ fuel, pages.length < fuel → (Backfill.run rpc (encodeBase58 program.toList) envs fuel db).isSome) ∧
      ∀ fuel after, Backfill.run rpc (encodeBase58 program.toList) envs fuel db = some (.ok (), after) →
        ((∀ de, history.Executed program de → after.db.Commits de) ↔
          ∀ i page, (pages.map (rpc.decode (encodeBase58 program.toList)))[i]? = some page →
            ∀ de ∈ page, history.Executed program de → db.Commits de ∨
              db.Knows ((pages.map (rpc.decode (encodeBase58 program.toList))).take (i + 1)) de ∧
                db.Reaches (pages.map (rpc.decode (encodeBase58 program.toList))) i) := by
  constructor
  · exact fun fuel enough => Backfill.loop_returns serves.paged enough
  · intro fuel after returned
    constructor
    · intro complete i page found de member executed
      exact (backfill_commits serves within rfl returned found member).mp (complete de executed)
    · intro reached de executed
      have recorded : de ∈ history.recorded program := by
        obtain ⟨block, present, tx, listed, _, records⟩ := executed
        exact ProgramHistory.mem_recorded.mpr ⟨block, present, tx, listed, records⟩
      obtain ⟨page, shown, member⟩ := List.mem_flatten.mp (serves.decoded.mem_iff.mpr recorded)
      obtain ⟨i, found⟩ := List.mem_iff_getElem?.mp shown
      exact (backfill_commits serves within rfl returned found member).mpr (reached i page found de member executed)

end History

section Node
variable {history : ProgramHistory} {entry : SignatureEntry} {limit : Nat}

/-- Block times are 64-bit numbers. -/
def SignatureEntry.Timed (entry : SignatureEntry) : Prop :=
  ∀ time ∈ entry.blockTime, -9223372036854775808 ≤ time ∧ time ≤ 9223372036854775807

theorem SignatureEntry.ofJson?_json (timed : entry.Timed) : SignatureEntry.ofJson? entry.json = some entry := by
  have signature : entry.json.get? "signature" = some (.string entry.signature) := by rfl
  have slot : entry.json.get? "slot" = some (.number entry.slot.val) := by rfl
  have blockTime : entry.json.get? "blockTime" = some (entry.blockTime.elim .null .number) := by rfl
  have small : (entry.slot.val : Int) ≤ 18446744073709551615 := by
    have bound := entry.slot.isLt
    omega
  have word : asU64 entry.slot.val = entry.slot := by
    apply Fin.ext
    have bound := entry.slot.isLt
    unfold asU64
    simp only
    omega
  have time : optionalI64? (some (entry.blockTime.elim .null .number)) = some entry.blockTime := by
    cases known : entry.blockTime with
    | none => rfl
    | some time =>
      have bounds := timed time known
      rw [Option.elim_some, optionalI64?, if_pos bounds]
  unfold SignatureEntry.ofJson?
  simp only [signature, slot, blockTime, Option.bind_some, Value.asStr?, Value.asU64?,
    if_pos (And.intro (Int.natCast_nonneg _) small),
    Int.toNat_natCast, time, Option.bind_eq_bind, word]
  rfl

theorem getSignatures_json {entries : List SignatureEntry} (timed : ∀ entry ∈ entries, entry.Timed) :
    getSignatures (.ok (.object [("result", .array (entries.map SignatureEntry.json))])) = .ok entries := by
  have parsed : (entries.map SignatureEntry.json).mapM SignatureEntry.ofJson? = some entries := by
    induction entries with
    | nil => rfl
    | cons entry entries ih =>
      rw [List.map_cons, List.mapM_cons, SignatureEntry.ofJson?_json (timed entry List.mem_cons_self),
        ih fun later member => timed later (List.mem_cons_of_mem _ member)]
      rfl
  have none : (Value.object [("result", .array (entries.map SignatureEntry.json))]).get? "error" = none := by rfl
  have result : (Value.object [("result", .array (entries.map SignatureEntry.json))]).get? "result" =
      some (.array (entries.map SignatureEntry.json)) := by rfl
  unfold getSignatures
  simp only [bind, Except.bind, none, result, orMalformed, Option.elim_some, Value.asArray?, Option.bind_some, parsed]

/-- What is older than a signature stands behind it. -/
theorem older_entries {newer rest : List SignatureEntry}
    (distinct : ((newer ++ entry :: rest).map SignatureEntry.signature).Nodup) :
    ((newer ++ entry :: rest).dropWhile (·.signature ≠ entry.signature)).tail = rest := by
  rw [List.map_append, List.nodup_append] at distinct
  have others : ∀ other ∈ newer, decide (other.signature ≠ entry.signature) = true := by
    intro other listed
    exact decide_eq_true (distinct.2.2 _ (List.mem_map_of_mem listed) _ (List.mem_map_of_mem List.mem_cons_self))
  rw [List.dropWhile_append_of_pos others, List.dropWhile_cons_of_neg (by simp)]
  rfl

theorem ProgramHistory.entries_distinct (history : ProgramHistory) :
    (history.entries.map SignatureEntry.signature).Nodup := by
  have signatures := history.listing_distinct
  rw [List.Nodup, List.pairwise_map] at signatures
  unfold ProgramHistory.entries
  rw [List.map_map, List.Nodup, List.pairwise_map]
  apply signatures.imp
  intro item other different same
  exact different (Vector.toList_inj.mp (encodeBase58_inj.mp same))

/-- From any signature on the pages hold all that is older. -/
theorem ProgramHistory.node_pages (history : ProgramHistory) (positive : 0 < limit)
    (timed : ∀ entry ∈ history.entries, entry.Timed) {newer rest : List SignatureEntry} (before : Option String)
    (whole : history.entries = newer ++ rest) (older : (before.elim history.entries fun signature =>
      (history.entries.dropWhile (·.signature ≠ signature)).tail) = rest) :
    ∃ pages, (history.node limit).Pages before pages ∧ pages.flatten = rest := by
  have answer : getSignatures ((history.node limit).signatures before) = .ok (rest.take limit) := by
    unfold ProgramHistory.node
    simp only [older]
    apply getSignatures_json
    intro entry listed
    apply timed
    rw [whole]
    exact List.mem_append_right _ (List.mem_of_mem_take listed)
  cases last : (rest.take limit).getLast? with
  | none =>
    have ended : rest.take limit = [] := List.getLast?_eq_none_iff.mp last
    have empty : rest = [] := (List.take_eq_nil_iff.mp ended).resolve_left (by omega)
    exact ⟨[], .done (ended ▸ answer), empty.symm⟩
  | some oldest =>
    obtain ⟨front, page⟩ := List.getLast?_eq_some_iff.mp last
    have parts : history.entries = (newer ++ front) ++ oldest :: rest.drop limit := by
      rw [whole, List.append_assoc, List.append_cons, ← page, List.take_append_drop]
    have smaller : (rest.drop limit).length < rest.length := by
      have size := congrArg List.length page
      rw [List.length_take, List.length_append, List.length_singleton] at size
      rw [List.length_drop]
      omega
    have behind : ((some oldest.signature).elim history.entries fun signature =>
        (history.entries.dropWhile (·.signature ≠ signature)).tail) = rest.drop limit := by
      have distinct := history.entries_distinct
      rw [parts] at distinct
      rw [Option.elim_some, parts]
      exact older_entries distinct
    obtain ⟨pages, paged, flat⟩ := node_pages history positive timed (some oldest.signature)
      (parts.trans (List.append_cons (newer ++ front) oldest _)) behind
    exact ⟨rest.take limit :: pages, .more answer last paged, by rw [List.flatten_cons, flat, List.take_append_drop]⟩
termination_by rest.length

/-- Such a node shows the whole history, page by page. -/
theorem ProgramHistory.node_serves (history : ProgramHistory) (positive : 0 < limit)
    (timed : ∀ entry ∈ history.entries, entry.Timed) : ∃ pages, (history.node limit).Serves history pages := by
  obtain ⟨pages, paged, complete⟩ := history.node_pages positive timed none (List.nil_append _).symm rfl
  refine ⟨pages, paged, complete, ?_⟩
  intro block within tx present
  have listed := ProgramHistory.mem_listing.mpr ⟨within, present⟩
  cases first : history.listing.find? fun item => item.2.signatureText = tx.signatureText with
  | none => exact absurd (List.find?_eq_none.mp first _ listed) (by simp)
  | some item =>
    have same := List.find?_some first
    have equal : item.2.signature = tx.signature :=
      Vector.toList_inj.mp (encodeBase58_inj.mp (of_decide_eq_true same))
    have identical := List.inj_on_of_nodup_map history.listing_distinct (List.mem_of_find?_eq_some first) listed equal
    unfold ProgramHistory.node
    simp only
    rw [first, identical]
    rfl

end Node

section Samples
variable {rpc : Rpc} {programId : String} {envs : Nat → Environment} {db : Db} {page : List SignatureEntry}
  {oldest : SignatureEntry}

def sampleProgram : Pubkey := Vector.replicate 32 7

def creatingTransaction : ConfirmedTransaction where
  signature := Vector.replicate 64 5
  cosignatures := []
  accountKeys := [Vector.replicate 32 1, sampleProgram]
  loadedWritable := []
  loadedReadonly := []
  instructions := []
  innerInstructions := [[⟨1, eventBytes .compute sampleCreated.event.emitted⟩]]
  err := none

def creatingBlock : ConfirmedBlock := ⟨100, some 1700000000, [creatingTransaction]⟩

def creatingEvent : DecodedEvent := { sampleCreated with signature := creatingTransaction.signatureText }

theorem creating_recorded : creatingBlock.recorded .compute sampleProgram creatingTransaction = [creatingEvent] := by
  decide +kernel

/-- A failed call records nothing. -/
def failedTransaction (n : Nat) : ConfirmedTransaction where
  signature := ((Vector.replicate 64 0).set 0 (UInt8.ofNat n)).set 1 (UInt8.ofNat (n / 256))
  cosignatures := []
  accountKeys := [Vector.replicate 32 1, sampleProgram]
  loadedWritable := []
  loadedReadonly := []
  instructions := [⟨1, []⟩]
  innerInstructions := []
  err := some ⟨[], .string "InstructionError"⟩

theorem failed_distinct {n m : Nat} (small : n < 65536) (bounded : m < 65536)
    (same : (failedTransaction n).signature = (failedTransaction m).signature) : n = m := by
  have low : UInt8.ofNat n = UInt8.ofNat m := congrArg (fun signature => signature[0]) same
  have high : UInt8.ofNat (n / 256) = UInt8.ofNat (m / 256) := congrArg (fun signature => signature[1]) same
  have lower := congrArg UInt8.toNat low
  have upper := congrArg UInt8.toNat high
  rw [UInt8.toNat_ofNat', UInt8.toNat_ofNat'] at lower upper
  omega

theorem failed_recorded (block : ConfirmedBlock) (n : Nat) :
    block.recorded .compute sampleProgram (failedTransaction n) = [] := by
  unfold ConfirmedBlock.recorded
  split
  · rfl
  · rfl

def failingBlock (count : Nat) : ConfirmedBlock := ⟨101, some 1700000001, (List.range count).map failedTransaction⟩

/-- A pool is created. -/
def shortHistory : ProgramHistory where
  blocks := [creatingBlock]
  distinct := List.nodup_singleton _

/-- A pool is created, and then some calls fail. -/
def failingHistory (count : Nat) (small : count ≤ 65536) : ProgramHistory where
  blocks := [creatingBlock, failingBlock count]
  distinct := by
    have split : ([creatingBlock, failingBlock count].flatMap ConfirmedBlock.transactions).map
        ConfirmedTransaction.signature =
          creatingTransaction.signature :: (List.range count).map fun n => (failedTransaction n).signature := by
      simp [creatingBlock, failingBlock]
    rw [split, List.nodup_cons]
    constructor
    · intro listed
      obtain ⟨n, _, same⟩ := List.mem_map.mp listed
      have third : (0 : UInt8) = 5 := congrArg (fun signature => signature[2]) same
      exact absurd third (by decide)
    · apply List.nodup_range.map_on
      intro n below m bounded same
      rw [List.mem_range] at below bounded
      exact failed_distinct (by omega) (by omega) same

section Failing
variable {count : Nat} {small : count ≤ 65536}

theorem failing_entries : (failingHistory count small).entries =
    ((List.range count).map fun n => (failingBlock count).entry (failedTransaction n)).reverse ++
      [creatingBlock.entry creatingTransaction] := by
  simp [ProgramHistory.entries, ProgramHistory.listing, failingHistory, failingBlock, creatingBlock, Function.comp_def]

theorem failing_timed : ∀ entry ∈ (failingHistory count small).entries, entry.Timed := by
  intro entry listed time known
  obtain ⟨block, within, tx, _, rfl⟩ := ProgramHistory.mem_entries.mp listed
  rcases List.mem_cons.mp within with rfl | later
  · obtain rfl : 1700000000 = time := Option.some.inj known
    decide
  · obtain rfl := List.mem_singleton.mp later
    obtain rfl : 1700000001 = time := Option.some.inj known
    decide

theorem failing_decoded {pages : List (List SignatureEntry)} (serves : rpc.Serves (failingHistory count small) pages) :
    rpc.decode (encodeBase58 sampleProgram.toList)
      ((List.range count).map fun n => (failingBlock count).entry (failedTransaction n)).reverse = [] := by
  rw [Rpc.decode_each, List.flatMap_eq_nil_iff]
  intro entry listed
  obtain ⟨n, below, rfl⟩ := List.mem_map.mp (List.mem_reverse.mp (List.mem_reverse.mp listed))
  have found : rpc.transaction ((failingBlock count).entry (failedTransaction n)).signature = .ok
    (failedTransaction n).response :=
    serves.found (failingBlock count) (List.mem_cons_of_mem _ List.mem_cons_self) _ (List.mem_map_of_mem below)
  rw [Rpc.decode_found found, failed_recorded]

/-- If the failed calls fill the first page, the creation is never reached. -/
theorem failing_run (positive : 0 < count) (env : Nat → Environment) :
    Backfill.run ((failingHistory count small).node count) (encodeBase58 sampleProgram.toList) env 1 db =
      some (.ok (), .load db) := by
  have answer : getSignatures (((failingHistory count small).node count).signatures none) =
      .ok ((List.range count).map fun n => (failingBlock count).entry (failedTransaction n)).reverse := by
    unfold ProgramHistory.node
    simp only [Option.elim_none, failing_entries]
    rw [List.take_left' (by simp)]
    apply getSignatures_json
    intro entry listed
    apply @failing_timed count small
    rw [failing_entries]
    exact List.mem_append_left _ listed
  obtain ⟨pages, serves⟩ := (failingHistory count small).node_serves positive failing_timed
  cases last : (((List.range count).map fun n => (failingBlock count).entry (failedTransaction n)).reverse).getLast? with
  | none =>
    have none := congrArg List.length (List.getLast?_eq_none_iff.mp last)
    simp at none
    omega
  | some oldest =>
    apply Backfill.loop_idle answer last
    rw [failing_decoded serves]
    rfl

end Failing

section Short

theorem short_timed : ∀ entry ∈ shortHistory.entries, entry.Timed := by
  intro entry listed time known
  obtain rfl := List.mem_singleton.mp listed
  obtain rfl : 1700000000 = time := Option.some.inj known
  decide

theorem short_first : getSignatures ((shortHistory.node pageLimit).signatures none) = .ok shortHistory.entries :=
  getSignatures_json short_timed

theorem short_second :
    getSignatures ((shortHistory.node pageLimit).signatures (some (creatingBlock.entry creatingTransaction).signature)) =
      .ok [] := by
  have behind : (shortHistory.entries.dropWhile
      (·.signature ≠ (creatingBlock.entry creatingTransaction).signature)).tail = [] :=
    @older_entries (creatingBlock.entry creatingTransaction) [] [] (List.nodup_singleton _)
  unfold ProgramHistory.node
  simp only [Option.elim_some, behind]
  rfl

theorem short_serves : (shortHistory.node pageLimit).Serves shortHistory [shortHistory.entries] := by
  have last : shortHistory.entries.getLast? = some (creatingBlock.entry creatingTransaction) := rfl
  obtain ⟨_, node⟩ := shortHistory.node_serves (by decide : 0 < pageLimit) short_timed
  exact ⟨.more short_first last (.done short_second), List.append_nil _, node.found⟩

theorem short_decoded : (shortHistory.node pageLimit).decode (encodeBase58 sampleProgram.toList) shortHistory.entries =
    [creatingEvent] := by
  have whole := @Rpc.Serves.decoded _ sampleProgram _ _ short_serves
  have recorded : shortHistory.recorded sampleProgram = [creatingEvent] :=
    (List.append_nil _).trans creating_recorded
  rw [recorded, List.map_singleton, List.flatten_singleton] at whole
  exact List.perm_singleton.mp whole

theorem short_run : ∃ after : Session, Backfill.run (shortHistory.node pageLimit) (encodeBase58 sampleProgram.toList)
    (fun _ => healthy) 3 .empty = some (.ok (), after) := by
  have written : returned? (applyPage healthy [creatingEvent] (.load .empty)) = some 2 := by decide +kernel
  obtain ⟨after, outcome⟩ := returned?_some.mp written
  have last : shortHistory.entries.getLast? = some (creatingBlock.entry creatingTransaction) := rfl
  rw [← short_decoded] at outcome
  refine ⟨after, ?_⟩
  apply Backfill.run_page short_first last _ (by decide : 2 ≠ 0) short_second
  exact outcome

end Short

theorem backfill_complete_iff_sample : ∃ after : Session,
    Backfill.run (shortHistory.node pageLimit) (encodeBase58 sampleProgram.toList) (fun _ => healthy) 3 .empty =
      some (.ok (), after) ∧ ∀ de, shortHistory.Executed sampleProgram de → after.db.Commits de := by
  have within : Db.empty.Within (shortHistory.recorded sampleProgram) := by
    constructor <;> intro row impossible <;> cases impossible
  obtain ⟨after, ran⟩ := short_run
  refine ⟨after, ran, ((backfill_complete_iff short_serves within).2 3 after ran).mpr ?_⟩
  rw [List.map_singleton, short_decoded]
  intro i page found de member _
  have listed : page = [creatingEvent] := List.mem_singleton.mp (List.mem_of_getElem? found)
  subst listed
  obtain rfl := List.mem_singleton.mp member
  cases i with
  | zero =>
    refine .inr ⟨.inr ⟨[creatingEvent], List.mem_cons_self, creatingEvent, List.mem_cons_self, rfl, rfl⟩, ?_⟩
    intro newer impossible
    omega
  | succ i => cases found

/-- A thousand failed calls keep the run from the creation. -/
theorem backfill_stops_early : ∃ pages after,
    ((failingHistory 1000 (by decide)).node pageLimit).Serves (failingHistory 1000 (by decide)) pages ∧
      Db.empty.Within ((failingHistory 1000 (by decide)).recorded sampleProgram) ∧
        Backfill.run ((failingHistory 1000 (by decide)).node pageLimit) (encodeBase58 sampleProgram.toList)
          (fun _ => healthy) 1 .empty = some (.ok (), after) ∧
        ∃ de, (failingHistory 1000 (by decide)).Executed sampleProgram de ∧ ¬ after.db.Commits de := by
  obtain ⟨pages, serves⟩ := (failingHistory 1000 (by decide)).node_serves (by decide : 0 < pageLimit) failing_timed
  refine ⟨pages, .load .empty, serves, ?_, failing_run (by decide) _, creatingEvent, ?_, ?_⟩
  · constructor <;> intro row impossible <;> cases impossible
  · refine ⟨creatingBlock, List.mem_cons_self, creatingTransaction, List.mem_cons_self, rfl, ?_⟩
    rw [creating_recorded]
    exact List.mem_cons_self
  · rintro ⟨⟨row, impossible, _⟩, _⟩
    cases impossible

end Samples
end DeepPool.Indexer
