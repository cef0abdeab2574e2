import DeepPool.Indexer.Services
import DeepPool.Library.Memo
import DeepPool.Proofs.Latest

/-! What a request keeps never changes what its services answer. -/

namespace DeepPool.Indexer
open Library

section Queries
variable {collation : Collation} {db : Db} {row : Stored NewPoolRow} {latest : Stored NewReservesRow} {poolId : Nat}
  {poolIds : List Nat}

theorem poolGet_stored (member : row ∈ db.pools.rows) : db.poolGet row.id = some row := by
  rw [Db.poolGet, List.find?_eq_some_iff_append]
  obtain ⟨earlier, later, split⟩ := List.append_of_mem member
  have ids := db.pools.ids
  rw [split, List.map_append, List.map_cons, List.nodup_append] at ids
  refine ⟨decide_eq_true rfl, earlier, later, split, ?_⟩
  intro other before
  have apart := ids.2.2 _ (List.mem_map_of_mem before) _ List.mem_cons_self
  simpa using apart

theorem poolList_stored {filter : PoolFilter} (member : row ∈ db.poolList filter) : row ∈ db.pools.rows := by
  have sorted : row ∈ (db.pools.rows.filter filter.admits).insertionSort fun a b => a.id ≤ b.id := by
    unfold Db.poolList at member
    cases limited : filter.limit with
    | none =>
      rw [limited] at member
      exact member
    | some limit =>
      rw [limited] at member
      exact List.mem_of_mem_take member
  exact List.mem_of_mem_filter ((List.mem_insertionSort _).mp sorted)

theorem poolList_pubkey (member : row ∈ db.pools.rows) :
    (db.poolList { PoolFilter.all with pubkeys := some [row.data.pubkey] }).head? = some row := by
  have listed := mem_poolList.mpr ⟨member, List.mem_singleton_self row.data.pubkey⟩
  cases first : (db.poolList { PoolFilter.all with pubkeys := some [row.data.pubkey] }).head? with
  | none =>
    rw [List.head?_eq_none_iff.mp first] at listed
    cases listed
  | some other =>
    obtain ⟨stored, named⟩ := mem_poolList.mp (List.mem_of_head? first)
    rw [Table.key_inj stored member (List.mem_singleton.mp named)]

theorem latest_stored (member : latest ∈ db.latestForPools collation poolIds) :
    latest ∈ db.reserves.rows ∧ latest.data.poolId ∈ poolIds := by
  unfold Db.latestForPools at member
  split at member
  · cases member
  · have own := List.mem_filter (p := fun row => decide (row.data.poolId = latest.data.poolId)) |>.mpr
      ⟨member, decide_eq_true rfl⟩
    rw [distinctOn_filter, Option.mem_toList] at own
    have sorted := (List.mem_insertionSort _).mp (List.mem_of_find?_eq_some own)
    exact ⟨List.mem_of_mem_filter sorted, of_decide_eq_true (List.mem_filter.mp sorted).2⟩

/-- Which pools are asked for together makes no difference. -/
theorem latest_filter (asked : poolId ∈ poolIds) :
    (db.latestForPools collation poolIds).filter (·.data.poolId = poolId) = (db.latestForPool collation poolId).toList := by
  have alone : (db.latestForPools collation [poolId]).filter (·.data.poolId = poolId) =
      db.latestForPools collation [poolId] := by
    rw [List.filter_eq_self]
    intro row member
    exact decide_eq_true (List.mem_singleton.mp (latest_stored member).2)
  by_cases any : ∃ row ∈ db.reserves.rows, row.data.poolId = poolId
  · obtain ⟨row, stored, mine⟩ := any
    obtain ⟨newest, first, found⟩ := Db.latest_newest collation asked stored mine
    obtain ⟨other, also, single⟩ := Db.latest_newest collation (List.mem_singleton_self poolId) stored mine
    rw [alone] at single
    rw [found, Db.latestForPool, single, first.unique also]
    rfl
  · have nothing : ∀ {asked}, (db.latestForPools collation asked).filter (·.data.poolId = poolId) = [] := by
      intro asked
      rw [List.filter_eq_nil_iff]
      intro row member same
      exact any ⟨row, (latest_stored member).1, of_decide_eq_true same⟩
    rw [nothing] at alone
    rw [nothing, Db.latestForPool, ← alone]
    rfl

theorem byPool_get (rows : List (Stored NewReservesRow)) (start : Nat → Option (Stored NewReservesRow)) (poolId : Nat) :
    byPool rows start poolId = ((rows.filter (·.data.poolId = poolId)).getLast?).or (start poolId) := by
  induction rows generalizing start with
  | nil => rfl
  | cons row rows ih =>
    have further : byPool (row :: rows) start = byPool rows (Function.update start row.data.poolId (some row)) := rfl
    rw [further, ih]
    by_cases same : row.data.poolId = poolId
    · subst same
      rw [Function.update_self, List.filter_cons_of_pos (by simp), List.getLast?_cons]
      cases (rows.filter (·.data.poolId = row.data.poolId)).getLast? <;> rfl
    · rw [Function.update_of_ne (Ne.symm same), List.filter_cons_of_neg (by simpa using same)]

/-- What the query for some pools adds to a map. -/
theorem byPool_latest (start : Nat → Option (Stored NewReservesRow)) :
    byPool (db.latestForPools collation poolIds) start poolId =
      if poolId ∈ poolIds then (db.latestForPool collation poolId).or (start poolId) else start poolId := by
  rw [byPool_get]
  split
  next asked =>
    rw [latest_filter asked]
    cases db.latestForPool collation poolId <;> rfl
  next other =>
    have nothing : (db.latestForPools collation poolIds).filter (·.data.poolId = poolId) = [] := by
      rw [List.filter_eq_nil_iff]
      intro row member same
      exact other (of_decide_eq_true same ▸ (latest_stored member).2)
    rw [nothing]
    rfl

end Queries

section Requests
variable {collation : Collation} {db : Db} {cache : Cache} {row : Stored NewPoolRow}

/-- What is kept is what the database would answer. -/
structure Cache.Coherent (collation : Collation) (db : Db) (cache : Cache) : Prop where
  byId : ∀ poolId row, cache.poolsById poolId = some row → db.poolGet poolId = some row
  byPubkey : ∀ pubkey row, cache.poolsByPubkey pubkey = some row →
    (db.poolList { PoolFilter.all with pubkeys := some [pubkey] }).head? = some row
  reserves : ∀ poolId row, cache.reservesByPoolId poolId = some row → db.latestForPool collation poolId = some row

theorem Cache.Coherent.default : Cache.default.Coherent collation db := by
  constructor <;> intro _ _ impossible <;> cases impossible

theorem cacheOne_answers (member : row ∈ db.pools.rows) :
    Answers (Cache.Coherent collation db) (PoolService.cacheOne row) row := by
  intro cache coherent
  refine ⟨rfl, ?_, ?_, coherent.reserves⟩
  · intro poolId other found
    change Function.update cache.poolsById row.id (some row) poolId = some other at found
    rcases eq_or_ne poolId row.id with rfl | different
    · rw [Function.update_self] at found
      cases found
      exact poolGet_stored member
    · rw [Function.update_of_ne different] at found
      exact coherent.byId poolId other found
  · intro pubkey other found
    change Function.update cache.poolsByPubkey row.data.pubkey (some row) pubkey = some other at found
    rcases eq_or_ne pubkey row.data.pubkey with rfl | different
    · rw [Function.update_self] at found
      cases found
      exact poolList_pubkey member
    · rw [Function.update_of_ne different] at found
      exact coherent.byPubkey pubkey other found

theorem cacheMany_answers {rows : List (Stored NewPoolRow)} (stored : ∀ row ∈ rows, row ∈ db.pools.rows) :
    Answers (Cache.Coherent collation db) (PoolService.cacheMany rows) rows := by
  have each : Answers (Cache.Coherent collation db) (rows.mapM PoolService.cacheOne) (rows.map fun row => row) :=
    Answers.mapM fun row member => cacheOne_answers (stored row member)
  rw [List.map_id'] at each
  exact each

/-- A row that is found is kept and answered. -/
theorem cached_answers {found : Option (Stored NewPoolRow)} (stored : ∀ row, found = some row → row ∈ db.pools.rows) :
    Answers (Cache.Coherent collation db) (do
      match found with
      | none => return none
      | some row => return some (← PoolService.cacheOne row)) found := by
  cases found with
  | none => exact Answers.pure none
  | some row => exact (cacheOne_answers (stored row rfl)).bind (Answers.pure _)

theorem byId_answers (poolId : Nat) :
    Answers (Cache.Coherent collation db) (PoolService.byId db poolId) (db.poolGet poolId) := by
  apply Answers.get
  intro cache coherent
  cases held : cache.poolsById poolId with
  | some row => exact ⟨(coherent.byId poolId row held).symm, coherent⟩
  | none => exact cached_answers (fun row found => List.mem_of_find?_eq_some found) cache coherent

theorem byPubkey_answers (pubkey : String) : Answers (Cache.Coherent collation db) (PoolService.byPubkey db pubkey)
    (db.poolList { PoolFilter.all with pubkeys := some [pubkey] }).head? := by
  apply Answers.get
  intro cache coherent
  cases held : cache.poolsByPubkey pubkey with
  | some row => exact ⟨(coherent.byPubkey pubkey row held).symm, coherent⟩
  | none => exact cached_answers (fun row found => poolList_stored (List.mem_of_head? found)) cache coherent

theorem latestForPools_answers (poolIds : List Nat) :
    Answers (Cache.Coherent collation db) (ReservesService.latestForPools collation db poolIds)
      fun id => if id ∈ poolIds then db.latestForPool collation id else none := by
  apply Answers.get
  intro cache coherent
  have kept : ∀ {id}, cache.reservesByPoolId id ≠ none → cache.reservesByPoolId id = db.latestForPool collation id := by
    intro id held
    obtain ⟨row, held⟩ := Option.ne_none_iff_exists'.mp held
    rw [held, coherent.reserves id row held]
  have fetched : ∀ {id}, id ∈ poolIds.filter (fun id => (cache.reservesByPoolId id).isNone) ↔
      id ∈ poolIds ∧ cache.reservesByPoolId id = none := by
    intro id
    rw [List.mem_filter, Option.isNone_iff_eq_none]
  by_cases all : (poolIds.filter fun id => (cache.reservesByPoolId id).isNone).isEmpty = true
  · simp only [all, if_true]
    refine ⟨?_, coherent⟩
    funext id
    refine ite_congr rfl (fun asked => ?_) (fun _ => rfl)
    apply kept
    intro missing
    have waiting := fetched.mpr ⟨asked, missing⟩
    rw [List.isEmpty_iff.mp all] at waiting
    cases waiting
  · simp only [all, Bool.false_eq_true, if_false]
    refine ⟨?_, coherent.byId, coherent.byPubkey, ?_⟩
    · funext id
      refine (byPool_latest _).trans ?_
      simp only [fetched]
      by_cases asked : id ∈ poolIds
      · by_cases missing : cache.reservesByPoolId id = none
        · simp [asked, missing]
        · simp [asked, kept missing]
      · simp [asked]
    · intro id row found
      have known := (byPool_latest cache.reservesByPoolId).symm.trans found
      split at known
      next waiting =>
        rw [(fetched.mp waiting).2, Option.or_none] at known
        exact known
      next => exact coherent.reserves id row known

theorem latestForPool_answers (poolId : Nat) :
    Answers (Cache.Coherent collation db) (ReservesService.latestForPool collation db poolId)
      (db.latestForPool collation poolId) := by
  apply Answers.get
  intro cache coherent
  cases held : cache.reservesByPoolId poolId with
  | some row => exact ⟨(coherent.reserves poolId row held).symm, coherent⟩
  | none =>
    have asks : Answers (Cache.Coherent collation db)
        (do return (← ReservesService.latestForPools collation db [poolId]) poolId) (db.latestForPool collation poolId) := by
      apply (latestForPools_answers [poolId]).bind
      simp only [List.mem_singleton, if_true]
      exact Answers.pure _
    exact asks cache coherent

theorem ServiceCall.answers (call : ServiceCall) :
    Answers (Cache.Coherent collation db) (call.request collation db) (call.direct collation db) := by
  cases call with
  | byId poolId => exact (byId_answers poolId).bind (Answers.pure _)
  | byPubkey pubkey => exact (byPubkey_answers pubkey).bind (Answers.pure _)
  | forTokenMints tokenMints => exact (cacheMany_answers fun _ => poolList_stored).bind (Answers.pure _)
  | forCreators creators => exact (cacheMany_answers fun _ => poolList_stored).bind (Answers.pure _)
  | list filter => exact (cacheMany_answers fun _ => poolList_stored).bind (Answers.pure _)
  | latestForPool poolId => exact (latestForPool_answers poolId).bind (Answers.pure _)
  | latestForPools poolIds => exact (latestForPools_answers poolIds).bind (Answers.pure _)

/-- Whatever a request asks, in whatever order and however often, each answer is the one
that the database gives to that question alone. -/
theorem request_transparent (collation : Collation) (db : Db) (calls : List ServiceCall) :
    ((calls.mapM (ServiceCall.request collation db)).run .default).1 = calls.map (ServiceCall.direct collation db) := by
  have each : Answers (Cache.Coherent collation db) (calls.mapM (ServiceCall.request collation db))
      (calls.map (ServiceCall.direct collation db)) := Answers.mapM fun call _ => call.answers
  exact (each .default .default).1

/-- `GET /api/pools/:pubkey` -/
def detail (collation : Collation) (db : Db) (pubkey : String) : Option PoolDetail :=
  (db.poolList { PoolFilter.all with pubkeys := some [pubkey] }).head?.map fun pool =>
    ⟨pool, db.latestForPool collation pool.id⟩

theorem getPool_answers (pubkey : String) :
    Answers (Cache.Coherent collation db) (getPool collation db pubkey) (detail collation db pubkey) := by
  apply (byPubkey_answers pubkey).bind
  unfold detail
  cases (db.poolList { PoolFilter.all with pubkeys := some [pubkey] }).head? with
  | none => exact Answers.pure none
  | some pool => exact (latestForPool_answers pool.id).bind (Answers.pure _)

end Requests
end DeepPool.Indexer
