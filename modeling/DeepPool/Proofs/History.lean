import DeepPool.Indexer.Api
import DeepPool.Proofs.Checkpoint

/-! Which filters a list endpoint applies. A token mint takes a request to another statement,
which knows of no other filter, so the answer is right when the dropped filters exclude nothing
that it can show. -/

namespace DeepPool.Indexer
open Library

section Pages
variable {Row : Type} {column : Row → Int} {limit : Option Int} {all wanted rows : List Row}
  {searched others : Row → Bool}

/-- Every row shown meets the filters, and with a limit the rows are the first that do. -/
structure Honoured (column : Row → Int) (limit : Option Int) (wanted rows : List Row) : Prop where
  meets : ∀ row ∈ rows, row ∈ wanted
  first : limit.isSome → Top column (historyLimit limit).toNat wanted rows

/-- A statement that drops some filters answers the query if each row that it can show meets them. -/
theorem honoured_iff (distinct : all.Nodup) :
    (∀ rows, Top column (historyLimit limit).toNat (all.filter searched) rows →
      Honoured column limit (all.filter fun row => others row && searched row) rows) ↔
      ∀ row ∈ all, searched row →
        ((all.filter searched).filter (column row < column ·)).length < (historyLimit limit).toNat → others row := by
  have harmless : (∀ rows, Top column (historyLimit limit).toNat (all.filter searched) rows → ∀ row ∈ rows, others row) ↔
      ∀ row ∈ all.filter searched,
        ((all.filter searched).filter (column row < column ·)).length < (historyLimit limit).toNat → others row :=
    Top.all_meet (distinct.filter searched)
  have narrowed : (all.filter fun row => others row && searched row) = (all.filter searched).filter others :=
    List.filter_filter.symm
  rw [narrowed]
  constructor
  · intro right row member found few
    refine harmless.mp ?_ row (List.mem_filter.mpr ⟨member, found⟩) few
    intro rows top shown listed
    exact (List.mem_filter.mp ((right rows top).meets shown listed)).2
  · intro excludes rows top
    have meets := harmless.mpr (fun row member few =>
      excludes row (List.mem_filter.mp member).1 (List.mem_filter.mp member).2 few) rows top
    exact ⟨(top.narrow meets).listed, fun _ => top.narrow meets⟩

/-- An endpoint that searches by token mint alone, or by the other filters alone. -/
theorem branches_honoured_iff {given : Option String} {ofMint : String → Row → Bool} {shows : List Row → Prop}
    (distinct : all.Nodup)
    (minted : ∀ mint, given = some mint → ∀ rows, shows rows ↔
      Top column (historyLimit limit).toNat (all.filter (ofMint mint)) rows)
    (direct : given = none → ∀ rows, shows rows ↔ Top column (historyLimit limit).toNat (all.filter others) rows) :
    (∀ rows, shows rows →
      Honoured column limit (all.filter fun row => others row && given.all (ofMint · row)) rows) ↔
      ∀ mint ∈ given, ∀ row ∈ all, ofMint mint row →
        ((all.filter (ofMint mint)).filter (column row < column ·)).length < (historyLimit limit).toNat → others row := by
  cases given with
  | none =>
    simp only [direct rfl, Option.all_none, Bool.and_true]
    refine ⟨fun _ mint impossible => ?_, fun _ rows top => ⟨top.listed, fun _ => top⟩⟩
    cases impossible
  | some mint =>
    simp only [minted mint rfl, Option.all_some, honoured_iff distinct, Option.mem_some_iff, forall_eq']

end Pages

theorem Db.swaps_nodup (db : Db) : db.swaps.rows.Nodup := db.swaps.data_nodup.of_map

theorem Db.liquidity_nodup (db : Db) : db.liquidityEvents.rows.Nodup := db.liquidityEvents.data_nodup.of_map

/-- Whether the pool has the token mint. -/
def Db.ofMint (mint : String) (db : Db) (poolId : Nat) : Bool :=
  db.pools.rows.any fun pool => pool.id = poolId && pool.data.tokenMint = mint

theorem mem_forTokenMints {db : Db} {mint : String} {poolId : Nat} :
    (poolId : Int) ∈ ((db.forTokenMints [mint]).map fun pool => (pool.id : Int)) ↔ db.ofMint mint poolId = true := by
  simp only [Db.forTokenMints, Db.poolList, PoolFilter.all, PoolFilter.admits, Db.ofMint, Option.elim_none,
    Option.all_none, Option.all_some, Bool.true_and, Bool.and_true, List.mem_map, List.mem_insertionSort,
    List.mem_filter, List.mem_singleton, List.any_eq_true, Bool.and_eq_true, decide_eq_true_eq, Int.natCast_inj]
  constructor
  · rintro ⟨pool, ⟨member, minted⟩, same⟩
    exact ⟨pool, member, same, minted⟩
  · rintro ⟨pool, member, same, minted⟩
    exact ⟨pool, ⟨member, minted⟩, same⟩

theorem historyLimit_pos (limit : Option Int) : 0 ≤ historyLimit limit := by
  unfold historyLimit
  omega

theorem page_iff {Row : Type} {column : Row → Int} {limit : Option Int} {matching rows : List Row} :
    Page column (some (historyLimit limit)) matching rows ↔ Top column (historyLimit limit).toNat matching rows :=
  and_iff_right (historyLimit_pos limit)

/-- The pools of a token mint, then the rows of these pools. -/
theorem page_of_mint {Row : Type} {column : Row → Int} {limit : Option Int} {all rows : List Row} {db : Db}
    {mint : String} (pool : Row → Nat) {poolIds : List Int}
    (found : poolIds = (db.forTokenMints [mint]).map fun pool => (pool.id : Int)) :
    (if poolIds.isEmpty then rows = []
      else Page column (some (historyLimit limit)) (all.filter fun row => (pool row : Int) ∈ poolIds) rows) ↔
      Top column (historyLimit limit).toNat (all.filter fun row => db.ofMint mint (pool row)) rows := by
  have same : (all.filter fun row => (pool row : Int) ∈ poolIds) = all.filter fun row => db.ofMint mint (pool row) := by
    apply List.filter_congr
    intro row _
    rw [Bool.eq_iff_iff, decide_eq_true_eq, found, mem_forTokenMints]
  rw [page_iff, same]
  split
  next empty =>
    have nothing : (all.filter fun row => db.ofMint mint (pool row)) = [] := by
      rw [← same, List.isEmpty_iff.mp empty]
      simp
    rw [nothing, Top.nil_iff]
  next some_ => rfl

theorem all_singleton {A : Type} [DecidableEq A] (given : Option A) (value : A) :
    (given.map fun item => [item]).all (value ∈ ·) = given.all (value = ·) := by
  cases given <;> simp

section Swaps
variable {q : SwapsQuery} {db : Db} {rows : List (Stored NewSwapRow)}

namespace SwapsQuery

/-- The filters on the swap itself. -/
def others (q : SwapsQuery) (row : Stored NewSwapRow) : Bool :=
  q.poolId.all ((row.data.poolId : Int) = ·) && q.user.all (row.data.userPk = ·) && q.since.all (· < row.data.createdAt) &&
    q.before.all (row.data.createdAt < ·)

def wants (q : SwapsQuery) (db : Db) (row : Stored NewSwapRow) : Bool :=
  q.others row && q.tokenMint.all (db.ofMint · row.data.poolId)

/-- The filters dropped beside a token mint exclude none of the first swaps of its pools. -/
def Harmless (q : SwapsQuery) (db : Db) : Prop :=
  ∀ mint ∈ q.tokenMint, ∀ row ∈ db.swaps.rows, db.ofMint mint row.data.poolId →
    ((db.swaps.rows.filter (db.ofMint mint ·.data.poolId)).filter (row.data.createdAt < ·.data.createdAt)).length <
      (historyLimit q.limit).toNat → q.others row

end SwapsQuery

theorem listSwaps_mint {mint : String} (given : q.tokenMint = some mint) :
    listSwaps q db rows ↔ Top (fun row => row.data.createdAt) (historyLimit q.limit).toNat
      (db.swaps.rows.filter (db.ofMint mint ·.data.poolId)) rows := by
  have admitted : ∀ (poolIds : List Int) (limit : Option Int),
      SwapFilter.admits ⟨none, some poolIds, none, none, none, limit⟩ =
        fun row => decide ((row.data.poolId : Int) ∈ poolIds) := by
    intro poolIds limit
    funext row
    simp only [SwapFilter.admits, Option.all_none, Option.all_some, Bool.true_and, Bool.and_true]
  refine Iff.trans ?_ (page_of_mint (fun row : Stored NewSwapRow => row.data.poolId) rfl)
  simp only [listSwaps, given, Db.swapsForTokenMint, Db.swapList, SwapFilter.all, admitted]

theorem listSwaps_direct (absent : q.tokenMint = none) :
    listSwaps q db rows ↔ Top (fun row => row.data.createdAt) (historyLimit q.limit).toNat
      (db.swaps.rows.filter q.others) rows := by
  have admitted : ∀ limit : Option Int, SwapFilter.admits ⟨none, q.poolId.map fun id => [id],
      q.user.map fun user => [user], q.since, q.before, limit⟩ = q.others := by
    intro limit
    funext row
    simp only [SwapFilter.admits, SwapsQuery.others, all_singleton, Option.all_none, Bool.true_and]
  rw [← page_iff]
  simp only [listSwaps, absent, Db.swapList, SwapFilter.all, admitted]

theorem listSwaps_honoured_iff :
    (∀ rows, listSwaps q db rows →
      Honoured (fun row => row.data.createdAt) q.limit (db.swaps.rows.filter (q.wants db)) rows) ↔ q.Harmless db :=
  branches_honoured_iff db.swaps_nodup (fun _ given _ => listSwaps_mint given) fun absent _ => listSwaps_direct absent

end Swaps

section Liquidity
variable {q : LiquidityQuery} {db : Db} {rows : List (Stored NewLiquidityRow)}

namespace LiquidityQuery

/-- The filters on the liquidity event itself. -/
def others (q : LiquidityQuery) (row : Stored NewLiquidityRow) : Bool :=
  q.poolId.all ((row.data.poolId : Int) = ·) && q.provider.all (row.data.provider = ·) &&
    q.isAdd.all (row.data.isAdd = ·) && q.since.all (· < row.data.createdAt) && q.before.all (row.data.createdAt < ·)

def wants (q : LiquidityQuery) (db : Db) (row : Stored NewLiquidityRow) : Bool :=
  q.others row && q.tokenMint.all (db.ofMint · row.data.poolId)

/-- The filters dropped beside a token mint exclude none of the first events of its pools. -/
def Harmless (q : LiquidityQuery) (db : Db) : Prop :=
  ∀ mint ∈ q.tokenMint, ∀ row ∈ db.liquidityEvents.rows, db.ofMint mint row.data.poolId →
    ((db.liquidityEvents.rows.filter (db.ofMint mint ·.data.poolId)).filter
      (row.data.createdAt < ·.data.createdAt)).length < (historyLimit q.limit).toNat → q.others row

end LiquidityQuery

theorem listLiquidity_mint {mint : String} (given : q.tokenMint = some mint) :
    listLiquidity q db rows ↔ Top (fun row => row.data.createdAt) (historyLimit q.limit).toNat
      (db.liquidityEvents.rows.filter (db.ofMint mint ·.data.poolId)) rows := by
  have admitted : ∀ (poolIds : List Int) (limit : Option Int),
      LiquidityFilter.admits ⟨none, some poolIds, none, none, none, none, limit⟩ =
        fun row => decide ((row.data.poolId : Int) ∈ poolIds) := by
    intro poolIds limit
    funext row
    simp only [LiquidityFilter.admits, Option.all_none, Option.all_some, Bool.true_and, Bool.and_true]
  refine Iff.trans ?_ (page_of_mint (fun row : Stored NewLiquidityRow => row.data.poolId) rfl)
  simp only [listLiquidity, given, Db.liquidityForTokenMint, Db.liquidityList, LiquidityFilter.all, admitted]

theorem listLiquidity_direct (absent : q.tokenMint = none) :
    listLiquidity q db rows ↔ Top (fun row => row.data.createdAt) (historyLimit q.limit).toNat
      (db.liquidityEvents.rows.filter q.others) rows := by
  have admitted : ∀ limit : Option Int, LiquidityFilter.admits ⟨none, q.poolId.map fun id => [id],
      q.provider.map fun provider => [provider], q.isAdd, q.since, q.before, limit⟩ = q.others := by
    intro limit
    funext row
    simp only [LiquidityFilter.admits, LiquidityQuery.others, all_singleton, Option.all_none, Bool.true_and]
  rw [← page_iff]
  simp only [listLiquidity, absent, Db.liquidityList, LiquidityFilter.all, admitted]

theorem listLiquidity_honoured_iff :
    (∀ rows, listLiquidity q db rows →
      Honoured (fun row => row.data.createdAt) q.limit (db.liquidityEvents.rows.filter (q.wants db)) rows) ↔
      q.Harmless db :=
  branches_honoured_iff db.liquidity_nodup (fun _ given _ => listLiquidity_mint given)
    fun absent _ => listLiquidity_direct absent

end Liquidity

section Pools
variable {q : PoolsQuery} {db : Db} {rows : List (Stored NewPoolRow)}

namespace PoolsQuery

def wants (q : PoolsQuery) (row : Stored NewPoolRow) : Bool :=
  q.tokenMint.all (row.data.tokenMint = ·) && q.creator.all (row.data.creator = ·)

/-- The wanted pools in the order of the endpoint. -/
def wanted (q : PoolsQuery) (db : Db) : List (Stored NewPoolRow) :=
  (db.pools.rows.filter q.wants).insertionSort (fun a b => a.id ≤ b.id)

/-- The rows are wanted, and with a limit they are the first wanted ones. -/
def Honours (q : PoolsQuery) (db : Db) (rows : List (Stored NewPoolRow)) : Prop :=
  (∀ row ∈ rows, row ∈ q.wanted db) ∧
    ∀ limit ∈ q.limit, (rows.length : Int) ≤ limit ∧ rows = (q.wanted db).take limit.toNat

/-- Beside a token mint the creator excludes none of its pools, and beside either a limit leaves room for all. -/
def Harmless (q : PoolsQuery) (db : Db) : Prop :=
  (∀ mint ∈ q.tokenMint, ∀ row ∈ db.pools.rows, row.data.tokenMint = mint → ∀ creator ∈ q.creator,
    row.data.creator = creator) ∧
    (q.tokenMint.isSome ∨ q.creator.isSome → ∀ limit ∈ q.limit, ((q.wanted db).length : Int) ≤ limit)

end PoolsQuery

theorem forTokenMints_eq (mint : String) : db.forTokenMints [mint] =
    (db.pools.rows.filter (·.data.tokenMint = mint)).insertionSort (fun a b => a.id ≤ b.id) := by
  have admitted : PoolFilter.admits ⟨none, none, some [mint], none, none⟩ =
      fun row => decide (row.data.tokenMint = mint) := by
    funext row
    simp only [PoolFilter.admits, Option.all_none, Option.all_some, Bool.true_and, Bool.and_true, List.mem_singleton]
  simp only [Db.forTokenMints, Db.poolList, PoolFilter.all, admitted, Option.elim_none]

theorem forCreators_eq (creator : String) : db.forCreators [creator] =
    (db.pools.rows.filter (·.data.creator = creator)).insertionSort (fun a b => a.id ≤ b.id) := by
  have admitted : PoolFilter.admits ⟨none, none, none, some [creator], none⟩ =
      fun row => decide (row.data.creator = creator) := by
    funext row
    simp only [PoolFilter.admits, Option.all_none, Option.all_some, Bool.true_and, List.mem_singleton]
  simp only [Db.forCreators, Db.poolList, PoolFilter.all, admitted, Option.elim_none]

theorem mem_wanted {row : Stored NewPoolRow} : row ∈ q.wanted db ↔
    row ∈ db.pools.rows ∧ (∀ mint ∈ q.tokenMint, row.data.tokenMint = mint) ∧
      ∀ creator ∈ q.creator, row.data.creator = creator := by
  rw [PoolsQuery.wanted, List.mem_insertionSort, List.mem_filter, PoolsQuery.wants, Bool.and_eq_true,
    Option.all_eq_true, Option.all_eq_true]
  simp only [decide_eq_true_eq, Option.mem_def]

/-- Where all wanted rows are shown, a limit is kept exactly if it leaves room for them. -/
theorem honours_wanted_iff : q.Honours db (q.wanted db) ↔ ∀ limit ∈ q.limit, ((q.wanted db).length : Int) ≤ limit := by
  constructor
  · intro honours limit given
    exact (honours.2 limit given).1
  · intro room
    refine ⟨fun _ => id, fun limit given => ⟨room limit given, ?_⟩⟩
    have bound := room limit given
    exact (List.take_of_length_le (by omega)).symm

theorem honours_mint_iff {mint : String} (given : q.tokenMint = some mint) :
    q.Honours db (db.forTokenMints [mint]) ↔ q.Harmless db := by
  have all : (∀ row ∈ db.pools.rows, row.data.tokenMint = mint → ∀ creator ∈ q.creator, row.data.creator = creator) →
      db.forTokenMints [mint] = q.wanted db := by
    intro agree
    rw [forTokenMints_eq, PoolsQuery.wanted]
    congr 1
    apply List.filter_congr
    intro row member
    rw [Bool.eq_iff_iff, PoolsQuery.wants, given, Bool.and_eq_true, Option.all_some, Option.all_eq_true]
    constructor
    · intro same
      exact ⟨same, fun creator asked => decide_eq_true (agree row member (of_decide_eq_true same) creator asked)⟩
    · exact And.left
  simp only [PoolsQuery.Harmless, given, Option.mem_some_iff, forall_eq', Option.isSome_some, true_or, forall_const]
  constructor
  · intro honours
    have agree : ∀ row ∈ db.pools.rows, row.data.tokenMint = mint → ∀ creator ∈ q.creator,
        row.data.creator = creator := by
      intro row member minted
      have listed : row ∈ db.forTokenMints [mint] := by
        rw [forTokenMints_eq, List.mem_insertionSort, List.mem_filter, decide_eq_true_eq]
        exact ⟨member, minted⟩
      exact (mem_wanted.mp (honours.1 row listed)).2.2
    rw [all agree] at honours
    exact ⟨agree, honours_wanted_iff.mp honours⟩
  · rintro ⟨agree, room⟩
    rw [all agree]
    exact honours_wanted_iff.mpr room

theorem honours_creator_iff {creator : String} (absent : q.tokenMint = none) (given : q.creator = some creator) :
    q.Honours db (db.forCreators [creator]) ↔ q.Harmless db := by
  have all : db.forCreators [creator] = q.wanted db := by
    rw [forCreators_eq, PoolsQuery.wanted]
    congr 1
    apply List.filter_congr
    intro row _
    simp only [PoolsQuery.wants, absent, given, Option.all_none, Option.all_some, Bool.true_and]
  rw [all, honours_wanted_iff]
  simp [PoolsQuery.Harmless, absent, given]

/-- Without a token mint and a creator the limit is applied. -/
theorem honours_limit {limit : Option Nat} (noMint : q.tokenMint = none) (noCreator : q.creator = none)
    (same : limit = q.limit.map Int.toNat) (positive : ∀ given ∈ q.limit, 0 ≤ given) :
    q.Honours db (db.poolList ⟨none, none, none, none, limit⟩) := by
  have admitted : PoolFilter.admits ⟨none, none, none, none, limit⟩ = q.wants := by
    funext row
    simp only [PoolFilter.admits, PoolsQuery.wants, noMint, noCreator, Option.all_none, Bool.true_and]
  have listed : db.poolList ⟨none, none, none, none, limit⟩ = limit.elim (q.wanted db) (q.wanted db).take := by
    simp only [Db.poolList, admitted, PoolsQuery.wanted]
  rw [listed, same]
  cases asked : q.limit with
  | none =>
    refine ⟨fun _ => id, fun given impossible => ?_⟩
    rw [asked] at impossible
    cases impossible
  | some given =>
    refine ⟨fun row => List.mem_of_mem_take, fun other shown => ?_⟩
    obtain rfl := Option.some.inj (asked.symm.trans shown)
    have bound := positive given asked
    have short := List.length_take_le given.toNat (q.wanted db)
    simp only [Option.map_some, Option.elim_some]
    exact ⟨by omega, trivial⟩

theorem listPools_honours_iff : (∀ rows, listPools q db = some rows → q.Honours db rows) ↔ q.Harmless db := by
  cases mint : q.tokenMint with
  | some found =>
    simp only [listPools, mint, Option.some.injEq, forall_eq']
    exact honours_mint_iff mint
  | none =>
    cases creator : q.creator with
    | some found =>
      simp only [listPools, mint, creator, Option.some.injEq, forall_eq']
      exact honours_creator_iff mint creator
    | none =>
      have harmless : q.Harmless db := by
        simp [PoolsQuery.Harmless, mint, creator]
      refine ⟨fun _ => harmless, fun _ rows shown => ?_⟩
      simp only [listPools, mint, creator] at shown
      split at shown
      · cases shown
      next bounded =>
        obtain rfl := Option.some.inj shown
        refine honours_limit mint creator rfl fun given asked => ?_
        by_contra negative
        exact bounded ⟨given, asked, not_le.mp negative⟩

end Pools

/-- Each list endpoint applies every filter that it is given exactly when those that it drops
exclude nothing it can show: a token mint drops all the others, and a creator drops the limit. -/
theorem history_filters_iff (swaps : SwapsQuery) (liquidity : LiquidityQuery) (pools : PoolsQuery) (db : Db) :
    ((∀ rows, listSwaps swaps db rows →
      Honoured (fun row => row.data.createdAt) swaps.limit (db.swaps.rows.filter (swaps.wants db)) rows) ↔
        swaps.Harmless db) ∧
    ((∀ rows, listLiquidity liquidity db rows →
      Honoured (fun row => row.data.createdAt) liquidity.limit (db.liquidityEvents.rows.filter (liquidity.wants db)) rows) ↔
        liquidity.Harmless db) ∧
    ((∀ rows, listPools pools db = some rows → pools.Honours db rows) ↔ pools.Harmless db) :=
  ⟨listSwaps_honoured_iff, listLiquidity_honoured_iff, listPools_honours_iff⟩

/-- A pool and one swap in it. -/
def sampleTables : Db :=
  (receive healthy ⟨101, [sampleSwap]⟩ (receive healthy ⟨100, [sampleCreated]⟩ (.load .empty)).1).1.db

/-- The query for the swaps of a token by one user. -/
def sampleQuery (user : Pubkey) : SwapsQuery :=
  ⟨none, some (b58 user), some (b58 (Vector.replicate 32 3)), none, none, none⟩

theorem sampleTables_listed (user : Pubkey) : listSwaps (sampleQuery user) sampleTables sampleTables.swaps.rows := by
  refine (listSwaps_mint rfl).mpr ?_
  have minted : sampleTables.swaps.rows.filter (sampleTables.ofMint (b58 (Vector.replicate 32 3)) ·.data.poolId) =
      sampleTables.swaps.rows := by decide +kernel
  change Top _ (historyLimit none).toNat _ _
  rw [minted]
  decide +kernel

theorem token_mint_drops_user : ∃ rows, listSwaps (sampleQuery (Vector.replicate 32 9)) sampleTables rows ∧
    ¬ Honoured (fun row => row.data.createdAt) none
      (sampleTables.swaps.rows.filter ((sampleQuery (Vector.replicate 32 9)).wants sampleTables)) rows := by
  refine ⟨_, sampleTables_listed _, fun honoured => ?_⟩
  have nothing : sampleTables.swaps.rows.filter ((sampleQuery (Vector.replicate 32 9)).wants sampleTables) = [] := by
    decide +kernel
  have shown : sampleTables.swaps.rows ≠ [] := by decide +kernel
  obtain ⟨row, listed⟩ := List.exists_mem_of_ne_nil _ shown
  have impossible := honoured.meets row listed
  rw [nothing] at impossible
  cases impossible

theorem history_filters_iff_sample : Honoured (fun row => row.data.createdAt) none
    (sampleTables.swaps.rows.filter ((sampleQuery (Vector.replicate 32 6)).wants sampleTables))
      sampleTables.swaps.rows := by
  obtain ⟨swaps, _, _⟩ := history_filters_iff (sampleQuery (Vector.replicate 32 6))
    ⟨none, none, none, none, none, none, none⟩ ⟨none, none, none⟩ sampleTables
  refine swaps.mpr ?_ _ (sampleTables_listed _)
  intro mint _ row member _ _
  have excluded : sampleTables.swaps.rows.all (sampleQuery (Vector.replicate 32 6)).others = true := by decide +kernel
  exact List.all_eq_true.mp excluded row member

end DeepPool.Indexer
