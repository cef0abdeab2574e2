import DeepPool.Sdk.Pools
import DeepPool.Proofs.Amounts
import DeepPool.Proofs.Execution
import DeepPool.Proofs.Layout
import DeepPool.Proofs.Provenance
import DeepPool.Proofs.Services

/-! A pool read from the indexer is the pool as a node showed it at some moment of the run. -/

namespace DeepPool.Sdk
open Library
open DeepPool.Indexer (Session History Environment BlockBatch Written NewPoolRow NewReservesRow Collation
  Executed Annals)

theorem publicKey_toBase58 (key : Pubkey) : publicKey (toBase58 key) = .ok key := by
  have sized : key.toList.length = 32 := Vector.length_toList
  rw [publicKey, toBase58, Indexer.decode_encodeBase58]
  simp only [sized, dif_pos]
  exact congrArg Except.ok (Vector.toList_inj.mp rfl)

theorem number_natCast {value : ℕ} (small : value < 2 ^ 53) : number value = value := by
  rw [number, Int.cast_natCast]
  exact Double.round_natCast small

theorem sub_number {a b : ℕ} (small : a < 2 ^ 53) (ordered : b ≤ a) :
    Double.sub (number a) (number b) = number (a - b : ℕ) := by
  rw [number_natCast small, number_natCast (by omega), number_natCast (by omega), Double.sub_natCast small ordered]

/-- What a pool with these reserves is shown as. -/
def shown (address : Pubkey) (pool : Pool Pubkey) (sol tokens : U64) : PoolState where
  address := toBase58 address
  config := toBase58 pool.config
  tokenMint := toBase58 pool.tokenMint
  tokenVault := toBase58 pool.tokenVault
  lpMint := toBase58 pool.lpMint
  initialSol := number pool.initialSol.val
  initialTokens := number pool.initialTokens.val
  solReserve := number sol.val
  tokenReserve := number tokens.val
  price := price (number sol.val) (number tokens.val)

section Rpc
variable {Key : Type} {bytes : Key → Pubkey} {rents : Rents Key} {world : World Key} {key : Key} {pool : Pool Key}
  {connection : Connection}

/-- A node answers with the pool's accounts as they are. -/
structure Connection.Serves (bytes : Key → Pubkey) (rents : Rents Key) (world : World Key) (key : Key)
    (connection : Connection) : Prop where
  account : ∀ pool, world.pools key = some pool →
    connection.getAccountInfo (bytes key) = some ⟨world.lamports key, (pool.rename bytes).data⟩
  balance : ∀ pool, world.pools key = some pool → world.tokenAccounts pool.tokenVault ≠ none →
    connection.getTokenAccountBalance (bytes pool.tokenVault) = some (world.amounts pool.tokenVault)
  rent : connection.getMinimumBalanceForRentExemption Pool.len = rents.pool

theorem rpc_reads (serves : connection.Serves bytes rents world key) (present : world.pools key = some pool)
    (vault : world.tokenAccounts pool.tokenVault ≠ none) (funded : rents.pool.val ≤ (world.lamports key).val)
    (small : (world.lamports key).val < 2 ^ 53) : getPoolByAddressFromRpc connection (bytes key) =
      .ok (some (shown (bytes key) (pool.rename bytes) (world.solReserve rents key) (world.amounts pool.tokenVault))) := by
  have decodes : Pool.tryDeserialize (pool.rename bytes).data = .ok (pool.rename bytes) :=
    Pool.tryDeserialize_ok.mpr ⟨[], (List.append_nil _).symm⟩
  have balance := serves.balance pool present vault
  have sol := sub_number small funded
  simp only [getPoolByAddressFromRpc, serves.account pool present, decodes, Except.mapError, Pool.length_data, serves.rent,
    sol]
  refine bind_ok.mpr ⟨pool.rename bytes, rfl, ?_⟩
  rw [show (pool.rename bytes).tokenVault = bytes pool.tokenVault from rfl, balance]
  rfl

theorem shown_same {address : Pubkey} {held : Pool Key} {sol tokens : U64} (same : Pool.SameIdentity held pool) :
    shown address (held.rename bytes) sol tokens = shown address (pool.rename bytes) sol tokens := by
  obtain ⟨config, tokenMint, tokenVault, lpMint, initialSol, initialTokens, _⟩ := same
  simp only [shown, Pool.rename, config, tokenMint, tokenVault, lpMint, initialSol, initialTokens]

/-- The accounts of the program are its pools, and the node lists each of them. -/
structure Connection.Mirrors (bytes : Key → Pubkey) (rents : Rents Key) (world : World Key) (connection : Connection) :
    Prop where
  serves : ∀ key, world.pools key ≠ none → connection.Serves bytes rents world key
  listed : ∀ address info, (address, info) ∈ connection.programAccounts ↔ ∃ key pool, world.pools key = some pool ∧
    address = bytes key ∧ info = ⟨world.lamports key, (pool.rename bytes).data⟩
  once : (connection.programAccounts.map Prod.fst).Nodup

/-- The filters of the query find the pools of the mint. -/
theorem accounts_of_mint {mint : Pubkey} {address : Pubkey} {info : AccountInfo}
    (mirrors : connection.Mirrors bytes rents world) :
    (address, info) ∈ connection.getProgramAccounts poolAccountSize 40 mint.toList ↔ ∃ key pool,
      world.pools key = some pool ∧ bytes pool.tokenMint = mint ∧ address = bytes key ∧
        info = ⟨world.lamports key, (pool.rename bytes).data⟩ := by
  have sized : mint.toList.length = 32 := Vector.length_toList
  rw [Connection.getProgramAccounts, List.mem_filter, mirrors.listed, sized, decide_eq_true_eq]
  constructor
  · rintro ⟨⟨key, pool, present, rfl, rfl⟩, _, named⟩
    rw [Pool.data_tokenMint] at named
    exact ⟨key, pool, present, Vector.toList_inj.mp named, rfl, rfl⟩
  · rintro ⟨key, pool, present, rfl, rfl, rfl⟩
    exact ⟨⟨key, pool, present, rfl, rfl⟩, Pool.length_data, Pool.data_tokenMint⟩

variable [DecidableEq Key] {derive : Derivation Key} {start after middle : World Key} {event : DeepPoolEvent Key}
  {last : Program.Trace Key}

variable (reachable : Program.Reachable derive rents world)
include reachable

/-- A pool as a node reads it, in any reachable state. -/
theorem reachable_reads (present : world.pools key = some pool)
    (serves : connection.Serves bytes rents world key) (small : (world.lamports key).val < 2 ^ 53) :
    getPoolByAddressFromRpc connection (bytes key) =
      .ok (some (shown (bytes key) (pool.rename bytes) (world.solReserve rents key) (world.amounts pool.tokenVault))) := by
  have embedded := reachable.embedded
  have funded : rents.pool.val < (world.lamports key).val := (embedded.reached present).live.funded
  have account : world.tokenAccounts pool.tokenVault = some _ := (embedded.established present).settled.vaultAccount
  have vault : world.tokenAccounts pool.tokenVault ≠ none := by
    rw [account]
    exact Option.some_ne_none _
  exact rpc_reads serves present vault (le_of_lt funded) small

omit reachable

/-- A node that answers at the moment of an event shows what the event says. -/
theorem moment_reads (orderly : Program.Orderly derive start) (noPools : ∀ key, start.pools key = none)
    (moment : Moment derive rents start after key pool event middle last)
    (serves : connection.Serves bytes rents middle key) (small : event.solReserveAfter.val + rents.pool.val < 2 ^ 53) :
    getPoolByAddressFromRpc connection (bytes key) =
      .ok (some (shown (bytes key) (pool.rename bytes) event.solReserveAfter event.tokenReserveAfter)) := by
  obtain ⟨first, reached⟩ := moment.reached
  obtain ⟨held, there, same⟩ := moment.reads
  have reachable : Program.Reachable derive rents middle := ⟨start, orderly, noPools, first, reached⟩
  have sol : event.solReserveAfter = middle.solReserve rents key := moment.own ▸ moment.shows.sol
  have token : event.tokenReserveAfter = middle.amounts held.tokenVault := by
    rw [moment.shows.token, same.tokenVault]
  have reserve : (middle.solReserve rents key).val = (middle.lamports key).val - rents.pool.val := rfl
  rw [sol, reserve] at small
  rw [sol, token, ← shown_same same]
  exact reachable_reads reachable there serves (by omega)

end Rpc

section Pass
variable {history : History} {pass : List ((Environment × BlockBatch) × Written)} {session : Session}
  {creation de : Indexer.DecodedEvent} {row : Stored NewPoolRow}

/-- A pass over all blocks records all events, and its pools come from them. -/
theorem pass_records (runs : Run Session.write (.load .empty) pass session)
    (whole : pass.map (fun write => write.1.2) = history.blocks) :
    session.Records history.events ∧ session.db.Sourced (· ∈ history.events) := by
  constructor
  · have created : (⟨0, []⟩ :: pass.map fun write => write.1.2).Pairwise fun earlier later => ∀ de ∈ earlier.events,
        ∀ creation ∈ later.events, creation.creates →
          Indexer.poolPubkey creation.event ≠ Indexer.poolPubkey de.event := by
      rw [whole]
      exact List.pairwise_cons.mpr ⟨fun _ _ _ impossible => (by cases impossible), history.created⟩
    have recorded := Session.Records.start.run runs created
    rw [whole] at recorded
    exact recorded
  · refine Run.invariant (fun session : Session => session.db.Sourced (· ∈ history.events)) runs ?_ Indexer.Db.Sourced.empty
    rintro before ⟨env, batch⟩ after written member sourced accepted
    obtain ⟨last, ingested, rfl⟩ := Session.write_done accepted
    apply Indexer.Db.Sourced.checkpointed
    apply ingested.database.sourced sourced
    intro de listed
    have block : batch ∈ history.blocks := by
      rw [← whole]
      exact List.mem_map_of_mem (f := fun write => write.1.2) member
    exact List.mem_flatMap.mpr ⟨batch, block, BlockBatch.mem_processed.mp listed⟩

end Pass

section Rows
variable {Key : Type} {bytes : Key → Pubkey} {key : Key} {pool : Pool Key} {event : DeepPoolEvent Key}
  {creation : PoolCreated Key} {de made : Indexer.DecodedEvent} {row : NewPoolRow} {bump : Word 8}

theorem rename_reserves : (event.rename bytes).solReserveAfter = event.solReserveAfter ∧
    (event.rename bytes).tokenReserveAfter = event.tokenReserveAfter := by
  cases event <;> exact ⟨rfl, rfl⟩

/-- The row of the current reserves has what its event says. -/
theorem reservesRow_exact {now : Int} {poolId : ℕ} {carried : Option Int} (emitted : de.event.emitted = event.rename bytes)
    (sol : event.solReserveAfter.val < 2 ^ 63) (token : event.tokenReserveAfter.val < 2 ^ 63) :
    (Indexer.reservesRow now poolId carried de).solReserve = event.solReserveAfter.val ∧
      (Indexer.reservesRow now poolId carried de).tokenReserve = event.tokenReserveAfter.val := by
  have narrowed : (Indexer.reservesRow now poolId carried de).solReserve = Indexer.asI64 de.event.emitted.solReserveAfter ∧
      (Indexer.reservesRow now poolId carried de).tokenReserve = Indexer.asI64 de.event.emitted.tokenReserveAfter := by
    unfold Indexer.reservesRow
    cases de.event <;> exact ⟨rfl, rfl⟩
  rw [emitted, rename_reserves.1, rename_reserves.2, Indexer.asI64_exact.mpr sol, Indexer.asI64_exact.mpr token] at narrowed
  exact narrowed

/-- The row of a pool names what its account holds. -/
structure Row (bytes : Key → Pubkey) (key : Key) (pool : Pool Key) (row : NewPoolRow) : Prop where
  pubkey : row.pubkey = toBase58 (bytes key)
  config : row.config = toBase58 (bytes pool.config)
  tokenMint : row.tokenMint = toBase58 (bytes pool.tokenMint)
  lpMint : row.lpMint = toBase58 (bytes pool.lpMint)
  solInitial : row.solInitial = pool.initialSol.val
  tokensInitial : row.tokensInitial = pool.initialTokens.val

theorem Row.of_creation {now : Int} (made : Indexer.poolRow now de = some row)
    (emitted : de.event.emitted = .poolCreated (creation.rename bytes)) (describes : creation.Describes key pool)
    (sol : pool.initialSol.val < 2 ^ 63) (token : pool.initialTokens.val < 2 ^ 63) : Row bytes key pool row := by
  unfold Indexer.poolRow at made
  cases created : de.event with
  | poolCreated event =>
    rw [created] at made emitted
    have fields : event.emitted = creation.rename bytes := DeepPoolEvent.poolCreated.inj emitted
    cases made
    obtain ⟨rfl, config, tokenMint, lpMint, initialSol, initialTokens⟩ := describes
    have named := congrArg PoolCreated.pool fields
    constructor
    case pubkey => exact congrArg toBase58 (congrArg PoolCreated.pool fields)
    case config => exact config ▸ congrArg toBase58 (congrArg PoolCreated.config fields)
    case tokenMint => exact tokenMint ▸ congrArg toBase58 (congrArg PoolCreated.tokenMint fields)
    case lpMint => exact lpMint ▸ congrArg toBase58 (congrArg PoolCreated.lpMint fields)
    case solInitial =>
      have amount : event.solInNet = pool.initialSol := (congrArg PoolCreated.solInNet fields).trans initialSol
      exact (congrArg Indexer.asI64 amount).trans (Indexer.asI64_exact.mpr sol)
    case tokensInitial =>
      have amount : event.tokensInNet = pool.initialTokens := (congrArg PoolCreated.tokensInNet fields).trans initialTokens
      exact (congrArg Indexer.asI64 amount).trans (Indexer.asI64_exact.mpr token)
  | _ =>
    rw [created] at made
    cases made

variable {find : Seeds Pubkey → Option (Pubkey × Word 8)} {db : Indexer.Db} {collation : Collation}
  {stored : Stored NewPoolRow}

/-- The indexer answers with the pool and the reserves that its newest row holds. -/
theorem indexer_reads (member : stored ∈ db.pools.rows) (named : Row bytes key pool stored.data)
    (shows : db.Shows collation stored de) (emitted : de.event.emitted = event.rename bytes)
    (vault : find (.vault (bytes key)) = some (bytes pool.tokenVault, bump))
    (sol : event.solReserveAfter.val < 2 ^ 63) (token : event.tokenReserveAfter.val < 2 ^ 63) :
    getPoolDetailFromIndexer find (.of collation db) (toBase58 (bytes key)) =
      .ok (some (shown (bytes key) (pool.rename bytes) event.solReserveAfter event.tokenReserveAfter)) := by
  have asked : stored.id ∈ [stored.id] := List.mem_singleton_self _
  obtain ⟨row, now, carried, answer, data⟩ := shows [stored.id] asked
  rw [Indexer.latest_filter asked] at answer
  have latest : db.latestForPool collation stored.id = some row := Option.toList_eq_singleton_iff.mp answer
  have found := Indexer.poolList_pubkey member
  rw [named.pubkey] at found
  have answers : ((Indexer.getPool collation db (toBase58 (bytes key))).run .default).1 =
      Indexer.detail collation db (toBase58 (bytes key)) :=
    (Indexer.getPool_answers _ .default Indexer.Cache.Coherent.default).1
  have detail : Indexer.detail collation db (toBase58 (bytes key)) = some ⟨stored, some row⟩ := by
    rw [Indexer.detail, found, Option.map_some, latest]
  obtain ⟨exactSol, exactToken⟩ : row.data.solReserve = event.solReserveAfter.val ∧
      row.data.tokenReserve = event.tokenReserveAfter.val := data ▸ reservesRow_exact emitted sol token
  have answered : IndexerApi.of collation db (toBase58 (bytes key)) = .ok (some ⟨stored, some row⟩) :=
    congrArg Except.ok (answers.trans detail)
  have vaultPda : getVaultPda find (bytes key) = .ok (bytes pool.tokenVault) := by
    rw [getVaultPda, findProgramAddress, vault]
  have state : detailToPoolState find ⟨stored, some row⟩ =
      .ok (shown (bytes key) (pool.rename bytes) event.solReserveAfter event.tokenReserveAfter) := by
    refine bind_ok.mpr ⟨bytes key, ?_, bind_ok.mpr ⟨bytes pool.tokenVault, vaultPda, ?_⟩⟩
    · rw [named.pubkey]
      exact publicKey_toBase58 _
    · simp only [Option.elim, named.pubkey, named.config, named.tokenMint, named.lpMint, named.solInitial,
        named.tokensInitial, exactSol, exactToken]
      rfl
  exact bind_ok.mpr ⟨_, answered, bind_ok.mpr ⟨_, state, rfl⟩⟩

end Rows

section Agreement
variable {Key : Type} [DecidableEq Key] {derive : Derivation Key} {rents : Rents Key} {bytes : Key → Pubkey}
  {program : Pubkey} {start after : World Key} {annals : Annals Key} {session : Session}
  {pass : List ((Environment × BlockBatch) × Written)} {key : Key} {pool : Pool Key}
  {find : Seeds Pubkey → Option (Pubkey × Word 8)}
  {collation : Collation} (executed : Executed derive rents bytes program start annals after)

/-- The line of a pool in the indexer's history is what the run did with it. -/
theorem executed_line (known : ∃ event ∈ annals.events, event.pool = key) :
    (executed.history.line (toBase58 (bytes key))).map (fun de => de.event.emitted) =
      (annals.events.filter fun event => event.pool = key).map (DeepPoolEvent.rename bytes) := by
  obtain ⟨other, listed, rfl⟩ := known
  have all : executed.history.events.map (fun de => de.event.emitted) = annals.events.map (DeepPoolEvent.rename bytes) :=
    executed.events
  have ours : ∀ event ∈ annals.events, decide (toBase58 (event.rename bytes).pool = toBase58 (bytes other.pool)) =
      decide (event.pool = other.pool) := by
    intro event member
    rw [decide_eq_decide, Indexer.rename_pool, toBase58, toBase58, Indexer.encodeKey_inj]
    exact ⟨fun same => executed.addressed event member other listed same, congrArg bytes⟩
  have texts : ∀ de : Indexer.DecodedEvent, decide (Indexer.poolPubkey de.event = toBase58 (bytes other.pool)) =
      decide (toBase58 de.event.emitted.pool = toBase58 (bytes other.pool)) := by
    intro de
    rw [Indexer.poolPubkey_emitted]
    rfl
  calc (executed.history.line (toBase58 (bytes other.pool))).map (fun de => de.event.emitted)
      = (executed.history.events.map fun de => de.event.emitted).filter
          fun event => toBase58 event.pool = toBase58 (bytes other.pool) := by
        rw [List.filter_map, History.line, Indexer.eventsOf]
        simp only [texts, Function.comp_def]
    _ = _ := by
        rw [all, List.filter_map]
        exact congrArg _ (List.filter_congr ours)

/-- A pool has one creation. -/
theorem created_once {first second : Indexer.DecodedEvent} (member : first ∈ executed.history.events)
    (listed : second ∈ executed.history.events) (creates : first.creates) (also : second.creates)
    (same : Indexer.poolPubkey first.event = Indexer.poolPubkey second.event) : first = second := by
  let Apart (first second : Indexer.DecodedEvent) : Prop :=
    first.creates → second.creates → Indexer.poolPubkey first.event ≠ Indexer.poolPubkey second.event
  have symmetric : Std.Symm Apart := ⟨fun _ _ apart second first same => apart first second same.symm⟩
  have apart : executed.history.events.Pairwise Apart := by
    apply executed.created.imp
    intro earlier later apart _ creates same
    exact apart creates same.symm
  by_contra different
  exact apart.forall member listed different creates also same

/-- Every amount of the pool is one that a signed column holds, and its lamports are a number exactly. -/
structure Representable (rents : Rents Key) (key : Key) (pool : Pool Key) (events : List (DeepPoolEvent Key)) : Prop where
  initialSol : pool.initialSol.val < 2 ^ 63
  initialTokens : pool.initialTokens.val < 2 ^ 63
  sol : ∀ event ∈ events, event.pool = key → event.solReserveAfter.val + rents.pool.val < 2 ^ 53
  token : ∀ event ∈ events, event.pool = key → event.tokenReserveAfter.val < 2 ^ 63

instance (rents : Rents Key) (key : Key) (pool : Pool Key) (events : List (DeepPoolEvent Key)) :
    Decidable (Representable rents key pool events) :=
  decidable_of_iff (pool.initialSol.val < 2 ^ 63 ∧ pool.initialTokens.val < 2 ^ 63 ∧
    (∀ event ∈ events, event.pool = key → event.solReserveAfter.val + rents.pool.val < 2 ^ 53) ∧
      ∀ event ∈ events, event.pool = key → event.tokenReserveAfter.val < 2 ^ 63)
    ⟨fun ⟨initialSol, initialTokens, sol, token⟩ => ⟨initialSol, initialTokens, sol, token⟩,
      fun ⟨initialSol, initialTokens, sol, token⟩ => ⟨initialSol, initialTokens, sol, token⟩⟩

/-- What the indexer shows of a pool is what its newest event says. -/
theorem indexer_shows (noPools : start.pools key = none) (runs : Run Session.write (.load .empty) pass session)
    (whole : pass.map (fun write => write.1.2) = executed.history.blocks) (present : after.pools key = some pool)
    {bump : Word 8} (vault : find (.vault (bytes key)) = some (bytes pool.tokenVault, bump))
    (representable : Representable rents key pool annals.events) (collation : Collation) :
    ∃ newest ∈ executed.history.line (toBase58 (bytes key)), ∃ event ∈ annals.events.filter fun event => event.pool = key,
      newest.event.emitted = event.rename bytes ∧
        (∀ other ∈ executed.history.line (toBase58 (bytes key)), collation.newestEvent newest other) ∧
        getPoolDetailFromIndexer find (.of collation session.db) (toBase58 (bytes key)) =
          .ok (some (shown (bytes key) (pool.rename bytes) event.solReserveAfter event.tokenReserveAfter)) := by
  obtain ⟨records, sourced⟩ := pass_records runs whole
  obtain ⟨creation, listed, describes⟩ := created_run (Indexer.annals_run executed.runs) noPools present
  have all : executed.history.events.map (fun de => de.event.emitted) = annals.events.map (DeepPoolEvent.rename bytes) :=
    executed.events
  have known : ∃ event ∈ annals.events, event.pool = key := ⟨_, listed, describes.address⟩
  obtain ⟨made, recorded, emitted⟩ : ∃ made ∈ executed.history.events,
      made.event.emitted = .poolCreated (creation.rename bytes) := by
    have also := List.mem_map_of_mem (f := DeepPoolEvent.rename bytes) listed
    rw [show annals.trace.filterMap Prod.snd = annals.events from rfl, ← all] at also
    exact List.mem_map.mp also
  have creates : made.creates := by
    rw [← Indexer.emitted_creates, emitted]
    rfl
  have named : Indexer.poolPubkey made.event = toBase58 (bytes key) := by
    rw [Indexer.poolPubkey_emitted, emitted, ← describes.address]
    rfl
  obtain ⟨stored, member, pubkey⟩ := records.created made recorded creates
  obtain ⟨source, genuine, now, row⟩ := sourced.pools stored member
  obtain ⟨also, same⟩ := Indexer.poolRow_source row
  have once : source = made := created_once executed genuine recorded also creates (same.trans pubkey)
  subst once
  have names : Row bytes key pool stored.data :=
    .of_creation row emitted describes representable.initialSol representable.initialTokens
  have touched : source ∈ executed.history.line stored.data.pubkey := Indexer.mem_eventsOf.mpr ⟨recorded, pubkey.symm⟩
  obtain ⟨newest, within, shows, least⟩ := records.shows member touched collation
  rw [names.pubkey] at within least
  have own := List.mem_map_of_mem (f := fun de : Indexer.DecodedEvent => de.event.emitted) within
  rw [executed_line executed known] at own
  obtain ⟨event, ours, renamed⟩ := List.mem_map.mp own
  obtain ⟨happened, mine⟩ := List.mem_filter.mp ours
  have sol := representable.sol event happened (of_decide_eq_true mine)
  refine ⟨newest, within, event, ours, renamed.symm, least, ?_⟩
  exact indexer_reads member names shows renamed.symm vault (by omega)
    (representable.token event happened (of_decide_eq_true mine))

/-- Program addresses in 32 bytes are those of the keys. -/
def Addresses (derive : Derivation Key) (bytes : Key → Pubkey) (find : Seeds Pubkey → Option (Pubkey × Word 8)) : Prop :=
  ∀ seeds address bump, derive.findProgramAddress seeds = some (address, bump) →
    find (seeds.rename bytes) = some (bytes address, bump)

/-- The newest event of the pool is the last one that executed. -/
def Untied (collation : Collation) (line : List Indexer.DecodedEvent) : Prop :=
  ∀ last ∈ line.getLast?, ∀ other ∈ line, other.slot ≤ last.slot ∧
    (other.slot = last.slot → collation.rank other.signature ≤ collation.rank last.signature)

theorem last_event {newest : Indexer.DecodedEvent} (known : ∃ event ∈ annals.events, event.pool = key)
    (within : newest ∈ executed.history.line (toBase58 (bytes key)))
    (least : ∀ other ∈ executed.history.line (toBase58 (bytes key)), collation.newestEvent newest other)
    (untied : Untied collation (executed.history.line (toBase58 (bytes key)))) :
    ∃ final, (annals.events.filter fun event => event.pool = key).getLast? = some final ∧
      final.rename bytes = newest.event.emitted := by
  obtain ⟨last, ends⟩ : ∃ last, (executed.history.line (toBase58 (bytes key))).getLast? = some last :=
    Option.ne_none_iff_exists'.mp fun nothing => by
      rw [List.getLast?_eq_none_iff.mp nothing] at within
      cases within
  have newest_ := (collation.newest_last within ends least).mpr (untied last ends)
  subst newest_
  have mapped := congrArg List.getLast? (executed_line executed known)
  rw [List.getLast?_map, List.getLast?_map, ends] at mapped
  exact Option.map_eq_some_iff.mp mapped.symm

end Agreement

section Samples
open Program (SampleKey sampleDerivation sampleRents sampleWorld sampleWorld_orderly samplePool)
open Indexer (tagged sampleBytes sampleAnnals sampleAnnals_executed passOf passOf_blocks)

def sampleFind : Seeds Pubkey → Option (Pubkey × Word 8)
  | .pool config _ => some (tagged 1 config, 255)
  | .vault pool => some (tagged 2 pool, 255)
  | .lpMint pool => some (tagged 3 pool, 255)

theorem sampleAddresses : Addresses sampleDerivation sampleBytes sampleFind := by
  intro seeds address bump found
  cases found
  cases seeds <;> rfl

/-- A node that shows one pool. -/
def sampleNode (world : World SampleKey) (key : SampleKey) (pool : Pool SampleKey) : Connection where
  getAccountInfo := fun _ => some ⟨world.lamports key, (pool.rename sampleBytes).data⟩
  getTokenAccountBalance := fun _ => some (world.amounts pool.tokenVault)
  getMinimumBalanceForRentExemption := fun _ => sampleRents.pool
  programAccounts := []

theorem sampleNode_serves {world : World SampleKey} {key : SampleKey} {pool : Pool SampleKey}
    (present : world.pools key = some pool) : (sampleNode world key pool).Serves sampleBytes sampleRents world key := by
  constructor
  case account =>
    intro other found
    rw [present] at found
    cases found
    rfl
  case balance =>
    intro other found _
    rw [present] at found
    cases found
    rfl
  case rent => rfl

/-- The pools of the example run. -/
def sampleMirror (world : World SampleKey) : Connection where
  getAccountInfo := fun address => ([samplePool 3, samplePool 4].find? fun key => sampleBytes key = address).bind fun key =>
    (world.pools key).map fun pool => ⟨world.lamports key, (pool.rename sampleBytes).data⟩
  getTokenAccountBalance := fun address => ([samplePool 3, samplePool 4].find? fun key =>
    sampleBytes (.vault key) = address).map fun key => world.amounts (.vault key)
  getMinimumBalanceForRentExemption := fun _ => sampleRents.pool
  programAccounts := [samplePool 3, samplePool 4].filterMap fun key => (world.pools key).map fun pool =>
    (sampleBytes key, ⟨world.lamports key, (pool.rename sampleBytes).data⟩)

theorem sampleMirror_mirrors {world : World SampleKey} (sound : Sound sampleDerivation world)
    (only : ∀ key, world.pools key ≠ none → key ∈ [samplePool 3, samplePool 4]) :
    (sampleMirror world).Mirrors sampleBytes sampleRents world := by
  have finds : ∀ key ∈ [samplePool 3, samplePool 4],
      ([samplePool 3, samplePool 4].find? fun other => sampleBytes other = sampleBytes key) = some key ∧
        ([samplePool 3, samplePool 4].find? fun other => sampleBytes (.vault other) = sampleBytes (.vault key)) =
          some key := by
    decide +kernel
  constructor
  case serves =>
    intro key there
    obtain ⟨found, balance⟩ := finds key (only key there)
    refine ⟨?_, ?_, rfl⟩
    · intro pool present
      simp only [sampleMirror, found, Option.bind_some, present, Option.map_some]
    · intro pool present _
      obtain ⟨bump, vault⟩ := (sound.established present).vault
      have named : SampleKey.vault key = pool.tokenVault := congrArg Prod.fst (Option.some.inj vault)
      simp only [sampleMirror, ← named, balance, Option.map_some]
  case listed =>
    intro address info
    simp only [sampleMirror, List.mem_filterMap, Option.map_eq_some_iff, Prod.mk.injEq]
    constructor
    · rintro ⟨key, _, pool, present, rfl, rfl⟩
      exact ⟨key, pool, present, rfl, rfl⟩
    · rintro ⟨key, pool, present, rfl, rfl⟩
      exact ⟨key, only key (present ▸ Option.some_ne_none _), pool, present, rfl, rfl⟩
  case once =>
    have different : sampleBytes (samplePool 3) ≠ sampleBytes (samplePool 4) := by decide +kernel
    cases first : world.pools (samplePool 3) <;> cases second : world.pools (samplePool 4) <;>
      simp [sampleMirror, first, second, different]

end Samples

end DeepPool.Sdk
