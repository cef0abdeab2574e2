import Mathlib.Data.List.TakeWhile
import DeepPool.Proofs.Contents

/-! Replays. The events of a pool form one line through the chain, from its creation on.
However the passes fall, the index holds a first stretch of that line, and the cached LP
supply is right as soon as the replay has caught up with it. -/

namespace DeepPool.Indexer
open Library

/-- The events of a block in the order in which the writer takes them. -/
def BlockBatch.processed (batch : BlockBatch) : List DecodedEvent := batch.events.insertionSort (DecodedEvent.before · ·)

/-- A pool's events in one block, and in the blocks of an interval. -/
def Feed.part (feed : Feed) (pubkey : String) (index : Nat) : List DecodedEvent :=
  eventsOf pubkey ((feed.blocks[index]?).elim [] BlockBatch.processed)

def Feed.slice (feed : Feed) (pubkey : String) (start stop : Nat) : List DecodedEvent :=
  (List.range' start (stop - start)).flatMap (feed.part pubkey)

section Slice
variable {feed : Feed} {chain : Chronicle} {pubkey : String} {batch other : BlockBatch} {de : DecodedEvent} {i j k : Nat}

theorem BlockBatch.mem_processed : de ∈ batch.processed ↔ de ∈ batch.events := List.mem_insertionSort _

theorem Feed.part_eq (found : feed.blocks[i]? = some batch) : feed.part pubkey i = eventsOf pubkey batch.processed := by
  rw [part, found]
  rfl

theorem Feed.mem_part : de ∈ feed.part pubkey i ↔
    ∃ batch, feed.blocks[i]? = some batch ∧ de ∈ batch.events ∧ poolPubkey de.event = pubkey := by
  rw [part, mem_eventsOf]
  cases found : feed.blocks[i]? with
  | none => simp
  | some batch => simp [BlockBatch.mem_processed]

theorem Feed.slice_append (low : i ≤ j) (high : j ≤ k) :
    feed.slice pubkey i j ++ feed.slice pubkey j k = feed.slice pubkey i k := by
  have joined : List.range' i (j - i) ++ List.range' j (k - j) = List.range' i (k - i) := by
    have consecutive := List.range'_append_1 (s := i) (m := j - i) (n := k - j)
    have middle : i + (j - i) = j := by omega
    have whole : j - i + (k - j) = k - i := by omega
    rw [middle, whole] at consecutive
    exact consecutive
  rw [slice, slice, slice, ← List.flatMap_append, joined]

theorem Feed.slice_self : feed.slice pubkey i i = [] := by
  rw [slice, Nat.sub_self]
  rfl

theorem Feed.slice_one : feed.slice pubkey i (i + 1) = feed.part pubkey i := by
  rw [slice, Nat.add_sub_cancel_left]
  exact List.append_nil _

theorem Feed.mem_slice : de ∈ feed.slice pubkey i j ↔ ∃ k, i ≤ k ∧ k < j ∧ de ∈ feed.part pubkey k := by
  rw [slice, List.mem_flatMap]
  constructor
  · rintro ⟨k, inside, member⟩
    rw [List.mem_range'_1] at inside
    exact ⟨k, inside.1, by omega, member⟩
  · rintro ⟨k, low, high, member⟩
    exact ⟨k, List.mem_range'_1.mpr ⟨low, by omega⟩, member⟩

theorem Feed.slice_nil (quiet : ∀ k, i ≤ k → k < j → feed.part pubkey k = []) : feed.slice pubkey i j = [] := by
  rw [List.eq_nil_iff_forall_not_mem]
  intro de member
  obtain ⟨k, low, high, inside⟩ := Feed.mem_slice.mp member
  rw [quiet k low high] at inside
  cases inside

/-- Before its creation a pool has no events. -/
theorem Feed.part_before {creation : DecodedEvent} (made : creation ∈ feed.part pubkey i) (creates : creation.creates)
    (before : k < i) : feed.part pubkey k = [] := by
  obtain ⟨batch, found, member, same⟩ := Feed.mem_part.mp made
  rw [List.eq_nil_iff_forall_not_mem]
  intro de inside
  obtain ⟨earlier, stands, listed, named⟩ := Feed.mem_part.mp inside
  exact absurd (feed.creation_le found stands member creates listed (same.trans named.symm)) (not_le.mpr before)

theorem Chronicle.mem_events (found : chain.blocks[i]? = some batch) (member : de ∈ batch.events) :
    de ∈ chain.blocks.flatMap BlockBatch.events :=
  List.mem_flatMap.mpr ⟨batch, List.mem_of_getElem? found, member⟩

theorem Chronicle.key_inj {other : DecodedEvent} (member : de ∈ chain.blocks.flatMap BlockBatch.events)
    (listed : other ∈ chain.blocks.flatMap BlockBatch.events) (same : de.key = other.key) : de = other :=
  List.inj_on_of_nodup_map chain.keyed member listed same

/-- An event stands in one block only. -/
theorem Chronicle.position_inj (first : chain.blocks[i]? = some batch) (last : chain.blocks[j]? = some other)
    (member : de ∈ batch.events) (listed : de ∈ other.events) : i = j := by
  have slots : batch.slot = other.slot := by
    have encoded := (chain.placed batch (List.mem_of_getElem? first) de member).symm.trans
      (chain.placed other (List.mem_of_getElem? last) de listed)
    rw [← asU64_asI64 batch.slot, encoded, asU64_asI64]
  rcases lt_trichotomy i j with before | same | after
  · exact absurd (chain.slot_lt first last before) (by rw [slots]; exact lt_irrefl _)
  · exact same
  · exact absurd (chain.slot_lt last first after) (by rw [slots]; exact lt_irrefl _)

theorem Chronicle.part_inj (first : de ∈ chain.part pubkey i) (last : de ∈ chain.part pubkey j) : i = j := by
  obtain ⟨batch, found, member, _⟩ := Feed.mem_part.mp first
  obtain ⟨other, stands, listed, _⟩ := Feed.mem_part.mp last
  exact chain.position_inj found stands member listed

theorem Chronicle.mem_slice_part (member : de ∈ chain.part pubkey i) : de ∈ chain.slice pubkey 0 j ↔ i < j := by
  rw [Feed.mem_slice]
  constructor
  · rintro ⟨k, _, high, inside⟩
    exact chain.part_inj member inside ▸ high
  · intro high
    exact ⟨i, Nat.zero_le _, high, member⟩

theorem Chronicle.asI64_slot (found : chain.blocks[i]? = some batch) : asI64 batch.slot = batch.slot.val := by
  have fits := chain.fits batch (List.mem_of_getElem? found)
  rw [asI64, if_pos fits]

/-- Along a line the slots never fall. -/
theorem Chronicle.slots (chain : Chronicle) (pubkey : String) (i j : Nat) :
    (chain.slice pubkey i j).Pairwise fun earlier later => earlier.slot ≤ later.slot := by
  have within : ∀ k, ∀ de ∈ chain.part pubkey k, ∃ batch, chain.blocks[k]? = some batch ∧ de.slot = batch.slot.val := by
    intro k de member
    obtain ⟨batch, found, listed, _⟩ := Feed.mem_part.mp member
    exact ⟨batch, found, (chain.placed batch (List.mem_of_getElem? found) de listed).trans (chain.asI64_slot found)⟩
  rw [Feed.slice, List.pairwise_flatMap]
  constructor
  · intro k _
    apply List.pairwise_of_forall_mem_list
    intro early member late listed
    obtain ⟨batch, found, first⟩ := within k early member
    obtain ⟨same, again, last⟩ := within k late listed
    obtain rfl := Option.some.inj (found.symm.trans again)
    exact le_of_eq (first.trans last.symm)
  · apply List.Pairwise.imp _ (List.pairwise_lt_range' 1)
    intro k l order early member late listed
    obtain ⟨batch, found, first⟩ := within k early member
    obtain ⟨following, stands, last⟩ := within l late listed
    have increases := chain.slot_lt found stands order
    omega

end Slice

section Newest
variable {archive : Archive} {db : Db} {rows : List (Stored NewReservesRow)} {last : Stored NewReservesRow}

private theorem newerReserves_iff {a b : Stored NewReservesRow} : newerReserves a b = true ↔
    b.data.lastSlot < a.data.lastSlot ∨ b.data.lastSlot = a.data.lastSlot ∧ b.id ≤ a.id := by
  simp [newerReserves]

instance newerReserves_total : Std.Total (fun a b : Stored NewReservesRow => newerReserves a b = true) where
  total := fun a b => by
    rw [newerReserves_iff, newerReserves_iff]
    omega

instance newerReserves_trans : IsTrans (Stored NewReservesRow) fun a b => newerReserves a b = true where
  trans := fun a b c first second => by
    rw [newerReserves_iff] at first second ⊢
    omega

/-- Rows that were inserted in the order of their slots are newest at the end. -/
theorem newest_last (ordered : (rows ++ [last]).Pairwise fun earlier later =>
      earlier.id < later.id ∧ earlier.data.lastSlot ≤ later.data.lastSlot) :
    ((rows ++ [last]).insertionSort (newerReserves · ·)).head? = some last := by
  cases found : ((rows ++ [last]).insertionSort (newerReserves · ·)).head? with
  | none =>
    have empty := List.head?_eq_none_iff.mp found
    have length := congrArg List.length empty
    rw [List.length_insertionSort] at length
    simp at length
  | some first =>
    obtain ⟨member, newest⟩ := head?_insertionSort found
    rcases List.mem_append.mp member with earlier | only
    · obtain ⟨older, behind⟩ := (List.pairwise_append.mp ordered).2.2 first earlier last List.mem_cons_self
      rcases newest last (List.mem_append_right _ List.mem_cons_self) with same | newer
      · exact absurd older (by rw [same]; exact lt_irrefl _)
      · rw [newerReserves_iff] at newer
        omega
    · rw [List.mem_singleton.mp only]

theorem reservesRow_supply {now : Int} {poolId : Nat} {carried : Option Int} {de : DecodedEvent} :
    (reservesRow now poolId carried de).lpSupply = ((supply de).or carried).getD 0 ∧
      (reservesRow now poolId carried de).lastSlot = de.slot := by
  unfold reservesRow supply
  cases de.event <;> exact ⟨rfl, rfl⟩

theorem reservesFrom_slots {now : Int} {poolId : Nat} (carried : Option Int) (line : List DecodedEvent) :
    (reservesFrom now poolId carried line).map NewReservesRow.lastSlot = line.map DecodedEvent.slot := by
  induction line generalizing carried with
  | nil => rfl
  | cons de line ih => rw [reservesFrom, List.map_cons, List.map_cons, ih, reservesRow_supply.2]

/-- The supply that a reloaded cache finds is the one the line ends with. -/
theorem Db.Mirrors.loads (mirrors : db.Mirrors archive) {row : Stored NewPoolRow} (member : row ∈ db.pools.rows)
    (slots : (archive.line row.data.pubkey).Pairwise fun earlier later => earlier.slot ≤ later.slot)
    (stated : (carry supply none (archive.line row.data.pubkey)).isSome) :
    loadLpSupplyCache db row.id = carry supply none (archive.line row.data.pubkey) := by
  have lines := mirrors.reserves.lines row member
  rw [rowsOf, List.filter_map] at lines
  rcases List.eq_nil_or_concat' (archive.line row.data.pubkey) with empty | ⟨line, de, ends⟩
  · rw [empty] at stated
    cases stated
  · have appended : carry supply none (archive.line row.data.pubkey) = (supply de).or (carry supply none line) := by
      rw [ends, carry_append]
      rfl
    have columns := lines
    rw [reservesLine, ends, reservesFrom_append, reservesFrom, reservesFrom] at lines
    obtain ⟨earlier, final, split, _, single⟩ := List.map_eq_append_iff.mp lines
    obtain ⟨last, rfl, same⟩ := List.map_eq_singleton_iff.mp single
    have ordered : (earlier ++ [last]).Pairwise fun earlier later =>
        earlier.id < later.id ∧ earlier.data.lastSlot ≤ later.data.lastSlot := by
      rw [← split]
      apply List.Pairwise.and (mirrors.ascending.filter _)
      have slotted := congrArg (List.map NewReservesRow.lastSlot) columns
      rw [List.map_map, reservesLine, reservesFrom_slots] at slotted
      have rising : ((db.reserves.rows.filter ((fun data => decide (data.poolId = row.id)) ∘ Stored.data)).map
          (NewReservesRow.lastSlot ∘ Stored.data)).Pairwise (· ≤ ·) := by
        rw [slotted, List.pairwise_map]
        exact slots
      exact List.pairwise_map.mp rising
    have newest := newest_last ordered
    rw [← split] at newest
    have stands : db.newestReserves row.id = some last := newest
    rw [loadLpSupplyCache, stands, Option.map_some, same, reservesRow_supply.1, appended]
    rw [appended] at stated
    obtain ⟨held, found⟩ := Option.isSome_iff_exists.mp stated
    rw [found, Option.getD_some]

end Newest

section Follow
variable {chain : Chronicle} {replay : Replay} {archive : Archive} {batch : BlockBatch} {env : Environment}
  {session after : Session} {written : Written} {pubkey : String} {line : List DecodedEvent} {first frontier : Nat}

/-- Since its creation was first delivered, the blocks of a pool were delivered without a
gap up to the frontier, and none beyond it. -/
structure Chronicle.Stretch (chain : Chronicle) (deliveries : List Nat) (pubkey : String) (first frontier : Nat) :
    Prop where
  delivered : first ∈ deliveries
  creates : ∃ creation ∈ chain.part pubkey first, creation.creates
  inside : ∀ index ∈ deliveries.dropWhile (· ≠ first), index < frontier
  whole : ∀ index, first ≤ index → index < frontier → index ∈ deliveries

/-- The archive holds the delivered stretch of every pool's line, the tables mirror it,
and what is left of the stretch completes the cached supply. -/
structure Replay.Follows (chain : Chronicle) (replay : Replay) (archive : Archive) : Prop where
  mirrors : replay.session.db.Mirrors archive
  tracks : replay.session.Tracks
  unknown : ∀ pubkey, archive pubkey = none → ∀ index ∈ replay.deliveries, ∀ de ∈ chain.part pubkey index, ¬ de.creates
  known : ∀ pubkey line, archive pubkey = some line → ∃ first frontier,
    chain.Stretch replay.deliveries pubkey first frontier ∧ line = chain.slice pubkey 0 frontier ∧
      ∀ last ∈ replay.deliveries.getLast?, last < frontier ∧
        ∀ row ∈ replay.session.db.pools.rows, row.data.pubkey = pubkey →
          carry supply (replay.session.lpSupplyCache row.id) (chain.slice pubkey (last + 1) frontier) =
            carry supply none line
  near : ∀ last ∈ replay.deliveries.getLast?, replay.next ≤ last + 1

theorem Session.write_done (done : session.write (env, batch) = .ok (after, written)) :
    ∃ last, Ingested env batch.processed session last written ∧
      after = { last with db := { last.db with checkpoint := some (asI64 batch.slot) } } := by
  unfold Session.write at done
  simp only at done
  split at done
  next last rows outcome =>
    cases done
    unfold receive at outcome
    split at outcome
    next wrote =>
      cases outcome
      exact writeBlock_done wrote
    · cases outcome
  · cases done

/-- A known pool's frontier is not behind the block to come. -/
theorem Replay.Follows.reached (follows : replay.Follows chain archive) (some_ : archive pubkey = some line) :
    ∃ first frontier last, chain.Stretch replay.deliveries pubkey first frontier ∧ line = chain.slice pubkey 0 frontier ∧
      replay.deliveries.getLast? = some last ∧ replay.next ≤ last + 1 ∧ last + 1 ≤ frontier ∧
        ∀ row ∈ replay.session.db.pools.rows, row.data.pubkey = pubkey →
          carry supply (replay.session.lpSupplyCache row.id) (chain.slice pubkey (last + 1) frontier) =
            carry supply none line := by
  obtain ⟨first, frontier, stretch, same, caught⟩ := follows.known pubkey line some_
  cases latest : replay.deliveries.getLast? with
  | none =>
    have delivered := stretch.delivered
    rw [List.getLast?_eq_none_iff.mp latest] at delivered
    cases delivered
  | some last =>
    obtain ⟨behind, completes⟩ := caught last latest
    exact ⟨first, frontier, last, stretch, same, rfl, follows.near last latest, behind, completes⟩

theorem Replay.Follows.delivery (follows : replay.Follows chain archive)
    (found : chain.blocks[replay.next]? = some batch) : Delivery archive batch.processed := by
  have sorted : ∀ de ∈ batch.processed, de ∈ batch.events := fun de member => BlockBatch.mem_processed.mp member
  have lined : ∀ pubkey, ∀ de ∈ archive.line pubkey, ∃ index, de ∈ chain.part pubkey index := by
    intro pubkey de recorded
    cases some_ : archive pubkey with
    | none =>
      rw [Archive.line, some_] at recorded
      cases recorded
    | some line =>
      obtain ⟨first, frontier, _, same, _⟩ := follows.known pubkey line some_
      rw [Archive.line, some_, Option.getD_some, same] at recorded
      obtain ⟨index, _, _, inside⟩ := Feed.mem_slice.mp recorded
      exact ⟨index, inside⟩
  refine ⟨?_, ?_, ?_, ?_, ?_⟩
  · exact fun de member => chain.timed batch (List.mem_of_getElem? found) de (sorted de member)
  · have block : batch.events.Sublist (chain.blocks.flatMap BlockBatch.events) :=
      List.sublist_flatten_of_mem (List.mem_map_of_mem (List.mem_of_getElem? found))
    have distinct := List.Nodup.sublist (block.map DecodedEvent.key) chain.keyed
    exact ((List.perm_insertionSort _ batch.events).map DecodedEvent.key).nodup_iff.mpr distinct
  · intro pubkey de recorded
    obtain ⟨index, inside⟩ := lined pubkey de recorded
    obtain ⟨_, _, _, named⟩ := Feed.mem_part.mp inside
    exact named
  · intro pubkey old recorded de member same
    obtain ⟨index, inside⟩ := lined pubkey old recorded
    obtain ⟨earlier, stands, listed, _⟩ := Feed.mem_part.mp inside
    exact chain.key_inj (chain.mem_events stands listed) (chain.mem_events found (sorted de member)) same
  · intro pubkey
    rw [← chain.part_eq found]
    cases some_ : archive pubkey with
    | none => exact .inr fun de _ => by simp [Archive.line, some_]
    | some line =>
      obtain ⟨first, frontier, _, same, _⟩ := follows.known pubkey line some_
      rw [Archive.line, some_, Option.getD_some, same]
      by_cases old : replay.next < frontier
      · exact .inl fun de mine => (chain.mem_slice_part mine).mpr old
      · exact .inr fun de mine recorded => old ((chain.mem_slice_part mine).mp recorded)

theorem Replay.Follows.supplies (follows : replay.Follows chain archive)
    (found : chain.blocks[replay.next]? = some batch) : replay.session.Supplies archive batch.processed := by
  intro row member some_ new
  rw [← chain.part_eq found] at some_ new
  obtain ⟨line, known⟩ := follows.mirrors.known member
  obtain ⟨first, frontier, last, _, same, _, near, behind, completes⟩ := follows.reached known
  have held := completes row member rfl
  rw [Archive.line, known, Option.getD_some] at new ⊢
  obtain ⟨de, mine⟩ := List.exists_mem_of_ne_nil _ some_
  have beyond : ¬ replay.next < frontier := by
    intro old
    rw [same] at new
    exact new de mine ((chain.mem_slice_part mine).mpr old)
  have exact_ : last + 1 = frontier := by omega
  rw [exact_, Feed.slice_self, carry_nil] at held
  exact held

/-- A delivered block moves the frontier of a known pool past itself. -/
theorem Chronicle.add_known {i : Nat} (found : chain.blocks[i]? = some batch)
    (some_ : archive pubkey = some (chain.slice pubkey 0 frontier)) (near : i ≤ frontier) :
    archive.add batch.processed pubkey = some (chain.slice pubkey 0 (max frontier (i + 1))) := by
  rw [Archive.add_known some_, ← chain.part_eq found]
  by_cases old : i < frontier
  · rw [filter_old fun de mine => (chain.mem_slice_part mine).mpr old, List.append_nil, Nat.max_eq_left old]
  · obtain rfl : i = frontier := by omega
    rw [filter_new fun de mine recorded => old ((chain.mem_slice_part mine).mp recorded),
      Nat.max_eq_right (Nat.le_succ i),
      ← Feed.slice_append (Nat.zero_le i) (Nat.le_succ i), Feed.slice_one]

/-- Nothing of a pool is older than the block of its creation. -/
theorem Feed.slice_created {feed : Feed} {creation : DecodedEvent} {i : Nat} (mine : creation ∈ feed.part pubkey i)
    (creates : creation.creates) : feed.slice pubkey 0 (i + 1) = feed.part pubkey i := by
  have quiet : feed.slice pubkey 0 i = [] := Feed.slice_nil fun k _ before => Feed.part_before mine creates before
  rw [← Feed.slice_append (Nat.zero_le i) (Nat.le_succ i), quiet, List.nil_append, Feed.slice_one]

/-- A pool's line starts in the block of its creation. -/
theorem Chronicle.add_new {i : Nat} (found : chain.blocks[i]? = some batch) (unknown : archive pubkey = none)
    (added : archive.add batch.processed pubkey = some line) :
    line = chain.slice pubkey 0 (i + 1) ∧ ∃ creation ∈ chain.part pubkey i, creation.creates := by
  rcases Archive.add_some added with ⟨old, known, _⟩ | ⟨_, same, creation, mine, creates⟩
  · rw [unknown] at known
    cases known
  · rw [← chain.part_eq found] at same mine
    exact ⟨same.trans (Feed.slice_created mine creates).symm, creation, mine, creates⟩

private theorem mem_dropWhile_append {deliveries : List Nat} {index i : Nat} {p : Nat → Bool}
    (member : index ∈ (deliveries ++ [i]).dropWhile p) : index ∈ deliveries.dropWhile p ∨ index = i := by
  rw [List.dropWhile_append] at member
  split at member
  · exact .inr (List.mem_singleton.mp ((List.dropWhile_sublist p).subset member))
  · rcases List.mem_append.mp member with old | new
    · exact .inl old
    · exact .inr (List.mem_singleton.mp new)

theorem Chronicle.Stretch.extend {deliveries : List Nat} {i : Nat}
    (stretch : chain.Stretch deliveries pubkey first frontier)
    (near : i ≤ frontier) : chain.Stretch (deliveries ++ [i]) pubkey first (max frontier (i + 1)) where
  delivered := List.mem_append_left _ stretch.delivered
  creates := stretch.creates
  inside := by
    intro index member
    rcases mem_dropWhile_append member with old | rfl
    · exact lt_of_lt_of_le (stretch.inside index old) (Nat.le_max_left _ _)
    · exact Nat.le_max_right _ _
  whole := by
    intro index after before
    by_cases old : index < frontier
    · exact List.mem_append_left _ (stretch.whole index after old)
    · obtain rfl : index = i := by omega
      exact List.mem_append_right _ List.mem_cons_self

theorem Chronicle.Stretch.open {deliveries : List Nat} {i : Nat} (fresh : i ∉ deliveries)
    (creates : ∃ creation ∈ chain.part pubkey i, creation.creates) :
    chain.Stretch (deliveries ++ [i]) pubkey i (i + 1) where
  delivered := List.mem_append_right _ List.mem_cons_self
  creates := creates
  inside := by
    intro index member
    have none : deliveries.dropWhile (· ≠ i) = [] := by
      rw [List.dropWhile_eq_nil_iff]
      intro other listed
      exact decide_eq_true fun same => fresh (same ▸ listed)
    rcases mem_dropWhile_append member with old | rfl
    · rw [none] at old
      cases old
    · exact Nat.lt_succ_self _
  whole := by
    intro index after before
    obtain rfl : index = i := by omega
    exact List.mem_append_right _ List.mem_cons_self

/-- Whatever the cache held, the supply is right again past the frontier. -/
theorem Chronicle.supply_step {held : Option Int} {i j : Nat}
    (completes : carry supply held (chain.slice pubkey j frontier) = carry supply none (chain.slice pubkey 0 frontier))
    (low : i ≤ j) (high : j ≤ frontier) :
    carry supply (carry supply held (chain.part pubkey i)) (chain.slice pubkey (i + 1) (max frontier (i + 1))) =
      carry supply none (chain.slice pubkey 0 (max frontier (i + 1))) := by
  have whole : chain.slice pubkey 0 i ++ chain.slice pubkey i j ++ chain.slice pubkey j frontier =
      chain.slice pubkey 0 frontier := by
    rw [Feed.slice_append (Nat.zero_le i) low, Feed.slice_append (Nat.zero_le j) high]
  have rewound : carry supply held (chain.slice pubkey i frontier) = carry supply none
    (chain.slice pubkey 0 frontier) := by
    rw [← whole] at completes ⊢
    rw [← Feed.slice_append low high]
    exact carry_rewind completes
  rw [← carry_append, ← Feed.slice_one, Feed.slice_append (Nat.le_succ i) (Nat.le_max_right _ _),
    ← Feed.slice_append (low.trans high) (Nat.le_max_left frontier (i + 1)), carry_append, rewound, ← carry_append,
    Feed.slice_append (Nat.zero_le _) (Nat.le_max_left _ _)]

theorem Replay.Follows.deliver (follows : replay.Follows chain archive) (found : chain.blocks[replay.next]? = some batch)
    (done : replay.session.write (env, batch) = .ok (after, written)) :
    Replay.Follows chain ⟨after, replay.next + 1, replay.deliveries ++ [replay.next]⟩ (archive.add batch.processed) := by
  obtain ⟨reached, ingested, rfl⟩ := Session.write_done done
  have delivery := follows.delivery found
  have supplies := follows.supplies found
  have mirrors := ingested.mirrors follows.mirrors follows.tracks delivery supplies
  have tracks := ingested.tracks follows.tracks
  have supplied : ∀ row ∈ reached.db.pools.rows, reached.lpSupplyCache row.id =
      carry supply (replay.session.lpSupplyCache row.id) (chain.part row.data.pubkey replay.next) := by
    intro row member
    rw [ingested.supply follows.tracks.cached member, chain.part_eq found]
  have latest : ∀ last ∈ (replay.deliveries ++ [replay.next]).getLast?, last = replay.next := by
    intro last listed
    rw [List.getLast?_concat] at listed
    exact (Option.mem_some_iff.mp listed).symm
  refine ⟨⟨mirrors.named, mirrors.pools, mirrors.reserves, mirrors.swaps, mirrors.liquidity, mirrors.ascending⟩,
    ⟨tracks.cached, tracks.supplied⟩, ?_, ?_, ?_⟩
  · intro pubkey unknown index listed de mine creates
    obtain ⟨before, none⟩ := Archive.add_none unknown
    rcases List.mem_append.mp listed with old | new
    · exact follows.unknown pubkey before index old de mine creates
    · obtain rfl := List.mem_singleton.mp new
      rw [chain.part_eq found] at mine
      exact none de mine creates
  · intro pubkey line added
    cases some_ : archive pubkey with
    | some old =>
      obtain ⟨first, frontier, last, stretch, rfl, _, near, behind, completes⟩ := follows.reached some_
      have moved := chain.add_known found some_ (near.trans behind)
      obtain rfl := Option.some.inj (moved.symm.trans added)
      refine ⟨first, _, stretch.extend (near.trans behind), rfl, ?_⟩
      intro last listed
      rw [latest last listed]
      refine ⟨Nat.le_max_right _ _, ?_⟩
      intro row member named
      obtain ⟨origin, before, owner⟩ := follows.mirrors.named pubkey _ some_
      have same := Table.key_inj ((ingested.growth follows.mirrors).keeps origin before) member (owner.trans named.symm)
      rw [supplied row member, named, ← same]
      exact chain.supply_step (completes origin before owner) near behind
    | none =>
      obtain ⟨rfl, creates⟩ := chain.add_new found some_ added
      have fresh : replay.next ∉ replay.deliveries := by
        intro listed
        obtain ⟨creation, mine, made⟩ := creates
        exact follows.unknown pubkey some_ replay.next listed creation mine made
      refine ⟨replay.next, _, .open fresh creates, rfl, ?_⟩
      intro last listed
      rw [latest last listed]
      refine ⟨Nat.lt_succ_self _, ?_⟩
      intro row member named
      have events : chain.part pubkey replay.next = eventsOf pubkey batch.processed := chain.part_eq found
      obtain ⟨creation, mine, made⟩ := creates
      have unheld := supplies.grown ingested follows.mirrors follows.tracks member
        (by rw [named, ← events]; exact List.ne_nil_of_mem mine) (by simp [Archive.line, named, some_])
      rw [Archive.line, named, some_] at unheld
      rw [supplied row member, unheld, named, Feed.slice_self, carry_nil, Feed.slice_created mine made]
      rfl
  · intro last listed
    rw [latest last listed]

theorem Db.Mirrors.load_tracks {db : Db} (mirrors : db.Mirrors archive) : (Session.load db).Tracks where
  cached := fun _ _ found => loadPoolCache_stored found
  supplied := by
    intro poolId found
    rw [Option.isSome_iff_exists] at found
    obtain ⟨held, found⟩ := found
    obtain ⟨row, newest, _⟩ := Option.map_eq_some_iff.mp found
    obtain ⟨member, _⟩ := head?_insertionSort newest
    obtain ⟨present, same⟩ := List.mem_filter.mp member
    obtain ⟨owner, known, equal⟩ := mirrors.reserves.owned row present
    exact ⟨owner, known, equal.trans (of_decide_eq_true same)⟩

theorem supply_of_creates {de : DecodedEvent} (creates : de.creates) : (supply de).isSome := by
  unfold DecodedEvent.creates at creates
  unfold supply
  split at creates
  next p created => rw [created]; rfl
  · cases creates

theorem Chronicle.Stretch.before {deliveries : List Nat} (stretch : chain.Stretch deliveries pubkey first frontier) :
    first < frontier := by
  apply stretch.inside
  have delivered := stretch.delivered
  rw [← List.takeWhile_append_dropWhile (p := (· ≠ first)) (l := deliveries)] at delivered
  rcases List.mem_append.mp delivered with skipped | kept
  · exact absurd (List.mem_takeWhile_imp skipped) (by simp)
  · exact kept

theorem Replay.Follows.resume (follows : replay.Follows chain archive) {start : Nat}
    (bounded : ∀ last ∈ replay.deliveries.getLast?, start ≤ last + 1) (restarts : Bool) :
    Replay.Follows chain ⟨if restarts then .load replay.session.db else replay.session, start, replay.deliveries⟩
      archive := by
  cases restarts with
  | false => exact ⟨follows.mirrors, follows.tracks, follows.unknown, follows.known, bounded⟩
  | true =>
    refine ⟨follows.mirrors, follows.mirrors.load_tracks, follows.unknown, ?_, bounded⟩
    intro pubkey line some_
    obtain ⟨first, frontier, stretch, same, caught⟩ := follows.known pubkey line some_
    refine ⟨first, frontier, stretch, same, ?_⟩
    intro last latest
    refine ⟨(caught last latest).1, ?_⟩
    intro row member named
    have lined : archive.line row.data.pubkey = chain.slice pubkey 0 frontier := by
      rw [Archive.line, named, some_, Option.getD_some, same]
    obtain ⟨creation, mine, creates⟩ := stretch.creates
    have stated : (carry supply none (archive.line row.data.pubkey)).isSome := by
      rw [lined]
      exact carry_isSome ((chain.mem_slice_part mine).mpr stretch.before) (supply_of_creates creates) _
    have loaded := follows.mirrors.loads member (by rw [lined]; exact chain.slots pubkey 0 frontier) stated
    change carry supply (loadLpSupplyCache replay.session.db row.id) _ = _
    rw [loaded, lined, same, ← Feed.slice_append (Nat.zero_le (last + 1)) (caught last latest).1]
    exact carry_again

theorem Db.Mirrors.empty : Db.Mirrors (fun _ => none) .empty where
  named := fun _ _ impossible => by cases impossible
  pools := fun _ impossible => by cases impossible
  reserves := .empty
  swaps := .empty
  liquidity := .empty
  ascending := List.Pairwise.nil

theorem Replay.Follows.start (chain : Chronicle) (next : Nat) :
    Replay.Follows chain ⟨.load .empty, next, []⟩ fun _ => none where
  mirrors := .empty
  tracks := Db.Mirrors.empty.load_tracks
  unknown := fun _ _ _ impossible => by cases impossible
  known := fun _ _ impossible => by cases impossible
  near := fun _ impossible => by cases impossible

theorem Replay.Follows.turn {next : Replay} {turn : ReplayTurn} {output : Option Written}
    (follows : replay.Follows chain archive) (done : replay.turn chain.toFeed turn = .ok (next, output)) :
    ∃ archive, next.Follows chain archive := by
  cases turn with
  | resume start restarts =>
    unfold Replay.turn at done
    simp only at done
    split at done
    next bounded =>
      cases done
      exact ⟨archive, follows.resume bounded restarts⟩
    · cases done
  | deliver env =>
    unfold Replay.turn at done
    simp only at done
    split at done
    · cases done
    next batch found =>
      obtain ⟨⟨after, written⟩, wrote, same⟩ := bind_ok.mp done
      cases same
      exact ⟨_, follows.deliver found wrote⟩

theorem replay_follows {trace : List (ReplayTurn × Option Written)}
    (runs : Run (Replay.turn chain.toFeed) .start trace replay) : ∃ archive, replay.Follows chain archive := by
  refine runs.invariant (fun replay => ∃ archive, replay.Follows chain archive) ?_ ⟨_, .start chain 0⟩
  intro before turn next output _ ⟨archive, follows⟩ done
  exact follows.turn done

end Follow

section Samples

/-- A pass over blocks, each written at the same time. -/
def passOf (blocks : List BlockBatch) : List (Environment × BlockBatch) := blocks.map fun batch => (healthy, batch)

theorem passOf_blocks {blocks : List BlockBatch} {session after : Session}
    {pass : List ((Environment × BlockBatch) × Written)}
    (done : execute Session.write session (passOf blocks) = .ok (after, pass)) :
    pass.map (fun write => write.1.2) = blocks := by
  have events := congrArg (List.map Prod.snd) (execute_events done)
  rw [List.map_map, passOf, List.map_map] at events
  exact events.trans (List.map_id _)

end Samples
end DeepPool.Indexer
