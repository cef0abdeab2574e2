import Mathlib.Algebra.Order.Group.Multiset
import Mathlib.Tactic.Abel
import DeepPool.Proofs.Replay

/-! The replay beside one uninterrupted pass over the delivered blocks. Both hold the same
archive as soon as the passes have settled, and every inserted row is published once. -/

namespace DeepPool.Indexer
open Library

section Pick
variable {Item Row : Type} {positions : List Nat} {items : List Item} {item : Item}

theorem mem_pick : item ∈ pick positions items ↔ ∃ position ∈ positions, items[position]? = some item := by
  rw [pick, List.mem_map]
  constructor
  · rintro ⟨⟨found, position⟩, kept, rfl⟩
    obtain ⟨listed, chosen⟩ := List.mem_filter.mp kept
    exact ⟨position, of_decide_eq_true chosen, List.mem_zipIdx_iff_getElem?.mp listed⟩
  · rintro ⟨position, chosen, found⟩
    exact ⟨(item, position), List.mem_filter.mpr ⟨List.mem_zipIdx_iff_getElem?.mpr found, decide_eq_true chosen⟩, rfl⟩

/-- A picked list, position by position. -/
theorem pick_flatMap (positions : List Nat) (items : List Item) (f : Item → List Row) :
    (pick positions items).flatMap f =
      (List.range items.length).flatMap fun i => if i ∈ positions then (items[i]?).elim [] f else [] := by
  induction items using List.reverseRecOn with
  | nil => rfl
  | append_singleton items last ih =>
    have grown : pick positions (items ++ [last]) =
        pick positions items ++ if items.length ∈ positions then [last] else [] := by
      rw [pick, List.zipIdx_append, List.filter_append, List.map_append, Nat.zero_add, List.zipIdx_singleton, pick]
      congr 1
      split
      next chosen =>
        rw [List.filter_cons_of_pos (by simpa using chosen)]
        rfl
      next other =>
        rw [List.filter_cons_of_neg (by simpa using other)]
        rfl
    rw [grown, List.flatMap_append, ih, List.length_append, List.length_singleton, List.range_succ, List.flatMap_append]
    congr 1
    · apply List.flatMap_congr
      intro i inside
      rw [List.getElem?_append_left (List.mem_range.mp inside)]
    · rw [List.flatMap_singleton, List.getElem?_concat_length]
      split
      · exact List.append_nil _
      · rfl

theorem pick_all (items : List Item) : pick (List.range items.length) items = items := by
  rw [pick, List.filter_eq_self.mpr, List.zipIdx_map_fst]
  rintro ⟨item, position⟩ listed
  have found := List.mem_zipIdx_iff_getElem?.mp listed
  exact decide_eq_true (List.mem_range.mpr (List.getElem?_eq_some_iff.mp found).1)

end Pick

section Settled
variable {chain : Chronicle} {feed : Feed} {replay direct : Replay} {archive other : Archive} {session after : Session}
  {pass : List ((Environment × BlockBatch) × Written)} {pubkey : String} {frontier : Nat}

theorem Feed.part_past {i : Nat} (past : feed.blocks.length ≤ i) : feed.part pubkey i = [] := by
  rw [Feed.part, List.getElem?_eq_none_iff.mpr past]
  rfl

/-- A stretch of the chain, position by position. -/
theorem Feed.slice_range (feed : Feed) (pubkey : String) (frontier : Nat) : feed.slice pubkey 0 frontier =
    (List.range feed.blocks.length).flatMap fun i => if i < frontier then feed.part pubkey i else [] := by
  have inside : ∀ stop, stop ≤ frontier → feed.slice pubkey 0 stop =
      (List.range stop).flatMap fun i => if i < frontier then feed.part pubkey i else [] := by
    intro stop bounded
    rw [Feed.slice, Nat.sub_zero, ← List.range_eq_range']
    apply List.flatMap_congr
    intro i below
    rw [if_pos (lt_of_lt_of_le (List.mem_range.mp below) bounded)]
  rcases le_total frontier feed.blocks.length with short | long
  · obtain ⟨more, same⟩ := Nat.exists_eq_add_of_le short
    have rest : ((List.range more).map (frontier + ·)).flatMap
        (fun i => if i < frontier then feed.part pubkey i else []) = [] := by
      rw [List.flatMap_eq_nil_iff]
      intro i listed
      obtain ⟨offset, _, rfl⟩ := List.mem_map.mp listed
      rw [if_neg (by omega)]
    rw [same, List.range_add, List.flatMap_append, rest, List.append_nil, inside frontier (le_refl _)]
  · have past : feed.slice pubkey feed.blocks.length frontier = [] :=
      Feed.slice_nil fun k beyond _ => Feed.part_past beyond
    rw [← Feed.slice_append (Nat.zero_le _) long, past, List.append_nil, inside _ long]

/-- A pass over all blocks of a chain ends where a replay of it would. -/
theorem write_follows (runs : Run Session.write session pass after) (count : Nat)
    (follows : Replay.Follows chain ⟨session, count, List.range count⟩ archive)
    (whole : pass.map (fun write => write.1.2) = chain.blocks.drop count) (bounded : count ≤ chain.blocks.length) :
    ∃ archive, Replay.Follows chain ⟨after, chain.blocks.length, List.range chain.blocks.length⟩ archive := by
  induction runs generalizing count archive with
  | nil session =>
    have ended := congrArg List.length whole
    rw [List.length_drop] at ended
    have same : count = chain.blocks.length := by
      simp at ended
      omega
    exact ⟨archive, same ▸ follows⟩
  | cons first rest ih =>
    rename_i before middle last event written trace
    obtain ⟨env, batch⟩ := event
    rw [List.map_cons] at whole
    have found : chain.blocks[count]? = some batch := by
      rw [← List.head?_drop, ← whole]
      rfl
    have further : trace.map (fun write => write.1.2) = chain.blocks.drop (count + 1) := by
      rw [← List.tail_drop, ← whole]
      rfl
    have advanced := follows.deliver found first
    rw [← List.range_succ] at advanced
    exact ih (count + 1) advanced further (List.getElem?_eq_some_iff.mp found).1

theorem Chronicle.only_slice {positions : List Nat} (past : (chain.only positions).blocks.length ≤ frontier) :
    (chain.only positions).slice pubkey 0 frontier =
      (List.range chain.blocks.length).flatMap fun i => if i ∈ positions then chain.part pubkey i else [] := by
  have whole : (chain.only positions).slice pubkey 0 frontier =
      (pick positions chain.blocks).flatMap fun batch => eventsOf pubkey batch.processed := by
    have everything := pick_flatMap (List.range (chain.only positions).blocks.length) (chain.only positions).blocks
      fun batch => eventsOf pubkey batch.processed
    rw [pick_all] at everything
    rw [Feed.slice_range]
    refine Eq.trans ?_ everything.symm
    apply List.flatMap_congr
    intro i inside
    rw [if_pos (lt_of_lt_of_le (List.mem_range.mp inside) past), if_pos inside, Feed.part]
    cases (chain.only positions).blocks[i]? <;> rfl
  rw [whole, pick_flatMap]
  apply List.flatMap_congr
  intro i _
  split
  · rw [Feed.part]
    cases chain.blocks[i]? <;> rfl
  · rfl

/-- What was delivered of a pool is its stretch, once nothing is left from before the
delivery of its creation. -/
theorem Chronicle.Stretch.picked {deliveries : List Nat} {first i : Nat}
    (stretch : chain.Stretch deliveries pubkey first frontier)
    (since : i ∈ deliveries → ∀ de ∈ chain.part pubkey i, i ∈ deliveries.dropWhile (· ≠ first)) :
    (if i ∈ deliveries then chain.part pubkey i else []) = if i < frontier then chain.part pubkey i else [] := by
  by_cases delivered : i ∈ deliveries
  · rw [if_pos delivered]
    by_cases inside : i < frontier
    · rw [if_pos inside]
    · rw [if_neg inside, List.eq_nil_iff_forall_not_mem]
      intro de event
      exact inside (stretch.inside i (since delivered de event))
  · rw [if_neg delivered]
    by_cases inside : i < frontier
    · rw [if_pos inside]
      obtain ⟨creation, mine, creates⟩ := stretch.creates
      have before : i < first := by
        by_contra after
        exact delivered (stretch.whole i (not_lt.mp after) inside)
      exact (Feed.part_before mine creates before).symm
    · rw [if_neg inside]

/-- The direct pass records what the settled replay recorded. -/
theorem Replay.Follows.settled (follows : replay.Follows chain archive) (settled : replay.Settled chain.toFeed)
    (straight : Replay.Follows (chain.only replay.deliveries) direct other)
    (all : direct.deliveries = List.range (chain.only replay.deliveries).blocks.length) : other = archive := by
  funext pubkey
  cases some_ : archive pubkey with
  | none =>
    cases known : other pubkey with
    | none => rfl
    | some line =>
      obtain ⟨first, _, stretch, _, _⟩ := straight.known pubkey line known
      obtain ⟨creation, mine, creates⟩ := stretch.creates
      obtain ⟨batch, found, member, named⟩ := Feed.mem_part.mp mine
      obtain ⟨index, delivered, stands⟩ := mem_pick.mp (List.mem_of_getElem? found)
      exact absurd creates (follows.unknown pubkey some_ index delivered creation (Feed.mem_part.mpr ⟨batch, stands,
        member, named⟩))
  | some line =>
    obtain ⟨first, frontier, stretch, rfl, _⟩ := follows.known pubkey line some_
    obtain ⟨creation, mine, creates⟩ := stretch.creates
    obtain ⟨creator, found, made, named⟩ := Feed.mem_part.mp mine
    cases known : other pubkey with
    | none =>
      obtain ⟨index, stands⟩ := List.mem_iff_getElem?.mp (mem_pick.mpr ⟨first, stretch.delivered, found⟩)
      have delivered : index ∈ direct.deliveries := by
        rw [all]
        exact List.mem_range.mpr (List.getElem?_eq_some_iff.mp stands).1
      exact absurd creates (straight.unknown pubkey known index delivered creation
        (Feed.mem_part.mpr ⟨creator, stands, made, named⟩))
    | some line =>
      obtain ⟨_, past, last, _, rfl, latest, _, behind, _⟩ := straight.reached known
      have whole : (chain.only replay.deliveries).blocks.length ≤ past := by
        rw [all, List.getLast?_range] at latest
        split at latest
        next none => omega
        next =>
          have ends := Option.some.inj latest
          omega
      rw [Chronicle.only_slice whole, Feed.slice_range chain.toFeed pubkey frontier]
      congr 1
      apply List.flatMap_congr
      intro i _
      apply stretch.picked
      intro delivered de event
      obtain ⟨batch, stands, listed, same⟩ := Feed.mem_part.mp event
      exact settled i delivered batch stands de listed first stretch.delivered creator found creation made creates
        (named.trans same.symm)

/-- A write publishes exactly the rows that it adds. -/
theorem Session.write_frames {env : Environment} {batch : BlockBatch} {written : Written}
    (done : session.write (env, batch) = .ok (after, written)) :
    after.db.frames.Perm (session.db.frames ++ written.frames) := by
  obtain ⟨last, ingested, rfl⟩ := Session.write_done done
  have pools : last.db.pools.rows = session.db.pools.rows ++ written.pools := by
    rw [ingested.database.pools, ingested.pools, Table.insert_rows]
  have reserves : last.db.reserves.rows = session.db.reserves.rows ++ written.reserves := by
    rw [ingested.database.reserves, ingested.reserves, Table.insert_rows]
  have swaps : last.db.swaps.rows = session.db.swaps.rows ++ written.swaps := by
    rw [ingested.database.swaps, ingested.swaps, Table.insert_rows]
  have liquidity : last.db.liquidityEvents.rows = session.db.liquidityEvents.rows ++ written.liquidity := by
    rw [ingested.database.liquidity, ingested.liquidity, Table.insert_rows]
  rw [← Multiset.coe_eq_coe]
  simp only [Db.frames, Written.frames, pools, reserves, swaps, liquidity, List.map_append, ← Multiset.coe_add]
  abel

/-- What was handed to the broadcaster, all together. -/
def published (trace : List (ReplayTurn × Option Written)) : List BroadcastFrame :=
  (trace.filterMap Prod.snd).flatMap Written.frames

theorem replay_frames {trace : List (ReplayTurn × Option Written)} (runs : Run (Replay.turn feed) replay trace direct) :
    direct.session.db.frames.Perm (replay.session.db.frames ++ published trace) := by
  induction runs with
  | nil replay =>
    rw [published, List.filterMap_nil, List.flatMap_nil, List.append_nil]
  | @cons before middle last turn output trace first rest ih =>
    apply ih.trans
    cases turn with
    | resume start restarts =>
      unfold Replay.turn at first
      simp only at first
      split at first
      · cases first
        cases restarts <;> exact List.Perm.refl _
      · cases first
    | deliver env =>
      unfold Replay.turn at first
      simp only at first
      split at first
      · cases first
      next batch found =>
        obtain ⟨⟨session, written⟩, wrote, same⟩ := bind_ok.mp first
        cases same
        have added : published ((.deliver env, some written) :: trace) = written.frames ++ published trace := rfl
        rw [added, ← List.append_assoc]
        exact (Session.write_frames wrote).append_right _

/-- Every row is published exactly once; and once settled, the passes leave what one
uninterrupted pass over the delivered blocks leaves. -/
theorem replay_harmless {trace : List (ReplayTurn × Option Written)}
    (runs : Run (Replay.turn chain.toFeed) .start trace replay) :
    (published trace).Perm replay.session.db.frames ∧
      ∀ {pass : List ((Environment × BlockBatch) × Written)} {after : Session},
        replay.Settled chain.toFeed → Run Session.write (.load .empty) pass after →
          pass.map (fun write => write.1.2) = (chain.only replay.deliveries).blocks →
            replay.session.db.SameContents after.db := by
  constructor
  · exact (replay_frames runs).symm
  · intro pass after settled straight whole
    obtain ⟨archive, follows⟩ := replay_follows runs
    obtain ⟨other, direct⟩ := write_follows straight 0 (.start (chain.only replay.deliveries) 0) whole (Nat.zero_le _)
    have same := follows.settled settled direct rfl
    exact follows.mirrors.same (same ▸ direct.mirrors)

end Settled

section Samples

def sampleChain : Chronicle where
  blocks := [⟨100, [sampleCreated]⟩, ⟨101, [sampleSwap]⟩]
  ordered := by decide +kernel
  created := by decide +kernel
  placed := by decide +kernel
  timed := by decide +kernel
  keyed := by decide +kernel
  fits := by decide +kernel

/-- The pass over the blocks at the given positions, each written at the same time. -/
def straightPass (feed : Feed) (positions : List Nat) : List (Environment × BlockBatch) :=
  (pick positions feed.blocks).map fun batch => (healthy, batch)

theorem replay_harmless_sample : ∃ replay : Replay, ∃ trace, ∃ after : Session, replay.deliveries = [0, 1, 1] ∧
    after.db.reserves.rows.length = 2 ∧ (published trace).Perm replay.session.db.frames ∧
      replay.session.db.SameContents after.db := by
  have replayed : accepts (execute (Replay.turn sampleChain.toFeed) .start
      [.resume 0 false, .deliver healthy, .deliver healthy, .resume 1 true, .deliver healthy])
      (fun result => result.1.deliveries = [0, 1, 1]) = true := by decide +kernel
  have passed : accepts (execute Session.write (.load .empty) (straightPass sampleChain.toFeed [0, 1, 1]))
      (fun result => result.1.db.reserves.rows.length = 2) = true := by decide +kernel
  obtain ⟨⟨replay, trace⟩, runs, delivered⟩ := accepts_iff.mp replayed
  obtain ⟨⟨after, pass⟩, straight, rows⟩ := accepts_iff.mp passed
  have deliveries : replay.deliveries = [0, 1, 1] := of_decide_eq_true delivered
  have settled : replay.Settled sampleChain.toFeed := by
    intro index member batch _ de _ first listed creator found creation made creates _
    rw [deliveries] at member listed ⊢
    have opening : first = 0 := by
      rcases List.mem_cons.mp listed with same | later
      · exact same
      · obtain rfl : first = 1 := by simpa using later
        obtain rfl := Option.some.inj found
        obtain rfl := List.mem_singleton.mp made
        exact absurd creates (by decide)
    subst opening
    exact member
  have whole := passOf_blocks straight
  rw [← deliveries] at whole
  exact ⟨replay, trace, after, deliveries, of_decide_eq_true rows, (replay_harmless (execute_run runs)).1,
    (replay_harmless (execute_run runs)).2 settled (execute_run straight) whole⟩

/-- Some passes leave other contents than one pass over the blocks that they delivered. -/
def Feed.Diverges (feed : Feed) : Prop :=
  ∃ (trace : List (ReplayTurn × Option Written)) (replay : Replay)
    (pass : List ((Environment × BlockBatch) × Written)) (after : Session),
    Run (Replay.turn feed) .start trace replay ∧ Run Session.write (.load .empty) pass after ∧
      pass.map (fun write => write.1.2) = pick replay.deliveries feed.blocks ∧
      ¬ replay.session.db.SameContents after.db

private def supplies (db : Db) : List Int := db.reserves.rows.map (·.data.lpSupply)

private theorem Feed.diverges {feed : Feed} (turns : List ReplayTurn) (deliveries : List Nat)
    (replayed direct : List Int)
    (runs : accepts (execute (Replay.turn feed) .start turns) (fun result => result.1.deliveries = deliveries ∧
      supplies result.1.session.db = replayed) = true)
    (straight : accepts (execute Session.write (.load .empty) (straightPass feed deliveries))
      (fun result => supplies result.1.db = direct) = true) (differ : ¬ replayed.Perm direct) : feed.Diverges := by
  obtain ⟨⟨replay, trace⟩, done, facts⟩ := accepts_iff.mp runs
  obtain ⟨⟨after, pass⟩, passed, stated⟩ := accepts_iff.mp straight
  obtain ⟨delivered, held⟩ := of_decide_eq_true facts
  refine ⟨trace, replay, pass, after, execute_run done, execute_run passed, ?_, ?_⟩
  · rw [delivered]
    exact passOf_blocks passed
  · rintro ⟨rename, renames⟩
    have columns := renames.reserves.map NewReservesRow.lpSupply
    rw [List.map_map, List.map_map] at columns
    apply differ
    rw [← held, ← of_decide_eq_true stated]
    exact columns

/-- The same slots, seen as signed numbers, fall where they pass 2 ^ 63. -/
def wrappedFeed : Feed where
  blocks :=
    [⟨9223372036854775807, [{ sampleCreated with slot := 9223372036854775807 }]⟩,
      ⟨9223372036854775808, [{ sampleSwap with
        slot := -9223372036854775808
        event := .liquidityAdded {
          pool := Vector.replicate 32 1, provider := Vector.replicate 32 6, solInGross := 1000, solInNet := 1000
          tokensInGross := 1, tokensInNet := 1, lpToProvider := 29, lpLocked := 2, solReserveAfter := 5000001000
          tokenReserveAfter := 5000001, lpSupplyAfter := 158112914 } }]⟩,
      ⟨9223372036854775809, [{ sampleSwap with signature := "2C", slot := -9223372036854775807 }]⟩]
  ordered := by decide +kernel
  created := by decide +kernel

/-- A later pass that starts before the first one loses the events of a pool that it
creates; and a restart behind slot 2 ^ 63 carries a stale supply on. -/
theorem replay_diverges : sampleChain.toFeed.Diverges ∧ wrappedFeed.Diverges := by
  constructor
  · apply Feed.diverges [.resume 1 false, .deliver healthy, .resume 0 false, .deliver healthy] [1, 0]
      [158112883] [158112883, 158112883]
    · decide +kernel
    · decide +kernel
    · decide
  · apply Feed.diverges [.deliver healthy, .deliver healthy, .resume 2 true, .deliver healthy] [0, 1, 2]
      [158112883, 158112914, 158112883] [158112883, 158112914, 158112914]
    · decide +kernel
    · decide +kernel
    · decide

end Samples
end DeepPool.Indexer
