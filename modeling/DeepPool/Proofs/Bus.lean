import DeepPool.Sdk.Bus
import DeepPool.Proofs.Recovery
import DeepPool.Proofs.Uninterrupted

/-! What a reconnected bus has dispatched. A row that the connections did not bring comes with the
gap-fill, if the gap-fill reaches it, and a row that the gap-fill leaves out must not be dropped. -/

namespace DeepPool.Sdk
open Library Indexer

section Frames
variable {bus : Bus} {rows : List BroadcastFrame} {row : BroadcastFrame} {handler : Nat} {env : Environment}
  {batch : BlockBatch} {before after : Session} {written : Option Written}

theorem Bus.foldl_handlers (rows : List BroadcastFrame) (bus : Bus) :
    (rows.foldl Bus.handleFrame bus).handlers = bus.handlers := by
  induction rows generalizing bus with
  | nil => rfl
  | cons row rows ih => exact ih (bus.handleFrame row)

theorem Bus.foldl_connected (rows : List BroadcastFrame) (bus : Bus) :
    (rows.foldl Bus.handleFrame bus).hasEverConnected = bus.hasEverConnected := by
  induction rows generalizing bus with
  | nil => rfl
  | cons row rows ih => exact ih (bus.handleFrame row)

theorem Bus.foldl_calls (rows : List BroadcastFrame) (bus : Bus) : (rows.foldl Bus.handleFrame bus).calls =
    bus.calls ++ rows.flatMap fun row => (bus.handlers row.kind).map fun handler => (handler, row) := by
  induction rows generalizing bus with
  | nil => exact (List.append_nil _).symm
  | cons row rows ih =>
    rw [List.foldl_cons, ih, List.flatMap_cons, ← List.append_assoc]
    rfl

/-- Every subscribed handler is called with every replayed row. -/
theorem Bus.replay_calls (member : row ∈ rows) (subscribed : handler ∈ bus.handlers row.kind) :
    (handler, row) ∈ (bus.replay rows).calls := by
  rw [Bus.replay, Bus.foldl_calls]
  apply List.mem_append_right
  rw [List.mem_flatMap]
  exact ⟨row, (List.mem_insertionSort _).mpr member, List.mem_map_of_mem subscribed⟩

theorem Bus.replay_keeps (rows : List BroadcastFrame) {call : Nat × BroadcastFrame} (member : call ∈ bus.calls) :
    call ∈ (bus.replay rows).calls := by
  rw [Bus.replay, Bus.foldl_calls]
  exact List.mem_append_left _ member

theorem receive_frames (done : receive env batch before = (after, written)) {frame : BroadcastFrame} :
    frame ∈ before.db.frames ∨ frame ∈ written.elim [] Written.frames → frame ∈ after.db.frames := by
  cases written with
  | none =>
    obtain ⟨last, rolled⟩ := receive_none done
    rintro (old | impossible)
    · rw [rolled]
      exact old
    · cases impossible
  | some rows =>
    have wrote : before.write (env, batch) = .ok (after, rows) := by
      simp only [Session.write, done]
    intro member
    rw [(Session.write_frames wrote).mem_iff, List.mem_append]
    exact member

/-- The swaps and the liquidity events among the frames of a database are those of the two tables. -/
theorem mem_table {db : Db} (stored : row ∈ db.frames) (stage : FillStage) (same : row.kind = stage.kind)
    (asks : stage = .swaps ∨ stage = .liquidity) : row ∈ stage.table db := by
  simp only [Db.frames, List.mem_append, List.mem_map] at stored
  rcases asks with rfl | rfl
  · rcases stored with ((⟨_, _, rfl⟩ | ⟨_, _, rfl⟩) | found) | ⟨_, _, rfl⟩
    · cases same
    · cases same
    · exact List.mem_map.mpr found
    · cases same
  · rcases stored with ((⟨_, _, rfl⟩ | ⟨_, _, rfl⟩) | ⟨_, _, rfl⟩) | found
    · cases same
    · cases same
    · cases same
    · exact List.mem_map.mpr found

/-- Swaps and liquidity events are asked for by the first two requests. -/
theorem FillStage.asks {stage : FillStage} (tracked : row.kind = .swap ∨ row.kind = .liquidity)
    (same : row.kind = stage.kind) : stage = .swaps ∨ stage = .liquidity := by
  cases stage with
  | swaps => exact .inl rfl
  | liquidity => exact .inr rfl
  | pools | done =>
    rw [same] at tracked
    rcases tracked with impossible | impossible <;> cases impossible

/-- An answer has every row that it cannot leave out. -/
theorem Fill.Reaches.answered {fill : Fill} {table : List BroadcastFrame} (reaches : fill.Reaches table row)
    (member : row ∈ table) (allows : fill.stage.Allows fill.since table rows)
    (asks : fill.stage = .swaps ∨ fill.stage = .liquidity) : row ∈ rows := by
  obtain ⟨newer, few⟩ := reaches
  have newer : row ∈ newerThan fill.since table := List.mem_filter.mpr ⟨member, decide_eq_true newer⟩
  have top : Top BroadcastFrame.createdAt gapFillLimit (newerThan fill.since table) rows := by
    rcases asks with same | same <;> (rw [same] at allows; exact allows)
  apply top.shows newer
  have fewer : ((newerThan fill.since table).filter (row.createdAt ≤ ·.createdAt)).Sublist
      (table.filter (row.createdAt ≤ ·.createdAt)) := List.Sublist.filter _ List.filter_sublist
  exact fewer.length_le.trans few

end Frames

section Step
variable {world next : BusWorld} {row : BroadcastFrame} {fill after : Fill} {bus : Bus} {step : Exchange}

/-- What holds of every state: the handlers that stayed are subscribed, and what was committed is stored. -/
structure BusWorld.Sound (world : BusWorld) : Prop where
  loyal : ∀ kind, ∀ handler ∈ world.loyal kind, handler ∈ world.bus.handlers kind
  stored : ∀ row ∈ world.committed, row ∈ world.writer.db.frames ∧ (row.kind = .swap ∨ row.kind = .liquidity)
  fresh : world.bus.hasEverConnected = false → world.committed = [] ∧ world.fill = none

/-- What a turn leaves of the rows. -/
structure BusWorld.Passes (world next : BusWorld) (dropped : List BroadcastFrame) : Prop where
  committed : ∀ row ∈ world.committed, row ∈ next.committed
  dispatched : ∀ row ∈ world.committed, world.Dispatched row → next.Dispatched row
  moves : ∀ row ∈ world.committed, row ∈ world.inFlight → next.Dispatched row ∨ row ∈ next.inFlight ∨ row ∈ dropped

/-- A gap-fill only calls handlers. -/
theorem Fill.exchange_calls {db : Db} {committed : List BroadcastFrame} {start : Bus}
    (done : fill.exchange db committed start step = some (after, bus)) :
    bus.handlers = start.handlers ∧ bus.hasEverConnected = start.hasEverConnected ∧
      ∀ call ∈ start.calls, call ∈ bus.calls := by
  cases step with
  | query rows =>
    simp only [Fill.exchange] at done
    split at done
    · cases done
      exact ⟨rfl, rfl, fun _ member => member⟩
    · cases done
  | respond =>
    simp only [Fill.exchange, Option.map_eq_some_iff] at done
    obtain ⟨rows, _, same⟩ := done
    cases same
    exact ⟨Bus.foldl_handlers _ _, Bus.foldl_connected _ _, fun _ member => Bus.replay_keeps _ member⟩
  | fail =>
    simp only [Fill.exchange] at done
    split at done
    · cases done
    · cases done
      exact ⟨rfl, rfl, fun _ member => member⟩

theorem BusWorld.Sound.start (writer : Session) : (BusWorld.start writer).Sound where
  loyal := fun _ _ impossible => by cases impossible
  stored := fun _ impossible => by cases impossible
  fresh := fun _ => ⟨rfl, rfl⟩

theorem BusWorld.Passes.of {dropped : List BroadcastFrame} (committed : ∀ row ∈ world.committed, row ∈ next.committed)
    (loyal : ∀ kind, ∀ handler ∈ next.loyal kind, handler ∈ world.loyal kind)
    (calls : ∀ call ∈ world.bus.calls, call ∈ next.bus.calls)
    (moves : ∀ row ∈ world.committed, row ∈ world.inFlight →
      next.Dispatched row ∨ row ∈ next.inFlight ∨ row ∈ dropped) : world.Passes next dropped where
  committed := committed
  dispatched := fun row _ dispatched handler stayed => calls _ (dispatched handler (loyal row.kind handler stayed))
  moves := moves

theorem BusWorld.turn_commit {env : Environment} {batch : BlockBatch} (sound : world.Sound)
    (done : world.turn (.commit env batch) = .ok (next, ())) :
    next.Sound ∧ world.Passes next [] ∧ next.fill = world.fill := by
  simp only [BusWorld.turn] at done
  split at done
  next idle =>
    cases outcome : receive env batch world.writer with
    | mk writer written =>
      rw [outcome] at done
      cases done
      have kept : ∀ {frame : BroadcastFrame}, frame ∈ world.writer.db.frames ∨ frame ∈ written.elim [] Written.frames →
          frame ∈ writer.db.frames := receive_frames outcome
      refine ⟨⟨sound.loyal, ?_, ?_⟩, .of ?_ (fun _ _ stayed => stayed) (fun _ made => made) ?_, rfl⟩
      · intro row member
        simp only at member
        split at member
        · rcases List.mem_append.mp member with old | new
          · obtain ⟨stored, tracked⟩ := sound.stored row old
            exact ⟨kept (.inl stored), tracked⟩
          · obtain ⟨published, tracked⟩ := List.mem_filter.mp new
            exact ⟨kept (.inr published), of_decide_eq_true tracked⟩
        · obtain ⟨stored, tracked⟩ := sound.stored row member
          exact ⟨kept (.inl stored), tracked⟩
      · intro never
        simp only at never ⊢
        rw [never]
        exact sound.fresh never
      · intro row member
        simp only
        split
        · exact List.mem_append_left _ member
        · exact member
      · intro row _ flying
        right
        left
        rw [BusWorld.inFlight, idle, List.nil_append] at flying
        rw [BusWorld.inFlight, List.append_assoc]
        exact List.mem_append_right _ flying
  · cases done

theorem BusWorld.turn_publish (sound : world.Sound) (done : world.turn .publish = .ok (next, ())) :
    next.Sound ∧ world.Passes next (world.drops .publish) ∧ next.fill = world.fill := by
  simp only [BusWorld.turn] at done
  split at done
  · cases done
  next frame rest opened queue wire unpublished link =>
    cases done
    refine ⟨⟨sound.loyal, sound.stored, sound.fresh⟩, .of (fun _ member => member) (fun _ _ stayed => stayed)
      (fun _ made => made) ?_, rfl⟩
    intro row _ flying
    right
    left
    simp only [BusWorld.inFlight, BusWorld.queue, BusWorld.wire, unpublished, link, Option.elim_some, List.mem_append,
      List.mem_cons] at flying ⊢
    tauto
  next frame rest unpublished unsubscribed =>
    cases done
    have dropped : world.drops .publish = [frame] := by
      simp only [BusWorld.drops, unpublished]
      rfl
    refine ⟨⟨sound.loyal, sound.stored, sound.fresh⟩, .of (fun _ member => member) (fun _ _ stayed => stayed)
      (fun _ made => made) ?_, rfl⟩
    intro row _ flying
    right
    rw [dropped]
    simp only [BusWorld.inFlight, BusWorld.queue, BusWorld.wire, unpublished, List.mem_append, List.mem_cons,
      List.not_mem_nil, or_false] at flying ⊢
    tauto

/-- A turn of the connection alone. -/
theorem BusWorld.turn_link {link : Option Link} {dropped : List BroadcastFrame} (sound : world.Sound)
    (same : next = { world with link })
    (moves : ∀ row ∈ world.queue ++ world.wire, row ∈ next.queue ++ next.wire ∨ row ∈ dropped) :
    next.Sound ∧ world.Passes next dropped ∧ next.fill = world.fill := by
  subst same
  refine ⟨⟨sound.loyal, sound.stored, sound.fresh⟩, .of (fun _ member => member) (fun _ _ stayed => stayed)
    (fun _ made => made) ?_, rfl⟩
  intro row _ flying
  right
  rw [BusWorld.inFlight, List.append_assoc] at flying ⊢
  rcases List.mem_append.mp flying with waiting | carried
  · exact .inl (List.mem_append_left _ waiting)
  · exact (moves row carried).imp_left (List.mem_append_right _)

theorem BusWorld.turn_dial (sound : world.Sound) (done : world.turn .dial = .ok (next, ())) :
    next.Sound ∧ world.Passes next [] ∧ next.fill = world.fill := by
  simp only [BusWorld.turn] at done
  split at done
  next free =>
    cases done
    apply BusWorld.turn_link sound rfl
    intro row carried
    rw [BusWorld.queue, BusWorld.wire, Option.isNone_iff_eq_none.mp free.1] at carried
    cases carried
  · cases done

theorem BusWorld.turn_subscribe (sound : world.Sound) (done : world.turn .subscribe = .ok (next, ())) :
    next.Sound ∧ world.Passes next [] ∧ next.fill = world.fill := by
  simp only [BusWorld.turn] at done
  split at done
  next opened wire link =>
    cases done
    apply BusWorld.turn_link sound rfl
    intro row carried
    rw [BusWorld.queue, BusWorld.wire, link] at carried
    exact .inl carried
  · cases done

theorem BusWorld.turn_recv (sound : world.Sound) (done : world.turn .recv = .ok (next, ())) :
    next.Sound ∧ world.Passes next (world.drops .recv) ∧ next.fill = world.fill := by
  simp only [BusWorld.turn] at done
  split at done
  next opened queue wire link =>
    split at done
    · cases done
      apply BusWorld.turn_link sound rfl
      intro row carried
      simp only [BusWorld.drops, BusWorld.queue, BusWorld.wire, link, Option.elim_some, List.mem_append] at carried ⊢
      rw [← List.take_append_drop (queue.length - broadcastCapacity) queue, List.mem_append] at carried
      rcases carried with (skipped | kept) | sent
      · exact .inr skipped
      · exact .inl (.inl kept)
      · exact .inl (.inr sent)
    · split at done
      · cases done
      next frame rest =>
        cases done
        apply BusWorld.turn_link sound rfl
        intro row carried
        simp only [BusWorld.queue, BusWorld.wire, link, Option.elim_some, List.mem_append, List.mem_cons] at carried ⊢
        left
        rcases carried with (rfl | later) | sent
        · exact .inr (.inr (.inl rfl))
        · exact .inl later
        · exact .inr (.inl sent)
  · cases done

theorem BusWorld.turn_hangUp (sound : world.Sound) (done : world.turn .hangUp = .ok (next, ())) :
    next.Sound ∧ world.Passes next (world.drops .hangUp) ∧ next.fill = world.fill := by
  simp only [BusWorld.turn] at done
  split at done
  next opened queue wire link =>
    cases done
    apply BusWorld.turn_link sound rfl
    intro row carried
    simp only [BusWorld.drops, BusWorld.queue, BusWorld.wire, link, Option.elim_some, List.mem_append] at carried ⊢
    tauto
  · cases done

theorem BusWorld.turn_closes (sound : world.Sound) (done : world.turn .closes = .ok (next, ())) :
    next.Sound ∧ world.Passes next (world.drops .closes) ∧ next.fill = world.fill := by
  simp only [BusWorld.turn] at done
  split at done
  · cases done
    exact BusWorld.turn_link sound rfl fun row carried => .inr carried
  · cases done

theorem BusWorld.turn_message (sound : world.Sound) (done : world.turn .message = .ok (next, ())) :
    next.Sound ∧ world.Passes next [] ∧ next.fill = world.fill := by
  simp only [BusWorld.turn] at done
  split at done
  next subscription frame rest link =>
    cases done
    refine ⟨⟨sound.loyal, sound.stored, sound.fresh⟩, .of (fun _ member => member) (fun _ _ stayed => stayed)
      (fun _ made => List.mem_append_left _ made) ?_, rfl⟩
    intro row _ flying
    by_cases here : row = frame
    · left
      subst here
      intro handler stayed
      exact List.mem_append_right _ (List.mem_map_of_mem (sound.loyal row.kind handler stayed))
    · right
      left
      cases subscription <;> simpa [BusWorld.inFlight, BusWorld.queue, BusWorld.wire, link, here] using flying
  · cases done

/-- A step of any gap-fill, whichever one is kept. -/
theorem BusWorld.turn_fill {db : Db} {committed : List BroadcastFrame} {kept : Option Fill} {stale : List Fill}
    (sound : world.Sound) (exchanged : fill.exchange db committed world.bus step = some (after, bus))
    (same : next = { world with fill := kept, stale, bus }) (known : kept.isSome → world.fill.isSome) :
    next.Sound ∧ world.Passes next [] := by
  subst same
  obtain ⟨handlers, connected, calls⟩ := Fill.exchange_calls exchanged
  refine ⟨⟨?_, sound.stored, ?_⟩, .of (fun _ member => member) (fun _ _ stayed => stayed) calls
    fun _ _ flying => .inr (.inl flying)⟩
  · intro kind handler stayed
    rw [handlers]
    exact sound.loyal kind handler stayed
  · intro never
    simp only at never
    rw [connected] at never
    obtain ⟨none, unfilled⟩ := sound.fresh never
    rw [unfilled] at known
    exact ⟨none, Option.not_isSome_iff_eq_none.mp fun filled => by cases known filled⟩

theorem BusWorld.turn_linger {index : Nat} (sound : world.Sound)
    (done : world.turn (.linger index step) = .ok (next, ())) :
    next.Sound ∧ world.Passes next [] ∧ next.fill = world.fill := by
  simp only [BusWorld.turn] at done
  split at done
  next fill bus exchanged =>
    cases done
    obtain ⟨old, _, exchanged⟩ := Option.bind_eq_some_iff.mp exchanged
    obtain ⟨kept, passes⟩ := BusWorld.turn_fill sound exchanged rfl fun filled => filled
    exact ⟨kept, passes, rfl⟩
  · cases done

theorem Bus.on_handlers {kind other : BroadcastKind} {handler : Nat} (subscribed : handler ∈ bus.handlers kind)
    (added : Nat) : handler ∈ (bus.on other added).handlers kind := by
  unfold Bus.on
  split
  · exact subscribed
  · by_cases same : kind = other
    · subst same
      simp [subscribed]
    · simp [Function.update_of_ne same, subscribed]

theorem Bus.on_rest (kind : BroadcastKind) (handler : Nat) :
    (bus.on kind handler).hasEverConnected = bus.hasEverConnected ∧ (bus.on kind handler).calls = bus.calls := by
  unfold Bus.on
  split <;> exact ⟨rfl, rfl⟩

theorem BusWorld.turn_on {kind : BroadcastKind} {handler : Nat} (sound : world.Sound)
    (done : world.turn (.on kind handler) = .ok (next, ())) :
    next.Sound ∧ world.Passes next [] ∧ next.fill = world.fill := by
  cases done
  obtain ⟨connected, calls⟩ := world.bus.on_rest kind handler
  refine ⟨⟨?_, sound.stored, ?_⟩, .of (fun _ member => member) (fun _ _ stayed => stayed) ?_
    (fun _ _ flying => .inr (.inl flying)), rfl⟩
  · intro other stayed subscribed
    exact Bus.on_handlers (sound.loyal other stayed subscribed) handler
  · intro never
    exact sound.fresh (connected ▸ never)
  · intro call made
    rw [calls]
    exact made

theorem BusWorld.turn_off {kind : BroadcastKind} {handler : Nat} (sound : world.Sound)
    (done : world.turn (.off kind handler) = .ok (next, ())) :
    next.Sound ∧ world.Passes next [] ∧ next.fill = world.fill := by
  cases done
  refine ⟨⟨?_, sound.stored, sound.fresh⟩, .of (fun _ member => member) ?_ (fun _ made => made)
    (fun _ _ flying => .inr (.inl flying)), rfl⟩
  · intro other stayed subscribed
    by_cases same : other = kind
    · subst same
      simp only [Bus.off, Function.update_self] at subscribed ⊢
      obtain ⟨member, different⟩ := List.mem_filter.mp subscribed
      exact List.mem_filter.mpr ⟨sound.loyal other stayed member, different⟩
    · simp only [Bus.off, Function.update_of_ne same] at subscribed ⊢
      exact sound.loyal other stayed subscribed
  · intro other stayed subscribed
    by_cases same : other = kind
    · subst same
      simp only [Function.update_self] at subscribed
      exact List.mem_of_mem_filter subscribed
    · simp only [Function.update_of_ne same] at subscribed
      exact subscribed

theorem BusWorld.turn_close (sound : world.Sound) (done : world.turn .close = .ok (next, ())) :
    next.Sound ∧ world.Passes next [] ∧ next.fill = world.fill := by
  cases done
  refine ⟨⟨fun _ _ impossible => (by cases impossible), sound.stored, sound.fresh⟩, .of (fun _ member => member)
    (fun _ _ impossible => (by cases impossible)) (fun _ made => made) (fun _ _ flying => .inr (.inl flying)), rfl⟩

end Step

section Caught
variable {world next : BusWorld} {turn : BusTurn} {row : BroadcastFrame} {fill : Fill} {step : Exchange}

/-- The gap-fill has asked for the rows of this kind. -/
def Fill.Asked (fill : Fill) : BroadcastKind → Prop
  | .swap => fill.stage ≠ .swaps ∨ fill.answer.isSome
  | .liquidity => fill.stage ≠ .swaps ∧ (fill.stage ≠ .liquidity ∨ fill.answer.isSome)
  | _ => False

/-- Where the rows of a gap-fill are: those it leaves to the connection have come or are on their
way, the others have come or are in the answer. -/
structure Fill.Kept (fill : Fill) (world : BusWorld) : Prop where
  known : ∀ row ∈ fill.known, row ∈ world.committed
  covered : ∀ row ∈ fill.covered, row ∈ world.committed
  exposed : ∀ row ∈ fill.exposed, row ∈ fill.covered
  asked : ∀ row ∈ fill.known, fill.Asked row.kind → fill.failed = true ∨ row ∈ fill.covered
  relied : ∀ row ∈ fill.exposed, fill.failed = true ∨ world.Dispatched row ∨ row ∈ world.inFlight
  answered : ∀ row ∈ fill.covered, row ∉ fill.exposed →
    fill.failed = true ∨ world.Dispatched row ∨ ∃ rows ∈ fill.answer, row ∈ rows
  finished : fill.stage = .done → fill.answer = none
  landed : fill.stage = .done → fill.failed = false → ∀ row ∈ fill.exposed, world.Dispatched row

theorem Fill.Kept.passes {dropped : List BroadcastFrame} (kept : fill.Kept world) (passes : world.Passes next dropped)
    (spares : ∀ row ∈ dropped, fill.failed = false → row ∈ fill.exposed → world.Dispatched row) : fill.Kept next where
  known := fun row member => passes.committed row (kept.known row member)
  covered := fun row member => passes.committed row (kept.covered row member)
  exposed := kept.exposed
  asked := kept.asked
  relied := by
    intro row member
    have committed := kept.covered row (kept.exposed row member)
    rcases kept.relied row member with failed | dispatched | flying
    · exact .inl failed
    · exact .inr (.inl (passes.dispatched row committed dispatched))
    · rcases passes.moves row committed flying with dispatched | still | dropped
      · exact .inr (.inl dispatched)
      · exact .inr (.inr still)
      · rcases Bool.eq_false_or_eq_true fill.failed with failed | succeeded
        · exact .inl failed
        · exact .inr (.inl (passes.dispatched row committed (spares row dropped succeeded member)))
  answered := by
    intro row member free
    rcases kept.answered row member free with failed | dispatched | pending
    · exact .inl failed
    · exact .inr (.inl (passes.dispatched row (kept.covered row member) dispatched))
    · exact .inr (.inr pending)
  finished := kept.finished
  landed := by
    intro finished succeeded row member
    exact passes.dispatched row (kept.covered row (kept.exposed row member)) (kept.landed finished succeeded row member)

theorem BusWorld.not_lost (committed : row ∈ world.committed) (brought : row ∉ world.lost) :
    world.Dispatched row ∨ row ∈ world.inFlight := by
  by_contra neither
  rw [not_or] at neither
  exact brought (List.mem_filter.mpr ⟨committed, decide_eq_true neither⟩)

/-- A gap-fill that has a reference point starts with everything ahead of it. -/
theorem Fill.Kept.start_some (since : Int) : (Fill.start (some since) world.committed).Kept world where
  known := fun _ member => member
  covered := fun _ impossible => by cases impossible
  exposed := fun _ impossible => by cases impossible
  asked := by
    intro row _ asked
    cases kind : row.kind with
    | pool | reserves =>
      rw [kind] at asked
      cases asked
    | swap =>
      rw [kind] at asked
      rcases asked with started | answered
      · exact absurd rfl started
      · cases answered
    | liquidity =>
      rw [kind] at asked
      exact absurd rfl asked.1
  relied := fun _ impossible => by cases impossible
  answered := fun _ impossible => by cases impossible
  finished := fun _ => rfl
  landed := fun _ _ _ impossible => by cases impossible

/-- A gap-fill without a reference point leaves every row to the connection. -/
theorem Fill.Kept.start_none (dispatched : ∀ row ∈ world.committed, world.Dispatched row) :
    (Fill.start none world.committed).Kept world where
  known := fun _ member => member
  covered := fun _ member => member
  exposed := fun _ member => member
  asked := fun _ member _ => .inr member
  relied := fun row member => .inr (.inl (dispatched row member))
  answered := fun _ member left => absurd member left
  finished := fun _ => rfl
  landed := fun _ _ => dispatched

theorem BusWorld.turn_opens (sound : world.Sound) (reaches : world.Reaches .opens)
    (done : world.turn .opens = .ok (next, ())) :
    next.Sound ∧ ∀ fill ∈ next.fill, fill.Kept next := by
  simp only [BusWorld.turn] at done
  split at done
  next subscription wire link =>
    cases ever : world.bus.hasEverConnected with
    | false =>
      rw [ever] at done
      cases done
      obtain ⟨none, unfilled⟩ := sound.fresh ever
      refine ⟨⟨fun _ _ subscribed => subscribed, sound.stored, fun never => by cases never⟩, ?_⟩
      intro fill present
      rw [unfilled] at present
      cases present
    | true =>
      rw [ever, if_pos rfl] at done
      cases done
      refine ⟨⟨sound.loyal, sound.stored, fun never => by cases never⟩, ?_⟩
      intro fill present
      obtain rfl := Option.mem_some_iff.mp present
      have started : (Fill.start world.bus.lastSeenAt world.committed).Kept world := by
        cases seen : world.bus.lastSeenAt with
        | some since => exact .start_some since
        | none =>
          apply Fill.Kept.start_none
          intro row member handler stayed
          rw [reaches ever seen row member] at stayed
          cases stayed
      refine started.passes ?_ fun row (impossible : row ∈ []) => by cases impossible
      refine .of (fun _ member => member) (fun _ _ stayed => stayed) (fun _ made => made) ?_
      intro row _ flying
      right
      left
      rw [BusWorld.inFlight, BusWorld.queue, BusWorld.wire, link] at flying
      cases subscription <;> exact flying
  · cases done

/-- A query adds its own kind to what was asked. -/
theorem Fill.Asked.query {kind : BroadcastKind} {rows covered exposed : List BroadcastFrame}
    (asked : { fill with answer := some rows, covered, exposed }.Asked kind) :
    kind = fill.stage.kind ∨ fill.Asked kind := by
  cases kind with
  | pool | reserves => cases asked
  | swap =>
    cases stage : fill.stage with
    | swaps => exact .inl rfl
    | liquidity | pools | done => exact .inr (.inl (by rw [stage]; decide))
  | liquidity =>
    obtain ⟨past, _⟩ := asked
    cases stage : fill.stage with
    | swaps => exact absurd stage past
    | liquidity => exact .inl rfl
    | pools | done => exact .inr ⟨past, .inl (by rw [stage]; decide)⟩

/-- What a gap-fill asked after a request, it asked with that request or before. -/
theorem Fill.Asked.respond {kind : BroadcastKind} {rows : List BroadcastFrame} (answer : fill.answer = some rows)
    (asked : { fill with stage := fill.stage.next, answer := none }.Asked kind) : fill.Asked kind := by
  cases kind with
  | pool | reserves => cases asked
  | swap => exact .inr (by rw [answer]; rfl)
  | liquidity =>
    obtain ⟨_, past | impossible⟩ := asked
    · refine ⟨fun early => past ?_, .inr (by rw [answer]; rfl)⟩
      simp only [early, FillStage.next]
    · cases impossible

theorem Fill.Kept.query {rows : List BroadcastFrame} {asked : List BroadcastFrame} {table : List BroadcastFrame}
    (kept : fill.Kept world) (sound : world.Sound) (idle : fill.answer = none)
    (allows : fill.stage.Allows fill.since table rows) (reads : table = fill.stage.table world.writer.db)
    (asks : asked = world.committed.filter (·.kind = fill.stage.kind))
    (reaches : fill.failed = false → ∀ row ∈ world.lost, row.kind = fill.stage.kind → fill.Reaches table row) :
    Fill.Kept { fill with
      answer := some rows
      covered := fill.covered ++ asked
      exposed := fill.exposed ++ asked.filter (¬ fill.Reaches table ·) } world where
  known := kept.known
  covered := by
    intro row member
    rcases List.mem_append.mp member with old | new
    · exact kept.covered row old
    · rw [asks] at new
      exact List.mem_of_mem_filter new
  exposed := by
    intro row member
    rcases List.mem_append.mp member with old | new
    · exact List.mem_append_left _ (kept.exposed row old)
    · exact List.mem_append_right _ (List.mem_of_mem_filter new)
  asked := by
    intro row member due
    rcases due.query with same | before
    · right
      apply List.mem_append_right
      rw [asks]
      exact List.mem_filter.mpr ⟨kept.known row member, decide_eq_true same⟩
    · exact (kept.asked row member before).imp_right (List.mem_append_left _)
  relied := by
    intro row member
    rcases List.mem_append.mp member with old | new
    · exact kept.relied row old
    · obtain ⟨due, missed⟩ := List.mem_filter.mp new
      rw [asks] at due
      obtain ⟨committed, same⟩ := List.mem_filter.mp due
      rcases Bool.eq_false_or_eq_true fill.failed with failed | succeeded
      · exact .inl failed
      · refine .inr (BusWorld.not_lost committed fun lost => ?_)
        exact of_decide_eq_true missed (reaches succeeded row lost (of_decide_eq_true same))
  answered := by
    intro row member free
    rw [List.mem_append, not_or] at free
    obtain ⟨old, new⟩ := free
    rcases List.mem_append.mp member with before | due
    · rcases kept.answered row before old with failed | dispatched | ⟨rows, pending, _⟩
      · exact .inl failed
      · exact .inr (.inl dispatched)
      · rw [idle] at pending
        cases pending
    · have reached : fill.Reaches table row := by
        by_contra missed
        exact new (List.mem_filter.mpr ⟨due, decide_eq_true missed⟩)
      rw [asks] at due
      obtain ⟨committed, same⟩ := List.mem_filter.mp due
      have same := of_decide_eq_true same
      obtain ⟨stored, tracked⟩ := sound.stored row committed
      have asks := FillStage.asks tracked same
      have member : row ∈ table := by
        rw [reads]
        exact mem_table stored fill.stage same asks
      exact .inr (.inr ⟨rows, rfl, reached.answered member allows asks⟩)
  finished := by
    intro finished
    simp only at finished
    rw [finished] at allows
    cases allows
  landed := by
    intro finished
    simp only at finished
    rw [finished] at allows
    cases allows

theorem Fill.Kept.respond {rows : List BroadcastFrame} {start : BusWorld} (kept : fill.Kept world) (sound : start.Sound)
    (answer : fill.answer = some rows) (loyal : world.loyal = start.loyal)
    (bus : world.bus = start.bus.replay (rows.filter start.bus.unseen))
    (tracked : ∀ row ∈ world.committed, row.kind = .swap ∨ row.kind = .liquidity)
    (lands : fill.stage = .pools → fill.failed = false → ∀ row ∈ fill.exposed, world.Dispatched row) :
    Fill.Kept { fill with stage := fill.stage.next, answer := none } world where
  known := kept.known
  covered := kept.covered
  exposed := kept.exposed
  asked := fun row member due => kept.asked row member (due.respond answer)
  relied := kept.relied
  answered := by
    intro row member free
    rcases kept.answered row member free with failed | dispatched | ⟨answered, same, pending⟩
    · exact .inl failed
    · exact .inr (.inl dispatched)
    · right
      left
      obtain rfl := Option.some.inj (answer.symm.trans same)
      intro handler stayed
      rw [bus]
      apply Bus.replay_calls
      · apply List.mem_filter.mpr ⟨pending, ?_⟩
        -- Only pools are skipped as seen.
        have kind := tracked row (kept.covered row member)
        cases row with
        | pool | reserves => rcases kind with impossible | impossible <;> cases impossible
        | swap | liquidity => rfl
      · rw [loyal] at stayed
        exact sound.loyal row.kind handler stayed
  finished := fun _ => rfl
  landed := by
    intro finished succeeded
    cases stage : fill.stage with
    | swaps | liquidity =>
      rw [stage] at finished
      cases finished
    | pools => exact lands stage succeeded
    | done =>
      have waiting := kept.finished stage
      rw [answer] at waiting
      cases waiting

theorem Fill.Kept.fail (kept : fill.Kept world) :
    Fill.Kept { fill with stage := fill.stage.next, answer := none, failed := true } world where
  known := kept.known
  covered := kept.covered
  exposed := kept.exposed
  asked := fun _ _ _ => .inl rfl
  relied := fun _ _ => .inl rfl
  answered := fun _ _ _ => .inl rfl
  finished := fun _ => rfl
  landed := fun _ impossible => by cases impossible

theorem BusWorld.turn_exchange (sound : world.Sound) (kept : ∀ fill ∈ world.fill, fill.Kept world)
    (reaches : world.Reaches (.exchange step)) (lands : world.Lands (.exchange step))
    (done : world.turn (.exchange step) = .ok (next, ())) :
    next.Sound ∧ ∀ fill ∈ next.fill, fill.Kept next := by
  simp only [BusWorld.turn] at done
  split at done
  next after bus exchanged =>
    cases done
    obtain ⟨fill, present, exchanged⟩ := Option.bind_eq_some_iff.mp exchanged
    obtain ⟨sounds, passes⟩ := BusWorld.turn_fill sound exchanged rfl fun _ => Option.isSome_of_mem present
    refine ⟨sounds, ?_⟩
    intro kept' same
    obtain rfl := Option.mem_some_iff.mp same
    have stays := kept fill present
    have before : fill.Kept { world with fill := some after, bus } :=
      stays.passes passes fun _ impossible => by cases impossible
    cases step with
    | query rows =>
      simp only [Fill.exchange] at exchanged
      split at exchanged
      next allowed =>
        cases exchanged
        obtain ⟨idle, allows⟩ := allowed
        have waits := Option.isNone_iff_eq_none.mp idle
        have asked := stays.query sound waits allows rfl rfl (reaches fill present)
        exact asked.passes passes fun _ impossible => by cases impossible
      · cases exchanged
    | respond =>
      simp only [Fill.exchange, Option.map_eq_some_iff] at exchanged
      obtain ⟨rows, answer, same⟩ := exchanged
      cases same
      refine before.respond sound answer rfl rfl (fun row member => (sound.stored row member).2) ?_
      intro last succeeded row member
      have committed := stays.covered row (stays.exposed row member)
      apply passes.dispatched row committed
      rcases stays.relied row member with failed | dispatched | flying
      · exact absurd failed (Bool.eq_false_iff.mp succeeded)
      · exact dispatched
      · exact lands fill present last succeeded row member flying
    | fail =>
      simp only [Fill.exchange] at exchanged
      split at exchanged
      · cases exchanged
      · cases exchanged
        exact before.fail
  · cases done

theorem BusWorld.turn_keeps (sound : world.Sound) (kept : ∀ fill ∈ world.fill, fill.Kept world)
    (spares : world.Spares turn) (reaches : world.Reaches turn) (lands : world.Lands turn)
    (done : world.turn turn = .ok (next, ())) :
    next.Sound ∧ ∀ fill ∈ next.fill, fill.Kept next := by
  have passed {dropped : List BroadcastFrame}
      (outcome : next.Sound ∧ world.Passes next dropped ∧ next.fill = world.fill)
      (drops : ∀ row ∈ dropped, row ∈ world.drops turn) : next.Sound ∧ ∀ fill ∈ next.fill, fill.Kept next := by
    obtain ⟨sounds, passes, same⟩ := outcome
    refine ⟨sounds, fun fill present => ?_⟩
    rw [same] at present
    refine (kept fill present).passes passes ?_
    intro row dropped
    exact spares row (drops row dropped) fill present
  have nothing : ∀ row ∈ ([] : List BroadcastFrame), row ∈ world.drops turn := by
    intro row impossible
    cases impossible
  cases turn with
  | commit => exact passed (turn_commit sound done) nothing
  | publish => exact passed (turn_publish sound done) fun _ dropped => dropped
  | dial => exact passed (turn_dial sound done) nothing
  | subscribe => exact passed (turn_subscribe sound done) nothing
  | opens => exact turn_opens sound reaches done
  | recv => exact passed (turn_recv sound done) fun _ dropped => dropped
  | hangUp => exact passed (turn_hangUp sound done) fun _ dropped => dropped
  | message => exact passed (turn_message sound done) nothing
  | closes => exact passed (turn_closes sound done) fun _ dropped => dropped
  | exchange => exact turn_exchange sound kept reaches lands done
  | linger => exact passed (turn_linger sound done) nothing
  | on => exact passed (turn_on sound done) nothing
  | off => exact passed (turn_off sound done) nothing
  | close => exact passed (turn_close sound done) nothing

/-- A gap-fill that is over has asked for everything and waits for nothing. -/
theorem Fill.Kept.caught (sound : world.Sound) (kept : fill.Kept world) (finished : fill.stage = .done)
    (succeeded : fill.failed = false) (due : row ∈ fill.known ∨ row ∈ fill.covered) : world.Dispatched row := by
  have covered : row ∈ fill.covered := by
    rcases due with known | covered
    · have asked : fill.Asked row.kind := by
        rcases (sound.stored row (kept.known row known)).2 with kind | kind
        · rw [kind]
          exact .inl (by rw [finished]; decide)
        · rw [kind]
          exact ⟨by rw [finished]; decide, .inl (by rw [finished]; decide)⟩
      exact (kept.asked row known asked).resolve_left (Bool.eq_false_iff.mp succeeded)
    · exact covered
  by_cases left : row ∈ fill.exposed
  · exact kept.landed finished succeeded row left
  · have answered := (kept.answered row covered left).resolve_left (Bool.eq_false_iff.mp succeeded)
    rcases answered with dispatched | ⟨_, pending, _⟩
    · exact dispatched
    · rw [kept.finished finished] at pending
      cases pending

/-- A bus misses no row through its reconnects, as long as each gap-fill reaches what is lost when it
asks, and what it does not reach is not dropped afterwards but arrives before the last answer. -/
theorem reconnects_catch_up {writer : Session} {trace : List (BusTurn × Unit)}
    (runs : Run (restrict BusWorld.turn (fun world turn _ => world.Spares turn ∧ world.Reaches turn ∧ world.Lands turn)
      .careless) (.start writer) trace world) : world.Caught := by
  have kept : world.Sound ∧ ∀ fill ∈ world.fill, fill.Kept world := by
    refine runs.invariant (fun world => world.Sound ∧ ∀ fill ∈ world.fill, fill.Kept world) ?_ ⟨.start writer, ?_⟩
    · intro before turn after _ _ ⟨sound, kept⟩ done
      obtain ⟨accepted, spares, reaches, lands⟩ := restrict_ok done
      exact before.turn_keeps sound kept spares reaches lands accepted
    · intro fill impossible
      cases impossible
  intro fill present finished succeeded row due
  exact (kept.2 fill present).caught kept.1 finished succeeded due

end Caught
section Samples

def laterSwap : DecodedEvent := { sampleSwap with signature := "3C", slot := 102, blockTime := some 1700000002 }

def swappedSession : Session := (receive healthy ⟨101, [sampleSwap]⟩ (.load sampleDb)).1
def laterDb : Db := (receive healthy ⟨102, [laterSwap]⟩ swappedSession).1.db

def connecting : List BusTurn := [.dial, .subscribe, .opens]

/-- A gap-fill whose answers are these swaps, no liquidity events and every pool. -/
def filling (db : Db) (swaps : List BroadcastFrame) : List BusTurn :=
  [.exchange (.query swaps), .exchange .respond, .exchange (.query []), .exchange .respond,
    .exchange (.query (FillStage.pools.table db)), .exchange .respond]

/-- The connection closes after both frames of a block, and the next block comes before the reconnect. -/
def betweenBlocks : List BusTurn :=
  .on .swap 0 :: connecting ++ [.commit healthy ⟨101, [sampleSwap]⟩, .publish, .publish, .recv, .recv, .message,
    .message, .closes, .commit healthy ⟨102, [laterSwap]⟩, .publish, .publish] ++ connecting ++
    filling laterDb (newerThan (some 1700000001) (FillStage.swaps.table laterDb))

/-- The connection closes after the first frame of a block, which carries the time of the second. -/
def withinBlock : List BusTurn :=
  .on .swap 0 :: connecting ++ [.commit healthy ⟨101, [sampleSwap]⟩, .publish, .recv, .message, .closes, .publish] ++
    connecting ++ filling swappedSession.db []

/-- The swaps that the first handler was called with. -/
def BusWorld.heard (world : BusWorld) : List Int := (world.bus.calls.filter (·.1 = 0)).map fun call => call.2.createdAt

theorem reconnects_catch_up_sample : ∃ world : BusWorld, world.fill.map Fill.stage = some .done ∧
    world.fill.map Fill.failed = some false ∧ world.committed.length = 2 ∧
    world.heard = [1700000001, 1700000002] ∧ world.Caught := by
  have found : accepts (execute (restrict BusWorld.turn (fun world turn _ => world.Spares turn ∧ world.Reaches turn ∧
      world.Lands turn) .careless) (.start (.load sampleDb)) betweenBlocks) (fun result =>
      result.1.fill.map Fill.stage = some .done ∧ result.1.fill.map Fill.failed = some false ∧
        result.1.committed.length = 2 ∧ result.1.heard = [1700000001, 1700000002]) = true := by decide +kernel
  obtain ⟨⟨world, trace⟩, runs, facts⟩ := accepts_iff.mp found
  obtain ⟨finished, succeeded, committed, heard⟩ := of_decide_eq_true facts
  exact ⟨world, finished, succeeded, committed, heard, reconnects_catch_up (execute_run runs)⟩

/-- The frames of a block share its time. A bus that has seen the first asks for what is newer, and
misses the rest. -/
theorem reconnect_misses : ∃ (trace : List (BusTurn × Unit)) (world : BusWorld) (fill : Fill) (row : BroadcastFrame),
    Run BusWorld.turn (.start (.load sampleDb)) trace world ∧
      world.fill = some fill ∧ fill.stage = .done ∧ fill.failed = false ∧ row ∈ fill.known ∧ row.kind = .swap ∧
      0 ∈ world.loyal .swap ∧ world.heard = [] ∧ world.inFlight = [] ∧ ¬ world.Caught := by
  have found : accepts (execute BusWorld.turn (.start (.load sampleDb)) withinBlock) (fun result =>
      0 ∈ result.1.loyal .swap ∧ result.1.heard = [] ∧ result.1.inFlight = [] ∧
        ∃ fill ∈ result.1.fill, fill.stage = .done ∧ fill.failed = false ∧
          ∃ row ∈ fill.known, row.kind = .swap ∧ ¬ result.1.Dispatched row) = true := by decide +kernel
  obtain ⟨⟨world, trace⟩, runs, facts⟩ := accepts_iff.mp found
  obtain ⟨loyal, heard, landed, fill, present, finished, succeeded, row, known, swap, silent⟩ := of_decide_eq_true facts
  refine ⟨trace, world, fill, row, execute_run runs, present, finished, succeeded, known, swap, loyal, heard, landed,
    ?_⟩
  intro caught
  exact silent (caught fill present finished succeeded row (.inl known))

end Samples
end DeepPool.Sdk
