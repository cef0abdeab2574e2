import DeepPool.Proofs.Embedding

/-! The events of a run of the program, pool by pool: each pool's creation comes first and
names what the account holds, and the last event shows what is there until something moves. -/

namespace DeepPool
open Library

variable {Key : Type} {derive : Derivation Key} {rents : Rents Key} {world start before middle after : World Key}
  {key : Key} {pool next : Pool Key} {event : DeepPoolEvent Key} {creation : PoolCreated Key}

/-- The reserves of a pool in its accounts are the ones that an event shows. -/
structure World.Shows (rents : Rents Key) (world : World Key) (pool : Pool Key) (event : DeepPoolEvent Key) : Prop where
  sol : event.solReserveAfter = world.solReserve rents event.pool
  token : event.tokenReserveAfter = world.amounts pool.tokenVault

/-- The view of a pool has the pool's reserves. -/
theorem World.Shows.of_view [DecidableEq Key]
    (states : (event.rename .owner).States rents.pool (world.view derive event.pool pool)) :
    world.Shows rents pool event := by
  obtain ⟨sol, token, _⟩ := states
  constructor
  · cases event <;> exact sol
  · cases event <;> exact token

variable [DecidableEq Key]

/-- Every step of the program but a creation needs its pool, and a creation needs that there is none. -/
theorem step_emits {action : Program.Action Key} (done : Program.step derive rents before action = .ok (after, some event)) :
    (before.pools event.pool ≠ none ∧ event.creates = false) ∨
      (before.pools event.pool = none ∧ ∃ creation pool, event = .poolCreated creation ∧
        after.pools event.pool = some pool ∧ creation.Describes event.pool pool) := by
  cases action with
  | createPool accounts args =>
    obtain ⟨⟨bump, mint, made⟩, valid, done⟩ := bind_ok.mp done
    obtain ⟨⟨_, creation⟩, handled, same⟩ := bind_ok.mp done
    cases same
    obtain ⟨last, pool, moves, rfl, _, _, _, _, _, describes⟩ :
        ∃ last pool, Moves derive (fun _ => True) none made last ∧ _ :=
      Program.CreatePool.moves trivial trivial trivial (mapError_ok.mp handled)
    have named : creation.pool = accounts.pool := describes.address
    rw [DeepPoolEvent.pool, named]
    exact .inr ⟨Program.CreatePool.nothing valid, creation, pool, rfl, Function.update_self _ _ _, describes⟩
  | swap accounts args =>
    obtain ⟨loaded, valid, rest⟩ := bind_ok.mp done
    obtain ⟨_, _, same⟩ := bind_ok.mp rest
    cases same
    have named := Option.some.inj ((step_moves done).2 _ rfl)
    rw [← named]
    exact .inl ⟨Option.ne_none_iff_exists'.mpr ⟨_, (Program.Swap.validate_ok valid).present⟩, rfl⟩
  | addLiquidity accounts args =>
    obtain ⟨⟨loaded, made⟩, valid, rest⟩ := bind_ok.mp done
    obtain ⟨_, _, same⟩ := bind_ok.mp rest
    cases same
    have named := Option.some.inj ((step_moves done).2 _ rfl)
    rw [← named]
    exact .inl ⟨Option.ne_none_iff_exists'.mpr ⟨_, (Program.AddLiquidity.validate_ok valid).present⟩, rfl⟩
  | removeLiquidity accounts args =>
    obtain ⟨loaded, valid, rest⟩ := bind_ok.mp done
    obtain ⟨_, _, same⟩ := bind_ok.mp rest
    cases same
    have named := Option.some.inj ((step_moves done).2 _ rfl)
    rw [← named]
    exact .inl ⟨Option.ne_none_iff_exists'.mpr ⟨_, (Program.RemoveLiquidity.validate_ok valid).present⟩, rfl⟩
  | _ => cases (step_moves done).2 event rfl

theorem step_present {action : Program.Action Key}
    (done : Program.step derive rents before action = .ok (after, some event)) : after.pools event.pool ≠ none := by
  rcases step_emits done with ⟨present, _⟩ | ⟨_, _, pool, _, found, _⟩
  · obtain ⟨pool, found⟩ := Option.ne_none_iff_exists'.mp present
    obtain ⟨next, still, _⟩ := (later_step done).pools (step_unborn done found) found
    exact Option.ne_none_iff_exists'.mpr ⟨next, still⟩
  · exact Option.ne_none_iff_exists'.mpr ⟨pool, found⟩

/-- What makes a pool says so. -/
theorem step_born {action : Program.Action Key} {output : Option (DeepPoolEvent Key)}
    (done : Program.step derive rents before action = .ok (after, output)) (born : action.born = some key) :
    ∃ event, output = some event ∧ event.pool = key := by
  cases action with
  | createPool accounts args =>
    obtain ⟨_, _, rest⟩ := bind_ok.mp done
    obtain ⟨_, _, same⟩ := bind_ok.mp rest
    cases same
    exact ⟨_, rfl, Option.some.inj (((step_moves done).2 _ rfl).symm.trans born)⟩
  | _ => cases born

omit [DecidableEq Key] in
theorem PoolCreated.Describes.later (describes : creation.Describes key pool) (same : Pool.SameIdentity pool next) :
    creation.Describes key next := by
  constructor
  case address => exact describes.address
  case config => exact describes.config.trans same.config.symm
  case tokenMint => exact describes.tokenMint.trans same.tokenMint.symm
  case lpMint => exact describes.lpMint.trans same.lpMint.symm
  case initialSol => exact describes.initialSol.trans same.initialSol.symm
  case initialTokens => exact describes.initialTokens.trans same.initialTokens.symm

theorem Move.slot_le {agrees : Key → Prop} {born : Option Key} (move : Move derive agrees born before after) :
    before.slot.val ≤ after.slot.val := by
  cases move with
  | tokens agreed done => rw [(World.rebalanced_of_transferChecked done).slot]
  | minted agreed done => rw [(World.rebalanced_of_mintTo done).slot]
  | burned agreed done => rw [(World.rebalanced_of_burn done).slot]
  | incinerated _ _ done => rw [(World.rebalanced_of_incinerate done).slot]
  | harvested done => rw [(World.rebalanced_of_harvestFees done).slot]
  | withdrawn done => rw [(World.rebalanced_of_withdrawFees done).slot]
  | collected done => rw [(World.rebalanced_of_collectFees done).slot]
  | opened proper done =>
    obtain ⟨_, _, rfl⟩ := World.openAccount_ok done
    exact le_refl _
  | openedMint done =>
    obtain ⟨_, _, rfl⟩ := World.openMint_ok done
    exact le_refl _
  | advanced later => exact later
  | _ => exact le_refl _

theorem Moves.slot_le {agrees : Key → Prop} {born : Option Key} (moves : Moves derive agrees born before after) :
    before.slot.val ≤ after.slot.val := by
  induction moves with
  | refl => exact le_refl _
  | tail _ move ih => exact ih.trans move.slot_le

theorem slot_run {trace : Program.Trace Key} (runs : Run (Program.step derive rents) before trace after) :
    before.slot.val ≤ after.slot.val := by
  induction runs with
  | nil => exact le_refl _
  | cons accepted _ ih => exact (step_moves accepted).1.slot_le.trans ih

section Runs
variable {trace : Program.Trace Key} (runs : Run (Program.step derive rents) before trace after)
include runs

/-- A pool that is there is not created again. -/
theorem not_recreated (present : before.pools key ≠ none) :
    ∀ event ∈ trace.filterMap Prod.snd, event.creates → event.pool ≠ key := by
  induction runs with
  | nil =>
    intro _ impossible
    cases impossible
  | @cons before middle after action output trace accepted rest ih =>
    obtain ⟨pool, found⟩ := Option.ne_none_iff_exists'.mp present
    obtain ⟨next, still, _⟩ := (later_step accepted).pools (step_unborn accepted found) found
    intro event member creates
    cases output with
    | none => exact ih (Option.ne_none_iff_exists'.mpr ⟨next, still⟩) event member creates
    | some emitted =>
      rcases List.mem_cons.mp member with rfl | later
      · rintro rfl
        rcases step_emits accepted with ⟨_, uncreated⟩ | ⟨nothing, _⟩
        · rw [uncreated] at creates
          cases creates
        · exact present nothing
      · exact ih (Option.ne_none_iff_exists'.mpr ⟨next, still⟩) event later creates

/-- The creation of a pool comes before all else that is said of it. -/
theorem creation_first : (trace.filterMap Prod.snd).Pairwise fun earlier later =>
    later.creates → later.pool ≠ earlier.pool := by
  induction runs with
  | nil => exact List.Pairwise.nil
  | @cons before middle after action output trace accepted rest ih =>
    cases output with
    | none => exact ih
    | some event => exact List.pairwise_cons.mpr ⟨not_recreated rest (step_present accepted), ih⟩

/-- A pool that a run made has its creation among the events. -/
theorem created_run (nothing : before.pools key = none) (present : after.pools key = some pool) :
    ∃ creation, .poolCreated creation ∈ trace.filterMap Prod.snd ∧ creation.Describes key pool := by
  induction runs with
  | nil =>
    rw [nothing] at present
    cases present
  | @cons before middle after action output trace accepted rest ih =>
    cases found : middle.pools key with
    | none =>
      obtain ⟨creation, member, describes⟩ := ih found present
      refine ⟨creation, ?_, describes⟩
      cases output with
      | none => exact member
      | some event => exact List.mem_cons_of_mem _ member
    | some made =>
      have born : action.born = some key := by
        by_contra other
        obtain ⟨earlier, there, _⟩ := (later_step accepted).only other found
        rw [nothing] at there
        cases there
      obtain ⟨event, rfl, named⟩ := step_born accepted born
      rcases step_emits accepted with ⟨there, _⟩ | ⟨_, creation, first, rfl, placed, describes⟩
      · rw [named] at there
        exact absurd nothing there
      · rw [named] at placed describes
        rw [found] at placed
        cases placed
        obtain ⟨last, still, same⟩ := identity_run rest found
        rw [present] at still
        cases still
        exact ⟨creation, List.mem_cons_self, describes.later same⟩

end Runs

/-- A step leaves what its event shows. -/
theorem step_shows {action : Program.Action Key} (reachable : Program.Reachable derive rents before)
    (done : Program.step derive rents before action = .ok (after, some event))
    (found : after.pools event.pool = some next) : after.Shows rents next event := by
  have embedded := reachable.embedded
  rcases step_emits done with ⟨present, _⟩ | ⟨nothing, _⟩
  · obtain ⟨pool, present⟩ := Option.ne_none_iff_exists'.mp present
    obtain ⟨still, there, same⟩ := (later_step done).pools (step_unborn done present) present
    rw [found] at there
    cases there
    obtain ⟨kept, goes, states⟩ := continues_step present (embedded.hosts present) done
    have same := goes.present
    rw [found] at same
    cases same
    exact .of_view (states event rfl rfl)
  · have born : action.born = some event.pool := by
      by_contra other
      obtain ⟨earlier, there, _⟩ := (later_step done).only other found
      rw [nothing] at there
      cases there
    cases action with
    | createPool accounts args =>
      obtain ⟨⟨bump, mint, made⟩, valid, rest⟩ := bind_ok.mp done
      obtain ⟨⟨_, creation⟩, handled, same⟩ := bind_ok.mp rest
      cases same
      have named : accounts.pool = creation.pool := Option.some.inj born
      have handled := mapError_ok.mp handled
      obtain ⟨_, _, _, _, _, _, checked⟩ := Program.CreatePool.validate_ok valid
      have ready := checked.makes embedded.orderly
      obtain ⟨pool, present, _, _, _, creates⟩ := ready.creates embedded.orderly handled
      rw [named, show after.pools creation.pool = some next from found] at present
      cases present
      rw [named] at creates
      have states : ((DeepPoolEvent.poolCreated creation).rename Holder.owner).States rents.pool _ :=
        createPool_states creates
      exact .of_view states
    | _ => cases born

/-- Without an event of its own a pool loses nothing. -/
theorem silent_run {trace : Program.Trace Key} (reachable : Program.Reachable derive rents before)
    (runs : Run (Program.step derive rents) before trace after) (present : before.pools key = some pool)
    (silent : ∀ event ∈ trace.filterMap Prod.snd, event.pool ≠ key) :
    (before.solReserve rents key).val ≤ (after.solReserve rents key).val ∧
      (before.amounts pool.tokenVault).val ≤ (after.amounts pool.tokenVault).val := by
  obtain ⟨next, goes⟩ := continues_run present (reachable.embedded.hosts present) runs
  obtain ⟨own, simulates, logged⟩ := goes.logs
  have nothing : Trace.events own = [] := by
    rw [Trace.events, logged, ownEvents, List.filter_eq_nil_iff.mpr, List.map_nil]
    intro event member same
    exact silent event member (of_decide_eq_true same)
  have grows := ((reachable.embedded.reached present).live.grows simulates).1 nothing
  have vault : (after.amounts pool.tokenVault).val = (after.view derive key next).tokenReserve.val := by
    rw [← goes.identity.tokenVault]
    rfl
  rw [vault]
  exact grows

/-- A moment of a run right after an event of the pool, with the run from there on. -/
structure Moment (derive : Derivation Key) (rents : Rents Key) (start after : World Key) (key : Key) (pool : Pool Key)
    (event : DeepPoolEvent Key) (middle : World Key) (last : Program.Trace Key) : Prop where
  own : event.pool = key
  reached : ∃ first, Run (Program.step derive rents) start first middle
  onward : Run (Program.step derive rents) middle last after
  reads : ∃ held, middle.pools key = some held ∧ Pool.SameIdentity held pool
  shows : middle.Shows rents pool event

section Moments
variable {trace first last : Program.Trace Key} {action : Program.Action Key} (orderly : Program.Orderly derive start)
  (noPools : ∀ key, start.pools key = none) (present : after.pools key = some pool)
include orderly noPools present

/-- Whatever else was going on, an event shows the state that its pool was in. -/
theorem event_shown (runs : Run (Program.step derive rents) start (first ++ (action, some event) :: last) after)
    (own : event.pool = key) : ∃ middle, Moment derive rents start after key pool event middle last := by
  subst own
  obtain ⟨paused, before, continues⟩ := runs.split
  cases continues with
  | cons accepted rest =>
    rename_i middle
    have reachable : Program.Reachable derive rents paused := ⟨start, orderly, noPools, _, before⟩
    obtain ⟨held, there⟩ := Option.ne_none_iff_exists'.mp (step_present accepted)
    obtain ⟨still, found, same⟩ := identity_run rest there
    rw [present] at found
    cases found
    obtain ⟨sol, token⟩ := step_shows reachable accepted there
    refine ⟨middle, rfl, ⟨_, before.append (.cons accepted (.nil middle))⟩, rest, ⟨held, there, same⟩, sol, ?_⟩
    rw [same.tokenVault]
    exact token

/-- After the moment of its last event a pool only gains. -/
theorem last_shown (runs : Run (Program.step derive rents) start trace after)
    (ends : ((trace.filterMap Prod.snd).filter fun event => event.pool = key).getLast? = some event) :
    ∃ middle last, Moment derive rents start after key pool event middle last ∧
      (middle.solReserve rents key).val ≤ (after.solReserve rents key).val ∧
        (middle.amounts pool.tokenVault).val ≤ (after.amounts pool.tokenVault).val := by
  obtain ⟨earlier, split⟩ := List.getLast?_eq_some_iff.mp ends
  rw [List.filter_filterMap] at split
  obtain ⟨first, rest, rfl, _, finishes⟩ := List.filterMap_eq_append_iff.mp split
  obtain ⟨waiting, ⟨action, output⟩, last, rfl, _, emitted, silent⟩ := List.filterMap_eq_cons_iff.mp finishes
  obtain ⟨rfl, own⟩ := Option.filter_eq_some_iff.mp emitted
  rw [← List.append_assoc] at runs
  obtain ⟨middle, moment⟩ := event_shown orderly noPools present runs (of_decide_eq_true own)
  have nothing : ∀ event ∈ last.filterMap Prod.snd, event.pool ≠ key := by
    intro other member same
    obtain ⟨entry, listed, said⟩ := List.mem_filterMap.mp member
    have passed := List.filterMap_eq_nil_iff.mp silent entry listed
    rw [said, Option.filter_some, if_pos (decide_eq_true same)] at passed
    cases passed
  obtain ⟨_, reached⟩ := moment.reached
  obtain ⟨held, there, same⟩ := moment.reads
  have gains := silent_run ⟨start, orderly, noPools, _, reached⟩ moment.onward there nothing
  rw [← same.tokenVault] at gains
  exact ⟨middle, last, moment, gains⟩

end Moments
end DeepPool
