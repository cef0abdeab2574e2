import DeepPool.Proofs.Sound
import DeepPool.Proofs.Dilution

/-! Pools do not disturb each other. Whatever is done with all of them and in whatever
order, each is in a state that it could have reached alone, and got there by just the
instructions that its own events tell of. -/

namespace DeepPool
open Library

variable {Key : Type} {derive : Derivation Key} {rents : Rents Key} {world before after : World Key} {key : Key}
  {pool next : Pool Key}

/-- Nobody can be made to move a pool's tokens. -/
theorem Sound.hosts (sound : Sound derive world) (present : world.pools key = some pool) :
    Hosts derive (pool.site key) world := by
  have established := sound.established present
  refine ⟨sound.orderly, established.settled, ?_⟩
  intro kind minted
  obtain ⟨same, found, _, _, clear⟩ := established.tokenMint
  obtain rfl : same = kind := Option.some.inj (found.symm.trans minted)
  exact Program.undelegated clear

variable [DecidableEq Key]

/-- The invariant that carries one pool's results over to all of them. -/
structure Embedded (derive : Derivation Key) (rents : Rents Key) (world : World Key) : Prop extends Sound derive world where
  reached : ∀ {key pool}, world.pools key = some pool → DeepPool.Reachable rents.pool (world.view derive key pool)

/-- A pool that was there before goes on in its own world. -/
theorem Embedded.continues {action : Program.Action Key} {output : Option (DeepPoolEvent Key)}
    (embedded : Embedded derive rents before)
    (done : Program.step derive rents before action = .ok (after, output)) (present : before.pools key = some pool)
    (found : after.pools key = some next) : DeepPool.Reachable rents.pool (after.view derive key next) := by
  obtain ⟨_, goes, _⟩ := continues_step present (embedded.hosts present) done
  have kept := goes.present
  rw [found] at kept
  cases kept
  obtain ⟨trace, runs, _⟩ := goes.logs
  exact (embedded.reached present).run runs

/-- A pool that is new starts as its own creation left it. -/
theorem Embedded.starts {accounts : Program.CreatePool Key} {args : CreatePoolArgs} {bump : Word 8} {kind : Mint Key}
    {made : World Key} {event : PoolCreated Key} (embedded : Embedded derive rents before)
    (valid : accounts.validate derive before rents = .ok (bump, kind, made))
    (done : accounts.handler rents args bump kind made = .ok (after, event))
    (found : after.pools accounts.pool = some next) :
    DeepPool.Reachable rents.pool (after.view derive accounts.pool next) := by
  obtain ⟨_, _, _, _, _, _, checked⟩ := Program.CreatePool.validate_ok valid
  have ready := checked.makes embedded.orderly
  obtain ⟨pool, present, _, _, _, creates⟩ := ready.creates embedded.orderly done
  rw [found] at present
  cases present
  exact ⟨_, _, _, _, _, _, _, creates, [], .nil _⟩

theorem Embedded.step {action : Program.Action Key} {output : Option (DeepPoolEvent Key)}
    (embedded : Embedded derive rents before)
    (done : Program.step derive rents before action = .ok (after, output)) : Embedded derive rents after := by
  refine ⟨embedded.toSound.step done, ?_⟩
  intro key next found
  by_cases new : action.born = some key
  · cases action with
    | createPool accounts args =>
      obtain ⟨⟨bump, mint, made⟩, valid, done⟩ := bind_ok.mp done
      obtain ⟨⟨_, event⟩, handled, same⟩ := bind_ok.mp done
      cases same
      cases new
      exact embedded.starts valid (mapError_ok.mp handled) found
    | _ => cases new
  · obtain ⟨pool, present, _⟩ := (later_step done).only new found
    exact embedded.continues done present found

theorem Program.Reachable.embedded (reachable : Program.Reachable derive rents world) : Embedded derive rents world := by
  obtain ⟨start, orderly, noPools, trace, runs⟩ := reachable
  refine Run.invariant (Embedded derive rents) runs (fun _ _ _ _ _ now accepted => now.step accepted) ?_
  refine ⟨.of_orderly orderly noPools, ?_⟩
  intro key pool found
  rw [noPools] at found
  cases found

namespace Program

theorem sampleWorld_orderly : Orderly sampleDerivation sampleWorld := by
  have accounts : ∀ {key account}, sampleWorld.tokenAccounts key = some account →
      ∃ number, key = .associated .token2022 (.wallet number) (.wallet 2) ∧ account = ⟨.wallet 2, .wallet number⟩ := by
    intro key account found
    simp only [sampleWorld] at found
    split at found
    next same => exact ⟨0, same, (Option.some.inj found).symm⟩
    · split at found
      next same => exact ⟨1, same, (Option.some.inj found).symm⟩
      · cases found
  constructor
  case minted =>
    intro key account found
    obtain ⟨number, _, rfl⟩ := accounts found
    simp [sampleWorld]
  case absent =>
    intro key nothing
    refine ⟨?_, rfl, rfl⟩
    simp only [sampleWorld] at nothing ⊢
    grind
  case unminted =>
    intro key nothing
    by_cases same : key = .wallet 2
    · subst same
      cases nothing
    · exact ⟨if_neg same, rfl⟩
  case approved => exact fun _ _ => rfl
  case associated =>
    intro wallet mint account found
    obtain ⟨number, same, rfl⟩ := accounts found
    cases same
    rfl

/-- Two pools of one mint, both in use. -/
def sampleBusy : List (Action SampleKey) :=
  [sampleCreate 3, sampleCreate 4, .advance 1200, sampleSwap 3 1 ⟨1000000, 0, true⟩]

theorem sampleRun_reachable {actions : List (Action SampleKey)} {world : World SampleKey} {trace : Trace SampleKey}
    (done : sampleRun actions = .ok (world, trace)) : Reachable sampleDerivation sampleRents world :=
  ⟨sampleWorld, sampleWorld_orderly, fun _ => rfl, trace, execute_run done⟩

end Program

open Program (SampleKey sampleDerivation sampleRents samplePool sampleCreate sampleSwap sampleAdd sampleRun sampleBusy
  sampleRun_reachable)

/-- What holds of every state that one pool reaches alone holds of every pool among others. -/
theorem view_reachable (reachable : Program.Reachable derive rents world) (present : world.pools key = some pool) :
    Reachable rents.pool (world.view derive key pool) :=
  reachable.embedded.reached present

/-- The state of one of two pools. -/
theorem view_reachable_busy : ∃ world : World SampleKey, world.pools (samplePool 4) ≠ none ∧
    ∃ pool, world.pools (samplePool 3) = some pool ∧
      Reachable 2000000 (world.view sampleDerivation (samplePool 3) pool) := by
  have runs : accepts (sampleRun sampleBusy) (fun result =>
      (result.1.pools (samplePool 4)).isSome && (result.1.pools (samplePool 3)).isSome) = true := by decide +kernel
  obtain ⟨⟨world, trace⟩, done, holds⟩ := accepts_iff.mp runs
  obtain ⟨second, first⟩ := (Bool.and_eq_true _ _).mp holds
  obtain ⟨pool, present⟩ := Option.isSome_iff_exists.mp first
  exact ⟨world, Option.isSome_iff_ne_none.mp second, pool, present, view_reachable (sampleRun_reachable done) present⟩

/-- Every run of the program is for each pool a run of its own, with the pool's own events
in their order and no others. -/
theorem run_embeds {trace : Program.Trace Key} (reachable : Program.Reachable derive rents before)
    (runs : Run (Program.step derive rents) before trace after) (present : before.pools key = some pool) :
    ∃ next, after.pools key = some next ∧ ∃ own : Trace (Holder Key),
      Run (step rents.pool) (before.view derive key pool) own (after.view derive key next) ∧
        own.filterMap Prod.snd =
          ((trace.filterMap Prod.snd).filter fun event => event.pool = key).map (DeepPoolEvent.rename .owner) := by
  obtain ⟨next, goes⟩ := continues_run present (reachable.embedded.hosts present) runs
  exact ⟨next, goes.present, goes.logs⟩

/-- The other pool's swap is no event of this one, whose own withdrawal of liquidity is. -/
theorem run_embeds_busy : ∃ before after : World SampleKey, ∃ pool next, ∃ trace : Program.Trace SampleKey,
    ∃ own : Trace (Holder SampleKey),
      before.pools (samplePool 3) = some pool ∧ after.pools (samplePool 3) = some next ∧
      (trace.filterMap Prod.snd).length = 3 ∧ (own.filterMap Prod.snd).length = 1 ∧
      Run (step 2000000) (before.view sampleDerivation (samplePool 3) pool) own
        (after.view sampleDerivation (samplePool 3) next) := by
  have runs : accepts (sampleRun sampleBusy) (fun result =>
      (result.1.pools (samplePool 3)).isSome &&
      accepts (execute (Program.step sampleDerivation sampleRents) result.1
        [sampleSwap 4 1 ⟨5000000, 0, false⟩, sampleAdd 3 1 ⟨10000000, 200000000, 0⟩,
          sampleSwap 4 0 ⟨3000000, 0, true⟩])
        fun last => (last.2.filterMap Prod.snd).map DeepPoolEvent.pool =
          [samplePool 4, samplePool 3, samplePool 4]) = true := by decide +kernel
  obtain ⟨⟨before, earlier⟩, started, holds⟩ := accepts_iff.mp runs
  rw [Bool.and_eq_true, Option.isSome_iff_exists] at holds
  obtain ⟨⟨pool, present⟩, goes⟩ := holds
  obtain ⟨⟨after, trace⟩, done, events⟩ := accepts_iff.mp goes
  obtain ⟨next, still, own, simulates, same⟩ := run_embeds (sampleRun_reachable started) (execute_run done)
    present
  have events := of_decide_eq_true events
  refine ⟨before, after, pool, next, trace, own, present, still, ?_, ?_, simulates⟩
  · rw [← List.length_map DeepPoolEvent.pool, events]
    rfl
  · rw [same, List.length_map]
    have counted : ((trace.filterMap Prod.snd).filter fun event => event.pool = samplePool 3).length =
        (((trace.filterMap Prod.snd).map DeepPoolEvent.pool).filter fun key => key = samplePool 3).length := by
      rw [List.filter_map, List.length_map]
      rfl
    rw [counted, events]
    decide

/-- In the terms of the accounts themselves: no pool is ever emptied, and the product of its
reserves for each squared LP token never falls, whatever is done with it and the others. -/
theorem pools_keep_worth {trace : Program.Trace Key} (reachable : Program.Reachable derive rents before)
    (runs : Run (Program.step derive rents) before trace after) (present : before.pools key = some pool) :
    0 < (after.solReserve rents key).val ∧ 0 < (after.amounts pool.tokenVault).val ∧
      0 < (after.supplies pool.lpMint).val ∧
      (before.solReserve rents key).val * (before.amounts pool.tokenVault).val * (after.supplies pool.lpMint).val ^ 2 ≤
        (after.solReserve rents key).val * (after.amounts pool.tokenVault).val * (before.supplies pool.lpMint).val ^ 2 := by
  have embedded := reachable.embedded
  obtain ⟨next, goes⟩ := continues_run present (embedded.hosts present) runs
  obtain ⟨own, simulates, _⟩ := goes.logs
  have live := (embedded.reached present).live
  have last := live.run simulates
  have worth := live.worth simulates
  have vault : (after.amounts pool.tokenVault).val = (after.view derive key next).tokenReserve.val := by
    rw [← goes.identity.tokenVault]
    rfl
  have supply : (after.supplies pool.lpMint).val = (after.view derive key next).lp.supply.val := by
    rw [← goes.identity.lpMint]
    rfl
  rw [vault, supply]
  exact ⟨last.sol, last.token, last.supply, worth⟩

theorem pools_keep_worth_busy : ∃ before after : World SampleKey, ∃ pool, before.pools (samplePool 3) = some pool ∧
    before.amounts pool.tokenVault ≠ after.amounts pool.tokenVault ∧
      0 < (after.solReserve sampleRents (samplePool 3)).val ∧ 0 < (after.amounts pool.tokenVault).val := by
  have runs : accepts (sampleRun sampleBusy) (fun result => (result.1.pools (samplePool 3)).any fun pool =>
      accepts (execute (Program.step sampleDerivation sampleRents) result.1
        [sampleSwap 4 1 ⟨5000000, 0, false⟩, sampleSwap 3 0 ⟨3000000, 0, true⟩])
        fun last => result.1.amounts pool.tokenVault ≠ last.1.amounts pool.tokenVault) = true := by decide +kernel
  obtain ⟨⟨before, earlier⟩, started, holds⟩ := accepts_iff.mp runs
  rw [Option.any_eq_true] at holds
  obtain ⟨pool, present, goes⟩ := holds
  obtain ⟨⟨after, trace⟩, done, changed⟩ := accepts_iff.mp goes
  obtain ⟨sol, token, _⟩ := pools_keep_worth (sampleRun_reachable started) (execute_run done) present
  exact ⟨before, after, pool, present, of_decide_eq_true changed, sol, token⟩

/-- A pool account is the one derived from the config and the mint that it names, so no
two pools name the same, and none of what identifies it is ever assigned again. -/
theorem pool_permanent {trace : Program.Trace Key} (reachable : Program.Reachable derive rents before)
    (runs : Run (Program.step derive rents) before trace after) (present : before.pools key = some pool) :
    ∃ next, after.pools key = some next ∧ Pool.SameIdentity pool next ∧ Established derive after key next ∧
      ∀ other rival, after.pools other = some rival → rival.config = pool.config → rival.tokenMint = pool.tokenMint →
        other = key := by
  obtain ⟨next, there, same⟩ := identity_run runs present
  have sound := reachable.sound.run runs
  have established := sound.established there
  refine ⟨next, there, same, established, ?_⟩
  intro other rival found config tokenMint
  have canonical := (sound.established found).canonical
  rw [config, tokenMint, ← same.config, ← same.tokenMint, established.canonical] at canonical
  exact (Prod.mk.inj (Option.some.inj canonical)).1.symm

theorem pool_permanent_busy : ∃ before after : World SampleKey, ∃ pool,
    before.pools (samplePool 3) = some pool ∧ before.pools (samplePool 4) = none ∧
      after.pools (samplePool 4) ≠ none ∧ ∃ next, after.pools (samplePool 3) = some next ∧
        Pool.SameIdentity pool next ∧ Established sampleDerivation after (samplePool 3) next := by
  have runs : accepts (sampleRun [sampleCreate 3]) (fun result =>
      (result.1.pools (samplePool 3)).isSome && (result.1.pools (samplePool 4)).isNone &&
        accepts (execute (Program.step sampleDerivation sampleRents) result.1 [sampleCreate 4])
          fun last => (last.1.pools (samplePool 4)).isSome) = true := by decide +kernel
  obtain ⟨⟨before, earlier⟩, started, holds⟩ := accepts_iff.mp runs
  rw [Bool.and_eq_true, Bool.and_eq_true, Option.isSome_iff_exists, Option.isNone_iff_eq_none] at holds
  obtain ⟨⟨⟨pool, present⟩, nothing⟩, goes⟩ := holds
  obtain ⟨⟨after, trace⟩, done, made⟩ := accepts_iff.mp goes
  obtain ⟨next, still, same, established, _⟩ :=
    pool_permanent (sampleRun_reachable started) (execute_run done) present
  exact ⟨before, after, pool, present, nothing, Option.isSome_iff_ne_none.mp made, next, still, same, established⟩

end DeepPool
