import DeepPool.Proofs.Projection

/-! The invariant of all worlds. A pool account names the accounts derived for it, they
are there, and nothing about this changes once the pool exists. -/

namespace DeepPool
open Library

variable {Key : Type} {derive : Derivation Key} {rents : Rents Key} {agrees : Key → Prop} {born : Option Key}
  {world before middle after : World Key} {key : Key} {pool next : Pool Key}

/-- What no operation takes back, and that only a creation makes a pool. -/
structure Later (derive : Derivation Key) (born : Option Key) (before after : World Key) : Prop where
  orderly : Program.Orderly derive before → Program.Orderly derive after
  settled : Program.Orderly derive before → ∀ {site}, Settled derive site before → Settled derive site after
  data : ∀ {key mint}, before.mints key = some mint →
    ∃ next, after.mints key = some next ∧ next.data = mint.data ∧ next.program = mint.program
  pools : ∀ {key pool}, born ≠ some key → before.pools key = some pool →
    ∃ next, after.pools key = some next ∧ pool.SameIdentity next
  only : ∀ {key next}, born ≠ some key → after.pools key = some next →
    ∃ pool, before.pools key = some pool ∧ pool.SameIdentity next

theorem Later.trans (first : Later derive born before middle) (second : Later derive born middle after) :
    Later derive born before after := by
  constructor
  case orderly => exact fun orderly => second.orderly (first.orderly orderly)
  case settled => exact fun orderly _ settled => second.settled (first.orderly orderly) (first.settled orderly settled)
  case data =>
    intro key mint found
    obtain ⟨next, there, same, program⟩ := first.data found
    obtain ⟨last, still, kept, unmoved⟩ := second.data there
    exact ⟨last, still, kept.trans same, unmoved.trans program⟩
  case pools =>
    intro key pool unborn found
    obtain ⟨next, there, same⟩ := first.pools unborn found
    obtain ⟨last, still, kept⟩ := second.pools unborn there
    exact ⟨last, still, same.trans kept⟩
  case only =>
    intro key last unborn found
    obtain ⟨next, there, kept⟩ := second.only unborn found
    obtain ⟨pool, present, same⟩ := first.only unborn there
    exact ⟨pool, present, same.trans kept⟩

/-- An operation that does not assign a pool. -/
theorem Later.of_pools (pools : after.pools = before.pools)
    (orderly : Program.Orderly derive before → Program.Orderly derive after)
    (settled : Program.Orderly derive before → ∀ {site}, Settled derive site before → Settled derive site after)
    (data : ∀ {key mint}, before.mints key = some mint →
      ∃ next, after.mints key = some next ∧ next.data = mint.data ∧ next.program = mint.program) :
    Later derive born before after := by
  refine ⟨orderly, settled, data, ?_, ?_⟩
  · intro key pool _ found
    exact ⟨pool, by rw [pools]; exact found, .refl _⟩
  · intro key pool _ found
    rw [pools] at found
    exact ⟨pool, found, .refl _⟩

theorem SameAccounts.later (same : SameAccounts before after) (pools : after.pools = before.pools) :
    Later derive born before after := by
  refine .of_pools pools (fun orderly => orderly.same same) (fun _ _ settled => settled.same same) ?_
  intro key mint found
  exact ⟨mint, by rw [same.mints]; exact found, rfl, rfl⟩

theorem Rebalanced.later (rebalanced : Rebalanced before after) : Later derive born before after :=
  rebalanced.toSameAccounts.later rebalanced.pools

theorem Extends.later (extended : Extends before after) (pools : after.pools = before.pools)
    (orderly : Program.Orderly derive before → Program.Orderly derive after) : Later derive born before after :=
  .of_pools pools orderly (fun orderly _ settled => settled.extends orderly extended) fun found =>
    ⟨_, extended.mints found, rfl, rfl⟩

variable [DecidableEq Key]

/-- A pool's data is replaced by data with the same identity, unless it is the pool being made. -/
theorem Later.setPool (assigned : born = some key ∨ ∃ pool, before.pools key = some pool ∧ pool.SameIdentity next) :
    Later derive born before (before.setPool key next) := by
  have accounts := World.same_of_setPool before key next
  have elsewhere : ∀ {other}, other ≠ key → (before.setPool key next).pools other = before.pools other :=
    fun different => Function.update_of_ne different _ _
  have replaced : (before.setPool key next).pools key = some next := Function.update_self _ _ _
  refine ⟨fun orderly => orderly.same accounts, fun _ _ settled => settled.same accounts,
    fun found => ⟨_, found, rfl, rfl⟩, ?_, ?_⟩
  · intro other held unborn found
    by_cases same : other = key
    · subst same
      rcases assigned with new | ⟨pool, present, identity⟩
      · exact absurd new unborn
      · rw [present] at found
        cases found
        exact ⟨next, replaced, identity⟩
    · exact ⟨held, (elsewhere same).trans found, .refl _⟩
  · intro other held unborn found
    by_cases same : other = key
    · subst same
      rcases assigned with new | ⟨pool, present, identity⟩
      · exact absurd new unborn
      · rw [replaced] at found
        cases found
        exact ⟨pool, present, identity⟩
    · exact ⟨held, (elsewhere same).symm.trans found, .refl _⟩

theorem Later.move (move : Move derive agrees born before after) : Later derive born before after := by
  cases move with
  | lamports agreed moved => exact (Rebalanced.of_lamports _).later
  | tokens agreed done => exact (World.rebalanced_of_transferChecked done).later
  | minted agreed done => exact (World.rebalanced_of_mintTo done).later
  | burned agreed done => exact (World.rebalanced_of_burn done).later
  | incinerated found nobody done => exact (World.rebalanced_of_incinerate done).later
  | harvested done => exact (World.rebalanced_of_harvestFees done).later
  | withdrawn done => exact (World.rebalanced_of_withdrawFees done).later
  | collected done => exact (World.rebalanced_of_collectFees done).later
  | opened proper done =>
    have extended := World.extends_of_openAccount done
    refine extended.later ?_ fun orderly => orderly.openAccount proper done
    obtain ⟨_, _, rfl⟩ := World.openAccount_ok done
    rfl
  | assigned agreed signs found free =>
    exact .of_pools rfl (fun orderly => orderly.assignOwner found free)
      (fun _ _ settled => settled.assigned found signs) fun found => ⟨_, found, rfl, rfl⟩
  | closed found allowed empty =>
    exact .of_pools rfl (fun orderly => orderly.closeAccount empty)
      (fun _ _ settled => settled.elsewhere (settled.apart_closed found allowed) nofun) fun found => ⟨_, found, rfl, rfl⟩
  | granted found regrant =>
    exact .of_pools rfl (fun orderly => orderly.setStanding found regrant)
      (fun _ _ settled => settled.setStanding found regrant) fun found => ⟨_, found, rfl, rfl⟩
  | openedMint done =>
    have extended := World.extends_of_openMint done
    obtain ⟨_, rfl⟩ := World.openMint_ok done
    exact extended.later rfl fun orderly => orderly.setMint
  | @configured account authority kind follows signs found reconfigures =>
    refine .of_pools rfl (fun orderly => orderly.setMint)
      (fun _ _ settled => settled.configureMint found signs reconfigures) ?_
    intro key mint held
    by_cases same : key = account
    · subst same
      rw [found] at held
      cases held
      exact ⟨_, Function.update_self _ _ _, reconfigures.kept⟩
    · exact ⟨mint, (Function.update_of_ne same _ _).trans held, rfl, rfl⟩
  | observed agreed present same => exact .setPool (.inr ⟨_, present, same⟩)
  | founded pool new => exact .setPool (.inl new)
  | advanced later => exact SameAccounts.later (.of_rfl rfl rfl rfl rfl rfl rfl rfl) rfl

theorem Later.moves (moves : Moves derive agrees born before after) : Later derive born before after := by
  induction moves with
  | refl => exact (Rebalanced.refl _).later
  | tail _ move ih => exact ih.trans (.move move)

theorem later_step {action : Program.Action Key} {output : Option (DeepPoolEvent Key)}
    (done : Program.step derive rents before action = .ok (after, output)) : Later derive action.born before after :=
  .moves (step_moves done).1

/-- What exists is not made again. -/
theorem step_unborn {action : Program.Action Key} {output : Option (DeepPoolEvent Key)}
    (done : Program.step derive rents before action = .ok (after, output)) (present : before.pools key = some pool) :
    action.born ≠ some key := by
  intro born
  cases action with
  | createPool accounts args =>
    obtain ⟨⟨bump, mint, made⟩, valid, _⟩ := bind_ok.mp done
    rw [← Option.some.inj born, Program.CreatePool.nothing valid] at present
    cases present
  | _ => cases born

/-- A mint of the newer token program. -/
def World.Modern (world : World Key) (mint : Key) : Prop := ∃ kind, world.mints mint = some kind ∧ kind.program = .token2022

omit [DecidableEq Key] in
theorem World.Modern.later (modern : before.Modern key) (later : Later derive born before after) : after.Modern key := by
  obtain ⟨kind, minted, program⟩ := modern
  obtain ⟨next, still, _, same⟩ := later.data minted
  exact ⟨next, still, same.trans program⟩

/-- A mint that creation accepts: all its extensions are named, and none is blocked. -/
def World.Accepted (world : World Key) (mint : Key) : Prop :=
  ∃ kind, world.mints mint = some kind ∧ kind.program = .token2022 ∧
    (∃ types, tokenAccountExtensions kind.data = .ok types) ∧
    ∀ entry ∈ kind.data.entries, entry.named = true ∧ entry.blocked = false

omit [DecidableEq Key] in
theorem World.Accepted.later (accepted : before.Accepted key) (later : Later derive born before after) :
    after.Accepted key := by
  obtain ⟨kind, minted, program, clear⟩ := accepted
  obtain ⟨next, still, data, same⟩ := later.data minted
  refine ⟨next, still, same.trans program, ?_⟩
  rw [data]
  exact clear

omit [DecidableEq Key] in
theorem World.Accepted.modern (accepted : world.Accepted key) : world.Modern key := by
  obtain ⟨kind, minted, program, _⟩ := accepted
  exact ⟨kind, minted, program⟩

/-- The accounts of a pool are the ones that anyone derives for it. -/
structure Established (derive : Derivation Key) (world : World Key) (key : Key) (pool : Pool Key) : Prop where
  settled : Settled derive (pool.site key) world
  canonical : derive.findProgramAddress (.pool pool.config pool.tokenMint) = some (key, pool.bump)
  vault : ∃ bump, derive.findProgramAddress (.vault key) = some (pool.tokenVault, bump)
  lpMint : ∃ bump, derive.findProgramAddress (.lpMint key) = some (pool.lpMint, bump)
  tokenMint : world.Accepted pool.tokenMint
  lpModern : world.Modern pool.lpMint

structure Sound (derive : Derivation Key) (world : World Key) : Prop where
  orderly : Program.Orderly derive world
  established : ∀ {key pool}, world.pools key = some pool → Established derive world key pool

/-- Creation establishes the one pool that it names. -/
theorem established_createPool {accounts : Program.CreatePool Key} {args : CreatePoolArgs} {bump : Word 8}
    {kind : Mint Key} {made : World Key} {event : PoolCreated Key} (orderly : Program.Orderly derive before)
    (valid : accounts.validate derive before rents = .ok (bump, kind, made))
    (done : accounts.handler rents args bump kind made = .ok (after, event)) :
    ∃ pool, after.pools accounts.pool = some pool ∧ pool.site accounts.pool = accounts.site ∧
      Established derive after accounts.pool pool ∧ Later derive (some accounts.pool) made after := by
  obtain ⟨last, pool, moves, rfl, config, tokenMint, tokenVault, lpMint, same, _⟩ :
      ∃ last pool, Moves derive (fun _ => True) (some accounts.pool) made last ∧ _ :=
    Program.CreatePool.moves trivial trivial trivial done
  have site : pool.site accounts.pool = accounts.site := by
    rw [Pool.site, tokenMint, tokenVault, lpMint]
    rfl
  obtain ⟨rented, vaultRented, vaulted, mintRented, minted, creatorMade, checked⟩ := Program.CreatePool.validate_ok valid
  have ready := checked.makes orderly
  have assigns : Later derive (some accounts.pool) last (last.setPool accounts.pool pool) := .setPool (.inl rfl)
  have later := (Later.moves moves).trans assigns
  refine ⟨pool, Function.update_self _ _ _, site, ⟨?_, ?_, ?_, ?_, ?_, ?_⟩, later⟩
  · rw [site]
    exact later.settled ready.orderly ready.settled
  · rw [config, tokenMint, same]
    exact checked.address
  · rw [tokenVault]
    exact checked.vaultAddress
  · rw [lpMint]
    exact checked.lpAddress
  · rw [tokenMint]
    have clear := Program.CreatePool.handler_checked ready.sized done
    exact World.Accepted.later ⟨_, ready.tokenMint, checked.program, ready.sized, clear⟩ later
  · rw [lpMint]
    exact World.Modern.later ⟨_, ready.lpMint, rfl⟩ later

theorem Sound.step {action : Program.Action Key} {output : Option (DeepPoolEvent Key)} (sound : Sound derive before)
    (done : Program.step derive rents before action = .ok (after, output)) : Sound derive after := by
  have later := later_step done
  refine ⟨later.orderly sound.orderly, ?_⟩
  intro key next found
  by_cases new : action.born = some key
  · cases action with
    | createPool accounts args =>
      obtain ⟨⟨bump, mint, made⟩, valid, done⟩ := bind_ok.mp done
      obtain ⟨⟨_, event⟩, handled, same⟩ := bind_ok.mp done
      cases same
      cases new
      obtain ⟨pool, present, _, established, _⟩ :=
        established_createPool sound.orderly valid (mapError_ok.mp handled)
      rw [found] at present
      cases present
      exact established
    | _ => cases new
  · obtain ⟨pool, present, same⟩ := later.only new found
    obtain ⟨settled, canonical, vault, lpMint, accepted, lpModern⟩ := sound.established present
    refine ⟨?_, ?_, ?_, ?_, ?_, ?_⟩
    · rw [same.site]
      exact later.settled sound.orderly settled
    · rw [same.config, same.tokenMint, same.bump]
      exact canonical
    · rw [same.tokenVault]
      exact vault
    · rw [same.lpMint]
      exact lpMint
    · rw [same.tokenMint]
      exact accepted.later later
    · rw [same.lpMint]
      exact lpModern.later later

omit [DecidableEq Key] in
theorem Sound.of_orderly (orderly : Program.Orderly derive world) (noPools : ∀ key, world.pools key = none) :
    Sound derive world := by
  refine ⟨orderly, ?_⟩
  intro key pool found
  rw [noPools] at found
  cases found

theorem Sound.run {trace : Program.Trace Key} (sound : Sound derive before)
    (runs : Run (Program.step derive rents) before trace after) : Sound derive after :=
  Run.invariant (Sound derive) runs (fun _ _ _ _ _ now accepted => now.step accepted) sound

theorem Program.Reachable.sound (reachable : Program.Reachable derive rents world) : Sound derive world := by
  obtain ⟨start, orderly, noPools, trace, runs⟩ := reachable
  exact (Sound.of_orderly orderly noPools).run runs

/-- A pool is never gone, nor a different one. -/
theorem identity_run {trace : Program.Trace Key} (runs : Run (Program.step derive rents) before trace after)
    (present : before.pools key = some pool) : ∃ next, after.pools key = some next ∧ pool.SameIdentity next := by
  refine Run.invariant (fun world => ∃ next, world.pools key = some next ∧ pool.SameIdentity next) runs ?_
    ⟨pool, present, .refl _⟩
  rintro state action after output _ ⟨held, found, same⟩ accepted
  obtain ⟨next, still, kept⟩ := (later_step accepted).pools (step_unborn accepted found) found
  exact ⟨next, still, same.trans kept⟩

end DeepPool
