import DeepPool.Proofs.Quote
import DeepPool.Proofs.Reflect

/-! The instructions of a pool are the requests that its own system accepts. Beside the
pool's terms only what the other programs ask of the accounts decides. -/

namespace DeepPool
open Library

variable {Key : Type} [DecidableEq Key] {derive : Derivation Key} {rents : Rents Key} {world before after : World Key}
  {key : Key} {pool : Pool Key} {kind : Mint Key}

omit [DecidableEq Key] in
theorem Derivation.not_associated (derive : Derivation Key) {program : TokenProgram} {wallet mint : Key}
    (signs : derive.signs key = true) : key ≠ derive.associated program wallet mint := by
  rintro rfl
  rw [derive.associated_silent] at signs
  cases signs

section Accounts
variable {wallet mint : Key} {made : World Key}

/-- An account that is not the one being made stays as vacant as it was. -/
theorem World.vacant_of_initAssociated {payer account : Key} {tokenProgram : TokenProgram} (other : key ≠ account)
    (done : Program.initAssociated derive world rents tokenProgram payer account mint wallet = .ok made) :
    made.vacant key ↔ world.vacant key := by
  obtain ⟨_, ⟨rfl, _⟩ | ⟨paid, rented, opened⟩⟩ := Program.initAssociated_ok done
  · rfl
  · obtain ⟨_, _, rfl⟩ := World.openAccount_ok opened
    have rebalanced := World.rebalanced_of_payRent rented
    simp only [World.vacant, Function.update_of_ne other, rebalanced.pools, rebalanced.mints, rebalanced.tokenAccounts]

end Accounts

section Spending
variable {source dest mint wallet authority : Key} {amount : U64} {left : Option (Approval Key)}

theorem World.spendable_thawed (done : before.spendable source mint authority amount = .ok (kind, left)) :
    (before.standing source).frozen = false := by
  obtain ⟨account, usable, _⟩ := bind_ok.mp done
  exact (World.usable_ok.mp usable).2.2

theorem World.transferChecked_thawed (done : before.transferChecked source mint dest authority amount = .ok after) :
    (before.standing source).frozen = false ∧ (before.standing dest).frozen = false := by
  obtain ⟨⟨kind, left⟩, spends, done⟩ := bind_ok.mp done
  obtain ⟨account, usable, _⟩ := bind_ok.mp done
  exact ⟨World.spendable_thawed spends, (World.usable_ok.mp usable).2.2⟩

/-- What an owner has spent, its own approval covered. -/
theorem World.spendable_covers {minted : Mint Key} (found : before.tokenAccounts source = some ⟨mint, wallet⟩)
    (known : before.mints mint = some kind) (undelegated : kind.data.delegated = false)
    (done : before.spendable source mint wallet amount = .ok (minted, left)) :
    (before.standing source).Covers wallet amount := by
  obtain ⟨⟨account, spendable⟩, _⟩ := World.spendable_ok done
  obtain rfl := Option.some.inj (known.symm.trans spendable.minted)
  exact ((World.spendable_owner found known undelegated).mp ⟨left, done⟩).2

theorem World.transferChecked_covers (found : before.tokenAccounts source = some ⟨mint, wallet⟩)
    (known : before.mints mint = some kind) (undelegated : kind.data.delegated = false)
    (done : before.transferChecked source mint dest wallet amount = .ok after) :
    (before.standing source).Covers wallet amount := by
  obtain ⟨⟨_, left⟩, spends, _⟩ := bind_ok.mp done
  exact World.spendable_covers found known undelegated spends

theorem World.burn_covers (found : before.tokenAccounts source = some ⟨mint, wallet⟩)
    (known : before.mints mint = some kind) (undelegated : kind.data.delegated = false)
    (done : before.burn mint source wallet amount = .ok after) : (before.standing source).Covers wallet amount := by
  obtain ⟨⟨_, left⟩, spends, _⟩ := bind_ok.mp done
  exact World.spendable_covers found known undelegated spends

end Spending

/-! What a handler that went through has moved. -/

section Moved

theorem Program.Swap.bought {accounts : Program.Swap Key} {args : SwapArgs} {event : SwapExecuted Key}
    (buy : args.buy = true) (done : accounts.handler rents args pool before = .ok (after, event)) :
    ∃ observed paid delivered out,
      (before.setPool accounts.pool observed).systemTransfer accounts.solSource accounts.pool args.amountIn = .ok paid ∧
      paid.transferChecked accounts.tokenVault accounts.tokenMint accounts.userTokenAccount accounts.pool out =
        .ok delivered := by
  simp only [Program.Swap.handler, if_pos buy, bind_ok, require_ok, exists_const] at done
  obtain ⟨_, _, observed, _, _, trade, _⟩ := done
  simp only [Program.handleBuy, bind_ok, okOr_ok, require_ok, exists_const] at trade
  obtain ⟨_, _, _, _, out, _, _, _, paid, moved, delivered, sent, _⟩ := trade
  exact ⟨observed, paid, delivered, out, moved, sent⟩

theorem Program.Swap.sold {accounts : Program.Swap Key} {args : SwapArgs} {event : SwapExecuted Key}
    (sell : args.buy ≠ true) (done : accounts.handler rents args pool before = .ok (after, event)) :
    ∃ observed delivered, (before.setPool accounts.pool observed).transferChecked accounts.userTokenAccount
      accounts.tokenMint accounts.tokenVault accounts.user args.amountIn = .ok delivered := by
  simp only [Program.Swap.handler, if_neg sell, bind_ok, require_ok, exists_const] at done
  obtain ⟨_, _, observed, _, _, trade, _⟩ := done
  obtain ⟨delivered, sent, _⟩ := bind_ok.mp trade
  exact ⟨observed, delivered, sent⟩

theorem Program.AddLiquidity.deposited {accounts : Program.AddLiquidity Key} {args : AddLiquidityArgs}
    {event : LiquidityAdded Key} (done : accounts.handler rents args before = .ok (after, event)) :
    ∃ delivered funded required,
      before.transferChecked accounts.providerTokenAccount accounts.tokenMint accounts.tokenVault accounts.provider
        args.tokenAmount = .ok delivered ∧
      delivered.systemTransfer accounts.provider accounts.pool required = .ok funded := by
  simp only [Program.AddLiquidity.handler, bind_ok, okOr_ok, require_ok, exists_const] at done
  obtain ⟨_, _, _, _, _, _, _, delivered, sent, _, _, _, required, _, _, funded, moved, _⟩ := done
  exact ⟨delivered, funded, required, sent, moved⟩

theorem Program.RemoveLiquidity.redeemed {accounts : Program.RemoveLiquidity Key} {args : RemoveLiquidityArgs}
    {event : LiquidityRemoved Key} (done : accounts.handler rents args before = .ok (after, event)) :
    ∃ burned delivered out,
      before.burn accounts.lpMint accounts.providerLpAccount accounts.provider args.lpAmount = .ok burned ∧
      burned.transferChecked accounts.tokenVault accounts.tokenMint accounts.providerTokenAccount accounts.pool out =
        .ok delivered := by
  simp only [Program.RemoveLiquidity.handler, bind_ok, okOr_ok, require_ok, exists_const] at done
  obtain ⟨_, _, _, _, _, out, _, _, _, _, _, _, _, _, burned, gone, delivered, sent, _⟩ := done
  exact ⟨burned, delivered, out, gone, sent⟩

end Moved

omit [DecidableEq Key] in
theorem Request.Ready.unfrozen {request : Request Key} (ready : request.Ready derive pool world) (address : Key) :
    Thawed derive (pool.site address) request.party world := by
  constructor
  case vault => exact ready.thawed pool.tokenVault (List.mem_cons_self ..)
  case party => exact ready.thawed _ (List.mem_cons_of_mem _ (List.mem_cons_self ..))

omit [DecidableEq Key] in
theorem Thawed.each {party address : Key} (thawed : Thawed derive (pool.site address) party world) :
    ∀ account ∈ [pool.tokenVault, derive.associated .token2022 party pool.tokenMint],
      (world.standing account).frozen = false := by
  simp only [List.forall_mem_cons]
  exact ⟨thawed.vault, thawed.party, by simp⟩

section Forward
variable (hosts : Hosts derive (pool.site key) world)
include hosts

theorem removeLiquidity_ready {provider : Key} {args : RemoveLiquidityArgs} {event : LiquidityRemoved Key}
    (valid : Program.RemoveLiquidity.Validated derive world (Request.removeLiquidityAccounts derive key pool provider)
      args pool)
    (handled : (Request.removeLiquidityAccounts derive key pool provider).handler rents args world = .ok (after, event)) :
    (Request.removeLiquidity provider args).Ready derive pool world := by
  obtain ⟨burned, delivered, out, gone, sent⟩ := Program.RemoveLiquidity.redeemed handled
  constructor
  case signed =>
    simp only [Request.signers, List.forall_mem_cons]
    exact ⟨valid.provider, by simp⟩
  case held =>
    simp only [Request.mints, Request.party, List.forall_mem_cons]
    exact ⟨Option.ne_none_iff_exists'.mpr ⟨_, valid.tokenAccount⟩, Option.ne_none_iff_exists'.mpr ⟨_, valid.lpAccount⟩,
      by simp⟩
  case paying =>
    intro payer pays
    cases pays
  case thawed =>
    obtain ⟨vault, party⟩ := World.transferChecked_thawed sent
    have same := (World.rebalanced_of_burn gone).standing
    have thawed : Thawed derive (pool.site key) provider world :=
      ⟨(same _).frozen.symm.trans vault, (same _).frozen.symm.trans party⟩
    exact thawed.each
  case covered =>
    intro mint amount spends
    cases spends
    exact World.burn_covers valid.lpAccount hosts.settled.minted rfl gone

variable (minted : world.mints pool.tokenMint = some kind)
include minted

theorem swap_ready {user solSource : Key} {args : SwapArgs} {event : SwapExecuted Key}
    (valid : Program.Swap.Validated derive world (Request.swapAccounts derive key pool user solSource) pool)
    (handled : (Request.swapAccounts derive key pool user solSource).handler rents args pool world = .ok (after, event)) :
    (Request.swap user solSource args).Ready derive pool world := by
  have other := hosts.settled.signer valid.solSource
  constructor
  case signed =>
    simp only [Request.signers, List.forall_mem_cons]
    exact ⟨valid.user, valid.solSource, by simp⟩
  case held =>
    simp only [Request.mints, Request.party, List.forall_mem_cons]
    exact ⟨Option.ne_none_iff_exists'.mpr ⟨_, valid.tokenAccount⟩, by simp⟩
  case paying =>
    intro payer pays
    simp only [Request.payer, Option.mem_ite_none_right, Option.mem_some_iff] at pays
    obtain ⟨buy, rfl⟩ := pays
    obtain ⟨observed, paid, _, _, moved, _⟩ := Program.Swap.bought buy handled
    obtain ⟨⟨noPool, noMint, noAccount⟩, _⟩ := World.systemTransfer_ok moved
    exact ⟨(Function.update_of_ne other _ _).symm.trans noPool, noMint, noAccount⟩
  case thawed =>
    suffices thawed : Thawed derive (pool.site key) user world from thawed.each
    by_cases buy : args.buy = true
    · obtain ⟨observed, paid, delivered, out, moved, sent⟩ := Program.Swap.bought buy handled
      obtain ⟨vault, party⟩ := World.transferChecked_thawed sent
      have same := (World.rebalanced_of_systemTransfer moved).standing
      exact ⟨(same _).frozen.symm.trans vault, (same _).frozen.symm.trans party⟩
    · obtain ⟨observed, delivered, sent⟩ := Program.Swap.sold buy handled
      obtain ⟨party, vault⟩ := World.transferChecked_thawed sent
      exact ⟨vault, party⟩
  case covered =>
    intro mint amount spends
    simp only [Request.spends, Option.ite_none_left_eq_some, Option.some.injEq, Prod.mk.injEq] at spends
    obtain ⟨sell, rfl, rfl⟩ := spends
    obtain ⟨observed, delivered, sent⟩ := Program.Swap.sold sell handled
    have found : (world.setPool key observed).tokenAccounts _ = some _ := valid.tokenAccount
    have known : (world.setPool key observed).mints pool.tokenMint = some kind := minted
    exact (World.transferChecked_covers found known (hosts.undelegated kind minted) sent :)

theorem addLiquidity_ready {provider : Key} {args : AddLiquidityArgs} {event : LiquidityAdded Key}
    {prepared : World Key} (valid : Program.AddLiquidity.Validated derive rents world
      (Request.addLiquidityAccounts derive key pool provider) pool prepared)
    (handled : (Request.addLiquidityAccounts derive key pool provider).handler rents args prepared = .ok (after, event)) :
    (Request.addLiquidity provider args).Ready derive pool world := by
  obtain ⟨extended, _⟩ := World.extends_of_initAssociated valid.lpMade
  obtain ⟨delivered, funded, required, sent, moved⟩ := Program.AddLiquidity.deposited handled
  have account := extended.accounts valid.tokenAccount
  have covers := World.transferChecked_covers account (extended.mints minted) (hosts.undelegated kind minted) sent
  obtain ⟨party, vault⟩ := World.transferChecked_thawed sent
  rw [extended.standing] at covers party vault
  constructor
  case signed =>
    simp only [Request.signers, List.forall_mem_cons]
    exact ⟨valid.provider, by simp⟩
  case held =>
    simp only [Request.mints, Request.party, List.forall_mem_cons]
    exact ⟨Option.ne_none_iff_exists'.mpr ⟨_, valid.tokenAccount⟩, by simp⟩
  case paying =>
    intro payer pays
    cases pays
    apply (World.vacant_of_initAssociated (derive.not_associated valid.provider) valid.lpMade).mp
    have same := World.rebalanced_of_transferChecked sent
    obtain ⟨vacant, _⟩ := World.systemTransfer_ok moved
    simpa only [World.vacant, same.pools, same.mints, same.tokenAccounts] using vacant
  case thawed => exact (⟨vault, party⟩ : Thawed derive (pool.site key) provider world).each
  case covered =>
    intro mint amount spends
    cases spends
    exact covers

/-- What the pool sees of a request that went through. -/
theorem request_seen {request : Request Key} {made : DeepPoolEvent Key} (present : world.pools key = some pool)
    (done : Program.step derive rents world (request.action derive key pool) = .ok (after, some made)) :
    request.Ready derive pool world ∧ ∃ prepared next, request.prepare derive rents pool world = .ok prepared ∧
      after.pools key = some next ∧
      step rents.pool (prepared.view derive key pool) (request.own kind.transferFee) =
        .ok (after.view derive key next, some (made.rename .owner)) := by
  cases request with
  | swap user solSource args =>
    obtain ⟨loaded, valid, done⟩ := bind_ok.mp done
    obtain ⟨⟨_, event⟩, handled, same⟩ := bind_ok.mp done
    rw [mapError_ok] at handled
    cases same
    have valid := Program.Swap.validate_ok valid
    obtain rfl := Option.some.inj (present.symm.trans valid.present)
    have here : Program.Swap.At derive _ (pool.site key) :=
      ⟨rfl, rfl, rfl, rfl, hosts.settled.signer valid.solSource⟩
    obtain ⟨observed, seen, identity, stays⟩ := hosts.own_swap here minted handled
    refine ⟨swap_ready hosts minted valid handled, world, observed, rfl, ?_, bind_ok.mpr ⟨_, seen, ?_⟩⟩
    · rw [stays.pools]
      exact Function.update_self _ _ _
    · rw [World.view, identity.site]
      rfl
  | addLiquidity provider args =>
    obtain ⟨⟨loaded, prepared⟩, valid, done⟩ := bind_ok.mp done
    obtain ⟨⟨_, event⟩, handled, same⟩ := bind_ok.mp done
    rw [mapError_ok] at handled
    cases same
    have valid := Program.AddLiquidity.validate_ok valid
    obtain rfl := Option.some.inj (present.symm.trans valid.present)
    have other := hosts.settled.signer valid.provider
    have here : Program.AddLiquidity.At derive _ (pool.site key) := ⟨rfl, rfl, rfl, rfl, rfl, rfl, rfl, other⟩
    have makes : Follows derive (pool.site key) rents.pool world prepared :=
      hosts.follows_initAssociated other valid.lpMade
    obtain ⟨extended, _⟩ := World.extends_of_initAssociated valid.lpMade
    obtain ⟨seen, stays⟩ := makes.hosts.own_addLiquidity (pool.rename .owner) here (extended.mints minted) handled
    refine ⟨addLiquidity_ready hosts minted valid handled, prepared, pool, valid.lpMade, ?_, bind_ok.mpr ⟨_, seen, rfl⟩⟩
    rw [stays.pools]
    exact makes.pool.trans present
  | removeLiquidity provider args =>
    obtain ⟨loaded, valid, done⟩ := bind_ok.mp done
    obtain ⟨⟨_, event⟩, handled, same⟩ := bind_ok.mp done
    rw [mapError_ok] at handled
    cases same
    have valid := Program.RemoveLiquidity.validate_ok valid
    obtain rfl := Option.some.inj (present.symm.trans valid.present)
    have here : Program.RemoveLiquidity.At derive _ (pool.site key) :=
      ⟨rfl, rfl, rfl, rfl, rfl, rfl, hosts.settled.signer valid.provider⟩
    obtain ⟨seen, stays⟩ := hosts.own_removeLiquidity (pool.rename .owner) here minted valid.funds handled
    refine ⟨removeLiquidity_ready hosts valid handled, world, pool, rfl, ?_, bind_ok.mpr ⟨_, seen, rfl⟩⟩
    rw [stays.pools]
    exact present

end Forward

section Validation
variable (established : Established derive world key pool) (present : world.pools key = some pool)
  (orderly : Program.Orderly derive world)
include established present

theorem loadPool_established : Program.loadPool derive world key = .ok pool :=
  Program.loadPool_ok.mpr ⟨present, derive.found established.canonical⟩

include orderly

/-! Derived accounts that are ready pass the constraints. -/

theorem swap_validates {user solSource : Key} {args : SwapArgs}
    (ready : (Request.swap user solSource args).Ready derive pool world) :
    (Request.swapAccounts derive key pool user solSource).validate derive world = .ok pool := by
  obtain ⟨kind, minted, program⟩ := established.tokenMint.modern
  have held := ready.held pool.tokenMint (by simp [Request.mints])
  simp only [Program.Swap.validate, bind_ok, Program.signer_ok, Program.token2022_ok, initialized_ok, assure_ok,
    exists_const]
  exact ⟨ready.signed user (by simp [Request.signers]), ready.signed solSource (by simp [Request.signers]), pool,
    loadPool_established established present, kind, minted, rfl, _, established.settled.vaultAccount, rfl, (),
    Program.associatedToken_isOk minted program (orderly.account held), rfl, rfl⟩

theorem addLiquidity_validates {provider : Key} {args : AddLiquidityArgs} {prepared : World Key}
    (ready : (Request.addLiquidity provider args).Ready derive pool world)
    (prepares : (Request.addLiquidity provider args).prepare derive rents pool world = .ok prepared) :
    (Request.addLiquidityAccounts derive key pool provider).validate derive world rents = .ok (pool, prepared) := by
  obtain ⟨kind, minted, program⟩ := established.tokenMint.modern
  obtain ⟨lpKind, lpMinted, lpProgram⟩ := established.lpModern
  obtain ⟨extended, _⟩ := World.extends_of_initAssociated prepares
  have held := ready.held pool.tokenMint (by simp [Request.mints])
  simp only [Program.AddLiquidity.validate, bind_ok, Program.signer_ok, Program.token2022_ok, initialized_ok, assure_ok,
    exists_const]
  exact ⟨ready.signed provider (by simp [Request.signers]), pool, loadPool_established established present, kind, minted,
    rfl, _, established.settled.vaultAccount, rfl, lpKind, lpMinted, rfl, (),
    Program.associatedToken_isOk minted program (orderly.account held), prepared, prepares, (),
    Program.associatedToken_isOk (extended.mints lpMinted) lpProgram
      (extended.accounts established.settled.lockedAccount), rfl, rfl⟩

theorem removeLiquidity_validates {provider : Key} {args : RemoveLiquidityArgs}
    (ready : (Request.removeLiquidity provider args).Ready derive pool world)
    (funds : args.lpAmount.val ≤ (world.amounts (derive.associated .token2022 provider pool.lpMint)).val) :
    (Request.removeLiquidityAccounts derive key pool provider).validate derive world args = .ok pool := by
  obtain ⟨kind, minted, program⟩ := established.tokenMint.modern
  obtain ⟨lpKind, lpMinted, lpProgram⟩ := established.lpModern
  have held := ready.held pool.tokenMint (by simp [Request.mints])
  have heldLp := ready.held pool.lpMint (by simp [Request.mints])
  simp only [Program.RemoveLiquidity.validate, bind_ok, Program.signer_ok, Program.token2022_ok, initialized_ok,
    assure_ok, exists_const]
  exact ⟨ready.signed provider (by simp [Request.signers]), pool, loadPool_established established present, kind, minted,
    rfl, _, established.settled.vaultAccount, rfl, lpKind, lpMinted, rfl, (),
    Program.associatedToken_isOk minted program (orderly.account held), (),
    Program.associatedToken_isOk lpMinted lpProgram (orderly.account heldLp), funds, rfl, rfl⟩

end Validation

section Backward
variable (sound : Sound derive world) (present : world.pools key = some pool) (hosts : Hosts derive (pool.site key) world)
  (minted : world.mints pool.tokenMint = some kind) (counted : world.Counted pool.tokenMint)
include sound present hosts minted counted

/-- What the pool's own system accepts goes through once the accounts are ready. -/
theorem request_goes {request : Request Key} {prepared : World Key} {last : Chain (Holder Key)}
    {output : Option (DeepPoolEvent (Holder Key))} (inside : pool.obsHead.val < twapRingSize)
    (ready : request.Ready derive pool world) (prepares : request.prepare derive rents pool world = .ok prepared)
    (done : step rents.pool (prepared.view derive key pool) (request.own kind.transferFee) = .ok (last, output)) :
    ∃ after made, Program.step derive rents world (request.action derive key pool) = .ok (after, some made) := by
  have established := sound.established present
  cases request with
  | swap user solSource args =>
    cases prepares
    obtain ⟨⟨_, event⟩, swaps, _⟩ := bind_ok.mp done
    have held := ready.held pool.tokenMint (by simp [Request.mints])
    have other := hosts.settled.signer (ready.signed solSource (by simp [Request.signers]))
    have here : (Request.swapAccounts derive key pool user solSource).At derive (pool.site key) :=
      ⟨rfl, rfl, rfl, rfl, other⟩
    have covers : args.buy ≠ true → _ := fun sell => ready.covered (if_neg sell)
    have vacant : args.buy = true → _ := fun buy => ready.paying solSource (by simp [Request.payer, buy])
    obtain ⟨after, made, handled⟩ := hosts.reflect_swap here minted counted held (ready.unfrozen key) covers vacant inside
      swaps
    exact ⟨after, .swapExecuted made, bind_ok.mpr ⟨pool, swap_validates established present hosts.orderly ready,
      bind_ok.mpr ⟨_, mapError_ok.mpr handled, rfl⟩⟩⟩
  | addLiquidity provider args =>
    obtain ⟨⟨_, event⟩, adds, _⟩ := bind_ok.mp done
    have signs := ready.signed provider (by simp [Request.signers])
    have held := ready.held pool.tokenMint (by simp [Request.mints])
    have vacant := ready.paying provider rfl
    have other := hosts.settled.signer signs
    have makes : Follows derive (pool.site key) rents.pool world prepared := hosts.follows_initAssociated other prepares
    obtain ⟨extended, own⟩ := World.extends_of_initAssociated prepares
    have account := extended.accounts (hosts.orderly.account held)
    have here : (Request.addLiquidityAccounts derive key pool provider).At derive (pool.site key) :=
      ⟨rfl, rfl, rfl, rfl, rfl, rfl, rfl, other⟩
    have thawed : Thawed derive (pool.site key) provider prepared :=
      ⟨extended.standing ▸ (ready.unfrozen key).vault, extended.standing ▸ (ready.unfrozen key).party⟩
    have covers := ready.covered rfl
    rw [← extended.standing] at covers
    have opens : Moves derive (· = provider) none world prepared := Moves.initAssociated rfl prepares
    obtain ⟨after, made, handled⟩ := makes.hosts.reflect_addLiquidity here (extended.mints minted)
      (counted.moves hosts.orderly opens) (Option.ne_none_iff_exists'.mpr ⟨_, account⟩)
      (Option.ne_none_iff_exists'.mpr ⟨_, own⟩) thawed covers
      ((World.vacant_of_initAssociated (derive.not_associated signs) prepares).mpr vacant) adds
    exact ⟨after, .liquidityAdded made, bind_ok.mpr ⟨(pool, prepared),
      addLiquidity_validates established present hosts.orderly ready prepares,
      bind_ok.mpr ⟨_, mapError_ok.mpr handled, rfl⟩⟩⟩
  | removeLiquidity provider args =>
    cases prepares
    obtain ⟨⟨_, event⟩, removes, _⟩ := bind_ok.mp done
    have held := ready.held pool.tokenMint (by simp [Request.mints])
    have heldLp := ready.held pool.lpMint (by simp [Request.mints])
    have other := hosts.settled.signer (ready.signed provider (by simp [Request.signers]))
    have here : (Request.removeLiquidityAccounts derive key pool provider).At derive (pool.site key) :=
      ⟨rfl, rfl, rfl, rfl, rfl, rfl, other⟩
    obtain ⟨funds, after, made, handled⟩ := hosts.reflect_removeLiquidity here minted counted held heldLp
      (ready.unfrozen key) (ready.covered rfl) removes
    exact ⟨after, .liquidityRemoved made, bind_ok.mpr ⟨pool,
      removeLiquidity_validates established present hosts.orderly ready funds,
      bind_ok.mpr ⟨_, mapError_ok.mpr handled, rfl⟩⟩⟩

end Backward

/-- The accounts of an instruction that goes through are the derived ones. -/
theorem step_requested {action : Program.Action Key} {output : Option (DeepPoolEvent Key)}
    (done : Program.step derive rents world action = .ok (after, output)) (present : world.pools key = some pool)
    (own : action.pool = some key) : ∃ request : Request Key, action = request.action derive key pool := by
  cases action with
  | createPool accounts args =>
    obtain ⟨⟨bump, mint, made⟩, valid, _⟩ := bind_ok.mp done
    rw [← Option.some.inj own, Program.CreatePool.nothing valid] at present
    cases present
  | swap accounts args =>
    obtain ⟨loaded, valid, _⟩ := bind_ok.mp done
    have valid := Program.Swap.validate_ok valid
    obtain rfl := Option.some.inj own
    obtain rfl := Option.some.inj (present.symm.trans valid.present)
    refine ⟨.swap accounts.user accounts.solSource args, ?_⟩
    rw [Request.action, Request.swapAccounts, ← valid.tokenMint, ← valid.tokenVault, ← valid.associated,
      ← valid.tokenProgram]
  | addLiquidity accounts args =>
    obtain ⟨⟨loaded, made⟩, valid, _⟩ := bind_ok.mp done
    have valid := Program.AddLiquidity.validate_ok valid
    obtain rfl := Option.some.inj own
    obtain rfl := Option.some.inj (present.symm.trans valid.present)
    have lpAssociated := (Program.initAssociated_ok valid.lpMade).1
    refine ⟨.addLiquidity accounts.provider args, ?_⟩
    rw [Request.action, Request.addLiquidityAccounts, ← valid.tokenMint, ← valid.tokenVault, ← valid.lpMint,
      ← valid.tokenAssociated, ← lpAssociated, ← valid.lockedAssociated, ← valid.tokenProgram]
  | removeLiquidity accounts args =>
    obtain ⟨loaded, valid, _⟩ := bind_ok.mp done
    have valid := Program.RemoveLiquidity.validate_ok valid
    obtain rfl := Option.some.inj own
    obtain rfl := Option.some.inj (present.symm.trans valid.present)
    refine ⟨.removeLiquidity accounts.provider args, ?_⟩
    rw [Request.action, Request.removeLiquidityAccounts, ← valid.tokenMint, ← valid.tokenVault, ← valid.lpMint,
      ← valid.tokenAssociated, ← valid.lpAssociated, ← valid.tokenProgram]
  | _ => cases own

/-- An instruction for a pool goes through exactly when it takes the derived accounts, these
are ready, and the pool's own system accepts what is asked; what comes of it is the same. -/
theorem request_exact (reachable : Program.Reachable derive rents world) (present : world.pools key = some pool)
    (minted : world.mints pool.tokenMint = some kind)
    (counted : world.Counted pool.tokenMint) (action : Program.Action Key) (own : action.pool = some key)
    (seen : Chain (Holder Key)) (event : DeepPoolEvent (Holder Key)) :
    (∃ after made next, Program.step derive rents world action = .ok (after, some made) ∧ after.pools key = some next ∧
      after.view derive key next = seen ∧ made.rename .owner = event) ↔
      ∃ (request : Request Key) (prepared : World Key), action = request.action derive key pool ∧
        request.Ready derive pool world ∧ request.prepare derive rents pool world = .ok prepared ∧
        step rents.pool (prepared.view derive key pool) (request.own kind.transferFee) = .ok (seen, some event) := by
  have embedded := reachable.embedded
  have hosts := embedded.hosts present
  constructor
  · rintro ⟨after, made, next, done, found, rfl, rfl⟩
    obtain ⟨request, rfl⟩ := step_requested done present own
    obtain ⟨ready, prepared, same, prepares, still, accepted⟩ := request_seen hosts minted present done
    rw [found] at still
    cases still
    exact ⟨request, prepared, rfl, ready, prepares, accepted⟩
  · rintro ⟨request, prepared, rfl, ready, prepares, accepted⟩
    have inside : pool.obsHead.val < twapRingSize := Jupiter.reachable_inside (embedded.reached present)
    obtain ⟨after, made, done⟩ :=
      request_goes embedded.toSound present hosts minted counted inside ready prepares accepted
    obtain ⟨_, again, next, repeats, found, shown⟩ := request_seen hosts minted present done
    obtain rfl := Except.ok.inj (prepares.symm.trans repeats)
    obtain ⟨rfl, same⟩ := Prod.mk.inj (Except.ok.inj (accepted.symm.trans shown))
    exact ⟨after, made, next, done, found, rfl, (Option.some.inj same).symm⟩

open Program (SampleKey sampleDerivation sampleRents samplePool sampleAdd sampleRun sampleBusy sampleRun_reachable
  sampleWorld_orderly)

/-- A first deposit, which makes the provider's LP account. -/
theorem request_exact_busy : ∃ world prepared : World SampleKey, ∃ pool, ∃ kind : Mint SampleKey,
    ∃ request : Request SampleKey, ∃ seen : Chain (Holder SampleKey), ∃ event : DeepPoolEvent (Holder SampleKey),
      event.creates = false ∧ world.pools (samplePool 3) = some pool ∧ request.Ready sampleDerivation pool world ∧
      request.prepare sampleDerivation sampleRents pool world = .ok prepared ∧
      step 2000000 (prepared.view sampleDerivation (samplePool 3) pool) (request.own kind.transferFee) =
        .ok (seen, some event) := by
  have runs : accepts (sampleRun sampleBusy) (fun result =>
      ((result.1.pools (samplePool 3)).any fun pool => decide (pool.tokenMint = .wallet 2) &&
        (result.1.mints pool.tokenMint).isSome) &&
      accepts (Program.step sampleDerivation sampleRents result.1 (sampleAdd 3 1 ⟨10000000, 200000000, 0⟩)) fun last =>
        (last.1.pools (samplePool 3)).isSome && last.2.any fun made => !made.creates) = true := by decide +kernel
  obtain ⟨⟨world, trace⟩, done, holds⟩ := accepts_iff.mp runs
  simp only [Bool.and_eq_true, Option.any_eq_true, Option.isSome_iff_exists, decide_eq_true_eq] at holds
  obtain ⟨⟨pool, present, mint, kind, minted⟩, holds⟩ := holds
  obtain ⟨⟨after, output⟩, accepted, holds⟩ := accepts_iff.mp holds
  simp only [Bool.and_eq_true, Option.any_eq_true, Option.isSome_iff_exists, Bool.not_eq_true'] at holds
  obtain ⟨⟨next, found⟩, made, rfl, silent⟩ := holds
  have counted : world.Counted pool.tokenMint := mint ▸ sampleWorld_counted.run sampleWorld_orderly (execute_run done)
  obtain ⟨request, prepared, _, ready, prepares, steps⟩ := (request_exact (sampleRun_reachable done) present
    minted counted _ rfl _ _).mp ⟨after, made, next, accepted, found, rfl, rfl⟩
  refine ⟨world, prepared, pool, kind, request, _, _, ?_, present, ready, prepares, steps⟩
  cases made <;> exact silent

end DeepPool
