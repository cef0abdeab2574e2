import DeepPool.Proofs.Foreign

/-! The four instructions when they are called for the pool itself: what its view shows is
the pool's own instruction, with the transfer fee that its mint has at the time. -/

namespace DeepPool
open Library

section Oracle
variable {Key Name : Type} (naming : Key → Name) {pool after : Pool Key} {solReserve tokenReserve now : U64}

theorem Pool.writeObservation_rename (done : pool.writeObservation now = some after) :
    (pool.rename naming).writeObservation now = some (after.rename naming) := by
  unfold writeObservation at done ⊢
  split at done
  next inside =>
    cases done
    rw [dif_pos (show (pool.rename naming).obsHead.val < twapRingSize from inside)]
    rfl
  · cases done

/-- The oracle looks at no address. -/
theorem Pool.recordObservation_rename (done : pool.recordObservation solReserve tokenReserve now = .ok after) :
    (pool.rename naming).recordObservation solReserve tokenReserve now = .ok (after.rename naming) := by
  unfold recordObservation at done ⊢
  split at done
  next early =>
    cases done
    rw [if_pos (show now.val ≤ (pool.rename naming).lastCumSlot.val from early)]
  next late =>
    rw [if_neg (show ¬ now.val ≤ (pool.rename naming).lastCumSlot.val from late)]
    split at done
    next thin =>
      cases done
      rw [if_pos thin]
      rfl
    next deep =>
      rw [if_neg deep]
      simp only [bind_ok, orFail_ok, okOr_ok] at done ⊢
      obtain ⟨delta, elapsed, solPerTok, sol, tokPerSol, token, newest, found, done⟩ := done
      refine ⟨delta, elapsed, solPerTok, sol, tokPerSol, token, newest, found, ?_⟩
      split at done
      next spaced =>
        rw [if_pos spaced]
        rw [orFail_ok] at done ⊢
        exact writeObservation_rename naming done
      next close =>
        cases done
        rw [if_neg close]
        rfl

end Oracle

variable {Key : Type} {derive : Derivation Key} {rents : Rents Key} {site : Site Key}
  {world before middle after : World Key} {kind : Mint Key}

/-- The site is still there after one of its own operations. -/
structure Stays (derive : Derivation Key) (site : Site Key) (before after : World Key) : Prop
    extends Rebalanced before after where
  hosts : Hosts derive site after

theorem Hosts.stays (hosts : Hosts derive site before) (rebalanced : Rebalanced before after) :
    Stays derive site before after := ⟨rebalanced, hosts.same rebalanced.toSameAccounts⟩

theorem Stays.trans (first : Stays derive site before middle) (second : Stays derive site middle after) :
    Stays derive site before after := ⟨first.toRebalanced.trans second.toRebalanced, second.hosts⟩

variable [DecidableEq Key]

section Operations
variable {source dest authority : Key} {first second : Owner (Holder Key)} {amount : U64}

theorem Hosts.own_systemTransfer (hosts : Hosts derive site before) (data : Pool (Holder Key))
    (payer : site.lamportsOf first = some source) (payee : site.lamportsOf second = some dest)
    (done : before.systemTransfer source dest amount = .ok after) :
    (site.chain derive before data).systemTransfer first second amount = .ok (site.chain derive after data) ∧
      Stays derive site before after :=
  ⟨Site.systemTransfer payer payee done, hosts.stays (World.rebalanced_of_systemTransfer done)⟩

theorem Hosts.own_subLamports (hosts : Hosts derive site before) (data : Pool (Holder Key))
    (payer : site.lamportsOf first = some source) (done : before.subLamports source amount = .ok after) :
    (site.chain derive before data).subLamports first amount = .ok (site.chain derive after data) ∧
      Stays derive site before after :=
  ⟨Site.subLamports payer done, hosts.stays (World.rebalanced_of_subLamports done)⟩

theorem Hosts.own_addLamports (hosts : Hosts derive site before) (data : Pool (Holder Key))
    (payee : site.lamportsOf first = some dest) (done : before.addLamports dest amount = .ok after) :
    (site.chain derive before data).addLamports first amount = .ok (site.chain derive after data) ∧
      Stays derive site before after :=
  ⟨Site.addLamports payee done, hosts.stays (World.rebalanced_of_addLamports done)⟩

theorem Hosts.own_transferChecked (hosts : Hosts derive site before) (data : Pool (Holder Key))
    (minted : before.mints site.tokenMint = some kind)
    (distinct : source ≠ dest) (payer : site.tokensOf derive before first = some source)
    (payee : site.tokensOf derive before second = some dest)
    (done : before.transferChecked source site.tokenMint dest authority amount = .ok after) :
    (site.chain derive before data).transferChecked kind.transferFee first second amount =
      .ok (site.chain derive after data) ∧ Stays derive site before after := by
  have stays := hosts.stays (World.rebalanced_of_transferChecked done)
  rcases World.transferChecked_ok done with ⟨impossible, _⟩ | ⟨held, paying, receiving, transferred⟩
  · exact absurd impossible distinct
  · have ours := transferred.paid.minted
    rw [minted] at ours
    cases ours
    exact ⟨hosts.transferChecked payer payee transferred, stays⟩

theorem Hosts.own_mintTo (hosts : Hosts derive site before) (data : Pool (Holder Key))
    (payee : site.lpOf derive before first = some dest)
    (done : before.mintTo site.lpMint dest authority amount = .ok after) :
    (site.chain derive before data).mintTo first amount = .ok (site.chain derive after data) ∧
      Stays derive site before after :=
  ⟨hosts.mintTo payee done, hosts.stays (World.rebalanced_of_mintTo done)⟩

theorem Hosts.own_burn (hosts : Hosts derive site before) (data : Pool (Holder Key))
    (payer : site.lpOf derive before first = some source)
    (done : before.burn site.lpMint source authority amount = .ok after) :
    (site.chain derive before data).burn first amount = .ok (site.chain derive after data) ∧
      Stays derive site before after := by
  obtain ⟨_, _, _, retired⟩ := World.burn_ok done
  exact ⟨hosts.retire payer retired, hosts.stays retired.rebalanced⟩

end Operations

section Swap
variable {accounts : Program.Swap Key} {args : SwapArgs} {solReserve tokenReserve : U64} {metrics : SwapMetrics}

/-- The accounts of a swap, once they are known to be the site's. -/
structure Program.Swap.At (derive : Derivation Key) (accounts : Program.Swap Key) (site : Site Key) : Prop where
  pool : accounts.pool = site.address
  tokenMint : accounts.tokenMint = site.tokenMint
  tokenVault : accounts.tokenVault = site.tokenVault
  userTokenAccount : accounts.userTokenAccount = derive.associated .token2022 accounts.user site.tokenMint
  solSource : accounts.solSource ≠ site.address

def Program.Swap.parties (accounts : Program.Swap Key) : SwapAccounts (Holder Key) :=
  { user := .owner accounts.user, solSource := .owner accounts.solSource }

theorem Hosts.own_handleBuy (hosts : Hosts derive site before) (data : Pool (Holder Key)) (here : accounts.At derive site)
    (minted : before.mints site.tokenMint = some kind)
    (done : Program.handleBuy accounts args solReserve tokenReserve before = .ok (after, metrics)) :
    handleBuy kind.transferFee accounts.parties args solReserve tokenReserve (site.chain derive before data) =
      .ok (site.chain derive after data, metrics) ∧ Stays derive site before after := by
  have vault := hosts.settled.vault_apart .token2022 accounts.user site.tokenMint
  simp only [Program.handleBuy, here.pool, here.tokenMint, here.tokenVault, here.userTokenAccount, bind_ok, okOr_ok,
    require_ok, pure_ok, exists_const] at done
  obtain ⟨poolFee, charged, effective, reduced, out, computed, minimum, drained, paid, moved, delivered, sent,
    received, counted, same⟩ := done
  cases same
  obtain ⟨seenSol, pays⟩ := hosts.own_systemTransfer data (Site.lamports_owner here.solSource) Site.lamports_pool moved
  rw [← pays.mints] at minted
  obtain ⟨seenTokens, sends⟩ := pays.hosts.own_transferChecked data minted vault Site.tokens_pool
    (Site.tokens_owner accounts.user) sent
  refine ⟨?_, pays.trans sends⟩
  simp only [handleBuy, bind_ok, okOr_ok, require_ok, pure_ok, exists_const]
  exact ⟨poolFee, charged, effective, reduced, out, computed, minimum, drained, _, seenSol, _, seenTokens, received,
    counted, rfl⟩

theorem Hosts.own_handleSell (hosts : Hosts derive site before) (data : Pool (Holder Key)) (here : accounts.At derive site)
    (minted : before.mints site.tokenMint = some kind)
    (done : Program.handleSell rents accounts args solReserve tokenReserve before = .ok (after, metrics)) :
    handleSell rents.pool kind.transferFee accounts.parties args solReserve tokenReserve (site.chain derive before data) =
      .ok (site.chain derive after data, metrics) ∧ Stays derive site before after := by
  have vault := hosts.settled.vault_apart .token2022 accounts.user site.tokenMint
  simp only [Program.handleSell, here.pool, here.tokenMint, here.tokenVault, here.userTokenAccount, bind_ok, okOr_ok,
    require_ok, pure_ok, exists_const] at done
  obtain ⟨paid, sent, net, counted, input, poolFee, charged, effective, reduced, out, computed, minimum, drained,
    floor, debited, spent, credited, earned, same⟩ := done
  cases same
  obtain ⟨seenTokens, sends⟩ := hosts.own_transferChecked data minted vault.symm (Site.tokens_owner accounts.user)
    Site.tokens_pool sent
  obtain ⟨seenDebit, spends⟩ := sends.hosts.own_subLamports data Site.lamports_pool spent
  obtain ⟨seenCredit, earns⟩ := spends.hosts.own_addLamports data (Site.lamports_owner here.solSource) earned
  refine ⟨?_, (sends.trans spends).trans earns⟩
  simp only [handleSell, bind_ok, okOr_ok, require_ok, pure_ok, exists_const]
  exact ⟨_, seenTokens, net, counted, input, poolFee, charged, effective, reduced, out, computed, minimum, drained,
    floor, _, seenDebit, _, seenCredit, rfl⟩

theorem Hosts.own_swap {pool : Pool Key} {event : SwapExecuted Key} (hosts : Hosts derive site before)
    (here : accounts.At derive site) (minted : before.mints site.tokenMint = some kind)
    (done : accounts.handler rents args pool before = .ok (after, event)) :
    ∃ observed, swap rents.pool kind.transferFee accounts.parties args (site.chain derive before (pool.rename .owner)) =
        .ok (site.chain derive after (observed.rename .owner), event.rename .owner) ∧
      Pool.SameIdentity pool observed ∧
      Stays derive site (before.setPool site.address observed) after := by
  simp only [Program.Swap.handler, here.pool, here.tokenVault, bind_ok, require_ok, exists_const] at done
  obtain ⟨input, reserves, observed, recorded, done⟩ := done
  have sets : Hosts derive site (before.setPool site.address observed) :=
    hosts.same (World.same_of_setPool _ _ _)
  have renamed := Pool.recordObservation_rename Holder.owner recorded
  refine ⟨observed, ?_⟩
  simp only [swap, bind_ok, require_ok, exists_const]
  split at done
  next buy =>
    obtain ⟨⟨last, metrics⟩, traded, same⟩ := bind_ok.mp done
    cases same
    obtain ⟨seen, stays⟩ := sets.own_handleBuy (observed.rename .owner) here minted traded
    refine ⟨⟨input, reserves, _, renamed, ?_⟩, Pool.recordObservation_kept recorded, stays⟩
    rw [if_pos buy]
    exact bind_ok.mpr ⟨_, seen, rfl⟩
  next sell =>
    obtain ⟨⟨last, metrics⟩, traded, same⟩ := bind_ok.mp done
    cases same
    obtain ⟨seen, stays⟩ := sets.own_handleSell (observed.rename .owner) here minted traded
    refine ⟨⟨input, reserves, _, renamed, ?_⟩, Pool.recordObservation_kept recorded, stays⟩
    rw [if_neg sell]
    exact bind_ok.mpr ⟨_, seen, rfl⟩

end Swap

section Deposit
variable {accounts : Program.AddLiquidity Key} {args : AddLiquidityArgs} {event : LiquidityAdded Key}

structure Program.AddLiquidity.At (derive : Derivation Key) (accounts : Program.AddLiquidity Key) (site : Site Key) :
    Prop where
  pool : accounts.pool = site.address
  tokenMint : accounts.tokenMint = site.tokenMint
  tokenVault : accounts.tokenVault = site.tokenVault
  lpMint : accounts.lpMint = site.lpMint
  providerTokenAccount :
    accounts.providerTokenAccount = derive.associated .token2022 accounts.provider site.tokenMint
  providerLpAccount : accounts.providerLpAccount = derive.associated .token2022 accounts.provider site.lpMint
  poolLpAccount : accounts.poolLpAccount = derive.associated .token2022 site.address site.lpMint
  provider : accounts.provider ≠ site.address

theorem Hosts.own_addLiquidity (hosts : Hosts derive site before) (data : Pool (Holder Key))
    (here : accounts.At derive site) (minted : before.mints site.tokenMint = some kind)
    (done : accounts.handler rents args before = .ok (after, event)) :
    addLiquidity rents.pool kind.transferFee (.owner accounts.provider) args (site.chain derive before data) =
      .ok (site.chain derive after data, event.rename .owner) ∧
      Stays derive site before after := by
  have vault := hosts.settled.vault_apart .token2022 accounts.provider site.tokenMint
  simp only [Program.AddLiquidity.handler, here.pool, here.tokenMint, here.tokenVault, here.lpMint,
    here.providerTokenAccount, here.providerLpAccount, here.poolLpAccount, bind_ok, okOr_ok, require_ok, pure_ok,
    exists_const] at done
  obtain ⟨input, reserves, supply, worst, estimated, positive, bounded, funded, sent, net, counted, arrived, charge,
    charged, paid, last, moved, lpAmount, computed, some, minimum, lpBurn, locked, lpToProvider, split, credited,
    provided, toProvider, ended, toPool, same⟩ := done
  cases same
  obtain ⟨seenTokens, sends⟩ := hosts.own_transferChecked data minted vault.symm (Site.tokens_owner accounts.provider)
    Site.tokens_pool sent
  obtain ⟨seenSol, pays⟩ := sends.hosts.own_systemTransfer data (Site.lamports_owner here.provider) Site.lamports_pool
    moved
  obtain ⟨seenProvider, provides⟩ := pays.hosts.own_mintTo data (Site.lp_owner here.provider) toProvider
  obtain ⟨seenPool, locks⟩ := provides.hosts.own_mintTo data Site.lp_pool toPool
  refine ⟨?_, ((sends.trans pays).trans provides).trans locks⟩
  simp only [addLiquidity, bind_ok, okOr_ok, require_ok, pure_ok, exists_const]
  exact ⟨input, reserves, supply, worst, estimated, positive, bounded, _, seenTokens, net, counted, arrived, charge,
    charged, paid, _, seenSol, lpAmount, computed, some, minimum, lpBurn, locked, lpToProvider, split, credited, _,
    seenProvider, _, seenPool, rfl⟩

end Deposit

section Withdrawal
variable {accounts : Program.RemoveLiquidity Key} {args : RemoveLiquidityArgs} {event : LiquidityRemoved Key}

structure Program.RemoveLiquidity.At (derive : Derivation Key) (accounts : Program.RemoveLiquidity Key)
    (site : Site Key) : Prop where
  pool : accounts.pool = site.address
  tokenMint : accounts.tokenMint = site.tokenMint
  tokenVault : accounts.tokenVault = site.tokenVault
  lpMint : accounts.lpMint = site.lpMint
  providerTokenAccount :
    accounts.providerTokenAccount = derive.associated .token2022 accounts.provider site.tokenMint
  providerLpAccount : accounts.providerLpAccount = derive.associated .token2022 accounts.provider site.lpMint
  provider : accounts.provider ≠ site.address

theorem Hosts.own_removeLiquidity (hosts : Hosts derive site before) (data : Pool (Holder Key))
    (here : accounts.At derive site) (minted : before.mints site.tokenMint = some kind)
    (funds : args.lpAmount.val ≤ (before.amounts accounts.providerLpAccount).val)
    (done : accounts.handler rents args before = .ok (after, event)) :
    removeLiquidity rents.pool kind.transferFee (.owner accounts.provider) args (site.chain derive before data) =
      .ok (site.chain derive after data, event.rename .owner) ∧
      Stays derive site before after := by
  have vault := hosts.settled.vault_apart .token2022 accounts.provider site.tokenMint
  have account : (site.chain derive before data).lp.balance (.wallet (.owner accounts.provider)) =
      before.amounts accounts.providerLpAccount := by
    rw [here.providerLpAccount]
    exact Balances.named_some (Site.lp_owner here.provider)
  rw [← account] at funds
  simp only [Program.RemoveLiquidity.handler, here.pool, here.tokenMint, here.tokenVault, here.lpMint,
    here.providerTokenAccount, here.providerLpAccount, bind_ok, okOr_ok, require_ok, pure_ok, exists_const] at done
  obtain ⟨input, reserves, supply, solOut, solShare, tokensOut, tokenShare, minimumSol, minimumTokens, solLeft, solKept,
    tokensLeft, tokensKept, keeps, burned, retired, delivered, sent, received, counted, spent, debited, earned,
    credited, same⟩ := done
  cases same
  obtain ⟨seenLp, burns⟩ := hosts.own_burn data (Site.lp_owner here.provider) retired
  rw [← burns.mints] at minted
  obtain ⟨seenTokens, sends⟩ := burns.hosts.own_transferChecked data minted vault Site.tokens_pool
    (Site.tokens_owner accounts.provider) sent
  obtain ⟨seenDebit, spends⟩ := sends.hosts.own_subLamports data Site.lamports_pool debited
  obtain ⟨seenCredit, earns⟩ := spends.hosts.own_addLamports data (Site.lamports_owner here.provider) credited
  refine ⟨?_, ((burns.trans sends).trans spends).trans earns⟩
  simp only [removeLiquidity, bind_ok, okOr_ok, require_ok, pure_ok, exists_const]
  exact ⟨funds, input, reserves, supply, solOut, solShare, tokensOut, tokenShare, minimumSol, minimumTokens, solLeft,
    solKept, tokensLeft, tokensKept, keeps, _, seenLp, _, seenTokens, received, counted, _, seenDebit, _, seenCredit,
    rfl⟩

end Withdrawal
end DeepPool
