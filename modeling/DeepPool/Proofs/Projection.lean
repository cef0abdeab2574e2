import DeepPool.Proofs.Birth
import DeepPool.Proofs.Log

/-! Every run of the program, with any number of pools in any order, is for each pool a
run of its own world that emits exactly the pool's own events. -/

namespace DeepPool
open Library

variable {Key : Type} {derive : Derivation Key} {rents : Rents Key} {world before middle after : World Key}
  {key : Key} {pool next last : Pool Key}

theorem Pool.SameIdentity.site (same : Pool.SameIdentity pool next) : next.site key = pool.site key := by
  simp only [Pool.site, same.tokenMint, same.tokenVault, same.lpMint]

variable [DecidableEq Key]

/-- The events of one pool, as its own world shows them. -/
def ownEvents (key : Key) (events : List (DeepPoolEvent Key)) : List (DeepPoolEvent (Holder Key)) :=
  (events.filter fun event => event.pool = key).map (DeepPoolEvent.rename .owner)

theorem ownEvents_own {event : DeepPoolEvent Key} (own : event.pool = key) :
    ownEvents key [event] = [event.rename .owner] := by
  simp [ownEvents, own]

theorem ownEvents_other {event : DeepPoolEvent Key} (other : event.pool ≠ key) : ownEvents key [event] = [] := by
  simp [ownEvents, other]

/-- The pool is still the same one, and its world got from the one state to the other. -/
structure Continues (derive : Derivation Key) (rents : Rents Key) (key : Key) (before : World Key) (pool : Pool Key)
    (events : List (DeepPoolEvent (Holder Key))) (after : World Key) (next : Pool Key) : Prop where
  present : after.pools key = some next
  identity : Pool.SameIdentity pool next
  hosts : Hosts derive (next.site key) after
  logs : Logs rents.pool (before.view derive key pool) events (after.view derive key next)

theorem Continues.refl (present : world.pools key = some pool) (hosts : Hosts derive (pool.site key) world) :
    Continues derive rents key world pool [] world pool := ⟨present, .refl _, hosts, .refl _⟩

theorem Continues.trans {events later : List (DeepPoolEvent (Holder Key))}
    (first : Continues derive rents key before pool events middle next)
    (second : Continues derive rents key middle next later after last) :
    Continues derive rents key before pool (events ++ later) after last :=
  ⟨second.present, first.identity.trans second.identity, second.hosts, first.logs.append second.logs⟩

theorem Follows.continues (follows : Follows derive (pool.site key) rents.pool before after)
    (present : before.pools key = some pool) : Continues derive rents key before pool [] after pool :=
  ⟨follows.pool.trans present, .refl _, follows.hosts, follows.logs _⟩

section Steps
variable (present : before.pools key = some pool) (hosts : Hosts derive (pool.site key) before)
include present hosts

/-- The pool's own swap. -/
theorem continues_swap {accounts : Program.Swap Key} {args : SwapArgs} {event : SwapExecuted Key} {loaded : Pool Key}
    (own : accounts.pool = key) (valid : accounts.validate derive before = .ok loaded)
    (done : accounts.handler rents args loaded before = .ok (after, event)) :
    ∃ next, Continues derive rents key before pool [.swapExecuted (event.rename .owner)] after next ∧
      DeepPoolEvent.States rents.pool (.swapExecuted (event.rename .owner)) (after.view derive key next) := by
  subst own
  have valid := Program.Swap.validate_ok valid
  have same := valid.present
  rw [present] at same
  cases same
  obtain ⟨kind, minted⟩ := Option.ne_none_iff_exists'.mp (hosts.orderly.minted hosts.settled.vaultAccount)
  have here : accounts.At derive (pool.site accounts.pool) :=
    ⟨rfl, valid.tokenMint, valid.tokenVault, by rw [valid.associated, valid.tokenMint]; rfl,
      hosts.settled.signer valid.solSource⟩
  obtain ⟨observed, seen, identity, stays⟩ := hosts.own_swap here minted done
  have swaps : step rents.pool (before.view derive accounts.pool pool)
      (.swap kind.transferFee accounts.parties args) =
      .ok (after.view derive accounts.pool observed, some (.swapExecuted (event.rename .owner))) := by
    refine bind_ok.mpr ⟨_, seen, ?_⟩
    rw [World.view, identity.site]
    rfl
  refine ⟨observed, ⟨?_, identity, identity.site ▸ stays.hosts, Logs.step swaps⟩, step_states swaps⟩
  rw [stays.pools]
  exact Function.update_self _ _ _

/-- The provider's LP account is made first, which the pool does not see. -/
theorem continues_addLiquidity {accounts : Program.AddLiquidity Key} {args : AddLiquidityArgs}
    {event : LiquidityAdded Key} {loaded : Pool Key} {made : World Key} (own : accounts.pool = key)
    (valid : accounts.validate derive before rents = .ok (loaded, made))
    (done : accounts.handler rents args made = .ok (after, event)) :
    ∃ next, Continues derive rents key before pool [.liquidityAdded (event.rename .owner)] after next ∧
      DeepPoolEvent.States rents.pool (.liquidityAdded (event.rename .owner)) (after.view derive key next) := by
  subst own
  have valid := Program.AddLiquidity.validate_ok valid
  have same := valid.present
  rw [present] at same
  cases same
  have provider := hosts.settled.signer valid.provider
  have makes : Follows derive (pool.site accounts.pool) rents.pool before made :=
    hosts.follows_initAssociated provider valid.lpMade
  have start := makes.continues present
  obtain ⟨kind, minted⟩ := Option.ne_none_iff_exists'.mp (makes.hosts.orderly.minted makes.hosts.settled.vaultAccount)
  have here : accounts.At derive (pool.site accounts.pool) := by
    constructor
    case pool => rfl
    case tokenMint => exact valid.tokenMint
    case tokenVault => exact valid.tokenVault
    case lpMint => exact valid.lpMint
    case providerTokenAccount =>
      rw [valid.tokenAssociated, valid.tokenMint]
      rfl
    case providerLpAccount =>
      rw [(Program.initAssociated_ok valid.lpMade).1, valid.lpMint]
      rfl
    case poolLpAccount =>
      rw [valid.lockedAssociated, valid.lpMint]
      rfl
    case provider => exact provider
  obtain ⟨seen, stays⟩ := makes.hosts.own_addLiquidity (pool.rename .owner) here minted done
  have adds : step rents.pool (made.view derive accounts.pool pool)
      (.addLiquidity kind.transferFee (.owner accounts.provider) args) =
      .ok (after.view derive accounts.pool pool, some (.liquidityAdded (event.rename .owner))) :=
    bind_ok.mpr ⟨_, seen, rfl⟩
  refine ⟨pool, start.trans ⟨?_, .refl _, stays.hosts, Logs.step adds⟩, step_states adds⟩
  rw [stays.pools]
  exact start.present

theorem continues_removeLiquidity {accounts : Program.RemoveLiquidity Key} {args : RemoveLiquidityArgs}
    {event : LiquidityRemoved Key} {loaded : Pool Key} (own : accounts.pool = key)
    (valid : accounts.validate derive before args = .ok loaded)
    (done : accounts.handler rents args before = .ok (after, event)) :
    ∃ next, Continues derive rents key before pool [.liquidityRemoved (event.rename .owner)] after next ∧
      DeepPoolEvent.States rents.pool (.liquidityRemoved (event.rename .owner)) (after.view derive key next) := by
  subst own
  have valid := Program.RemoveLiquidity.validate_ok valid
  have same := valid.present
  rw [present] at same
  cases same
  obtain ⟨kind, minted⟩ := Option.ne_none_iff_exists'.mp (hosts.orderly.minted hosts.settled.vaultAccount)
  have here : accounts.At derive (pool.site accounts.pool) := by
    constructor
    case pool => rfl
    case tokenMint => exact valid.tokenMint
    case tokenVault => exact valid.tokenVault
    case lpMint => exact valid.lpMint
    case providerTokenAccount =>
      rw [valid.tokenAssociated, valid.tokenMint]
      rfl
    case providerLpAccount =>
      rw [valid.lpAssociated, valid.lpMint]
      rfl
    case provider => exact hosts.settled.signer valid.provider
  obtain ⟨seen, stays⟩ := hosts.own_removeLiquidity (pool.rename .owner) here minted valid.funds done
  have removes : step rents.pool (before.view derive accounts.pool pool)
      (.removeLiquidity kind.transferFee (.owner accounts.provider) args) =
      .ok (after.view derive accounts.pool pool, some (.liquidityRemoved (event.rename .owner))) :=
    bind_ok.mpr ⟨_, seen, rfl⟩
  refine ⟨pool, ⟨?_, .refl _, stays.hosts, Logs.step removes⟩, step_states removes⟩
  rw [stays.pools]
  exact present

/-- One step of the program, as one pool sees it. -/
theorem continues_step {action : Program.Action Key} {output : Option (DeepPoolEvent Key)}
    (done : Program.step derive rents before action = .ok (after, output)) :
    ∃ next, Continues derive rents key before pool (ownEvents key output.toList) after next ∧
      ∀ event ∈ output, event.pool = key → (event.rename .owner).States rents.pool (after.view derive key next) := by
  obtain ⟨moves, named⟩ := step_moves done
  by_cases own : action.pool = some key
  · have logged : ∀ {event}, output = some event →
        ownEvents key output.toList = [DeepPoolEvent.rename .owner event] := by
      rintro event rfl
      rw [named event rfl, Option.some.injEq] at own
      exact ownEvents_own own
    cases action with
    | createPool accounts args =>
      obtain ⟨⟨bump, mint, made⟩, valid, _⟩ := bind_ok.mp done
      rw [← Option.some.inj own, Program.CreatePool.nothing valid] at present
      cases present
    | swap accounts args =>
      obtain ⟨loaded, valid, done⟩ := bind_ok.mp done
      obtain ⟨⟨_, event⟩, handled, same⟩ := bind_ok.mp done
      cases same
      rw [logged rfl]
      obtain ⟨next, goes, states⟩ := continues_swap present hosts (Option.some.inj own) valid (mapError_ok.mp handled)
      exact ⟨next, goes, fun _ emitted _ => Option.some.inj emitted ▸ states⟩
    | addLiquidity accounts args =>
      obtain ⟨⟨loaded, made⟩, valid, done⟩ := bind_ok.mp done
      obtain ⟨⟨_, event⟩, handled, same⟩ := bind_ok.mp done
      cases same
      rw [logged rfl]
      obtain ⟨next, goes, states⟩ := continues_addLiquidity present hosts (Option.some.inj own) valid (mapError_ok.mp handled)
      exact ⟨next, goes, fun _ emitted _ => Option.some.inj emitted ▸ states⟩
    | removeLiquidity accounts args =>
      obtain ⟨loaded, valid, done⟩ := bind_ok.mp done
      obtain ⟨⟨_, event⟩, handled, same⟩ := bind_ok.mp done
      cases same
      rw [logged rfl]
      obtain ⟨next, goes, states⟩ :=
        continues_removeLiquidity present hosts (Option.some.inj own) valid (mapError_ok.mp handled)
      exact ⟨next, goes, fun _ emitted _ => Option.some.inj emitted ▸ states⟩
    | _ => cases own
  · have others : ∀ party, action.agrees party → party ≠ (pool.site key).address := by
      intro party agreed same
      rw [same] at agreed
      rcases agreed with signer | named
      · rcases step_signers done signer with signs | nothing
        · exact hosts.settled.signer signs rfl
        · rw [show before.pools (pool.site key).address = some pool from present] at nothing
          cases nothing
      · exact own named
    have unborn : action.born ≠ some (pool.site key).address := fun born => own (Program.Action.pool_of_born born)
    have silent : ownEvents key output.toList = [] := by
      cases output with
      | none => rfl
      | some event =>
        refine ownEvents_other ?_
        rintro rfl
        exact own (named event rfl)
    rw [silent]
    have follows : Follows derive (pool.site key) rents.pool before after := hosts.follows_moves others unborn moves
    refine ⟨pool, follows.continues present, ?_⟩
    intro event emitted named_
    exact absurd (named_ ▸ named event emitted) own

/-- A run of the program is, for each pool it starts with, a run of the pool's own world,
with the pool's own events in their order. -/
theorem continues_run {trace : Program.Trace Key} (runs : Run (Program.step derive rents) before trace after) :
    ∃ next, Continues derive rents key before pool (ownEvents key (trace.filterMap Prod.snd)) after next := by
  induction runs generalizing pool with
  | nil => exact ⟨pool, .refl present hosts⟩
  | @cons before middle after action output trace accepted rest ih =>
    obtain ⟨next, first, _⟩ := continues_step present hosts accepted
    obtain ⟨last, later⟩ := ih first.present first.hosts
    refine ⟨last, ?_⟩
    have split : ownEvents key (((action, output) :: trace).filterMap Prod.snd) =
        ownEvents key output.toList ++ ownEvents key (trace.filterMap Prod.snd) := by
      cases output with
      | none => rfl
      | some event =>
        simp only [List.filterMap_cons, Option.toList_some, ownEvents, List.filter_cons, List.filter_nil]
        split <;> rfl
    rw [split]
    exact first.trans later

end Steps
end DeepPool
