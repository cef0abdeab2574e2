import DeepPool.Proofs.Making

/-! What is done for another pool or outside the program. -/

namespace DeepPool
open Library

variable {Key : Type} {derive : Derivation Key} {rents : Rents Key} {site : Site Key} {rent : U64}
  {world before after : World Key} {key : Key}

theorem Settled.signer (settled : Settled derive site world) (signs : derive.signs key = true) : key ≠ site.address := by
  rintro rfl
  rw [settled.silent] at signs
  cases signs

variable [DecidableEq Key]

/-- Nothing that the pool does not agree to touches it. -/
theorem Hosts.follows_move {agrees : Key → Prop} {born : Option Key} (hosts : Hosts derive site before)
    (others : ∀ key, agrees key → key ≠ site.address) (unborn : born ≠ some site.address)
    (move : Move derive agrees born before after) : Follows derive site rent before after := by
  cases move with
  | lamports agreed moved => exact hosts.follows_lamports (others _ agreed) moved
  | tokens agreed done => exact hosts.follows_transferChecked (others _ agreed) done
  | minted agreed done => exact hosts.follows_mintTo (others _ agreed) done
  | burned agreed done => exact hosts.follows_burn (others _ agreed) done
  | incinerated found nobody done => exact hosts.follows_incinerate found nobody done
  | harvested done => exact hosts.follows_harvestFees done
  | withdrawn done => exact hosts.follows_withdrawFees done
  | collected done => exact hosts.follows_collectFees done
  | opened proper done => exact hosts.follows_openAccount proper done
  | assigned agreed signs found free => exact hosts.follows_assignOwner found signs free
  | closed found allowed empty => exact hosts.follows_closeAccount found allowed empty
  | granted found regrant => exact hosts.follows_setStanding found regrant
  | openedMint done => exact hosts.follows_openMint done
  | configured signs found reconfigures => exact hosts.follows_configureMint found signs reconfigures
  | observed agreed present same => exact hosts.follows_setPool (others _ agreed) _
  | founded pool new =>
    refine hosts.follows_setPool ?_ pool
    rintro rfl
    exact unborn new
  | @advanced slot later =>
    refine ⟨hosts.same (.of_rfl rfl rfl rfl rfl rfl rfl rfl), rfl, fun data => ?_⟩
    have advances : step rent (site.chain derive before data) (.advance slot) =
        .ok (site.chain derive { before with slot } data, none) := if_pos later
    exact Logs.step advances

theorem Hosts.follows_moves {agrees : Key → Prop} {born : Option Key} (hosts : Hosts derive site before)
    (others : ∀ key, agrees key → key ≠ site.address) (unborn : born ≠ some site.address)
    (moves : Moves derive agrees born before after) : Follows derive site rent before after := by
  induction moves with
  | refl => exact hosts.follows
  | tail _ move ih => exact ih.trans (ih.hosts.follows_move others unborn move)

/-- An account made for somebody else, which a pool does not see. -/
theorem Hosts.follows_initAssociated {rents : Rents Key} {tokenProgram : TokenProgram} {payer account mint wallet : Key}
    (hosts : Hosts derive site before) (other : payer ≠ site.address)
    (done : Program.initAssociated derive before rents tokenProgram payer account mint wallet = .ok after) :
    Follows derive site rent before after := by
  have opens : Moves derive (· = payer) none before after := Moves.initAssociated rfl done
  refine hosts.follows_moves ?_ (Option.some_ne_none _).symm opens
  rintro _ rfl
  exact other

end DeepPool
