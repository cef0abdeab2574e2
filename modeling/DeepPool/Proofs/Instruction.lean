import DeepPool.Sdk.Transactions
import DeepPool.Proofs.Accounts
import DeepPool.Proofs.Wire

/-! An instruction that a client builds is read back by the program, arguments and accounts,
so it is run as the step that it was built for. -/

namespace DeepPool
open Library
open Indexer (toLeBytes boolByte readU64_reads readBool_reads)

section Arguments

theorem CreatePoolArgs.deserialize_reads : Reads CreatePoolArgs.deserialize fun args =>
    toLeBytes args.initialTokenAmount ++ toLeBytes args.initialSolAmount := by
  intro input args rest
  unfold CreatePoolArgs.deserialize
  simp only [readU64_reads.bind_ok, Reader.pure_ok]
  constructor
  · rintro ⟨_, _, rfl, _, _, rfl, rfl, rfl⟩
    simp only [List.append_assoc]
  · rintro rfl
    exact ⟨_, _, List.append_assoc .., _, _, rfl, rfl, rfl⟩

theorem SwapArgs.deserialize_reads : Reads SwapArgs.deserialize fun args =>
    toLeBytes args.amountIn ++ (toLeBytes args.minimumOut ++ boolByte args.buy) := by
  intro input args rest
  unfold SwapArgs.deserialize
  simp only [readU64_reads.bind_ok, readBool_reads.bind_ok, Reader.pure_ok]
  constructor
  · rintro ⟨_, _, rfl, _, _, rfl, _, _, rfl, rfl, rfl⟩
    simp only [List.append_assoc]
  · rintro rfl
    exact ⟨_, _, List.append_assoc .., _, _, List.append_assoc .., _, _, rfl, rfl, rfl⟩

theorem AddLiquidityArgs.deserialize_reads : Reads AddLiquidityArgs.deserialize fun args =>
    toLeBytes args.tokenAmount ++ (toLeBytes args.maxSolAmount ++ toLeBytes args.minLpOut) := by
  intro input args rest
  unfold AddLiquidityArgs.deserialize
  simp only [readU64_reads.bind_ok, Reader.pure_ok]
  constructor
  · rintro ⟨_, _, rfl, _, _, rfl, _, _, rfl, rfl, rfl⟩
    simp only [List.append_assoc]
  · rintro rfl
    exact ⟨_, _, List.append_assoc .., _, _, List.append_assoc .., _, _, rfl, rfl, rfl⟩

theorem RemoveLiquidityArgs.deserialize_reads : Reads RemoveLiquidityArgs.deserialize fun args =>
    toLeBytes args.lpAmount ++ (toLeBytes args.minSolOut ++ toLeBytes args.minTokensOut) := by
  intro input args rest
  unfold RemoveLiquidityArgs.deserialize
  simp only [readU64_reads.bind_ok, Reader.pure_ok]
  constructor
  · rintro ⟨_, _, rfl, _, _, rfl, _, _, rfl, rfl, rfl⟩
    simp only [List.append_assoc]
  · rintro rfl
    exact ⟨_, _, List.append_assoc .., _, _, List.append_assoc .., _, _, rfl, rfl, rfl⟩

end Arguments

variable {Key : Type} {programs : Programs Key}

section Accounts
variable {Result : Type} {key : Key} {isSigner isWritable : Bool} {rest : List (AccountMeta Key)}

theorem nextAccount_bind {signer writable : Bool} {next : Key → Accounts Key Result}
    (signed : signer = true → isSigner = true) (written : writable = true → isWritable = true) :
    (nextAccount signer writable >>= next).run (⟨key, isSigner, isWritable⟩ :: rest) = (next key).run rest := by
  have taken : nextAccount signer writable (⟨key, isSigner, isWritable⟩ :: rest) = .ok (key, rest) :=
    if_pos ⟨signed, written⟩
  change (nextAccount signer writable _ >>= _) = _
  rw [taken]
  rfl

theorem plainAccount_bind {next : Key → Accounts Key Result} :
    (nextAccount false false >>= next).run (⟨key, isSigner, isWritable⟩ :: rest) = (next key).run rest := by
  apply nextAccount_bind
  · intro asked
    cases asked
  · intro asked
    cases asked

variable [DecidableEq Key]

theorem fixedAccount_bind {next : Unit → Accounts Key Result} :
    (fixedAccount key >>= next).run (⟨key, isSigner, isWritable⟩ :: rest) = (next ()).run rest := by
  rw [fixedAccount, bind_assoc, plainAccount_bind, if_pos rfl, pure_bind]

theorem tokenInterface_bind (distinct : programs.token ≠ programs.token2022) {tokenProgram : TokenProgram}
    {next : TokenProgram → Accounts Key Result} :
    (tokenInterface programs >>= next).run (⟨programs.tokenProgram tokenProgram, isSigner, isWritable⟩ :: rest) =
      (next tokenProgram).run rest := by
  rw [tokenInterface, bind_assoc, plainAccount_bind]
  cases tokenProgram with
  | token => rw [Programs.tokenProgram, if_pos rfl, pure_bind]
  | token2022 => rw [Programs.tokenProgram, if_neg distinct.symm, if_pos rfl, pure_bind]

theorem eventCpi_bind {other : AccountMeta Key} {next : Unit → Accounts Key Result} :
    (eventCpi programs >>= next).run (⟨programs.eventAuthority, isSigner, isWritable⟩ :: other :: rest) =
      (next ()).run rest := by
  rw [eventCpi, bind_assoc, fixedAccount_bind, bind_assoc, plainAccount_bind, pure_bind]

end Accounts

section TryAccounts
variable [DecidableEq Key] (distinct : programs.token ≠ programs.token2022)
include distinct

theorem Program.CreatePool.tryAccounts_built (accounts : Program.CreatePool Key) (args : CreatePoolArgs) :
    (Program.CreatePool.tryAccounts programs).run (Sdk.createPoolInstruction programs accounts args).accounts =
      .ok (accounts, []) := by
  have listed : (Sdk.createPoolInstruction programs accounts args).accounts = [
      ⟨accounts.creator, true, true⟩, ⟨accounts.solSource, true, true⟩, ⟨accounts.config, true, false⟩,
      ⟨accounts.tokenMint, false, false⟩, ⟨accounts.pool, false, true⟩, ⟨accounts.tokenVault, false, true⟩,
      ⟨accounts.lpMint, false, true⟩, ⟨accounts.creatorTokenAccount, false, true⟩,
      ⟨accounts.creatorLpAccount, false, true⟩, ⟨accounts.poolLpAccount, false, true⟩,
      ⟨programs.tokenProgram accounts.tokenProgram, false, false⟩, ⟨programs.associatedToken, false, false⟩,
      ⟨programs.system, false, false⟩, ⟨programs.eventAuthority, false, false⟩, ⟨programs.deepPool, false, false⟩] := rfl
  simp only [listed, Program.CreatePool.tryAccounts, nextAccount_bind, fixedAccount_bind, tokenInterface_bind distinct,
    eventCpi_bind, imp_self, Bool.false_eq_true]
  rfl

theorem Program.Swap.tryAccounts_built (accounts : Program.Swap Key) (args : SwapArgs) :
    (Program.Swap.tryAccounts programs).run (Sdk.swapInstruction programs accounts args).accounts = .ok (accounts, []) := by
  have listed : (Sdk.swapInstruction programs accounts args).accounts = [
      ⟨accounts.user, true, true⟩, ⟨accounts.solSource, true, true⟩, ⟨accounts.pool, false, true⟩,
      ⟨accounts.tokenMint, false, false⟩, ⟨accounts.tokenVault, false, true⟩, ⟨accounts.userTokenAccount, false, true⟩,
      ⟨programs.tokenProgram accounts.tokenProgram, false, false⟩, ⟨programs.system, false, false⟩,
      ⟨programs.eventAuthority, false, false⟩, ⟨programs.deepPool, false, false⟩] := rfl
  simp only [listed, Program.Swap.tryAccounts, nextAccount_bind, fixedAccount_bind, tokenInterface_bind distinct,
    eventCpi_bind, imp_self, Bool.false_eq_true]
  rfl

theorem Program.AddLiquidity.tryAccounts_built (accounts : Program.AddLiquidity Key) (args : AddLiquidityArgs) :
    (Program.AddLiquidity.tryAccounts programs).run (Sdk.addLiquidityInstruction programs accounts args).accounts =
      .ok (accounts, []) := by
  have listed : (Sdk.addLiquidityInstruction programs accounts args).accounts = [
      ⟨accounts.provider, true, true⟩, ⟨accounts.pool, false, true⟩, ⟨accounts.tokenMint, false, false⟩,
      ⟨accounts.tokenVault, false, true⟩, ⟨accounts.lpMint, false, true⟩, ⟨accounts.providerTokenAccount, false, true⟩,
      ⟨accounts.providerLpAccount, false, true⟩, ⟨accounts.poolLpAccount, false, true⟩,
      ⟨programs.tokenProgram accounts.tokenProgram, false, false⟩, ⟨programs.associatedToken, false, false⟩,
      ⟨programs.system, false, false⟩, ⟨programs.eventAuthority, false, false⟩, ⟨programs.deepPool, false, false⟩] := rfl
  simp only [listed, Program.AddLiquidity.tryAccounts, nextAccount_bind, fixedAccount_bind, tokenInterface_bind distinct,
    eventCpi_bind, imp_self, Bool.false_eq_true]
  rfl

theorem Program.RemoveLiquidity.tryAccounts_built (accounts : Program.RemoveLiquidity Key) (args : RemoveLiquidityArgs) :
    (Program.RemoveLiquidity.tryAccounts programs).run (Sdk.removeLiquidityInstruction programs accounts args).accounts =
      .ok (accounts, []) := by
  have listed : (Sdk.removeLiquidityInstruction programs accounts args).accounts = [
      ⟨accounts.provider, true, true⟩, ⟨accounts.pool, false, true⟩, ⟨accounts.tokenMint, false, false⟩,
      ⟨accounts.tokenVault, false, true⟩, ⟨accounts.lpMint, false, true⟩, ⟨accounts.providerTokenAccount, false, true⟩,
      ⟨accounts.providerLpAccount, false, true⟩, ⟨programs.tokenProgram accounts.tokenProgram, false, false⟩,
      ⟨programs.associatedToken, false, false⟩, ⟨programs.system, false, false⟩, ⟨programs.eventAuthority, false, false⟩,
      ⟨programs.deepPool, false, false⟩] := rfl
  simp only [listed, Program.RemoveLiquidity.tryAccounts, nextAccount_bind, fixedAccount_bind, tokenInterface_bind distinct,
    eventCpi_bind, imp_self, Bool.false_eq_true]
  rfl

theorem CreateAssociated.tryAccounts_built (accounts : CreateAssociated Key) :
    (CreateAssociated.tryAccounts programs).run
        (Sdk.createAssociatedTokenAccountIdempotentInstruction programs accounts).accounts = .ok (accounts, []) := by
  simp only [Sdk.createAssociatedTokenAccountIdempotentInstruction, CreateAssociated.tryAccounts, nextAccount_bind,
    fixedAccount_bind, tokenInterface_bind distinct, imp_self, Bool.false_eq_true]
  rfl

end TryAccounts

section Entry
variable [DecidableEq Key]

/-- What a client has encoded for a handler reaches it. -/
theorem wrapper_built {Args Ctx : Type} {deserialize : Indexer.Deserialize Args} {encode : Args → Indexer.Bytes}
    {tryAccounts : Accounts Key Ctx} {make : Ctx → Args → Call Key} {metas : List (AccountMeta Key)} {ctx : Ctx} {args : Args}
    (reads : Reads deserialize encode) (taken : tryAccounts.run metas = .ok (ctx, []))
    (among : programs.deepPool ∈ metas.map AccountMeta.pubkey) :
    wrapper programs deserialize tryAccounts make (encode args) metas = .ok (make ctx args) := by
  have decoded : deserialize.run (encode args) = .ok (args, []) := (reads _ _ _).mpr (List.append_nil _).symm
  rw [wrapper, decoded]
  exact bind_ok.mpr ⟨_, taken, bind_ok.mpr ⟨(), assure_ok.mpr among, rfl⟩⟩

variable (distinct : programs.token ≠ programs.token2022)
include distinct

theorem entry_createPool (accounts : Program.CreatePool Key) (args : CreatePoolArgs) :
    entry programs (Sdk.createPoolInstruction programs accounts args) = .ok (.createPool accounts args) := by
  refine bind_ok.mpr ⟨(), assure_ok.mpr rfl, ?_⟩
  apply wrapper_built CreatePoolArgs.deserialize_reads (Program.CreatePool.tryAccounts_built distinct accounts args)
  simp [Sdk.createPoolInstruction, Sdk.buildInstruction]

theorem entry_swap (accounts : Program.Swap Key) (args : SwapArgs) :
    entry programs (Sdk.swapInstruction programs accounts args) = .ok (.swap accounts args) := by
  refine bind_ok.mpr ⟨(), assure_ok.mpr rfl, ?_⟩
  apply wrapper_built SwapArgs.deserialize_reads (Program.Swap.tryAccounts_built distinct accounts args)
  simp [Sdk.swapInstruction, Sdk.buildInstruction]

theorem entry_addLiquidity (accounts : Program.AddLiquidity Key) (args : AddLiquidityArgs) :
    entry programs (Sdk.addLiquidityInstruction programs accounts args) = .ok (.addLiquidity accounts args) := by
  refine bind_ok.mpr ⟨(), assure_ok.mpr rfl, ?_⟩
  apply wrapper_built AddLiquidityArgs.deserialize_reads (Program.AddLiquidity.tryAccounts_built distinct accounts args)
  simp [Sdk.addLiquidityInstruction, Sdk.buildInstruction]

theorem entry_removeLiquidity (accounts : Program.RemoveLiquidity Key) (args : RemoveLiquidityArgs) :
    entry programs (Sdk.removeLiquidityInstruction programs accounts args) = .ok (.removeLiquidity accounts args) := by
  refine bind_ok.mpr ⟨(), assure_ok.mpr rfl, ?_⟩
  apply wrapper_built RemoveLiquidityArgs.deserialize_reads
    (Program.RemoveLiquidity.tryAccounts_built distinct accounts args)
  simp [Sdk.removeLiquidityInstruction, Sdk.buildInstruction]

end Entry

section Process
variable [DecidableEq Key] {derive : Derivation Key} {rents : Rents Key} {world after : World Key}
  {output : Option (DeepPoolEvent Key)} {events : List (DeepPoolEvent Key)} {instruction : Instruction Key}

/-- An instruction does what it is read as, where that asks for its signers. -/
theorem process_read {call : Call Key} (entered : entry programs instruction = .ok call)
    (signed : Program.step derive rents world call.action = .ok (after, output) → instruction.Signed derive) :
    process programs derive rents world instruction = .ok (after, output) ↔
      Program.step derive rents world call.action = .ok (after, output) := by
  obtain ⟨_, addressed, _⟩ := bind_ok.mp entered
  have here : instruction.programId = programs.deepPool := assure_ok.mp addressed
  simp only [process, if_pos here, entered, bind_ok, assure_ok, mapError_ok, exists_const]
  constructor
  · rintro ⟨_, read, same, done⟩
    obtain rfl := Except.ok.inj same
    exact done
  · intro done
    exact ⟨signed done, call, rfl, done⟩

theorem transact_cons {rest : List (Instruction Key)} :
    transact programs derive rents world (instruction :: rest) = .ok (after, events) ↔
      ∃ middle output later, process programs derive rents world instruction = .ok (middle, output) ∧
        transact programs derive rents middle rest = .ok (after, later) ∧ events = output.toList ++ later := by
  simp only [transact, bind_ok, Prod.exists, execute_cons]
  constructor
  · rintro ⟨last, trace, ⟨middle, output, others, accepted, finished, rfl⟩, same⟩
    cases same
    refine ⟨middle, output, others.filterMap Prod.snd, accepted, ⟨_, others, finished, rfl⟩, ?_⟩
    cases output <;> rfl
  · rintro ⟨middle, output, later, accepted, ⟨last, others, finished, same⟩, rfl⟩
    cases same
    refine ⟨_, _, ⟨middle, output, others, accepted, finished, rfl⟩, ?_⟩
    cases output <;> rfl

theorem transact_single : transact programs derive rents world [instruction] = .ok (after, events) ↔
    ∃ output, process programs derive rents world instruction = .ok (after, output) ∧ events = output.toList := by
  rw [transact_cons]
  constructor
  · rintro ⟨middle, output, later, accepted, finished, rfl⟩
    cases finished
    exact ⟨output, accepted, List.append_nil _⟩
  · rintro ⟨output, accepted, rfl⟩
    exact ⟨after, output, [], accepted, rfl, (List.append_nil _).symm⟩

section Built
variable (distinct : programs.token ≠ programs.token2022)
include distinct

theorem process_createPool {accounts : Program.CreatePool Key} {args : CreatePoolArgs} :
    process programs derive rents world (Sdk.createPoolInstruction programs accounts args) = .ok (after, output) ↔
      Program.step derive rents world (.createPool accounts args) = .ok (after, output) := by
  refine process_read (entry_createPool distinct accounts args) fun done => ?_
  obtain ⟨⟨bump, kind, made⟩, valid, _⟩ := bind_ok.mp done
  obtain ⟨_, _, _, _, _, _, valid⟩ := Program.CreatePool.validate_ok valid
  simp [Instruction.Signed, Sdk.createPoolInstruction, Sdk.buildInstruction, valid.creator, valid.solSource, valid.config]

theorem process_swap {accounts : Program.Swap Key} {args : SwapArgs} :
    process programs derive rents world (Sdk.swapInstruction programs accounts args) = .ok (after, output) ↔
      Program.step derive rents world (.swap accounts args) = .ok (after, output) := by
  refine process_read (entry_swap distinct accounts args) fun done => ?_
  obtain ⟨pool, valid, _⟩ := bind_ok.mp done
  have valid := Program.Swap.validate_ok valid
  simp [Instruction.Signed, Sdk.swapInstruction, Sdk.buildInstruction, valid.user, valid.solSource]

theorem process_addLiquidity {accounts : Program.AddLiquidity Key} {args : AddLiquidityArgs} :
    process programs derive rents world (Sdk.addLiquidityInstruction programs accounts args) = .ok (after, output) ↔
      Program.step derive rents world (.addLiquidity accounts args) = .ok (after, output) := by
  refine process_read (entry_addLiquidity distinct accounts args) fun done => ?_
  obtain ⟨⟨pool, made⟩, valid, _⟩ := bind_ok.mp done
  have valid := Program.AddLiquidity.validate_ok valid
  simp [Instruction.Signed, Sdk.addLiquidityInstruction, Sdk.buildInstruction, valid.provider]

theorem process_removeLiquidity {accounts : Program.RemoveLiquidity Key} {args : RemoveLiquidityArgs} :
    process programs derive rents world (Sdk.removeLiquidityInstruction programs accounts args) = .ok (after, output) ↔
      Program.step derive rents world (.removeLiquidity accounts args) = .ok (after, output) := by
  refine process_read (entry_removeLiquidity distinct accounts args) fun done => ?_
  obtain ⟨pool, valid, _⟩ := bind_ok.mp done
  have valid := Program.RemoveLiquidity.validate_ok valid
  simp [Instruction.Signed, Sdk.removeLiquidityInstruction, Sdk.buildInstruction, valid.provider]

theorem process_createAssociated {accounts : CreateAssociated Key} (other : programs.associatedToken ≠ programs.deepPool) :
    process programs derive rents world (Sdk.createAssociatedTokenAccountIdempotentInstruction programs accounts) =
        .ok (after, output) ↔
      derive.signs accounts.payer = true ∧ accounts.handler derive rents world = .ok after ∧ output = none := by
  have taken := CreateAssociated.tryAccounts_built distinct accounts
  have signed : (Sdk.createAssociatedTokenAccountIdempotentInstruction programs accounts).Signed derive ↔
      derive.signs accounts.payer = true := by
    simp [Instruction.Signed, Sdk.createAssociatedTokenAccountIdempotentInstruction]
  have skipped : (Sdk.createAssociatedTokenAccountIdempotentInstruction programs accounts).programId ≠ programs.deepPool :=
    other
  have here : (Sdk.createAssociatedTokenAccountIdempotentInstruction programs accounts).programId =
      programs.associatedToken ∧ (Sdk.createAssociatedTokenAccountIdempotentInstruction programs accounts).data = [1] :=
    ⟨rfl, rfl⟩
  simp only [process, if_neg skipped, if_pos here, taken, bind_ok, assure_ok, mapError_ok, signed, exists_const]
  constructor
  · rintro ⟨signs, _, same, made, handled, done⟩
    cases same
    cases done
    exact ⟨signs, handled, rfl⟩
  · rintro ⟨signs, handled, rfl⟩
    exact ⟨signs, _, rfl, after, handled, rfl⟩

omit distinct in
/-- Where the mint can have accounts, they are made as the program itself makes them. -/
theorem CreateAssociated.handler_made {payer account owner mint : Key} {kind : Mint Key} {types : List ExtensionType}
    (minted : world.mints mint = some kind) (program : kind.program = .token2022)
    (sized : tokenAccountExtensions kind.data = .ok types) :
    (CreateAssociated.mk payer account owner mint .token2022).handler derive rents world =
      Program.initAssociated derive world rents .token2022 payer account mint owner := by
  have known : Program.initialized (world.mints mint) = .ok kind := initialized_ok.mpr minted
  have modern : assure (kind.program = .token2022) (Program.Refusal.constraint .tokenProgram) = .ok () :=
    assure_ok.mpr program
  have read : (tokenAccountExtensions kind.data).mapError Program.Refusal.program = .ok types := mapError_ok.mpr sized
  rw [CreateAssociated.handler, known]
  change (assure _ _ >>= _) = _
  rw [modern]
  change (if _ then _ else _) = _
  split
  · rw [read]
    rfl
  · rfl

end Built
end Process

end DeepPool
