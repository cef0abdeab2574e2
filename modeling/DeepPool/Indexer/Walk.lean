import DeepPool.Indexer.Confirmed
import DeepPool.Indexer.Live

/-! The backfill's walk over the history of the program (`stream/backfill.rs`, `run`),
page by page from the newest signature, and a node that serves such a history. -/

namespace DeepPool.Indexer
open Library

/-- `PAGE_LIMIT` -/
def pageLimit : Nat := 1000

/-- The answers of the JSON-RPC node: to `getSignaturesForAddress` before a signature,
and to `getTransaction`. -/
structure Rpc where
  signatures : Option String → Except TxError Value
  transaction : String → Except TxError Value

/-- `Option<i64>`: absent and null are both none. -/
def optionalI64? : Option Value → Option (Option Int)
  | none => some none
  | some .null => some none
  | some (.number value) => if -9223372036854775808 ≤ value ∧ value ≤ 9223372036854775807 then some (some value) else none
  | some _ => none

def SignatureEntry.ofJson? (value : Value) : Option SignatureEntry := do
  let signature ← (value.get? "signature").bind Value.asStr?
  let slot ← (value.get? "slot").bind Value.asU64?
  let blockTime ← optionalI64? (value.get? "blockTime")
  return ⟨signature, asU64 slot, blockTime⟩

def getSignatures (response : Except TxError Value) : Except TxError (List SignatureEntry) := do
  let resp ← response
  if let some err := resp.get? "error" then throw (.rpc "getSignaturesForAddress rpc error" err)
  let result ← orMalformed (resp.get? "result") "getSignaturesForAddress: missing result"
  orMalformed (result.asArray?.bind (List.mapM SignatureEntry.ofJson?)) "parse signatures result"

inductive BackfillError where
  | fetch (pageNum : Nat) (error : TxError)
  | write (error : WriteError)

/-- The events of the transactions of one page. -/
def Rpc.decode (rpc : Rpc) (programId : String) (page : List SignatureEntry) : List DecodedEvent :=
  decodePage .compute programId (page.map fun entry => (entry, rpc.transaction entry.signature))

section Loop
variable (rpc : Rpc) (programId : String) (envs : Nat → Environment)

/-- The loop of `run`. No result means that the fuel did not suffice. -/
def Backfill.loop : Nat → Nat → Option String → Session → Option (Except BackfillError Unit × Session)
  | 0, _, _, _ => none
  | fuel + 1, pageNum, before, session =>
    match getSignatures (rpc.signatures before) with
    | .error error => some (.error (.fetch pageNum error), session)
    | .ok page =>
      match page.getLast? with
      | none => some (.ok (), session)
      | some oldest =>
        match applyPage (envs pageNum) (rpc.decode programId page) session with
        | .error error after => some (.error (.write error), after)
        | .ok newInPage after =>
          if newInPage = 0 then some (.ok (), after) else Backfill.loop fuel (pageNum + 1) (some oldest.signature) after

def Backfill.run (fuel : Nat) (db : Db) : Option (Except BackfillError Unit × Session) :=
  Backfill.loop rpc programId envs fuel 1 none (.load db)

end Loop

/-! The chain as the node shows it. -/

/-- Every transaction that names the program, in the order of the chain. -/
structure ProgramHistory where
  blocks : List ConfirmedBlock
  distinct : ((blocks.flatMap ConfirmedBlock.transactions).map ConfirmedTransaction.signature).Nodup

namespace ProgramHistory

/-- The newest transaction first. -/
def listing (history : ProgramHistory) : List (ConfirmedBlock × ConfirmedTransaction) :=
  (history.blocks.flatMap fun block => block.transactions.map fun tx => (block, tx)).reverse

def entries (history : ProgramHistory) : List SignatureEntry := history.listing.map fun (block, tx) => block.entry tx

/-- What the transactions record for the program, whatever their outcome. -/
def recorded (history : ProgramHistory) (program : Pubkey) : List DecodedEvent :=
  history.listing.flatMap fun (block, tx) => block.recorded .compute program tx

/-- The event took place. -/
def Executed (history : ProgramHistory) (program : Pubkey) (de : DecodedEvent) : Prop :=
  ∃ block ∈ history.blocks, ∃ tx ∈ block.transactions, tx.Succeeded ∧ de ∈ block.recorded .compute program tx

end ProgramHistory

def SignatureEntry.json (entry : SignatureEntry) : Value :=
  .object [("signature", .string entry.signature), ("slot", .number entry.slot.val),
    ("blockTime", entry.blockTime.elim .null .number)]

/-- A node that returns as many older signatures as it is asked for. -/
def ProgramHistory.node (history : ProgramHistory) (limit : Nat) : Rpc where
  signatures before :=
    let older := before.elim history.entries fun signature => (history.entries.dropWhile (·.signature ≠ signature)).tail
    .ok (.object [("result", .array ((older.take limit).map SignatureEntry.json))])
  transaction signature :=
    .ok ((history.listing.find? fun (_, tx) => tx.signatureText = signature).elim (.object [("result", .null)])
      fun (_, tx) => tx.response)

/-- The pages that a source answers with, from a signature on. -/
inductive Rpc.Pages (rpc : Rpc) : Option String → List (List SignatureEntry) → Prop where
  | done {before : Option String} (answer : getSignatures (rpc.signatures before) = .ok []) : rpc.Pages before []
  | more {before : Option String} {page : List SignatureEntry} {oldest : SignatureEntry} {older : List (List SignatureEntry)}
      (answer : getSignatures (rpc.signatures before) = .ok page) (last : page.getLast? = some oldest)
      (rest : rpc.Pages (some oldest.signature) older) : rpc.Pages before (page :: older)

/-- The source returns every signature, newest first in pages, and every transaction. -/
structure Rpc.Serves (rpc : Rpc) (history : ProgramHistory) (pages : List (List SignatureEntry)) : Prop where
  paged : rpc.Pages none pages
  complete : pages.flatten = history.entries
  found : ∀ block ∈ history.blocks, ∀ tx ∈ block.transactions, rpc.transaction tx.signatureText = .ok tx.response

/-! The condition under which nothing is missed, in terms of the database at the start
and of the events of the pages. -/

/-- The pool of the event is stored, or its creation is in one of the pages. -/
def Db.Knows (db : Db) (pages : List (List DecodedEvent)) (de : DecodedEvent) : Prop :=
  db.pools.Holds (poolPubkey de.event) ∨
    ∃ page ∈ pages, ∃ creation ∈ page, creation.creates ∧ poolPubkey creation.event = poolPubkey de.event

/-- Each event of a page is stored already, or its pool is known neither from the database
nor from this page or a newer one. -/
def Db.Idle (db : Db) (pages : List (List DecodedEvent)) (place : Nat) : Prop :=
  ∀ page, pages[place]? = some page → ∀ de ∈ page, db.Commits de ∨ ¬ db.Knows (pages.take (place + 1)) de

/-- No newer page is idle. -/
def Db.Reaches (db : Db) (pages : List (List DecodedEvent)) (place : Nat) : Prop := ∀ newer < place, ¬ db.Idle pages newer

end DeepPool.Indexer
