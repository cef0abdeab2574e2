import DeepPool.Library.Word
import DeepPool.Library.Ledger
import DeepPool.Library.Shares
import DeepPool.Library.Transition
import DeepPool.Library.Ring
import DeepPool.Library.Timeline
import DeepPool.Library.Radix
import DeepPool.Library.Reader
import DeepPool.Library.Table
import DeepPool.Library.Effects
import DeepPool.System
import DeepPool.World
import DeepPool.Program
import DeepPool.Proofs.Embedding
import DeepPool.Proofs.Custody
import DeepPool.Proofs.Conservation
import DeepPool.Journal
import DeepPool.Proofs.Dilution
import DeepPool.Proofs.Extraction
import DeepPool.Proofs.Guards
import DeepPool.Proofs.Retention
import DeepPool.Proofs.Latest
import DeepPool.Proofs.Lock
import DeepPool.Proofs.Mark
import DeepPool.Proofs.Lookback
import DeepPool.Proofs.Twap
import DeepPool.Proofs.Quote
import DeepPool.Proofs.SdkQuote
import DeepPool.Proofs.Interval
import DeepPool.Indexer.Confirmed
import DeepPool.Indexer.Live
import DeepPool.Proofs.Provenance
import DeepPool.Proofs.Checkpoint
import DeepPool.Proofs.Subscriber
import DeepPool.Indexer.Replay
import DeepPool.Indexer.Walk
import DeepPool.Proofs.Backfill
import DeepPool.Proofs.Uninterrupted
import DeepPool.Proofs.Proportion
import DeepPool.Proofs.Splitting
import DeepPool.Proofs.Blocklist
import DeepPool.Proofs.Slippage
import DeepPool.Proofs.Window
import DeepPool.Proofs.Agreement
import DeepPool.Proofs.Recovery
import DeepPool.Proofs.Carried
import DeepPool.Proofs.Bus
import DeepPool.Proofs.Payout
import DeepPool.Proofs.Root
import DeepPool.Proofs.Monotone
import DeepPool.Proofs.Charge
import DeepPool.Anchor
import DeepPool.Proofs.Anchor
import DeepPool.Proofs.Amounts
import DeepPool.Indexer.Api
import DeepPool.Proofs.History
import DeepPool.Library.Collect
import DeepPool.Sdk.Events
import DeepPool.Proofs.Parse
import DeepPool.Log
import DeepPool.Proofs.Log
import DeepPool.Proofs.Emission
import DeepPool.Library.Borsh
import DeepPool.Layout
import DeepPool.Proofs.Layout
import DeepPool.Indexer.Execution
import DeepPool.Proofs.Execution
import DeepPool.Library.Memo
import DeepPool.Indexer.Services
import DeepPool.Proofs.Services
import DeepPool.Sdk.Pools
import DeepPool.Proofs.Pools
import DeepPool.Proofs.Exit
import DeepPool.Instruction
import DeepPool.Sdk.Transactions
import DeepPool.Proofs.Instruction
import DeepPool.Proofs.Transactions
