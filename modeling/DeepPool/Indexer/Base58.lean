import DeepPool.Library.Radix
import DeepPool.Indexer.Contracts

/-! `bs58`: bytes as text over the Bitcoin alphabet. -/

namespace DeepPool.Indexer
open Library

def alphabet : List Char := "123456789ABCDEFGHJKLMNPQRSTUVWXYZabcdefghijkmnopqrstuvwxyz".toList

/-- `bs58::encode(..).into_string()` -/
def encodeBase58 (bytes : Bytes) : String :=
  String.ofList ((convert 256 58 bytes.digits).map fun digit => alphabet.getD digit '1')

/-- `bs58::decode(..).into_vec()`, whose errors no caller looks at. -/
def decodeBase58 (text : String) : Option Bytes :=
  (text.toList.mapM fun symbol => alphabet.idxOf? symbol).map fun digits => (convert 58 256 digits).map UInt8.ofNat

private theorem alphabet_position : ∀ digit < 58, alphabet.idxOf? (alphabet.getD digit '1') = some digit := by
  decide +kernel

private theorem read_symbols {digits : List Nat} (small : ∀ digit ∈ digits, digit < 58) :
    (digits.map fun digit => alphabet.getD digit '1').mapM (fun symbol => alphabet.idxOf? symbol) = some digits := by
  induction digits with
  | nil => rfl
  | cons digit digits ih =>
    rw [List.map_cons, List.mapM_cons, alphabet_position digit (small digit List.mem_cons_self),
      ih fun later member => small later (List.mem_cons_of_mem _ member)]
    rfl

theorem decode_encodeBase58 (bytes : Bytes) : decodeBase58 (encodeBase58 bytes) = some bytes := by
  rw [decodeBase58, encodeBase58, String.toList_ofList, read_symbols (convert_lt (by decide)), Option.map_some,
    convert_convert (by decide) bytes.digits_lt, Bytes.ofNat_digits]

theorem encodeBase58_inj {first second : Bytes} : encodeBase58 first = encodeBase58 second ↔ first = second := by
  constructor
  · intro same
    have decoded := congrArg decodeBase58 same
    rw [decode_encodeBase58, decode_encodeBase58] at decoded
    exact Option.some.inj decoded
  · exact congrArg encodeBase58

example : encodeBase58 [0, 1, 57] = "16Q" := by decide +kernel

end DeepPool.Indexer
