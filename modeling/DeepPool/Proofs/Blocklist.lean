import DeepPool.Proofs.Handlers
import DeepPool.System

/-! The extension blocklist of a new pool. The token library stops at the first entry it cannot
name: the check would take that for an empty list, but the vault's size is computed first
and does not. -/

namespace DeepPool
open Library

/-- The token library knows the entry's type. -/
def TlvEntry.named : TlvEntry → Bool
  | .known _ => true
  | .unknown _ | .truncated => false

def TlvEntry.blocked : TlvEntry → Bool
  | .known type => extensionIsBlocked type
  | .unknown _ | .truncated => false

variable {entries : List TlvEntry}

private theorem foreign_iff : (∃ entry ∈ entries, entry.named = false) ↔ ¬ ∀ entry ∈ entries, entry.named = true := by
  simp

theorem getExtensionTypes_named (named : ∀ entry ∈ entries, entry.named = true) :
    ∃ types, getExtensionTypes entries = some types ∧ ∀ type, type ∈ types ↔ .known type ∈ entries := by
  induction entries with
  | nil => exact ⟨[], rfl, by simp⟩
  | cons entry entries ih =>
    obtain ⟨types, listed, members⟩ := ih fun other member => named other (List.mem_cons_of_mem _ member)
    have first := named entry List.mem_cons_self
    cases entry with
    | known type =>
      unfold getExtensionTypes at listed
      refine ⟨type :: types, ?_, ?_⟩
      · simp [getExtensionTypes, List.mapM_cons, listed]
      · intro other
        simp [members]
    | unknown number => cases first
    | truncated => cases first

theorem getExtensionTypes_foreign (foreign : ∃ entry ∈ entries, entry.named = false) :
    getExtensionTypes entries = none := by
  induction entries with
  | nil => simp at foreign
  | cons entry entries ih =>
    cases entry with
    | known type =>
      have rest : getExtensionTypes entries = none := by
        obtain ⟨entry, member, unnamed⟩ := foreign
        rcases List.mem_cons.mp member with rfl | listed
        · cases unnamed
        · exact ih ⟨entry, listed, unnamed⟩
      unfold getExtensionTypes at rest
      simp [getExtensionTypes, List.mapM_cons, rest]
    | unknown number => simp [getExtensionTypes, List.mapM_cons]
    | truncated => simp [getExtensionTypes, List.mapM_cons]

/-- One entry that the library cannot name hides every other one. -/
theorem validateMintExtensions_ok {mint : MintAccount} :
    validateMintExtensions mint = .ok () ↔ mint.unpacks = true ∧
      ((∃ entry ∈ mint.entries, entry.named = false) ∨ ∀ entry ∈ mint.entries, entry.blocked = false) := by
  simp only [validateMintExtensions, bind_ok, require_ok, exists_const, forM_ok]
  apply and_congr_right
  intro _
  rw [foreign_iff]
  by_cases named : ∀ entry ∈ mint.entries, entry.named = true
  · obtain ⟨types, listed, members⟩ := getExtensionTypes_named named
    rw [or_iff_right (not_not.mpr named)]
    simp only [listed, Option.getD_some, members]
    constructor
    · intro checked entry member
      cases entry with
      | known type => exact checked type member
      | unknown number => rfl
      | truncated => rfl
    · intro clear type member
      exact clear _ member
  · have empty := getExtensionTypes_foreign (foreign_iff.mpr named)
    simp only [empty, named, Option.getD_none, List.not_mem_nil, IsEmpty.forall_iff, implies_true, not_false_eq_true,
      true_or]

/-- Called by itself, the check means what it says exactly when the library names every entry,
or when nothing is there to be found. -/
theorem validateMintExtensions_means (entries : List TlvEntry) :
    (validateMintExtensions ⟨true, entries⟩ = .ok () ↔ ∀ entry ∈ entries, entry.blocked = false) ↔
      (∀ entry ∈ entries, entry.named = true) ∨ ∀ entry ∈ entries, entry.blocked = false := by
  simp only [validateMintExtensions_ok, true_and]
  rw [foreign_iff]
  by_cases named : ∀ entry ∈ entries, entry.named = true
  · rw [or_iff_right (not_not.mpr named)]
    exact iff_of_true Iff.rfl (.inl named)
  · rw [or_iff_right named]
    exact iff_true_left (.inl named)

/-- The vault of a mint is sized only when the library names every entry. -/
theorem tokenAccountExtensions_ok {mint : MintAccount} :
    (∃ types, tokenAccountExtensions mint = .ok types) ↔
      mint.unpacks = true ∧ ∀ entry ∈ mint.entries, entry.named = true := by
  simp only [tokenAccountExtensions, orFail_ok]
  constructor
  · rintro ⟨types, read⟩
    split at read
    next unpacks =>
      refine ⟨unpacks, ?_⟩
      by_contra some
      rw [getExtensionTypes_foreign (foreign_iff.mpr some)] at read
      cases read
    next => cases read
  · rintro ⟨unpacks, named⟩
    obtain ⟨types, listed, _⟩ := getExtensionTypes_named named
    exact ⟨types, by rw [if_pos unpacks, listed]⟩

variable {Key : Type} [DecidableEq Key] {rent : U64} {transferFee : TransferFee} {mint : MintAccount}
  {accounts : CreatePoolAccounts Key} {args : CreatePoolArgs} {ground : Ground Key}
  {result : Chain Key × PoolCreated Key}

/-- What the mint's extensions decide: all are named and none is blocked, or there is no pool. -/
theorem createPool_iff :
    createPool rent transferFee mint accounts args ground = .ok result ↔
      (mint.unpacks = true ∧ (∀ entry ∈ mint.entries, entry.named = true) ∧
        ∀ entry ∈ mint.entries, entry.blocked = false) ∧
      createPool rent transferFee ⟨true, []⟩ accounts args ground = .ok result := by
  simp only [createPool, bind_ok]
  constructor
  · rintro ⟨chain, opens, types, read, enoughSol, sol, enoughTokens, tokens, ⟨⟩, checked, rest⟩
    obtain ⟨unpacks, named⟩ := tokenAccountExtensions_ok.mp ⟨types, read⟩
    obtain ⟨_, foreign | clear⟩ := validateMintExtensions_ok.mp checked
    · exact absurd named (foreign_iff.mp foreign)
    · exact ⟨⟨unpacks, named, clear⟩, chain, opens, [], rfl, enoughSol, sol, enoughTokens, tokens, (), rfl, rest⟩
  · rintro ⟨⟨unpacks, named, clear⟩, chain, opens, _, _, enoughSol, sol, enoughTokens, tokens, _, _, rest⟩
    obtain ⟨types, read⟩ := tokenAccountExtensions_ok.mpr ⟨unpacks, named⟩
    have checked : validateMintExtensions mint = .ok () := validateMintExtensions_ok.mpr ⟨unpacks, .inr clear⟩
    exact ⟨chain, opens, types, read, enoughSol, sol, enoughTokens, tokens, (), checked, rest⟩

/-- A request that makes a pool for a mint without extensions makes it for this one too, if and
only if nothing blocked is there: so it is exactly when the library names every entry, or when
something is blocked. -/
theorem blocklist_holds (creates : createPool rent transferFee ⟨true, []⟩ accounts args ground = .ok result)
    (entries : List TlvEntry) :
    ((createPool rent transferFee ⟨true, entries⟩ accounts args ground = .ok result ↔
          ∀ entry ∈ entries, entry.blocked = false) ↔
        (∀ entry ∈ entries, entry.named = true) ∨ ∃ entry ∈ entries, entry.blocked = true) ∧
      ((validateMintExtensions ⟨true, entries⟩ = .ok () ↔ ∀ entry ∈ entries, entry.blocked = false) ↔
        (∀ entry ∈ entries, entry.named = true) ∨ ∀ entry ∈ entries, entry.blocked = false) := by
  refine ⟨?_, validateMintExtensions_means entries⟩
  have blocked : (∃ entry ∈ entries, entry.blocked = true) ↔ ¬ ∀ entry ∈ entries, entry.blocked = false := by simp
  rw [createPool_iff, blocked]
  simp only [creates, and_true, true_and]
  constructor
  · intro meant
    by_cases clear : ∀ entry ∈ entries, entry.blocked = false
    · exact .inl (meant.mpr clear).1
    · exact .inr clear
  · rintro (named | found)
    · exact and_iff_right named
    · exact iff_of_false (fun passes => found passes.2) found

/-- Metadata is accepted, and a delegate is not, whatever stands next to it. -/
theorem blocklist_holds_sample : ∃ result : Chain ℕ × PoolCreated ℕ,
    createPool 2000000 .none ⟨true, [.known (.other 19)]⟩ sampleParties ⟨5000000, 5000000000⟩ sampleGround = .ok result ∧
      createPool 2000000 .none ⟨true, [.unknown 999, .known .permanentDelegate]⟩ sampleParties ⟨5000000, 5000000000⟩
        sampleGround ≠ .ok result := by
  have made : accepts (createPool 2000000 .none ⟨true, []⟩ sampleParties ⟨5000000, 5000000000⟩ sampleGround)
      (fun _ => true) = true := by decide +kernel
  obtain ⟨result, creates, _⟩ := accepts_iff.mp made
  have plain := (blocklist_holds creates [.known (.other 19)]).1.mpr (.inl (by decide))
  have hidden := (blocklist_holds creates [.unknown 999, .known .permanentDelegate]).1.mpr (.inr (by decide))
  exact ⟨result, plain.mpr (by decide), fun done => absurd (hidden.mp done) (by decide)⟩

/-- A mint with one extension of a type that the library does not know gets no pool. The check
alone would let it pass, and a delegate with it. -/
theorem future_extension_refused : ∃ result : Chain ℕ × PoolCreated ℕ,
    createPool 2000000 .none ⟨true, []⟩ sampleParties ⟨5000000, 5000000000⟩ sampleGround = .ok result ∧
      createPool 2000000 .none ⟨true, [.unknown 999]⟩ sampleParties ⟨5000000, 5000000000⟩ sampleGround =
        .error .invalidAccountData ∧
      ¬ (createPool 2000000 .none ⟨true, [.unknown 999]⟩ sampleParties ⟨5000000, 5000000000⟩ sampleGround = .ok result ↔
        ∀ entry ∈ [TlvEntry.unknown 999], entry.blocked = false) ∧
      ¬ (validateMintExtensions ⟨true, [.unknown 999, .known .permanentDelegate]⟩ = .ok () ↔
        ∀ entry ∈ [TlvEntry.unknown 999, .known .permanentDelegate], entry.blocked = false) := by
  have made : accepts (createPool 2000000 .none ⟨true, []⟩ sampleParties ⟨5000000, 5000000000⟩ sampleGround)
      (fun _ => true) = true := by decide +kernel
  obtain ⟨result, creates, _⟩ := accepts_iff.mp made
  have refused : createPool 2000000 .none ⟨true, [.unknown 999]⟩ sampleParties ⟨5000000, 5000000000⟩ sampleGround =
      .error .invalidAccountData := rfl
  refine ⟨result, creates, refused, ?_, ?_⟩
  · intro meant
    have done := meant.mpr (by decide)
    rw [refused] at done
    cases done
  · intro meant
    have passes : validateMintExtensions ⟨true, [.unknown 999, .known .permanentDelegate]⟩ = .ok () := rfl
    have blocked := meant.mp passes (.known .permanentDelegate) (by simp)
    cases blocked

end DeepPool
