/-! Parsers that consume a list of tokens from the front. A parser reads a format when
it accepts exactly the inputs that start with the encoding of what it returns. -/

namespace Library
variable {Token Failure A B : Type}

abbrev Reader (Token Failure : Type) := StateT (List Token) (Except Failure)

/-- The next `count` tokens. -/
def Reader.take (count : Nat) (failure : Failure) : Reader Token Failure (Vector Token count) := fun input =>
  if enough : count ≤ input.length then
    .ok (⟨(input.take count).toArray, List.length_take_of_le enough⟩, input.drop count)
  else .error failure

def Reads (reader : Reader Token Failure A) (encode : A → List Token) : Prop :=
  ∀ input result rest, reader.run input = .ok (result, rest) ↔ input = encode result ++ rest

variable {reader : Reader Token Failure A} {next : A → Reader Token Failure B} {encode : A → List Token}
  {input rest : List Token} {count : Nat} {failure : Failure}

theorem Reader.pure_ok {value result : A} :
    (pure value : Reader Token Failure A).run input = .ok (result, rest) ↔ value = result ∧ input = rest := by
  rw [StateT.run_pure]
  constructor
  · intro done
    cases done
    exact ⟨rfl, rfl⟩
  · rintro ⟨rfl, rfl⟩
    rfl

theorem Reader.bind_ok {last : B} : (reader >>= next).run input = .ok (last, rest) ↔
    ∃ result middle, reader.run input = .ok (result, middle) ∧ (next result).run middle = .ok (last, rest) := by
  rw [StateT.run_bind]
  constructor
  · intro done
    cases first : reader.run input with
    | error failure =>
      rw [first] at done
      cases done
    | ok step =>
      rw [first] at done
      exact ⟨step.1, step.2, rfl, done⟩
  · rintro ⟨result, middle, first, second⟩
    rw [first]
    exact second

theorem Reader.take_reads (count : Nat) (failure : Failure) :
    Reads (Reader.take count failure) (fun tokens : Vector Token count => tokens.toList) := by
  intro input taken rest
  change Reader.take count failure input = _ ↔ _
  unfold Reader.take
  split
  next enough =>
    constructor
    · intro done
      cases done
      exact (List.take_append_drop _ _).symm
    · intro whole
      have front : input.take count = taken.toList := by
        rw [whole, List.take_left' taken.length_toList]
      have back : input.drop count = rest := by
        rw [whole, List.drop_left' taken.length_toList]
      have same : (⟨(input.take count).toArray, List.length_take_of_le enough⟩ : Vector Token count) = taken :=
        Vector.toList_inj.mp front
      rw [same, back]
  next short =>
    constructor
    · intro impossible
      cases impossible
    · intro whole
      rw [whole, List.length_append, Vector.length_toList] at short
      omega

/-- The rest of a parser runs on what its first field leaves. -/
theorem Reads.bind_ok (reads : Reads reader encode) {last : B} : (reader >>= next).run input = .ok (last, rest) ↔
    ∃ result middle, input = encode result ++ middle ∧ (next result).run middle = .ok (last, rest) := by
  rw [Reader.bind_ok]
  simp only [reads _ _ _]

end Library
