import DeepPool.Indexer.Subscriber
import DeepPool.Library.Transition

/-! Reconnecting. A fixed resume slot makes every connection start at the same block,
so whatever lies between two delivered blocks was delivered. A connection at the tip
skips what was confirmed while the stream was down. -/

namespace DeepPool.Indexer
open Library

/-- No gap between two members. -/
def Gapless (positions : List Nat) : Prop :=
  ∀ early ∈ positions, ∀ late ∈ positions, ∀ position, early ≤ position → position ≤ late → position ∈ positions

section Gapless
variable {positions : List Nat} {start count : Nat}

theorem Gapless.nil : Gapless [] := fun _ impossible => by cases impossible

/-- Another stretch from the same first position. -/
theorem Gapless.again (gapless : Gapless positions) (bounded : ∀ position ∈ positions, start ≤ position)
    (opened : positions ≠ [] → start ∈ positions) : Gapless (positions ++ List.range' start count) := by
  intro early first late last position after before
  rw [List.mem_append, List.mem_range'_1] at first last ⊢
  have beyond : start ≤ position := by
    rcases first with old | new
    · exact le_trans (bounded early old) after
    · exact le_trans new.1 after
  rcases last with old | new
  · exact .inl (gapless start (opened (List.ne_nil_of_mem old)) late old position beyond before)
  · exact .inr ⟨beyond, lt_of_le_of_lt before new.2⟩

/-- A stretch that starts at most one past a member, and before none. -/
theorem Gapless.onward (gapless : Gapless positions) (ahead : ∀ position ∈ positions, position ≤ start)
    (prompt : ∃ last ∈ positions, start ≤ last + 1) : Gapless (positions ++ List.range' start count) := by
  intro early first late last position after before
  rw [List.mem_append, List.mem_range'_1] at first last ⊢
  by_cases beyond : start ≤ position
  · rcases last with old | new
    · have here : late = position := le_antisymm (le_trans (ahead late old) beyond) before
      exact .inl (here ▸ old)
    · exact .inr ⟨beyond, lt_of_le_of_lt before new.2⟩
  · obtain ⟨member, old, near⟩ := prompt
    rcases first with earlier | new
    · exact .inl (gapless early earlier member old position after (by omega))
    · exact absurd (le_trans new.1 after) beyond

end Gapless

section Loop
variable {discs : Discriminators} {programBytes : Bytes} {server : BlockServer} {subscriber after : Subscriber}
  {connection : Connection server} {sent : List BlockBatch}

theorem subscribeOnce_sends (updates : List UpdateOneof) (ending : Except String Unit) :
    subscribeOnce discs programBytes (fun _ => true) updates ending =
      ((blocksOf updates).map (decodeBlock discs programBytes), ending) := by
  induction updates with
  | nil => rfl
  | cons update updates ih =>
    cases update with
    | block block => simp [subscribeOnce, ih, blocksOf, UpdateOneof.block?]
    | ping => exact ih
    | pong => exact ih
    | other => exact ih

/-- A delivered position holds the block that was decoded for it. -/
theorem Connection.sends {position : Nat} {block : SubscribeUpdateBlock} (member : position ∈ connection.positions)
    (found : server.blocks[position]? = some block) : block ∈ blocksOf connection.updates := by
  obtain ⟨offset, inside, rfl⟩ := List.mem_range'.mp member
  obtain ⟨rest, same⟩ := connection.ordered
  rw [Nat.one_mul, ← List.getElem?_drop, ← same, List.getElem?_append_left inside] at found
  exact List.mem_of_getElem? found

/-- Every delivered block is in the channel, no delivered position is skipped, and while
the loop has a slot to ask for, its block comes first. -/
structure Subscriber.Streamed (discs : Discriminators) (programBytes : Bytes) (server : BlockServer)
    (subscriber : Subscriber) : Prop where
  sent : ∀ position ∈ subscriber.delivered, ∀ block, server.blocks[position]? = some block →
    decodeBlock discs programBytes block ∈ subscriber.channel
  gapless : Gapless subscriber.delivered
  bounded : 0 < subscriber.currentResume.val → ∀ position ∈ subscriber.delivered,
    server.first (some subscriber.currentResume) 0 ≤ position
  opened : 0 < subscriber.currentResume.val → subscriber.delivered ≠ [] →
    server.first (some subscriber.currentResume) 0 ∈ subscriber.delivered

theorem Subscriber.Streamed.unbroken (streamed : subscriber.Streamed discs programBytes server) :
    subscriber.Unbroken discs programBytes server := by
  intro early first late last position beyond before block found
  exact streamed.sent position (streamed.gapless early first late last position beyond before) block found

theorem Subscriber.connect_ok (done : subscriber.connect discs programBytes connection = .ok (after, sent)) :
    connection.start = server.first (effectiveFromSlot subscriber.currentResume) connection.tip ∧
      (∀ position ∈ subscriber.delivered, position ≤ connection.tip) ∧
      after = ⟨resumeAfter subscriber.currentResume connection.ending,
        subscriber.channel ++ (blocksOf connection.updates).map (decodeBlock discs programBytes),
        subscriber.delivered ++ connection.positions⟩ := by
  unfold Subscriber.connect at done
  rw [subscribeOnce_sends] at done
  split at done
  next served =>
    cases done
    exact ⟨served.1, served.2, rfl⟩
  · cases done

/-- The loop keeps its slot until it gives it up for the tip. -/
theorem resumeAfter_pos {currentResume : U64} {ending : Except String Unit}
    (resumes : 0 < (resumeAfter currentResume ending).val) : resumeAfter currentResume ending = currentResume := by
  cases ending with
  | ok => rfl
  | error chain =>
    simp only [resumeAfter] at resumes ⊢
    split at resumes
    · exact absurd resumes (lt_irrefl 0)
    next recent => exact if_neg recent

theorem Connection.start_mem (some_ : connection.positions ≠ []) : connection.start ∈ connection.positions := by
  rw [Connection.positions, ne_eq, List.range'_eq_nil_iff] at some_
  exact List.mem_range'_1.mpr ⟨le_refl _, by omega⟩

/-- A loop that resumes starts every connection at its first block. -/
theorem Subscriber.start_eq
    (served : connection.start = server.first (effectiveFromSlot subscriber.currentResume) connection.tip)
    (resumes : 0 < subscriber.currentResume.val) :
    connection.start = server.first (some subscriber.currentResume) 0 := by
  rw [served, effectiveFromSlot, if_pos resumes]
  rfl

theorem Subscriber.Streamed.connect_gapless (streamed : subscriber.Streamed discs programBytes server)
    (served : connection.start = server.first (effectiveFromSlot subscriber.currentResume) connection.tip)
    (ahead : ∀ position ∈ subscriber.delivered, position ≤ connection.tip) (prompt : subscriber.Prompt connection sent) :
    Gapless (subscriber.delivered ++ connection.positions) := by
  by_cases resumes : 0 < subscriber.currentResume.val
  · have start := Subscriber.start_eq served resumes
    apply streamed.gapless.again
    · exact fun position member => start ▸ streamed.bounded resumes position member
    · exact fun some_ => start ▸ streamed.opened resumes some_
  · have tip : connection.start = connection.tip := by
      rw [served, effectiveFromSlot, if_neg resumes]
      rfl
    rcases prompt with impossible | nothing | none | near
    · exact absurd impossible resumes
    · rw [nothing]
      exact Gapless.again .nil (fun _ impossible => by cases impossible) (fun some_ => absurd rfl some_)
    · rw [Connection.positions, none]
      simpa using streamed.gapless
    · rw [← tip] at near ahead
      exact streamed.gapless.onward ahead near

theorem Subscriber.Streamed.connect (streamed : subscriber.Streamed discs programBytes server)
    (done : subscriber.connect discs programBytes connection = .ok (after, sent))
    (prompt : subscriber.Prompt connection sent) :
    after.Streamed discs programBytes server := by
  obtain ⟨served, ahead, rfl⟩ := Subscriber.connect_ok done
  refine ⟨?_, streamed.connect_gapless served ahead prompt, ?_, ?_⟩
  · intro position member block found
    rcases List.mem_append.mp member with old | new
    · exact List.mem_append_left _ (streamed.sent position old block found)
    · exact List.mem_append_right _ (List.mem_map_of_mem (Connection.sends new found))
  · intro resumes position member
    simp only [resumeAfter_pos resumes] at resumes ⊢
    rcases List.mem_append.mp member with old | new
    · exact streamed.bounded resumes position old
    · exact Subscriber.start_eq served resumes ▸ (List.mem_range'_1.mp new).1
  · intro resumes some_
    simp only [resumeAfter_pos resumes] at resumes ⊢
    cases old : subscriber.delivered with
    | nil =>
      rw [old, List.nil_append] at some_
      rw [← Subscriber.start_eq served resumes]
      exact List.mem_append_right _ (Connection.start_mem some_)
    | cons position positions =>
      rw [← old]
      exact List.mem_append_left _ (streamed.opened resumes (by simp [old]))

/-- Reconnecting skips no block as long as every connection that starts at the tip finds
it at most one block past a delivered one. -/
theorem reconnecting_skips_none {resumeSlot : U64} {trace : List (Connection server × List BlockBatch)}
    (runs : Run (restrict (Subscriber.connect discs programBytes) Subscriber.Prompt .late) (.start resumeSlot) trace
      subscriber) : subscriber.Unbroken discs programBytes server := by
  have streamed : subscriber.Streamed discs programBytes server := by
    refine runs.invariant (Subscriber.Streamed discs programBytes server) ?_ ⟨?_, .nil, ?_, ?_⟩
    · intro before connection after sent _ streamed done
      obtain ⟨connected, prompt⟩ := restrict_ok done
      exact streamed.connect connected prompt
    · exact fun _ impossible => by cases impossible
    · exact fun _ _ impossible => by cases impossible
    · exact fun _ some_ => absurd rfl some_
  exact streamed.unbroken

end Loop

section Samples

def emptyBlock (slot : U64) : SubscribeUpdateBlock := ⟨slot, none, []⟩

def sampleServer : BlockServer where
  blocks := [emptyBlock 100, emptyBlock 101, emptyBlock 102]
  ordered := by decide +kernel

/-- The tip's block, and then the stream ends. -/
def atFirst : Connection sampleServer := ⟨0, 0, [.ping, .block (emptyBlock 100)], .ok (), ⟨_, rfl⟩⟩
def atSecond : Connection sampleServer := ⟨1, 1, [.block (emptyBlock 101)], .error "h2 protocol error", ⟨_, rfl⟩⟩
def atThird : Connection sampleServer := ⟨2, 2, [.block (emptyBlock 102)], .ok (), ⟨_, rfl⟩⟩

theorem reconnecting_skips_none_sample : ∃ subscriber : Subscriber, subscriber.delivered = [0, 1, 2] ∧
    subscriber.Unbroken .compute [] sampleServer := by
  have found : accepts (execute (restrict (Subscriber.connect .compute []) Subscriber.Prompt .late) (.start 0)
      [atFirst, atSecond, atThird]) (fun result => result.1.delivered = [0, 1, 2]) = true := by decide +kernel
  obtain ⟨⟨subscriber, trace⟩, runs, facts⟩ := accepts_iff.mp found
  exact ⟨subscriber, of_decide_eq_true facts, reconnecting_skips_none (execute_run runs)⟩

/-- Without a slot to resume from, the block that was confirmed between two connections is lost. -/
theorem reconnect_at_tip_skips : ∃ (trace : List (Connection sampleServer × List BlockBatch)) (subscriber : Subscriber),
    Run (Subscriber.connect .compute []) (.start 0) trace subscriber ∧
      (∀ turn ∈ trace, turn.1.ending = .ok ()) ∧ ¬ subscriber.Unbroken .compute [] sampleServer := by
  have found : accepts (execute (Subscriber.connect .compute []) (.start 0) [atFirst, atThird]) (fun result =>
      result.1.delivered = [0, 2] ∧ result.1.channel.map BlockBatch.slot = [100, 102] ∧
        result.2.all fun turn => turn.1.ending.isOk) = true := by decide +kernel
  obtain ⟨⟨subscriber, trace⟩, runs, facts⟩ := accepts_iff.mp found
  obtain ⟨delivered, channel, endings⟩ := of_decide_eq_true facts
  refine ⟨trace, subscriber, execute_run runs, ?_, fun unbroken => ?_⟩
  · intro turn member
    have ended := List.all_eq_true.mp endings turn member
    cases ending : turn.1.ending with
    | ok => rfl
    | error chain =>
      rw [ending] at ended
      cases ended
  · have first : 0 ∈ subscriber.delivered := by
      rw [delivered]
      decide
    have last : 2 ∈ subscriber.delivered := by
      rw [delivered]
      decide
    have sent := unbroken 0 first 2 last 1 (by decide) (by decide) (emptyBlock 101) rfl
    have listed := List.mem_map_of_mem (f := BlockBatch.slot) sent
    rw [channel] at listed
    exact absurd listed (by decide)

end Samples
end DeepPool.Indexer
