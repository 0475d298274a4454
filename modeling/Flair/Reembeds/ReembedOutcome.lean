import Flair.Reembeds.ReembedHonesty

/-! A re-embed's answer, the fields it may write and its end, over all runs. -/

namespace Flair.Reembeds

open Dynamic Transition Migrations WriteBack

-- The row

def fieldOf (row : Option Record) (field : String) : Option Value :=
  row.bind fun row => row.get field

/-- A field the commit the call is about to make may write: the embedding bookkeeping,
`updatedAt`, and the token when the attempt last read the row without one.
-/
def ReembedPhase.MayWrite (phase : ReembedPhase) (field : String) : Prop :=
  field ∈ bookkeepingFields
    ∨ field = "instanceToken"
      ∧ ∃ row, phase.lastRead = some row ∧ storedInstanceToken row = none

namespace ReembedState

variable (state : ReembedState)

@[simp] theorem answer_stored (answer : ReembedAnswer)
    : (state.answer answer).stored = state.stored := rfl

@[simp] theorem nextAttempt_stored : state.nextAttempt.stored = state.stored := rfl

@[simp] theorem unknown_stored : state.writeOutcomeUnknownFor.stored = state.stored := rfl

@[simp] theorem settle_stored (response : PatchResponse)
    : (state.settle response).stored = state.stored := by
  unfold settle
  split <;> rfl

@[simp] theorem thrown_stored : state.thrown.stored = state.stored := by
  unfold thrown
  split <;> rfl

end ReembedState

section Row

variable {call : ReembedCall} {state : ReembedState}

theorem openStep_stored : (openStep call state).stored = state.stored := by
  unfold openStep
  cases read : state.stored with
  | none => simp [read]
  | some stored =>
    dsimp only
    split
    · simp [read]
    split
    · simp [read]
    · split
      · simp [read]
      · split <;> simp [read]

theorem confirmStep_stored {write : ReembedWrite}
    : (confirmStep state write).stored = state.stored := by
  unfold confirmStep
  cases read : state.stored with
  | none => simp [read]
  | some committed =>
    dsimp only
    split <;> simp [read]

theorem verifyStep_stored {write : ReembedWrite}
    : (verifyStep state write).stored = state.stored := by
  unfold verifyStep
  dsimp only
  split
  · simp
  · split <;> simp

theorem recomputeStep_stored {text : String} {answer : Provider}
    : (recomputeStep state text answer).stored = state.stored := by
  cases answer with
  | vector recomputed =>
    unfold recomputeStep
    dsimp only
    split <;> simp
  | _ => simp [recomputeStep]

theorem fieldOf_land {fields : Record} {landed : Bool} {field : String}
    (absent : fields.get field = none)
    : fieldOf (state.land fields landed).stored field = fieldOf state.stored field := by
  cases landed with
  | false => rfl
  | true =>
    cases read : state.stored with
    | none => simp [fieldOf, read, absent]
    | some row => simp [fieldOf, read, absent]

theorem staged_field {write : ReembedWrite} {field : String}
    {text : Option Value} {embedding : Value} {log : List ReembedEvent}
    (builds : Builds call text embedding log write) (staged : write.fields.get field ≠ none)
    : field ∈ bookkeepingFields
      ∨ field = "instanceToken" ∧ storedInstanceToken write.stored = none := by
  obtain ⟨model, updatedAt, newToken, -, built⟩ := builds.built
  have fields : write.fields = reembedUpdate
      { call.world with now := updatedAt, newInstanceToken := newToken } model embedding
      write.stored := by
    rw [built]
    rfl
  rw [fields, reembedUpdate] at staged
  have bookkeeping {world : StampWorld}
      (staged : (embeddingFields world model embedding write.stored).get field ≠ none)
      : field ∈ bookkeepingFields := by
    by_contra other
    simp only [bookkeepingFields, List.mem_cons, List.not_mem_nil, or_false, not_or] at other
    exact staged (by simp [embeddingFields, Record.ofFields, other])
  dsimp only at staged
  split at staged
  · exact .inl (bookkeeping staged)
  rename_i missing
  by_cases token : field = "instanceToken"
  · exact .inr ⟨token, by simpa using missing⟩
  · rw [Record.get_set, if_neg token] at staged
    exact .inl (bookkeeping staged)

theorem storedInstanceToken_of_same {left right : Record}
    (same : sameStoredRow (some left) (some right) = true)
    : storedInstanceToken left = storedInstanceToken right := by
  have agrees := (SameIdentity.of_sameStoredRow same).rest "instanceToken" (by decide) (by decide)
  rw [storedInstanceToken, storedInstanceToken, agrees]

theorem Sound.frame {label : ReembedLabel} {after : ReembedState} (sound : Sound call state)
    (own : label.own = true) (taken : reembedStep call state label = some after) (field : String)
    : fieldOf after.stored field = fieldOf state.stored field ∨ state.phase.MayWrite field := by
  have holds := sound.holds
  have unchanged (same : after.stored = state.stored)
      : fieldOf after.stored field = fieldOf state.stored field ∨ state.phase.MayWrite field :=
    .inl (by rw [same])
  cases label with
  | other row => cases own
  | read =>
    refine unchanged ?_
    cases phase : state.phase <;> simp only [reembedStep, phase, reduceCtorEq] at taken
    all_goals cases taken
    · exact openStep_stored
    · exact confirmStep_stored
    · exact verifyStep_stored
  | stage updatedAt newToken =>
    refine unchanged ?_
    cases phase : state.phase <;> cases current : getModelId call.world
      <;> simp only [reembedStep, phase, current, reduceCtorEq, Option.some.injEq] at taken
    obtain rfl := taken
    rfl
  | withhold updatedAt newToken =>
    refine unchanged ?_
    cases phase : state.phase <;> cases current : getModelId call.world
      <;> simp only [reembedStep, phase, current, reduceCtorEq, Option.some.injEq] at taken
    obtain rfl := taken
    rfl
  | commit landed =>
    cases phase : state.phase <;> simp only [reembedStep, phase, reduceCtorEq] at taken holds
    case withheld write =>
        cases taken
        by_cases staged : write.fields.get field = none
        · left
          simpa using fieldOf_land staged
        · rcases staged_field holds staged with bookkeeping | ⟨token, missing⟩
          · exact .inr (.inl bookkeeping)
          · exact .inr (.inr ⟨token, write.stored, rfl, missing⟩)
    case confirmed write committed =>
        cases taken
        by_cases staged : write.fields.get field = none
        · left
          simpa using fieldOf_land staged
        rcases staged_field holds.1 staged with bookkeeping | ⟨token, missing⟩
        · exact .inr (.inl bookkeeping)
        · exact .inr (.inr ⟨token, committed, rfl,
            (storedInstanceToken_of_same holds.2).trans missing⟩)
  | provider answer =>
    refine unchanged ?_
    cases phase : state.phase <;> simp only [reembedStep, phase, reduceCtorEq] at taken
    cases taken
    exact recomputeStep_stored
  | throw =>
    refine unchanged ?_
    cases phase : state.phase <;> simp only [reembedStep, phase, reduceCtorEq] at taken
    all_goals
      cases taken
      simp

end Row

-- The end of a call

@[simp] def ReembedPhase.rank : ReembedPhase → Nat
  | .opening => 6
  | .staging _ => 5
  | .staged _ => 4
  | .withheld _ | .confirmed _ _ => 3
  | .verifying _ | .recomputing _ => 2
  | .answered _ => 0

/-- How far a call is from its answer: its attempts first. -/
@[simp] def ReembedState.rank (state : ReembedState) : Nat :=
  (reembedWriteAttempts - state.attempt) * 8 + state.phase.rank

def Moves (call : ReembedCall) (before after : ReembedState) : Prop :=
  ∃ quiet label,
    (storedRowReembed call).ReachesUnder (fun _ label => label.own = false) before quiet
    ∧ label.own = true ∧ reembedStep call quiet label = some after

section Ends

variable {call : ReembedCall} {state : ReembedState}

theorem rank_settle (response : PatchResponse)
    : (state.settle response).rank = (reembedWriteAttempts - state.attempt) * 8 := by
  unfold ReembedState.settle
  split <;> rfl

theorem rank_thrown : state.thrown.rank = (reembedWriteAttempts - state.attempt) * 8 := by
  unfold ReembedState.thrown
  split <;> rfl

theorem rank_nextAttempt (more : state.attempt < reembedWriteAttempts)
    : state.nextAttempt.rank < (reembedWriteAttempts - state.attempt) * 8 + 2 := by
  simp only [ReembedState.rank, ReembedState.nextAttempt, ReembedPhase.rank]
  omega

theorem rank_openStep (_ : state.attempt ≤ reembedWriteAttempts)
    : (openStep call state).rank < (reembedWriteAttempts - state.attempt) * 8 + 6 := by
  unfold openStep
  cases state.stored with
  | none => simp [ReembedState.answer]
  | some stored =>
    dsimp only
    split
    · rw [rank_settle]
      simp
    split
    · rw [rank_settle]
      simp
    split
    · simp
    split
    · rw [rank_settle]
      simp
    · simp

theorem rank_confirmStep {write : ReembedWrite}
    : (confirmStep state write).rank < (reembedWriteAttempts - state.attempt) * 8 + 4 := by
  have changed : (state.settle storedRowChanged).rank
      < (reembedWriteAttempts - state.attempt) * 8 + 4 := by
    rw [rank_settle]
    omega
  unfold confirmStep
  cases state.stored with
  | none => exact changed
  | some committed =>
    dsimp only
    split
    · simp
    · exact changed

theorem rank_verifyStep {write : ReembedWrite} (attempts : state.attempt ≤ reembedWriteAttempts)
    : (verifyStep state write).rank < (reembedWriteAttempts - state.attempt) * 8 + 2 := by
  unfold verifyStep
  dsimp only
  split
  · simp [ReembedState.answer]
  split
  · simp [ReembedState.writeOutcomeUnknownFor, ReembedState.answer]
  · rename_i more
    exact rank_nextAttempt (lt_of_le_of_ne attempts more)

theorem rank_recomputeStep {text : String} {answer : Provider}
    (more : state.attempt < reembedWriteAttempts)
    : (recomputeStep state text answer).rank < (reembedWriteAttempts - state.attempt) * 8 + 2 := by
  cases answer with
  | timedOut =>
    rw [recomputeStep, rank_settle]
    omega
  | threw =>
    rw [recomputeStep, rank_thrown]
    omega
  | vector recomputed =>
    unfold recomputeStep
    dsimp only
    split
    · exact rank_nextAttempt more
    · rw [rank_settle]
      omega

theorem Sound.rank_step {label : ReembedLabel} {after : ReembedState} (sound : Sound call state)
    (own : label.own = true) (taken : reembedStep call state label = some after)
    : after.rank < state.rank := by
  have holds := sound.holds
  have attempts := sound.attempts
  cases label with
  | other row => cases own
  | read =>
    cases phase : state.phase <;> simp only [reembedStep, phase, reduceCtorEq] at taken
    all_goals
      cases taken
      rw [ReembedState.rank.eq_def state, phase]
    · exact rank_openStep attempts
    · exact rank_confirmStep
    · exact rank_verifyStep attempts
  | stage updatedAt newToken | withhold updatedAt newToken =>
    cases phase : state.phase <;> cases current : getModelId call.world
      <;> simp only [reembedStep, phase, current, reduceCtorEq, Option.some.injEq] at taken
    obtain rfl := taken
    simp [phase]
  | commit landed =>
    cases phase : state.phase <;> simp only [reembedStep, phase, reduceCtorEq] at taken
    case withheld write =>
        cases taken
        rw [rank_settle]
        simp [phase]
    case confirmed write committed =>
        cases taken
        simp [phase]
  | provider answer =>
    cases phase : state.phase <;> simp only [reembedStep, phase, reduceCtorEq] at taken holds
    cases taken
    rw [ReembedState.rank.eq_def state, phase]
    exact rank_recomputeStep holds.2
  | throw =>
    cases phase : state.phase <;> simp only [reembedStep, phase, reduceCtorEq] at taken
    all_goals
      cases taken
      rw [rank_thrown, ReembedState.rank, phase]
      simp

theorem Sound.others {quiet : ReembedState} (sound : Sound call state)
    (h : (storedRowReembed call).ReachesUnder (fun _ label => label.own = false) state quiet)
    : Sound call quiet ∧ quiet.rank = state.rank := by
  have kept : ∀ before label after, Sound call before ∧ before.rank = state.rank
      → label.own = false → (storedRowReembed call).step before label = some after
      → Sound call after ∧ after.rank = state.rank := by
    rintro before label after ⟨holds, same⟩ others taken
    refine ⟨holds.step taken, ?_⟩
    cases label with
    | other row =>
      cases taken
      exact same
    | _ => cases others
  have initially : Sound call state ∧ state.rank = state.rank := ⟨sound, rfl⟩
  exact System.ReachesUnder.preserves kept h initially

theorem Sound.settles (sound : Sound call state)
    : Settles (Moves call) ReembedState.Answered state := by
  refine Settles.of_rank ReembedState.rank ?_ ?_ ?_ sound
  · rintro before after holds ⟨quiet, label, others, -, taken⟩
    exact (holds.others others).1.step taken
  · rintro before after holds ⟨quiet, label, others, own, taken⟩
    obtain ⟨sound, same⟩ := holds.others others
    rw [← same]
    exact sound.rank_step own taken
  · intro last _ stuck
    by_contra waiting
    have throws : reembedStep call last .throw = some last.thrown := by
      cases phase : last.phase with
      | answered answer => exact absurd ⟨answer, phase⟩ waiting
      | _ => simp [reembedStep, phase]
    exact stuck _ ⟨last, .throw, Relation.ReflTransGen.refl, rfl, throws⟩

end Ends

-- The answer

/-- What a call's answer and its steps say of the row. -/
structure AnswersHonestly (call : ReembedCall) (state : ReembedState) : Prop where
  success
    : ∀ updatedAt token, state.phase = .answered (.written updatedAt token)
      → ShownAfterCommit call state.log token
  unmarked
    : ∀ answer, state.phase = .answered answer
      → (∀ updatedAt token, answer ≠ .written updatedAt token) → state.outcomeUnknown = false
      → NothingLanded state.log ∨ answer = .refused notFound
  withheld
    : ∀ answer, state.phase = .answered answer → state.outcomeUnknown = false
      → .withheldCommitted true ∈ state.log → answer = .refused withheldWriteResult
  absent
    : state.phase = .answered (.refused notFound)
      → ∃ earlier, state.log = .opened none :: earlier
  frame
    : ∀ label after, label.own = true → reembedStep call state label = some after
      → ∀ field, fieldOf after.stored field = fieldOf state.stored field
        ∨ state.phase.MayWrite field
  attempts : state.attempt ≤ reembedWriteAttempts
  settles : Settles (Moves call) ReembedState.Answered state

/-- In every run a success was read back after the commit, any other answer that leaves the id
unmarked has landed nothing or found no row, a commit writes only its fields, and the call ends
within its attempts.
-/
theorem reembed_answers_honestly {call : ReembedCall} {state : ReembedState}
    (h : (storedRowReembed call).Reachable state)
    : AnswersHonestly call state := by
  have sound := sound_of_reachable h
  have holds := sound.holds
  refine ⟨?_, ?_, ?_, ?_, fun _ _ => sound.frame, sound.attempts, sound.settles⟩
  · intro updatedAt token phase
    rw [phase] at holds
    exact holds
  · intro answer phase failed unmarked
    rw [phase] at holds
    cases answer with
    | written updatedAt token => exact absurd rfl (failed updatedAt token)
    | threw => exact .inl (sound.confirmed holds)
    | refused response =>
      rcases holds with ⟨-, marked⟩ | ⟨absent, -⟩ | ⟨-, confirmed⟩
      · rw [unmarked] at marked
        cases marked
      · exact .inr (by rw [absent])
      · exact .inl (sound.confirmed confirmed)
  · intro answer phase unmarked landed
    obtain ⟨other, answered, marked | withheld⟩ := sound.withheld landed
    · rw [unmarked] at marked
      cases marked
    · rw [phase] at answered
      cases answered
      exact withheld
  · intro phase
    rw [phase] at holds
    rcases holds with ⟨unknown, -⟩ | ⟨-, absent⟩ | ⟨other, -⟩
    · exact absurd unknown (by decide)
    · exact absent
    · exact absurd rfl other

def legacyRow : Record :=
  Record.ofFields [("id", .str "m"), ("agentId", .str "a"), ("content", .str "text")]

def legacyReembed : ReembedCall where
  world := {
    modelBase := "base"
    prefixesEnabled := false
    computeContentHash := fun agentId text => agentId ++ text
    embed := fun _ => .threw
    adminPass := false
    lock := fun _ => .done
    request := fun _ => .unreachable
    readable := fun _ _ => true
    commit := fun _ _ => .fails
    now := ""
    newInstanceToken := "" }
  auth := .internal
  preRead := legacyRow
  vector := .arr [.num 1]

def legacyStart : ReembedState where
  stored := some legacyRow
  textToEmbed := skillEmbedText legacyRow
  embedding := .arr [.num 1]
  attempt := 1
  committedUnconfirmed := false
  outcomeUnknown := false
  phase := .opening
  log := [.computed (skillEmbedText legacyRow) (.arr [.num 1])]

theorem legacyStart_initial : (storedRowReembed legacyReembed).initial legacyStart :=
  ⟨rfl, rfl, rfl, rfl, rfl, rfl, rfl⟩

/-- Witness: a re-embed of a row that gets its token. -/
theorem reembed_answers_honestly_legacy
    : ∃ state, state.phase = .answered (.written "now" "fresh")
        ∧ AnswersHonestly legacyReembed state := by
  have runs : ((storedRowReembed legacyReembed).run legacyStart
      [.read, .stage "now" "fresh", .read, .commit true, .read]).any (fun state =>
        state.phase = .answered (.written "now" "fresh")) = true := by
    decide
  obtain ⟨state, run, answered⟩ := (Option.any_eq_true _ _).mp runs
  exact ⟨state, of_decide_eq_true answered,
    reembed_answers_honestly (System.reachable_of_run legacyStart_initial run)⟩

/-- A token stored between the confirmation and the commit is replaced, and an update whose
result was withheld lands though the answer does not mark the id.
-/
theorem reembed_replaces_token
    : (∃ state after row, (storedRowReembed legacyReembed).Reachable state
        ∧ reembedStep legacyReembed state (.commit true) = some after
        ∧ state.stored = some row ∧ storedInstanceToken row = some "other"
        ∧ fieldOf after.stored "instanceToken" = some (.str "fresh"))
      ∧ ∃ state, (storedRowReembed legacyReembed).Reachable state
        ∧ state.phase = .answered (.refused withheldWriteResult) ∧ state.outcomeUnknown = false
        ∧ .withheldCommitted true ∈ state.log := by
  constructor
  · have runs : ((storedRowReembed legacyReembed).run legacyStart
        [.read, .stage "now" "fresh", .read,
          .other (some (legacyRow.set "instanceToken" (.str "other")))]).any (fun state =>
          (reembedStep legacyReembed state (.commit true)).any fun after =>
            state.stored.any fun row => storedInstanceToken row = some "other"
              && fieldOf after.stored "instanceToken" = some (.str "fresh")) = true := by
      decide
    obtain ⟨state, run, checks⟩ := (Option.any_eq_true _ _).mp runs
    obtain ⟨after, taken, checks⟩ := (Option.any_eq_true _ _).mp checks
    obtain ⟨row, stored, checks⟩ := (Option.any_eq_true _ _).mp checks
    simp only [Bool.and_eq_true, decide_eq_true_eq] at checks
    exact ⟨state, after, row, System.reachable_of_run legacyStart_initial run, taken, stored,
      checks.1, checks.2⟩
  · have runs : ((storedRowReembed legacyReembed).run legacyStart
        [.read, .withhold "now" "fresh", .commit true]).any (fun state =>
          state.phase = .answered (.refused withheldWriteResult) && !state.outcomeUnknown
            && decide (.withheldCommitted true ∈ state.log)) = true := by
      decide
    obtain ⟨state, run, checks⟩ := (Option.any_eq_true _ _).mp runs
    simp only [Bool.and_eq_true, Bool.not_eq_true', decide_eq_true_eq] at checks
    exact ⟨state, System.reachable_of_run legacyStart_initial run, checks.1.1, checks.1.2, checks.2⟩

end Flair.Reembeds
