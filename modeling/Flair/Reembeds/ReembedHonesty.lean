import Flair.Reembeds.RowReembed

/-! What a re-embed's answer says about the row, along every run beside other writers. -/

namespace Flair.Reembeds

open Dynamic Transition Migrations WriteBack

-- What an answer says

/-- The embedding bookkeeping and `updatedAt`. -/
def bookkeepingFields : List String :=
  ["embedding", "embeddingModel", "updatedAt", "embeddedContentHash"]

/-- The row the attempt has read last before the commit it is about to make. -/
def ReembedPhase.lastRead : ReembedPhase → Option Record
  | .withheld write => some write.stored
  | .confirmed _ committed => some committed
  | _ => none

def ReembedLabel.own : ReembedLabel → Bool
  | .other _ => false
  | _ => true

def ReembedState.Answered (state : ReembedState) : Prop :=
  ∃ answer, state.phase = .answered answer

structure ShowsReembed (call : ReembedCall) (log : List ReembedEvent) (identity row : Record)
    : Prop where
  same : sameStoredRow (some row) (some identity) = true
  vector
    : ∃ vector, .computed (skillEmbedText row) vector ∈ log ∧ row.get "embedding" = some vector
  model
    : ∃ model, getModelId call.world = .ok model ∧ row.get "embeddingModel" = some (.str model)
  hash : row.get "embeddedContentHash" = some (hashValue (embeddedTextHash call.world row))

/-- A success: the last thing the call did was to read, after its commit, the row it had read
before it, as that commit left it.
-/
structure ShownAfterCommit (call : ReembedCall) (log : List ReembedEvent) (token : String)
    : Prop where
  shown
    : ∃ write row landed earlier, log = .readBack (some row) :: .committed write landed :: earlier
      ∧ .opened (some write.stored) ∈ earlier
      ∧ ShowsReembed call log (write.stored.set "instanceToken" (.str token)) row

/-- Nothing the call committed has landed, the update of a withheld result aside. -/
def NothingLanded (log : List ReembedEvent) : Prop := ∀ write, .committed write true ∉ log

def AnswerHolds (call : ReembedCall) (state : ReembedState) : ReembedAnswer → Prop
  | .written _ token => ShownAfterCommit call state.log token
  | .refused response =>
    response = writeOutcomeUnknown ∧ state.outcomeUnknown = true
      ∨ response = notFound ∧ (∃ earlier, state.log = .opened none :: earlier)
      ∨ response ≠ notFound ∧ state.committedUnconfirmed = false
  | .threw => state.committedUnconfirmed = false

-- What holds along a run

def ReembedState.Computed (state : ReembedState) : Prop :=
  .computed state.textToEmbed state.embedding ∈ state.log

structure Builds (call : ReembedCall) (text : Option Value) (embedding : Value)
    (log : List ReembedEvent) (write : ReembedWrite)
    : Prop where
  computed : .computed text embedding ∈ log
  opened : .opened (some write.stored) ∈ log
  text : skillEmbedText write.stored = text
  built
    : ∃ model updatedAt newToken, getModelId call.world = .ok model
      ∧ write = reembedWrite call model embedding write.stored updatedAt newToken

abbrev ReembedState.Builds (state : ReembedState) (call : ReembedCall) (write : ReembedWrite)
    : Prop :=
  Reembeds.Builds call state.textToEmbed state.embedding state.log write

def PhaseHolds (call : ReembedCall) (state : ReembedState) : ReembedPhase → Prop
  | .opening => state.Computed
  | .staging stored =>
    state.Computed ∧ .opened (some stored) ∈ state.log
      ∧ skillEmbedText stored = state.textToEmbed
  | .withheld write | .staged write => state.Builds call write
  | .confirmed write committed =>
    state.Builds call write ∧ sameStoredRow (some committed) (some write.stored) = true
  | .verifying write =>
    state.Builds call write
      ∧ ∃ landed earlier, state.log = .committed write landed :: earlier
        ∧ .opened (some write.stored) ∈ earlier
  | .recomputing text =>
    state.textToEmbed = some (.str text) ∧ state.attempt < reembedWriteAttempts
  | .answered answer => AnswerHolds call state answer

structure Bounded (state : ReembedState) : Prop where
  attempts : state.attempt ≤ reembedWriteAttempts
  confirmed : state.committedUnconfirmed = false → NothingLanded state.log

structure Sound (call : ReembedCall) (state : ReembedState) : Prop extends Bounded state where
  withheld
    : .withheldCommitted true ∈ state.log
      → ∃ answer, state.phase = .answered answer
        ∧ (state.outcomeUnknown = true ∨ answer = .refused withheldWriteResult)
  holds : PhaseHolds call state state.phase

variable {state : ReembedState}

theorem Bounded.goto (bounded : Bounded state) (phase : ReembedPhase)
    : Bounded (state.goto phase) :=
  ⟨bounded.attempts, bounded.confirmed⟩

theorem Bounded.note (bounded : Bounded state) {event : ReembedEvent}
    (quiet : ∀ write, event ≠ .committed write true)
    : Bounded (state.note event) := by
  refine ⟨bounded.attempts, ?_⟩
  intro confirmed write member
  rcases List.mem_cons.mp member with rfl | earlier
  · exact quiet write rfl
  · exact bounded.confirmed confirmed write earlier

variable {call : ReembedCall}

theorem Bounded.unknown (bounded : Bounded state)
    : Sound call state.writeOutcomeUnknownFor :=
  { attempts := bounded.attempts
    confirmed := bounded.confirmed
    withheld := fun _ => ⟨_, rfl, .inl rfl⟩
    holds := .inl ⟨rfl, rfl⟩ }

theorem Bounded.settle (bounded : Bounded state) {response : PatchResponse}
    (other : response ≠ notFound)
    (withheld : .withheldCommitted true ∈ state.log → response = withheldWriteResult)
    : Sound call (state.settle response) := by
  unfold ReembedState.settle
  split
  · exact bounded.unknown
  rename_i confirmed
  exact {
    attempts := bounded.attempts
    confirmed := bounded.confirmed
    withheld := fun member => ⟨_, rfl, .inr (by rw [withheld member])⟩
    holds := .inr (.inr ⟨other, eq_false_of_ne_true confirmed⟩) }

theorem Bounded.thrown (bounded : Bounded state) (quiet : .withheldCommitted true ∉ state.log)
    : Sound call state.thrown := by
  unfold ReembedState.thrown
  split
  · exact bounded.unknown
  rename_i confirmed
  exact {
    attempts := bounded.attempts
    confirmed := bounded.confirmed
    withheld := fun member => absurd member quiet
    holds := eq_false_of_ne_true confirmed }

theorem Sound.quiet (sound : Sound call state) (waiting : ¬ state.Answered)
    : .withheldCommitted true ∉ state.log :=
  fun member =>
    let ⟨answer, answered, _⟩ := sound.withheld member
    waiting ⟨answer, answered⟩

theorem Bounded.sound (bounded : Bounded state) (quiet : .withheldCommitted true ∉ state.log)
    (holds : PhaseHolds call state state.phase)
    : Sound call state :=
  { bounded with
    withheld := fun member => absurd member quiet
    holds }

-- The steps

section Steps

variable {call : ReembedCall} {state : ReembedState}

theorem sound_openStep (sound : Sound call state) (phase : state.phase = .opening)
    : Sound call (openStep call state) := by
  have waiting : ¬ state.Answered := by
    rintro ⟨answer, answered⟩
    rw [phase] at answered
    cases answered
  have quiet := sound.quiet waiting
  have computed : state.Computed := by
    have holds := sound.holds
    rw [phase] at holds
    exact holds
  have bounded : Bounded (state.note (.opened state.stored)) :=
    sound.toBounded.note (fun _ => nofun)
  have quietNow : .withheldCommitted true ∉ (state.note (.opened state.stored)).log := by
    simpa [ReembedState.note] using quiet
  have settles {response : PatchResponse} (other : response ≠ notFound)
      : Sound call ((state.note (.opened state.stored)).settle response) :=
    bounded.settle other fun member => absurd member quietNow
  unfold openStep
  cases read : state.stored with
  | none =>
    rw [read] at bounded quietNow
    exact (bounded.goto _).sound quietNow (.inr (.inl ⟨rfl, state.log, rfl⟩))
  | some stored =>
    rw [read] at bounded quietNow settles
    dsimp only
    split
    · exact settles (by decide)
    split
    · exact settles (by decide)
    rename_i text found
    split
    · rename_i same
      refine (bounded.goto _).sound quietNow ⟨?_, ?_, same⟩
      · exact List.mem_cons_of_mem _ computed
      · exact List.mem_cons_self
    · split
      · exact settles (by decide)
      rename_i more
      have recomputes : Bounded ({ state.note (.opened (some stored)) with
          textToEmbed := some (.str text) }.goto (.recomputing text)) :=
        ⟨bounded.attempts, bounded.confirmed⟩
      exact recomputes.sound quietNow
        ⟨rfl, lt_of_le_of_ne sound.attempts more⟩

variable {write : ReembedWrite}

theorem sound_confirmStep (bounded : Bounded state) (quiet : .withheldCommitted true ∉ state.log)
    (builds : state.Builds call write)
    : Sound call (confirmStep state write) := by
  have changed : Sound call (state.settle storedRowChanged) :=
    bounded.settle (by decide) fun member => absurd member quiet
  unfold confirmStep
  cases state.stored with
  | none => exact changed
  | some committed =>
    dsimp only
    split
    · rename_i checked
      simp only [Bool.and_eq_true] at checked
      exact (bounded.goto _).sound quiet
        ⟨builds, checked.1⟩
    · exact changed

theorem builds_shows (builds : state.Builds call write) {row : Record}
    (text : skillEmbedText row = state.textToEmbed)
    (shown : committedShowsFields (some row) (some write.identity) write.fields = true)
    : ShowsReembed call state.log (write.stored.set "instanceToken" (.str write.token)) row := by
  obtain ⟨model, updatedAt, newToken, current, built⟩ := builds.built
  have identity : write.identity = write.stored.set "instanceToken" (.str write.token) := by
    rw [built]
    rfl
  have same : sameStoredRow (some row) (some write.identity) = true := by
    simp only [committedShowsFields, Bool.and_eq_true] at shown
    exact shown.1
  have agent : row.get "agentId" = write.stored.get "agentId" := by
    have agrees := (SameIdentity.of_sameStoredRow same).rest "agentId" (by decide) (by decide)
    rw [agrees, identity]
    simp
  have staged {field : String} {value : Value}
      (written
        : (reembedWrite call model state.embedding write.stored updatedAt newToken).fields.get field
          = some value)
      : row.get field = some value :=
    get_of_committedShowsFields shown (by rw [built]; exact written)
  have textHash : embeddedTextHash call.world row = embeddedTextHash call.world write.stored := by
    rw [embeddedTextHash, embeddedTextHash, agent, text, builds.text]
  let world := { call.world with now := updatedAt, newInstanceToken := newToken }
  have makes : MakesCurrent world model write.stored
      (reembedUpdate world model state.embedding write.stored) :=
    reembedUpdate_makesCurrent model state.embedding write.stored
  have vector : (reembedWrite call model state.embedding write.stored updatedAt newToken).fields.get
      "embedding" = some state.embedding := by
    simp only [reembedWrite, reembedUpdate]
    split <;> simp [embeddingFields, Record.ofFields]
  exact {
    same := by rw [← identity]; exact same
    vector := ⟨state.embedding, by rw [text]; exact builds.computed, staged vector⟩
    model := ⟨model, current, staged makes.model⟩
    hash := by rw [textHash]; exact staged makes.hash }

theorem sound_verifyStep (bounded : Bounded state) (quiet : .withheldCommitted true ∉ state.log)
    (builds : state.Builds call write)
    (last : ∃ landed earlier, state.log = .committed write landed :: earlier
      ∧ .opened (some write.stored) ∈ earlier)
    : Sound call (verifyStep state write) := by
  have noted : Bounded (state.note (.readBack state.stored)) := bounded.note (fun _ => nofun)
  have quietNow : .withheldCommitted true ∉ (state.note (.readBack state.stored)).log := by
    simpa [ReembedState.note] using quiet
  unfold verifyStep
  dsimp only
  split
  · rename_i verified
    obtain ⟨text, verdict⟩ := Bool.and_eq_true_iff.mp verified
    refine (noted.goto _).sound quietNow ⟨?_⟩
    cases read : state.stored with
    | none => simp [read, verifyCommittedFields] at verdict
    | some row =>
      rw [read] at text verdict
      have shown : committedShowsFields (some row) (some write.identity) write.fields = true :=
        committedShowsFields_of_verify (of_decide_eq_true verdict)
      obtain ⟨landed, earlier, history, opened⟩ := last
      obtain ⟨same, ⟨vector, computed, held⟩, model, hash⟩ :=
        builds_shows builds (by simpa using text) shown
      refine ⟨write, row, landed, earlier, ?_, opened, same, ⟨vector, ?_, held⟩, model, hash⟩
      · simp [read, history]
      · exact List.mem_cons_of_mem _ computed
  · split
    · exact noted.unknown
    rename_i more
    have next : Bounded (state.note (.readBack state.stored)).nextAttempt :=
      ⟨lt_of_le_of_ne bounded.attempts more, noted.confirmed⟩
    exact next.sound quietNow (List.mem_cons_of_mem _ builds.computed)

theorem sound_recomputeStep {text : String} {answer : Provider} (bounded : Bounded state)
    (quiet : .withheldCommitted true ∉ state.log)
    (changed : state.textToEmbed = some (.str text)) (more : state.attempt < reembedWriteAttempts)
    : Sound call (recomputeStep state text answer) := by
  cases answer with
  | timedOut => exact bounded.settle (by decide) fun member => absurd member quiet
  | threw => exact bounded.thrown quiet
  | vector recomputed =>
    unfold recomputeStep
    dsimp only
    split
    · have next : Bounded ({ state with embedding := recomputed }.note
          (.computed (some (.str text)) recomputed)).nextAttempt :=
        ⟨more, fun confirmed write member =>
          bounded.confirmed confirmed write
            (by simpa [ReembedState.nextAttempt, ReembedState.note] using member)⟩
      have quietNext : .withheldCommitted true ∉ ({ state with embedding := recomputed }.note
          (.computed (some (.str text)) recomputed)).nextAttempt.log := by
        simpa [ReembedState.nextAttempt, ReembedState.note] using quiet
      refine next.sound quietNext ?_
      change ReembedEvent.computed state.textToEmbed recomputed ∈ _
      rw [changed]
      exact List.mem_cons_self
    · exact bounded.settle (by decide) fun member => absurd member quiet

theorem builds_of_staging {stored : Record} {model updatedAt newToken : String}
    (holds : PhaseHolds call state (.staging stored)) (current : getModelId call.world = .ok model)
    : state.Builds call (reembedWrite call model state.embedding stored updatedAt newToken) := by
  obtain ⟨computed, opened, text⟩ := holds
  exact ⟨computed, opened, text, model, updatedAt, newToken, current, rfl⟩

theorem sound_withheldCommit (bounded : Bounded state) (fields : Record) (landed : Bool)
    : Sound call (((state.land fields landed).note (.withheldCommitted landed)).settle
        withheldWriteResult) := by
  have landedBounds : Bounded (state.land fields landed) := ⟨bounded.attempts, bounded.confirmed⟩
  have noted : Bounded ((state.land fields landed).note (.withheldCommitted landed)) := by
    refine landedBounds.note ?_
    intro write equal
    cases equal
  exact noted.settle (by decide) fun _ => rfl

theorem sound_commit (bounded : Bounded state) (quiet : .withheldCommitted true ∉ state.log)
    (builds : state.Builds call write) (landed : Bool)
    : Sound call ({ (state.land write.fields landed).note (.committed write landed) with
        committedUnconfirmed := true }.goto (.verifying write)) := by
  refine Bounded.sound ⟨bounded.attempts, fun confirmed => ?_⟩ ?_ ⟨?_, ?_⟩
  · cases confirmed
  · simpa [ReembedState.goto, ReembedState.note, ReembedState.land] using quiet
  · exact ⟨List.mem_cons_of_mem _ builds.computed, List.mem_cons_of_mem _ builds.opened,
      builds.text, builds.built⟩
  · exact ⟨landed, state.log, rfl, builds.opened⟩

theorem phaseHolds_other {phase : ReembedPhase} (holds : PhaseHolds call state phase)
    (row : Option Record)
    : PhaseHolds call { state with stored := row } phase := by
  cases phase with
  | answered answer => cases answer <;> exact holds
  | _ => exact holds

theorem Sound.step {label : ReembedLabel} {after : ReembedState} (sound : Sound call state)
    (taken : reembedStep call state label = some after)
    : Sound call after := by
  have holds := sound.holds
  have bounded := sound.toBounded
  have quiet {phase : ReembedPhase} (at_phase : state.phase = phase)
      (waiting : ∀ answer, phase ≠ .answered answer)
      : .withheldCommitted true ∉ state.log := by
    refine sound.quiet ?_
    rintro ⟨answer, answered⟩
    exact waiting answer (at_phase.symm.trans answered)
  cases label with
  | other row =>
    cases taken
    exact ⟨⟨bounded.attempts, bounded.confirmed⟩, sound.withheld, phaseHolds_other holds row⟩
  | read =>
    cases phase : state.phase <;> simp only [reembedStep, phase, reduceCtorEq] at taken holds
    case opening =>
        cases taken
        exact sound_openStep sound phase
    case staged write =>
        cases taken
        exact sound_confirmStep bounded (quiet phase nofun) holds
    case verifying write =>
        cases taken
        exact sound_verifyStep bounded (quiet phase nofun) holds.1 holds.2
  | stage updatedAt newToken | withhold updatedAt newToken =>
    cases phase : state.phase <;> simp only [reembedStep, phase, reduceCtorEq] at taken holds
    case staging stored =>
        cases current : getModelId call.world with
        | error message => simp [current] at taken
        | ok model =>
          rw [current] at taken
          cases taken
          exact (bounded.goto _).sound (quiet phase nofun) (builds_of_staging holds current)
  | commit landed =>
    cases phase : state.phase <;> simp only [reembedStep, phase, reduceCtorEq] at taken holds
    case withheld write =>
        cases taken
        exact sound_withheldCommit bounded write.fields landed
    case confirmed write committed =>
        cases taken
        exact sound_commit bounded (quiet phase nofun) holds.1 landed
  | provider answer =>
    cases phase : state.phase <;> simp only [reembedStep, phase, reduceCtorEq] at taken holds
    case recomputing text =>
        cases taken
        exact sound_recomputeStep bounded (quiet phase nofun) holds.1 holds.2
  | throw =>
    cases phase : state.phase <;> simp only [reembedStep, phase, reduceCtorEq] at taken
    all_goals
      cases taken
      exact bounded.thrown (quiet phase nofun)

theorem Sound.initially {state : ReembedState} (h : (storedRowReembed call).initial state)
    : Sound call state := by
  obtain ⟨text, embedding, attempt, unconfirmed, -, phase, log⟩ := h
  refine Bounded.sound ⟨by simp [attempt, reembedWriteAttempts], ?_⟩ (by simp [log]) ?_
  · intro _ write member
    simp [log] at member
  · rw [phase]
    change ReembedEvent.computed state.textToEmbed state.embedding ∈ state.log
    simp [text, embedding, log]

theorem sound_of_reachable {state : ReembedState} (h : (storedRowReembed call).Reachable state)
    : Sound call state :=
  System.Reachable.invariant (fun _ => Sound.initially) (fun _ _ _ sound => sound.step) h

end Steps

end Flair.Reembeds
