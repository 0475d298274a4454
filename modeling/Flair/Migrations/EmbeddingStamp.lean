import Mathlib.Algebra.Order.Ring.Rat
import Flair.EmbeddingSpace.Stamps
import Flair.Memories.Attributes
import Flair.Migrations.MemoryRows

/-! The batch of the migration that re-embeds rows whose stored embedding is not current: over
the loopback re-embed request, or in its own transaction for an id that request cannot address.
Follows `resources/migrations/embedding-stamp.ts`, `resources/memory-embed-hash.ts` and the
re-embed of `resources/Memory.ts`, no other writer changing a row during the run.
-/

namespace Flair.Migrations

open Dynamic WriteBack EmbeddingSpace Memories Batching

-- What a row embeds

def nonEmptyText (value : Option Value) : Option String := (asString value).filter (· ≠ "")

def embedTextField (row : Record) : String :=
  if isSkillWrite row && (nonEmptyText (row.get "trigger")).isSome then "trigger" else "content"

def skillEmbedText (row : Record) : Option Value := row.get (embedTextField row)

/-- A vector that may be stored as current: a non-empty array of numbers. -/
def isUsableEmbedding : Value → Bool
  | .arr items => items ≠ [] && items.all fun item => match item with | .num _ => true | _ => false
  | _ => false

inductive Provider where
  | vector (value : Value)
  | timedOut
  | threw
deriving DecidableEq

/-- How the loopback request ends: it does not reach the server, is answered without the
re-embed, or is handled; then the row may not be shown once more after the commit, and the
answer may be lost.
-/
inductive LoopbackRequest where
  | unreachable
  | rejected
  | handled (confirmed delivered : Bool)
deriving DecidableEq

/-- What the rows of a run meet: the model of the installation, the provider, and for each id
its lock and what its reads, commits and request do.
-/
structure StampWorld where
  modelBase : String
  prefixesEnabled : Bool
  computeContentHash : String → String → String
  embed : String → Provider
  adminPass : Bool
  lock : String → LockAnswer
  request : String → LoopbackRequest
  readable : String → Nat → Bool
  commit : String → Nat → Commit
  now : String
  newInstanceToken : String

variable (world : StampWorld)

/-- `getModelId`: a model name that holds a colon is refused. -/
def getModelId : Except String String :=
  if ':' ∈ world.modelBase.toList then
    .error "[embeddings] FLAIR_EMBEDDING_MODEL must not contain ':'"
  else
    .ok (embeddingEngine ++ ":" ++ world.modelBase
      ++ (if world.prefixesEnabled then "+searchprefix" else ""))

def hashEmbeddedText (agentId text : Option Value) : Option String :=
  (nonEmptyText agentId).bind fun agentId =>
    (nonEmptyText text).map fun text => world.computeContentHash agentId text

def embeddedTextHash (row : Record) : Option String :=
  hashEmbeddedText world (row.get "agentId") (skillEmbedText row)

def embeddedHashMatches (row : Record) : Bool :=
  isNullish (row.get "embeddedContentHash")
    || ((embeddedTextHash world row).any fun expected =>
      decide (row.get "embeddedContentHash" = some (.str expected)))

/-- `String(row.embeddingModel)`, a nullish one being none. -/
def rowStamp (row : Record) : Option String :=
  if isNullish (row.get "embeddingModel") then none
  else some (idText (row.get "embeddingModel"))

def rowEmbeddingCurrent (row : Record) (currentModelId : String) : Bool :=
  isCurrentSpaceStamp (rowStamp row) currentModelId && embeddedHashMatches world row

/-- A hash as it is stored: `hash ?? null`. -/
def hashValue (hash : Option String) : Value := (hash.map Value.str).getD .null

def embeddingFields (currentModelId : String) (embedding : Value) (row : Record) : Record :=
  .ofFields [("embedding", embedding), ("embeddingModel", .str currentModelId),
    ("updatedAt", .str world.now), ("embeddedContentHash", hashValue (embeddedTextHash world row))]

-- The migration's own transaction

/-- `CONTENT_SUFFIX_REGEN_ATTEMPTS` and `REEMBED_WRITE_ATTEMPTS` -/
def regenAttempts : Nat := 3

structure StagedVector where
  embedding : Value
  text : String
deriving DecidableEq

inductive ContentSuffixAttempt where
  | skipped
  | lock (answer : LockAnswer)
  | verified (verdict : CommittedWriteVerdict) (staged : StagedVector)
deriving DecidableEq

/-- `matchesStagedComponent`, for the finite numbers a value holds. -/
def matchesStagedComponent (stored staged : Rat) : Bool :=
  decide (|stored - staged| ≤ max 1 (max |stored| |staged|) / 1000000)

def matchesStagedVector : Option Value → Value → Bool
  | some (.arr stored), .arr staged =>
    stored.length == staged.length
      && (stored.zip staged).all fun pair =>
        match pair with
        | (.num value, .num other) => matchesStagedComponent value other
        | _ => false
  | _, _ => false

def holdsOwnStaleVector (row : Record) : Option StagedVector → Bool
  | none => false
  | some staged =>
    decide (skillEmbedText row ≠ some (.str staged.text))
      && matchesStagedVector (row.get "embedding") staged.embedding

/-- One attempt of the `.content`-suffix re-embed, and the row it leaves. -/
def regenContentSuffixRow (currentModelId : String) (attempt : Nat) (row : Record)
    : ContentSuffixAttempt × Record :=
  match nonEmptyText (skillEmbedText row) with
  | none => (.skipped, row)
  | some text =>
    match world.embed text with
    | .timedOut | .threw => (.skipped, row)
    | .vector embedding =>
      if !isUsableEmbedding embedding then (.skipped, row)
      else if world.lock (rowId row) ≠ .done then (.lock (world.lock (rowId row)), row)
      else
        match world.commit (rowId row) attempt with
        | .fails => (.skipped, row)
        | .resolves landed readable =>
          let fields := embeddingFields world currentModelId embedding row
          let (stored, read) := Commit.over landed readable row (row.assign fields)
          (.verified (verifyCommittedFields read (some row) fields) ⟨embedding, text⟩, stored)

/-- The attempts for one row whose first read is done: whether a write was verified, whether
one is unconfirmed, and the row they leave. A later read that fails ends the batch.
-/
def contentSuffixAttempts (currentModelId : String)
    : Nat → Nat → Bool → Option StagedVector → Record → RowStep
  | 0, _, unconfirmed, _, row => ⟨row, if unconfirmed then .unconfirmed else .left⟩
  | more + 1, attempt, unconfirmed, own, row =>
    if 1 < attempt ∧ world.readable (rowId row) attempt = false then
      ⟨row, .threw true unconfirmed "read failed"⟩
    else if 1 < attempt ∧ rowEmbeddingCurrent world row currentModelId = true
        ∧ holdsOwnStaleVector row own = false then
      ⟨row, if unconfirmed then .unconfirmed else .left⟩
    else
      match regenContentSuffixRow world currentModelId attempt row with
      | (.skipped, stored) | (.lock _, stored) =>
        ⟨stored, if unconfirmed then .unconfirmed else .left⟩
      | (.verified .shown _, stored) => ⟨stored, .touched⟩
      | (.verified .unreadable _, stored) => ⟨stored, .unconfirmed⟩
      | (.verified .mismatch staged, stored) =>
        contentSuffixAttempts currentModelId more (attempt + 1) true (some staged) stored

-- The loopback request

structure PatchResponse where
  status : Nat
  error : String
deriving DecidableEq

def writeOutcomeUnknown : PatchResponse := ⟨503, "write_outcome_unknown"⟩

def storedInstanceToken (row : Record) : Option String := nonEmptyText (row.get "instanceToken")

def reembedUpdate (currentModelId : String) (embedding : Value) (row : Record) : Record :=
  let fields := embeddingFields world currentModelId embedding row
  if (storedInstanceToken row).isSome then fields
  else fields.set "instanceToken" (.str world.newInstanceToken)

/-- The row a re-embed's read-back must still find. -/
def reembedIdentity (row : Record) : Record :=
  row.set "instanceToken" (.str ((storedInstanceToken row).getD world.newInstanceToken))

/-- `reembedAttempts`: a commit that was not shown is tried again, and once one is unconfirmed
every other end of the call is unknown.
-/
def reembedAttempts (currentModelId : String) (embedding : Value)
    : Nat → Nat → Bool → Record → PatchResponse × Record
  | 0, _, unconfirmed, row =>
    (if unconfirmed then writeOutcomeUnknown else ⟨409, "reembed_row_changed"⟩, row)
  | more + 1, attempt, unconfirmed, row =>
    match world.commit (rowId row) attempt with
    | .fails => (if unconfirmed then writeOutcomeUnknown else ⟨500, "storage"⟩, row)
    | .resolves landed readable =>
      let fields := reembedUpdate world currentModelId embedding row
      let (stored, read) := Commit.over landed readable row (row.assign fields)
      match verifyCommittedFields read (some (reembedIdentity world row)) fields with
      | .shown => (⟨200, ""⟩, stored)
      | .unreadable => (writeOutcomeUnknown, stored)
      | .mismatch =>
        if attempt = regenAttempts then (writeOutcomeUnknown, stored)
        else reembedAttempts currentModelId embedding more (attempt + 1) true stored

/-- The re-embed `PATCH` of a row by the admin: the lock, the text, the vector, the write. -/
def patchReembed (currentModelId : String) (row : Record) : PatchResponse × Record :=
  match world.lock (rowId row) with
  | .busy => (⟨503, "memory_busy"⟩, row)
  | .unavailable => (⟨503, "memory_lock_unavailable"⟩, row)
  | .unknown => (writeOutcomeUnknown, row)
  | .done =>
    match nonEmptyText (skillEmbedText row) with
    | none => (⟨422, "reembed_no_text"⟩, row)
    | some text =>
      match world.embed text with
      | .timedOut => (⟨503, "memory_provider_timeout"⟩, row)
      | .threw => (⟨500, "provider"⟩, row)
      | .vector embedding =>
        if !isUsableEmbedding embedding then (⟨503, "embedding_unavailable"⟩, row)
        else reembedAttempts world currentModelId embedding regenAttempts 1 false row

/-- `regenViaHttpPatch`: a success is a 2xx answer, and a 503 that names an unknown outcome is
reported as unconfirmed.
-/
def regenViaHttpPatch (currentModelId : String) (row : Record) : RowStep :=
  if world.adminPass = false then ⟨row, .left⟩
  else
    match world.request (rowId row) with
    | .unreachable | .rejected => ⟨row, .left⟩
    | .handled confirmed delivered =>
      let (response, stored) := patchReembed world currentModelId row
      let answer := if response.status = 200 ∧ confirmed = false then writeOutcomeUnknown
        else response
      if delivered = false then ⟨stored, .left⟩
      else if answer = writeOutcomeUnknown then ⟨stored, .unconfirmed⟩
      else if 200 ≤ answer.status ∧ answer.status < 300 then ⟨stored, .touched⟩
      else ⟨stored, .left⟩

-- The run

def stampAttempt (currentModelId : String) (existing : Record) : RowStep :=
  if world.readable (rowId existing) 1 = false then
    ⟨existing, .threw false false "read failed"⟩
  else if rowEmbeddingCurrent world existing currentModelId then ⟨existing, .left⟩
  else if endsWithContentSelectorSuffix (some (.str (rowId existing))) then
    contentSuffixAttempts world currentModelId regenAttempts 1 false none existing
  else regenViaHttpPatch world currentModelId existing

def staleCandidates (currentModelId : String) (batchSize : Nat)
    : List Record → List Record → List Record
  | candidates, [] => candidates
  | candidates, row :: rest =>
    let candidates :=
      if rowEmbeddingCurrent world row currentModelId then candidates else candidates ++ [row]
    if batchSize ≤ candidates.length then candidates
    else staleCandidates currentModelId batchSize candidates rest

def runEmbeddingStamp (batchSize : Nat) (table : MemoryTable)
    : MemoryTable × Except BatchError RunBatchResult :=
  match getModelId world with
  | .error message => (table, .error (.other message))
  | .ok current =>
    runBatch (stampAttempt world current) (staleCandidates world current batchSize [] table.rows)
      table

-- What an attempt makes of a row

structure Reembedded (currentModelId : String) (row stored : Record) : Prop where
  id : rowId stored = rowId row
  current : stored = row ∨ rowEmbeddingCurrent world stored currentModelId = true

structure MakesCurrent (currentModelId : String) (row fields : Record) : Prop where
  kept : ∀ field ∈ ["id", "agentId", "content", "tags", "trigger"], fields.get field = none
  model : fields.get "embeddingModel" = some (.str currentModelId)
  hash : fields.get "embeddedContentHash" = some (hashValue (embeddedTextHash world row))

variable {world}

theorem embeddingFields_makesCurrent (currentModelId : String) (embedding : Value) (row : Record)
    : MakesCurrent world currentModelId row (embeddingFields world currentModelId embedding row) := by
  refine ⟨?_, by simp [embeddingFields, Record.ofFields], by simp [embeddingFields, Record.ofFields]⟩
  intro field member
  simp only [List.mem_cons, List.not_mem_nil, or_false] at member
  rcases member with rfl | rfl | rfl | rfl | rfl <;> simp [embeddingFields, Record.ofFields]

theorem reembedUpdate_makesCurrent (currentModelId : String) (embedding : Value) (row : Record)
    : MakesCurrent world currentModelId row (reembedUpdate world currentModelId embedding row) := by
  have fields : MakesCurrent world currentModelId row
      (embeddingFields world currentModelId embedding row) :=
    embeddingFields_makesCurrent currentModelId embedding row
  unfold reembedUpdate
  dsimp only
  split
  · exact fields
  refine ⟨?_, by simp [fields.model], by simp [fields.hash]⟩
  intro field member
  rw [Record.get_set, fields.kept field member]
  simp only [List.mem_cons, List.not_mem_nil, or_false] at member
  rcases member with rfl | rfl | rfl | rfl | rfl <;> rfl

variable {currentModelId : String}

variable {row fields : Record}

theorem MakesCurrent.get (h : MakesCurrent world currentModelId row fields) {field : String}
    (member : field ∈ ["id", "agentId", "content", "tags", "trigger"])
    : (row.assign fields).get field = row.get field := by
  rw [Record.get_assign, h.kept field member, Option.none_or]

theorem MakesCurrent.rowId (h : MakesCurrent world currentModelId row fields)
    : rowId (row.assign fields) = rowId row := by
  unfold Migrations.rowId
  rw [h.get (by simp)]

theorem MakesCurrent.embeddedTextHash (h : MakesCurrent world currentModelId row fields)
    : embeddedTextHash world (row.assign fields) = embeddedTextHash world row := by
  have agent : (row.assign fields).get "agentId" = row.get "agentId" := h.get (by simp)
  have content : (row.assign fields).get "content" = row.get "content" := h.get (by simp)
  have tags : (row.assign fields).get "tags" = row.get "tags" := h.get (by simp)
  have trigger : (row.assign fields).get "trigger" = row.get "trigger" := h.get (by simp)
  have field : embedTextField (row.assign fields) = embedTextField row := by
    unfold embedTextField isSkillWrite
    rw [tags, trigger]
  have text : skillEmbedText (row.assign fields) = skillEmbedText row := by
    unfold skillEmbedText
    rw [field]
    unfold embedTextField
    split
    · exact trigger
    · exact content
  unfold Migrations.embeddedTextHash
  rw [agent, text]

theorem MakesCurrent.current (space : (normalizeStamp (some currentModelId)).isSome = true)
    (h : MakesCurrent world currentModelId row fields)
    : rowEmbeddingCurrent world (row.assign fields) currentModelId = true := by
  have model : (row.assign fields).get "embeddingModel" = some (.str currentModelId) := by
    rw [Record.get_assign, h.model, Option.some_or]
  have hash : (row.assign fields).get "embeddedContentHash"
      = some (hashValue (Migrations.embeddedTextHash world row)) := by
    rw [Record.get_assign, h.hash, Option.some_or]
  have stamp : rowStamp (row.assign fields) = some currentModelId := by
    simp [rowStamp, model, isNullish, idText]
  have same : embeddedHashMatches world (row.assign fields) = true := by
    unfold embeddedHashMatches
    rw [hash, h.embeddedTextHash]
    cases Migrations.embeddedTextHash world row <;> simp [hashValue, isNullish]
  simp [rowEmbeddingCurrent, isCurrentSpaceStamp, stamp, space, same]

theorem assign_of_shown {stored : Record} {identity : Option Record}
    (shown : committedShowsFields (some stored) identity fields = true)
    : stored.assign fields = stored := by
  have each := of_decide_eq_true (Bool.and_eq_true_iff.mp shown).2
  apply Record.ext_get
  intro field
  rw [Record.get_assign]
  cases written : fields.get field with
  | none => rfl
  | some value =>
    have held := each field (by simp [Record.has, written])
    rw [Option.bind_some, written] at held
    rw [held]
    rfl

variable {start : Record}

theorem MakesCurrent.commit {stored : Record} {landed readable : Bool}
    {read : Option (Option Record)} (space : (normalizeStamp (some currentModelId)).isSome = true)
    (h : MakesCurrent world currentModelId row fields)
    (before : Reembedded world currentModelId start row)
    (ended : Commit.over landed readable row (row.assign fields) = (stored, read))
    : Reembedded world currentModelId start stored
      ∧ ∀ identity, verifyCommittedFields read identity fields = .shown
        → rowEmbeddingCurrent world stored currentModelId = true := by
  obtain ⟨rfl, rfl⟩ := Prod.mk.inj ended
  have written := h.current space
  cases landed with
  | true => exact ⟨⟨h.rowId.trans before.id, .inr written⟩, fun _ _ => written⟩
  | false =>
    refine ⟨before, ?_⟩
    intro identity verified
    cases readable with
    | false => cases verified
    | true =>
      have shown : committedShowsFields (some row) identity fields = true := by
        by_contra hidden
        simp [verifyCommittedFields, hidden] at verified
      rw [assign_of_shown shown] at written
      exact written

theorem regenContentSuffixRow_reembedded
    (space : (normalizeStamp (some currentModelId)).isSome = true) (attempt : Nat)
    (before : Reembedded world currentModelId start row)
    : Reembedded world currentModelId start
        (regenContentSuffixRow world currentModelId attempt row).2
      ∧ ∀ staged, (regenContentSuffixRow world currentModelId attempt row).1
          = .verified .shown staged
        → rowEmbeddingCurrent world
          (regenContentSuffixRow world currentModelId attempt row).2 currentModelId = true := by
  unfold regenContentSuffixRow
  split
  · exact ⟨before, nofun⟩
  split
  · exact ⟨before, nofun⟩
  · exact ⟨before, nofun⟩
  rename_i embedding _
  split
  · exact ⟨before, nofun⟩
  split
  · exact ⟨before, nofun⟩
  split
  · exact ⟨before, nofun⟩
  rename_i landed readable _
  obtain ⟨stored, read, ended⟩ : ∃ stored read, Commit.over landed readable row
      (row.assign (embeddingFields world currentModelId embedding row))
      = (stored, read) := ⟨_, _, rfl⟩
  obtain ⟨after, shown⟩ :=
    (embeddingFields_makesCurrent currentModelId embedding row).commit space before ended
  dsimp only
  rw [ended]
  refine ⟨after, ?_⟩
  intro staged verified
  exact shown _ (ContentSuffixAttempt.verified.inj verified).1

theorem contentSuffixAttempts_reembedded
    (space : (normalizeStamp (some currentModelId)).isSome = true) (more attempt : Nat)
    (unconfirmed : Bool) (own : Option StagedVector)
    (before : Reembedded world currentModelId start row)
    : Reembedded world currentModelId start
        (contentSuffixAttempts world currentModelId more attempt unconfirmed own row).row
      ∧ ((contentSuffixAttempts world currentModelId more attempt unconfirmed own row).outcome
          = .touched
        → rowEmbeddingCurrent world
          (contentSuffixAttempts world currentModelId more attempt unconfirmed own row).row
          currentModelId = true) := by
  induction more generalizing attempt unconfirmed own row with
  | zero =>
    refine ⟨before, ?_⟩
    cases unconfirmed <;> nofun
  | succ more ih =>
    rw [contentSuffixAttempts]
    split
    · exact ⟨before, nofun⟩
    split
    · refine ⟨before, ?_⟩
      cases unconfirmed <;> nofun
    have tried := regenContentSuffixRow_reembedded space attempt before
    split <;> rename_i regen <;> rw [regen] at tried <;> obtain ⟨after, shown⟩ := tried
    · refine ⟨after, ?_⟩
      cases unconfirmed <;> nofun
    · refine ⟨after, ?_⟩
      cases unconfirmed <;> nofun
    · exact ⟨after, fun _ => shown _ rfl⟩
    · exact ⟨after, nofun⟩
    · exact ih (attempt + 1) true _ after

/-- The attempts of the re-embed request leave the row as it was or current, and current when
they answer success.
-/
theorem reembedAttempts_reembedded (space : (normalizeStamp (some currentModelId)).isSome = true)
    (embedding : Value) (more attempt : Nat) (unconfirmed : Bool)
    (before : Reembedded world currentModelId start row)
    : Reembedded world currentModelId start
        (reembedAttempts world currentModelId embedding more attempt unconfirmed row).2
      ∧ ((reembedAttempts world currentModelId embedding more attempt unconfirmed row).1.status
          < 300
        → rowEmbeddingCurrent world
          (reembedAttempts world currentModelId embedding more attempt unconfirmed row).2
          currentModelId = true) := by
  induction more generalizing attempt unconfirmed row with
  | zero => exact ⟨before, by cases unconfirmed <;> simp [reembedAttempts, writeOutcomeUnknown]⟩
  | succ more ih =>
    rw [reembedAttempts]
    split
    · exact ⟨before, by cases unconfirmed <;> simp [writeOutcomeUnknown]⟩
    rename_i landed readable _
    obtain ⟨stored, read, ended⟩ : ∃ stored read, Commit.over landed readable row
        (row.assign (reembedUpdate world currentModelId embedding row))
        = (stored, read) := ⟨_, _, rfl⟩
    obtain ⟨after, shown⟩ :=
      (reembedUpdate_makesCurrent currentModelId embedding row).commit space before ended
    dsimp only
    rw [ended]
    dsimp only
    split
    · rename_i verdict
      exact ⟨after, fun _ => shown _ verdict⟩
    · exact ⟨after, by simp [writeOutcomeUnknown]⟩
    · split
      · exact ⟨after, by simp [writeOutcomeUnknown]⟩
      · exact ih (attempt + 1) true after

theorem patchReembed_reembedded (space : (normalizeStamp (some currentModelId)).isSome = true)
    (row : Record)
    : Reembedded world currentModelId row (patchReembed world currentModelId row).2
      ∧ ((patchReembed world currentModelId row).1.status < 300
        → rowEmbeddingCurrent world (patchReembed world currentModelId row).2 currentModelId
          = true) := by
  have same : Reembedded world currentModelId row row := ⟨rfl, .inl rfl⟩
  unfold patchReembed
  split
  · exact ⟨same, by simp⟩
  · exact ⟨same, by simp⟩
  · exact ⟨same, by simp [writeOutcomeUnknown]⟩
  split
  · exact ⟨same, by simp⟩
  split
  · exact ⟨same, by simp⟩
  · exact ⟨same, by simp⟩
  · split
    · exact ⟨same, by simp⟩
    · exact reembedAttempts_reembedded space _ regenAttempts 1 false same

theorem regenViaHttpPatch_reembedded (space : (normalizeStamp (some currentModelId)).isSome = true)
    (row : Record)
    : Reembedded world currentModelId row (regenViaHttpPatch world currentModelId row).row
      ∧ ((regenViaHttpPatch world currentModelId row).outcome = .touched
        → rowEmbeddingCurrent world (regenViaHttpPatch world currentModelId row).row
          currentModelId = true) := by
  have same : Reembedded world currentModelId row row := ⟨rfl, .inl rfl⟩
  obtain ⟨after, success⟩ := @patchReembed_reembedded world currentModelId space row
  unfold regenViaHttpPatch
  split
  · exact ⟨same, nofun⟩
  split
  · exact ⟨same, nofun⟩
  · exact ⟨same, nofun⟩
  rename_i confirmed delivered _
  dsimp only
  generalize shown : (if (patchReembed world currentModelId row).1.status = 200
    ∧ confirmed = false then writeOutcomeUnknown
    else (patchReembed world currentModelId row).1) = answer
  split
  · exact ⟨after, nofun⟩
  split
  · exact ⟨after, nofun⟩
  rename_i known
  split
  · rename_i ok
    refine ⟨after, fun _ => success ?_⟩
    split at shown
    · exact absurd shown.symm known
    · exact shown ▸ ok.2
  · exact ⟨after, nofun⟩

theorem stampAttempt_reembedded (space : (normalizeStamp (some currentModelId)).isSome = true)
    (row : Record)
    : Reembedded world currentModelId row (stampAttempt world currentModelId row).row
      ∧ ((stampAttempt world currentModelId row).outcome = .touched
        → rowEmbeddingCurrent world (stampAttempt world currentModelId row).row currentModelId
          = true) := by
  have same : Reembedded world currentModelId row row := ⟨rfl, .inl rfl⟩
  unfold stampAttempt
  split
  · exact ⟨same, nofun⟩
  split
  · exact ⟨same, nofun⟩
  · split
    · exact contentSuffixAttempts_reembedded space regenAttempts 1 false none same
    · exact regenViaHttpPatch_reembedded space row

-- The model's stamp and the candidates of a batch

theorem mem_trim {text : String} {c : Char} (member : c ∈ text.toList) (visible : isSpace c = false)
    : c ∈ (trim text).toList := by
  have kept {chars : List Char} (inside : c ∈ chars) : c ∈ chars.dropWhile isSpace := by
    induction chars with
    | nil => exact inside
    | cons d rest ih =>
      rw [List.dropWhile_cons]
      split
      · rename_i space
        rcases List.mem_cons.mp inside with rfl | later
        · rw [visible] at space
          cases space
        · exact ih later
      · exact inside
  have once := kept member
  have reversed := kept (List.mem_reverse.mpr once)
  simpa [trim] using reversed

theorem normalizeStamp_of_colon {stamp : String} (colon : ':' ∈ stamp.toList)
    : (normalizeStamp (some stamp)).isSome = true := by
  have kept : ':' ∈ (trim stamp).toList := mem_trim colon (by decide)
  have named : ¬ (trim stamp = "" ∨ trim stamp ∈ nonSpaceStamps) := by
    rintro (blank | marker)
    · rw [blank] at kept
      cases kept
    · rw [List.mem_singleton.mp marker] at kept
      exact absurd kept (by decide)
  simp only [normalizeStamp, if_neg named, if_pos kept, Option.isSome_some]

theorem getModelId_space {current : String} (id : getModelId world = .ok current)
    : (normalizeStamp (some current)).isSome = true := by
  unfold getModelId at id
  split at id
  · cases id
  cases id
  refine normalizeStamp_of_colon ?_
  simp only [String.toList_append, List.mem_append]
  exact .inl (.inl (.inr (List.mem_singleton.mpr rfl)))

theorem staleCandidates_eq {batchSize : Nat} {candidates rows : List Record}
    (room : candidates.length < batchSize)
    : staleCandidates world currentModelId batchSize candidates rows
      = candidates ++ (rows.filter fun row => !rowEmbeddingCurrent world row currentModelId).take
        (batchSize - candidates.length) := by
  induction rows generalizing candidates with
  | nil => simp [staleCandidates]
  | cons row rest ih =>
    unfold staleCandidates
    cases current : rowEmbeddingCurrent world row currentModelId with
    | true =>
      rw [List.filter_cons_of_neg (by simp [current])]
      simp only [if_true]
      rw [if_neg (Nat.not_le_of_lt room), ih room]
    | false =>
      rw [List.filter_cons_of_pos (by simp [current])]
      simp only [Bool.false_eq_true, if_false, List.length_append, List.length_singleton]
      obtain ⟨left, size⟩ := Nat.exists_eq_add_of_lt room
      have more : batchSize - candidates.length = left + 1 := by omega
      rw [more, List.take_succ_cons]
      split
      · obtain rfl : left = 0 := by omega
        simp
      have next : batchSize - (candidates ++ [row]).length = left := by
        rw [List.length_append, List.length_singleton]
        omega
      rw [ih (by rw [List.length_append, List.length_singleton]; omega), next,
        List.append_assoc, List.singleton_append]

end Flair.Migrations
