import Flair.Federation.BatchResponses
import Flair.Federation.Classification

/-! Sending one batch to the hub: a POST that times out or is too large is halved and each
half is sent by itself, down to single records. Follows `sendBatch` of
`src/commands/federation.ts`, against a hub that may answer each POST in any way.
-/

namespace Flair.Federation

open Dynamic

-- One POST

/-- What comes back from a POST: no response before the cap, or a status with a body, which
is `none` where it is not JSON.
-/
inductive HubAnswer where
  | unreachable (message : String)
  | responded (status : Nat) (body : Option Value)

structure Post where
  batch : List SyncRecord
  answer : HubAnswer

/-- The way to the hub: the error of loading the secret key, when that fails, and the answer
to a batch after any number of earlier POSTs.
-/
structure HubLink where
  keyError : Option String
  answer : List Post → List SyncRecord → HubAnswer

/-- What a run keeps between batches: whether the secret key is loaded, and its POSTs. -/
structure SendState where
  keyLoaded : Bool
  posts : List Post

def SyncRecord.recordKey (record : SyncRecord) : RecordKey where
  table := record.table
  id := record.id

/-- `Response.ok`. -/
def okStatus (status : Nat) : Bool := decide (200 ≤ status ∧ status ≤ 299)

def timeoutStatuses : List Nat := [408, 413, 502, 503, 504]

/-- `splittable`: no status stands for a stalled or dropped connection. -/
def splittable (batch : List SyncRecord) (status : Option Nat) : Bool :=
  decide (batch.length > 1) && (status.all fun code => timeoutStatuses.contains code)

/-- Whether the answer makes `sendBatch` halve the batch. -/
def HubAnswer.splits (batch : List SyncRecord) : HubAnswer → Bool
  | .unreachable _ => splittable batch none
  | .responded status _ => !okStatus status && splittable batch (some status)

-- The answer to a batch that is not halved

def describeSyncBatchCountsRejection (body : Value) (batchSize : Nat) (table : String)
    : String :=
  match isSyncBatchCount (body.member "merged") batchSize,
      isSyncBatchCount (body.member "skipped") batchSize with
  | some merged, some skipped =>
    s!"{table}: merged {merged} + skipped {skipped} exceeds {batchSize} records offered"
  | _, _ => s!"{table}: merged/skipped are not counts from 0 to {batchSize}"

def invalidResponse (batch : List SyncRecord) (status : Nat) (body : Value) : String :=
  match parseSyncBatchCounts body batch.length with
  | none =>
    let table := (batch.head?.map SyncRecord.table).getD "batch"
    let detail := describeSyncBatchCountsRejection body batch.length table
    s!"Sync batch failed: invalid response (HTTP {status}, {detail})"
  | some _ =>
    s!"Sync batch failed: invalid response (HTTP {status}, outcomes do not account for "
      ++ s!"{batch.length} offered records)"

def readAnswer (validatePresence : Bool) (batch : List SyncRecord)
    : HubAnswer → Except String BatchResult
  | .unreachable message =>
    let plural := if batch.length = 1 then "" else "s"
    .error s!"Sync batch ({batch.length} record{plural}) failed: {message}"
  | .responded status body =>
    if okStatus status then
      match body with
      | none =>
        .error s!"Sync batch failed: invalid response (HTTP {status}, body is not JSON)"
      | some body =>
        match readBatchResponse (batch.map SyncRecord.recordKey) validatePresence body with
        | none => .error (invalidResponse batch status body)
        | some result => .ok result
    else .error s!"Sync batch failed: HTTP {status}"

def Post.accepted (validatePresence : Bool) (post : Post) : Option BatchResult :=
  match post.answer with
  | .responded status (some body) =>
    if okStatus status then
      readBatchResponse (post.batch.map SyncRecord.recordKey) validatePresence body
    else none
  | _ => none

-- Halving

/-- The sums and concatenations `split` returns for its two halves. -/
def BatchResult.append (left right : BatchResult) : BatchResult where
  merged := left.merged + right.merged
  skipped := left.skipped + right.skipped
  refused := left.refused ++ right.refused
  indeterminate := left.indeterminate ++ right.indeterminate

/-- `if (!secretKey) secretKey = await loadInstanceSecretKey(…)`. -/
def HubLink.loadKey (link : HubLink) (state : SendState) : Except String SendState :=
  if state.keyLoaded then .ok state
  else
    match link.keyError with
    | some message => .error message
    | none => .ok { state with keyLoaded := true }

def HubLink.post (link : HubLink) (batch : List SyncRecord) (state : SendState) : Post where
  batch
  answer := link.answer state.posts batch

def SendState.record (state : SendState) (post : Post) : SendState :=
  { state with posts := state.posts ++ [post] }

/-- `sendBatch`: the state it leaves, and the totals or the error it throws. -/
def sendBatch (link : HubLink) (validatePresence : Bool) (batch : List SyncRecord)
    (state : SendState)
    : SendState × Except String BatchResult :=
  match link.loadKey state with
  | .error message => (state, .error message)
  | .ok state =>
    let post := link.post batch state
    let state := state.record post
    if halved : post.answer.splits batch then
      have : batch.length > 1 := by
        cases answer : post.answer <;> simp_all [HubAnswer.splits, splittable]
      let mid := batch.length / 2
      match sendBatch link validatePresence (batch.take mid) state with
      | (state, .error message) => (state, .error message)
      | (state, .ok left) =>
        match sendBatch link validatePresence (batch.drop mid) state with
        | (state, .error message) => (state, .error message)
        | (state, .ok right) => (state, .ok (left.append right))
    else (state, readAnswer validatePresence batch post.answer)
termination_by batch.length
decreasing_by
  · simp only [List.length_take]
    omega
  · simp only [List.length_drop]
    omega

-- The POSTs that were answered and accepted

def acceptedPosts (validatePresence : Bool) (posts : List Post) : List (Post × BatchResult) :=
  posts.filterMap fun post => (post.accepted validatePresence).map fun result => (post, result)

def acceptedRecords (validatePresence : Bool) (posts : List Post) : List SyncRecord :=
  (acceptedPosts validatePresence posts).flatMap fun entry => entry.1.batch

/-- The accepted POSTs cut the batch into consecutive parts, so that every record of it is in
exactly one, and the result is the sum over them.
-/
structure AccountsFor (validatePresence : Bool) (batch : List SyncRecord) (posts : List Post)
    (result : BatchResult)
    : Prop where
  records : acceptedRecords validatePresence posts = batch
  merged
    : result.merged
      = ((acceptedPosts validatePresence posts).map fun entry => entry.2.merged).sum
  skipped
    : result.skipped
      = ((acceptedPosts validatePresence posts).map fun entry => entry.2.skipped).sum
  refused
    : result.refused
      = (acceptedPosts validatePresence posts).flatMap fun entry => entry.2.refused
  indeterminate
    : result.indeterminate
      = (acceptedPosts validatePresence posts).flatMap fun entry => entry.2.indeterminate

theorem acceptedPosts_append (validatePresence : Bool) (posts later : List Post)
    : acceptedPosts validatePresence (posts ++ later)
      = acceptedPosts validatePresence posts ++ acceptedPosts validatePresence later :=
  List.filterMap_append

theorem acceptedRecords_append (validatePresence : Bool) (posts later : List Post)
    : acceptedRecords validatePresence (posts ++ later)
      = acceptedRecords validatePresence posts ++ acceptedRecords validatePresence later := by
  rw [acceptedRecords, acceptedPosts_append, List.flatMap_append]
  rfl

variable {validatePresence : Bool} {post : Post}

theorem acceptedPosts_cons_rejected (rejected : post.accepted validatePresence = none)
    (posts : List Post)
    : acceptedPosts validatePresence (post :: posts) = acceptedPosts validatePresence posts := by
  rw [acceptedPosts, List.filterMap_cons_none (by rw [rejected]; rfl)]
  rfl

variable {result : BatchResult}

theorem acceptedPosts_single (accepted : post.accepted validatePresence = some result)
    : acceptedPosts validatePresence [post] = [(post, result)] := by
  simp [acceptedPosts, accepted]

theorem AccountsFor.of_single (accepted : post.accepted validatePresence = some result)
    : AccountsFor validatePresence post.batch [post] result where
  records := by simp [acceptedRecords, acceptedPosts_single accepted]
  merged := by simp [acceptedPosts_single accepted]
  skipped := by simp [acceptedPosts_single accepted]
  refused := by simp [acceptedPosts_single accepted]
  indeterminate := by simp [acceptedPosts_single accepted]

variable {posts : List Post}

theorem AccountsFor.append {first second : List SyncRecord} {later : List Post}
    {left right : BatchResult} (earlier : AccountsFor validatePresence first posts left)
    (after : AccountsFor validatePresence second later right)
    : AccountsFor validatePresence (first ++ second) (posts ++ later) (left.append right) where
  records := by rw [acceptedRecords_append, earlier.records, after.records]
  merged := by
    rw [acceptedPosts_append, List.map_append, List.sum_append, ← earlier.merged, ← after.merged]
    rfl
  skipped := by
    rw [acceptedPosts_append, List.map_append, List.sum_append, ← earlier.skipped,
      ← after.skipped]
    rfl
  refused := by
    rw [acceptedPosts_append, List.flatMap_append, ← earlier.refused, ← after.refused]
    rfl
  indeterminate := by
    rw [acceptedPosts_append, List.flatMap_append, ← earlier.indeterminate,
      ← after.indeterminate]
    rfl

variable {batch : List SyncRecord}

theorem AccountsFor.cons_rejected (accounts : AccountsFor validatePresence batch posts result)
    (rejected : post.accepted validatePresence = none)
    : AccountsFor validatePresence batch (post :: posts) result := by
  have same := acceptedPosts_cons_rejected rejected posts
  refine { records := ?_, merged := ?_, skipped := ?_, refused := ?_, indeterminate := ?_ }
  · rw [acceptedRecords, same]
    exact accounts.records
  · rw [same]
    exact accounts.merged
  · rw [same]
    exact accounts.skipped
  · rw [same]
    exact accounts.refused
  · rw [same]
    exact accounts.indeterminate

-- What one answer decides

theorem Post.accepted_of_splits (splits : post.answer.splits batch = true) (validatePresence : Bool)
    : post.accepted validatePresence = none := by
  unfold Post.accepted
  cases answer : post.answer with
  | unreachable message => rfl
  | responded status body =>
    have failed : okStatus status = false := by
      rw [answer] at splits
      simp only [HubAnswer.splits, Bool.and_eq_true, Bool.not_eq_true'] at splits
      exact splits.1
    cases body <;> simp [failed]

theorem readAnswer_eq_ok
    : readAnswer validatePresence post.batch post.answer = .ok result
      ↔ post.accepted validatePresence = some result := by
  unfold readAnswer Post.accepted
  cases post.answer with
  | unreachable message => simp
  | responded status body =>
    cases ok : okStatus status with
    | false => cases body <;> simp [ok]
    | true =>
      cases body with
      | none => simp [ok]
      | some body =>
        simp only [ok, if_true]
        cases readBatchResponse (post.batch.map SyncRecord.recordKey) validatePresence body
          with
        | none => simp
        | some accepted => simp

theorem HubLink.loadKey_posts {link : HubLink} {state loaded : SendState}
    (loads : link.loadKey state = .ok loaded)
    : loaded.posts = state.posts := by
  unfold HubLink.loadKey at loads
  split at loads
  · cases loads
    rfl
  split at loads
  · cases loads
  · cases loads
    rfl

-- The whole recursion

/-- What a call of `sendBatch` may do: it adds fewer POSTs than twice the records of the
batch, the accepted ones take an initial part of the batch, and a result accounts for all of
it.
-/
structure SendsBatch (validatePresence : Bool) (batch : List SyncRecord) (before : SendState)
    (outcome : SendState × Except String BatchResult) (posts : List Post)
    : Prop where
  recorded : outcome.1.posts = before.posts ++ posts
  bounded : posts.length < 2 * max 1 batch.length
  initial : acceptedRecords validatePresence posts <+: batch
  accounts : ∀ result, outcome.2 = .ok result → AccountsFor validatePresence batch posts result

theorem SendsBatch.of_unsent (before : SendState) (message : String)
    : SendsBatch validatePresence batch before (before, .error message) [] where
  recorded := (List.append_nil _).symm
  bounded := by simp
  initial := List.nil_prefix
  accounts := fun _ returned => by cases returned

theorem SendsBatch.of_read (validatePresence : Bool) (post : Post) (before : SendState)
    : SendsBatch validatePresence post.batch before
        (before.record post, readAnswer validatePresence post.batch post.answer) [post] where
  recorded := rfl
  bounded := by
    simp only [List.length_singleton]
    omega
  initial := by
    cases accepted : post.accepted validatePresence with
    | none =>
      rw [acceptedRecords, acceptedPosts_cons_rejected accepted]
      exact List.nil_prefix
    | some result =>
      rw [(AccountsFor.of_single accepted).records]
  accounts := fun _ returned => AccountsFor.of_single (readAnswer_eq_ok.mp returned)

theorem SendsBatch.of_loaded {before loaded : SendState}
    {outcome : SendState × Except String BatchResult}
    (sends : SendsBatch validatePresence batch loaded outcome posts)
    (same : loaded.posts = before.posts)
    : SendsBatch validatePresence batch before outcome posts :=
  { sends with recorded := same ▸ sends.recorded }

section Halves

variable {validatePresence : Bool} {batch : List SyncRecord} {post : Post} {before : SendState}
  {leftOutcome : SendState × Except String BatchResult} {leftPosts : List Post}

theorem SendsBatch.left_failed
    (left : SendsBatch validatePresence (batch.take (batch.length / 2)) (before.record post)
      leftOutcome leftPosts)
    (rejected : post.accepted validatePresence = none) (long : batch.length > 1)
    (message : String)
    : SendsBatch validatePresence batch before (leftOutcome.1, .error message)
        (post :: leftPosts) where
  recorded := by simp [left.recorded, SendState.record]
  bounded := by
    have half := left.bounded
    simp only [List.length_take] at half
    simp only [List.length_cons]
    omega
  initial := by
    rw [acceptedRecords, acceptedPosts_cons_rejected rejected]
    exact left.initial.trans (List.take_prefix _ _)
  accounts := fun _ returned => by cases returned

theorem SendsBatch.both {leftResult : BatchResult}
    {rightOutcome : SendState × Except String BatchResult} {rightPosts : List Post}
    {answer : Except String BatchResult}
    (left : SendsBatch validatePresence (batch.take (batch.length / 2)) (before.record post)
      leftOutcome leftPosts)
    (leftReturned : leftOutcome.2 = .ok leftResult)
    (right : SendsBatch validatePresence (batch.drop (batch.length / 2)) leftOutcome.1
      rightOutcome rightPosts)
    (rejected : post.accepted validatePresence = none) (long : batch.length > 1)
    (returned : ∀ result, answer = .ok result
      → ∃ rightResult, rightOutcome.2 = .ok rightResult
        ∧ result = leftResult.append rightResult)
    : SendsBatch validatePresence batch before (rightOutcome.1, answer)
        (post :: (leftPosts ++ rightPosts)) where
  recorded := by simp [right.recorded, left.recorded, SendState.record]
  bounded := by
    have leftHalf := left.bounded
    have rightHalf := right.bounded
    simp only [List.length_take] at leftHalf
    simp only [List.length_drop] at rightHalf
    simp only [List.length_cons, List.length_append]
    omega
  initial := by
    have parts := List.take_append_drop (batch.length / 2) batch
    rw [acceptedRecords, acceptedPosts_cons_rejected rejected, ← acceptedRecords,
      acceptedRecords_append, (left.accounts leftResult leftReturned).records]
    conv => rhs; rw [← parts]
    exact List.prefix_append_right_inj _ |>.mpr right.initial
  accounts := by
    intro result answered
    obtain ⟨rightResult, rightReturned, rfl⟩ := returned result answered
    have whole :=
      (left.accounts leftResult leftReturned).append (right.accounts rightResult rightReturned)
    rw [List.take_append_drop] at whole
    exact whole.cons_rejected rejected

end Halves

/-- `sendBatch` ends for every batch and every pattern of answers, after fewer POSTs than
twice the records of the batch. It returns normally only when the accepted POSTs, in their
order, cut the batch into parts, each record in exactly one, and its totals are the sums over
them. When it throws, the accepted POSTs still hold no record twice: they are parts of an
initial stretch of the batch.
-/
theorem sendBatch_accounts (link : HubLink) (validatePresence : Bool)
    (batch : List SyncRecord) (state : SendState)
    : ∃ posts,
        SendsBatch validatePresence batch state (sendBatch link validatePresence batch state)
          posts := by
  fun_induction sendBatch link validatePresence batch state with
  | case1 batch state message failed => exact ⟨[], SendsBatch.of_unsent state message⟩
  | case2 batch state loaded loads post sent halved long mid after message failed leftSends =>
    obtain ⟨leftPosts, left⟩ := leftSends
    rw [failed] at left
    have rejected := Post.accepted_of_splits halved validatePresence
    exact ⟨_, (left.left_failed rejected long message).of_loaded (link.loadKey_posts loads)⟩
  | case3 batch state loaded loads post sent halved long mid middle leftResult leftReturned
      after message failed leftSends rightSends =>
      obtain ⟨leftPosts, left⟩ := leftSends
      obtain ⟨rightPosts, right⟩ := rightSends
      rw [leftReturned] at left
      rw [failed] at right
      have rejected := Post.accepted_of_splits halved validatePresence
      have whole : SendsBatch validatePresence batch loaded (after, .error message)
          (post :: (leftPosts ++ rightPosts)) :=
        left.both rfl right rejected long (fun _ returned => by cases returned)
      exact ⟨_, whole.of_loaded (link.loadKey_posts loads)⟩
  | case4 batch state loaded loads post sent halved long mid middle leftResult leftReturned
      after rightResult rightReturned leftSends rightSends =>
      obtain ⟨leftPosts, left⟩ := leftSends
      obtain ⟨rightPosts, right⟩ := rightSends
      rw [leftReturned] at left
      rw [rightReturned] at right
      have rejected := Post.accepted_of_splits halved validatePresence
      have whole : SendsBatch validatePresence batch loaded
          (after, .ok (leftResult.append rightResult)) (post :: (leftPosts ++ rightPosts)) :=
        left.both rfl right rejected long
          (fun result returned => ⟨rightResult, rfl, (Except.ok.inj returned).symm⟩)
      exact ⟨_, whole.of_loaded (link.loadKey_posts loads)⟩
  | case5 batch state loaded loads post sent kept =>
    exact ⟨[post], (SendsBatch.of_read validatePresence post loaded).of_loaded
      (link.loadKey_posts loads)⟩

end Flair.Federation
