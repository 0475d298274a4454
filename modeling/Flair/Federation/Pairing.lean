import Flair.Federation.Revocation

/-! A pairing token is consumed by at most one committed pairing, together with its Peer
write. The hub machine is extended with a log of what its pairings commit and read back.
-/

namespace Flair.Federation

open Dynamic Transition WriteBack

-- The log of a run

/-- A pairing's request, its commit, and the two reads that show what it committed. -/
inductive PairEvent where
  | arrived (request : Nat) (body : PairRequest)
  | committed (request : Nat) (body : PairRequest) (staged : StagedPair)
  | peerShown (request : Nat) (staged : StagedPair)
  | tokenShown (request : Nat) (staged : StagedPair)

@[simp] def PairEvent.request : PairEvent → Nat
  | .arrived request _ | .committed request _ _ | .peerShown request _
  | .tokenShown request _ => request

def ShowsPeer (peers : PeerTable) (staged : StagedPair) (readable : Bool) : Prop :=
  peerVerdict staged
    (if readable then some ((peers.get staged.peer.row.id).map PeerRow.toRecord) else none)
      = .shown

instance (peers : PeerTable) (staged : StagedPair) (readable : Bool)
    : Decidable (ShowsPeer peers staged readable) :=
  inferInstanceAs (Decidable (_ = _))

/-- What a step does that a run's log keeps, read in the state before the step. -/
@[simp] def pairEvents (state : HubState) : HubLabel → List PairEvent
  | .arrive request (.pair body) => [.arrived request body]
  | .commit request true _ =>
    match state.stage request with
    | .committing body staged => [.committed request body staged]
    | _ => []
  | .readPeer request readable =>
    match state.stage request with
    | .readingBack _ staged =>
      if ShowsPeer state.peers staged readable then [.peerShown request staged] else []
    | _ => []
  | .readToken request true =>
    match state.stage request with
    | .readingToken body staged stagedToken _ =>
      if showsConsumption stagedToken (state.tokens body.pairingToken) then
        [.tokenShown request staged]
      else []
    | _ => []
  | _ => []

structure PairingRun where
  hub : HubState
  log : List PairEvent

def pairing : System PairingRun HubLabel where
  initial run := hub.initial run.hub ∧ run.log = []
  step run label :=
    (hubStep run.hub label).map fun next => {
      hub := next
      log := run.log ++ pairEvents run.hub label }

def spentToken : PairEvent → Option String
  | .committed _ body staged => if staged.token.isSome then some body.pairingToken else none
  | _ => none

def spentTokens (log : List PairEvent) : List String := log.filterMap spentToken

-- What one step does to the tables

/-- The steps outside the pairings that write a Peer row. -/
def WritesPeerElsewhere : HubLabel → Prop
  | .revoke _ _ | .putPeer _ _ _ _ => True
  | _ => False

/-- A commit writes its Peer row and, on the token path, the consumed token, in one step.
No other step of a pairing writes either table.
-/
structure CommitsTogether (before after : HubState) (label : HubLabel) : Prop where
  together : ∀ request body staged, .committed request body staged ∈ pairEvents before label
    → after.peers = before.peers.put staged.peer.row
      ∧ (∀ token, staged.token = some token
        → after.tokens = Function.update before.tokens body.pairingToken (some token))
      ∧ (staged.token = none → after.tokens = before.tokens)
  untouched : (∀ request body staged, .committed request body staged ∉ pairEvents before label)
    → after.tokens = before.tokens
      ∧ (¬ WritesPeerElsewhere label → after.peers = before.peers)

variable {before after : HubState} {label : HubLabel}

theorem CommitsTogether.of_reads (tokens : after.tokens = before.tokens)
    (peers : ¬ WritesPeerElsewhere label → after.peers = before.peers)
    (silent : ∀ request body staged, .committed request body staged ∉ pairEvents before label)
    : CommitsTogether before after label where
  together request body staged logged := absurd logged (silent request body staged)
  untouched _ := ⟨tokens, peers⟩

variable {state next : HubState}

theorem advance_tables {request : Nat} (h : advance state request = some next)
    : next.tokens = state.tokens ∧ next.peers = state.peers := by
  unfold advance at h
  split at h
  · cases h
    exact ⟨rfl, rfl⟩
  · cases h
    exact ⟨rfl, rfl⟩
  · split at h
    · cases h
      exact ⟨rfl, rfl⟩
    · split at h <;> cases h <;> exact ⟨rfl, rfl⟩
  · cases h
    exact ⟨rfl, rfl⟩
  · cases h
    exact ⟨rfl, rfl⟩
  · cases h
    exact ⟨rfl, rfl⟩
  · cases h

variable {staged : StagedPair}

theorem committed_mem_pairEvents {request : Nat} {body : PairRequest}
    (h : .committed request body staged ∈ pairEvents state label)
    : ∃ resolves, label = .commit request true resolves
      ∧ state.stage request = .committing body staged := by
  unfold pairEvents at h
  split at h
  · simp at h
  · rename_i other resolves
    split at h
    · rename_i at_committing
      obtain ⟨rfl, rfl, rfl⟩ : request = other ∧ _ ∧ _ := by simpa using h
      exact ⟨resolves, rfl, at_committing⟩
    · simp at h
  · split at h
    · split at h <;> simp at h
    · simp at h
  · split at h
    · split at h <;> simp at h
    · simp at h
  · simp at h

theorem commit_together {request : Nat} {landed resolves : Bool}
    (h : commit state request landed resolves = some next)
    : CommitsTogether state next (.commit request landed resolves) := by
  unfold commit at h
  split at h
  · rename_i body staged at_committing
    cases h
    cases landed with
    | false => exact .of_reads rfl (fun _ => rfl) (by simp)
    | true =>
      refine ⟨?_, ?_⟩
      · intro other otherBody otherStaged logged
        obtain ⟨_, same, at_other⟩ := committed_mem_pairEvents logged
        cases same
        rw [at_committing] at at_other
        cases at_other
        refine ⟨rfl, ?_, ?_⟩
        · intro token consumed
          simp [HubState.goto, consumed]
        · intro none
          simp [HubState.goto, none]
      · intro silent
        refine absurd ?_ (silent request body staged)
        simp [at_committing]
  · cases h

theorem hubStep_together (h : hubStep state label = some next)
    : CommitsTogether state next label := by
  cases label with
  | commit request landed resolves => exact commit_together h
  | revoke id nowIso =>
    obtain ⟨row, -, rfl⟩ := Option.map_eq_some_iff.mp h
    exact .of_reads rfl (fun within => absurd trivial within) (by simp)
  | advance request =>
    obtain ⟨tokens, peers⟩ := advance_tables h
    exact .of_reads tokens (fun _ => peers) (by simp)
  | putPeer request nowIso landed resolves =>
    simp only [hubStep, putPeer] at h
    split at h
    · cases h
      exact .of_reads rfl (fun within => absurd trivial within) (by simp)
    · cases h
  | arrive request body =>
    simp only [hubStep] at h
    split at h
    · cases h
      refine .of_reads rfl (fun _ => rfl) ?_
      intro other otherBody staged logged
      obtain ⟨_, same, -⟩ := committed_mem_pairEvents logged
      cases same
    · cases h
  | verified request refusal =>
    simp only [hubStep] at h
    split at h
    iterate 4
      · cases h
        exact .of_reads rfl (fun _ => rfl) (by simp)
    · cases h
  | mergeEnded request outcome =>
    simp only [hubStep] at h
    split at h
    · cases h
      exact .of_reads rfl (fun _ => rfl) (by simp)
    · cases h
  | lockMissing request =>
    simp only [hubStep] at h
    split at h
    · cases h
      exact .of_reads rfl (fun _ => rfl) (by simp)
    · cases h
  | claim request nowIso writeId =>
    simp only [hubStep] at h
    split at h
    · cases h
      exact .of_reads rfl (fun _ => rfl) (by simp)
    · cases h
  | stagePeer request nowIso writeId fails =>
    simp only [hubStep] at h
    split at h
    · cases h
      exact .of_reads rfl (fun _ => rfl) (by simp)
    · cases h
      exact .of_reads rfl (fun _ => rfl) (by simp)
    · cases h
  | readPeer request readable | readToken request readable =>
    simp only [hubStep] at h
    split at h
    · cases h
      refine .of_reads rfl (fun _ => rfl) ?_
      intro other body staged logged
      obtain ⟨_, same, -⟩ := committed_mem_pairEvents logged
      cases same
    · cases h

-- What a request has established

def Uncommitted (log : List PairEvent) (request : Nat) : Prop :=
  ∀ body staged, .committed request body staged ∉ log

structure Posted (log : List PairEvent) (request : Nat) (body : PairRequest) : Prop where
  named : body.instanceId ≠ ""
  only : ∀ other, .arrived request other ∈ log → other = body

def PostedNone (log : List PairEvent) (request : Nat) : Prop :=
  ∀ body, .arrived request body ∉ log

def Spent (token : Option Record) : Prop :=
  ∃ row, token = some row ∧ truthy (row.get "consumedBy") = true

def Answer.Unconfirmed (answer : Answer) : Prop :=
  answer = .threw ∨ answer = firstPairCommitUnconfirmedRefusal
    ∨ answer = firstPairReadBackUnconfirmedRefusal ∨ answer = writeOutcomeUnknownResponse

def ReadBack (log : List PairEvent) (request : Nat) (body : PairRequest) : Prop :=
  ∃ staged, .peerShown request staged ∈ log
    ∧ (body.pairingToken ≠ "" → staged.token.isSome ∧ .tokenShown request staged ∈ log)

structure HoldsUnspent (tokens : String → Option Record) (tokenLock : String → Option Nat)
    (request : Nat) (body : PairRequest) : Prop where
  holds : tokenLock body.pairingToken = some request
  unspent : ¬ Spent (tokens body.pairingToken)

def StageSound (tokens : String → Option Record) (tokenLock : String → Option Nat)
    (log : List PairEvent) (request : Nat)
    : Stage → Prop
  | .idle | .syncReading _ | .syncVerifying _ _ | .syncMerging _ _ _ _ =>
    PostedNone log request ∧ Uncommitted log request
  | .pairVerifying body | .pairReading body | .locking body _ _ =>
    Posted log request body ∧ Uncommitted log request
  | .locked body _ =>
    Posted log request body ∧ Uncommitted log request
      ∧ tokenLock body.pairingToken = some request
  | .claiming body _ token _ =>
    Posted log request body ∧ Uncommitted log request
      ∧ tokenLock body.pairingToken = some request
      ∧ token = tokens body.pairingToken
  | .claimed body _ token _ | .confirming body token _ _ =>
    Posted log request body ∧ Uncommitted log request ∧ HoldsUnspent tokens tokenLock request body
      ∧ Spent (some token)
  | .reReading body =>
    Posted log request body ∧ Uncommitted log request ∧ body.pairingToken = ""
  | .committing body staged =>
    Posted log request body ∧ Uncommitted log request
      ∧ (staged.token = none → body.pairingToken = "")
      ∧ ∀ token, staged.token = some token
        → HoldsUnspent tokens tokenLock request body ∧ Spent (some token)
  | .unlocking body (.error answer) =>
    Posted log request body ∧ tokenLock body.pairingToken = some request
      ∧ answer ≠ .succeeded ∧ (Uncommitted log request ∨ answer.Unconfirmed)
  | .unlocking body (.ok staged) =>
    Posted log request body ∧ tokenLock body.pairingToken = some request
      ∧ staged.token.isSome
  | .readingBack body staged =>
    Posted log request body ∧ (staged.token = none → body.pairingToken = "")
  | .readingToken body staged stagedToken verdict =>
    Posted log request body ∧ staged.token = some stagedToken
      ∧ (verdict = .shown → .peerShown request staged ∈ log)
  | .answered answer =>
    (answer ≠ .succeeded → Uncommitted log request ∨ answer.Unconfirmed)
      ∧ (answer = .succeeded
        → ∀ body, .arrived request body ∈ log → ReadBack log request body)

/-- A step of one request as another one sees it: it logs events of its own, and every
token locked by another request keeps its lock and its row.
-/
structure Spares (before after : HubState) (log : List PairEvent) (more : List PairEvent)
    (request : Nat) : Prop where
  own : ∀ event ∈ more, event.request = request
  locks : ∀ key other, other ≠ request → before.tokenLock key = some other
    → after.tokenLock key = some other
  tokens : ∀ key other, other ≠ request → before.tokenLock key = some other
    → after.tokens key = before.tokens key

variable {more : List PairEvent}

theorem Spares.mem {log : List PairEvent} {request : Nat} (h : Spares before after log more request)
    {event : PairEvent} (other : Nat) (named : event.request = other) (different : other ≠ request)
    : event ∈ log ++ more ↔ event ∈ log := by
  constructor
  · intro member
    rcases List.mem_append.mp member with member | member
    · exact member
    · exact absurd (named.symm.trans (h.own event member)) different
  · intro member
    exact List.mem_append_left _ member

variable {stage : Stage}

theorem StageSound.spared {log : List PairEvent} {request other : Nat}
    (h : StageSound before.tokens before.tokenLock log other stage)
    (step : Spares before after log more request) (different : other ≠ request)
    : StageSound after.tokens after.tokenLock (log ++ more) other stage := by
  have uncommitted (fresh : Uncommitted log other) : Uncommitted (log ++ more) other := by
    intro body staged member
    exact fresh body staged ((step.mem other rfl different).mp member)
  have postedNone (none : PostedNone log other) : PostedNone (log ++ more) other := by
    intro body member
    exact none body ((step.mem other rfl different).mp member)
  have posted {body : PairRequest} (posted : Posted log other body)
      : Posted (log ++ more) other body :=
    ⟨posted.named, fun body member => posted.only body ((step.mem other rfl different).mp member)⟩
  have unspent {body : PairRequest} (free : HoldsUnspent before.tokens before.tokenLock other body)
      : HoldsUnspent after.tokens after.tokenLock other body := by
    refine ⟨step.locks _ other different free.holds, ?_⟩
    rw [step.tokens _ other different free.holds]
    exact free.unspent
  have readBack {body : PairRequest} (shown : ReadBack log other body)
      : ReadBack (log ++ more) other body := by
    obtain ⟨staged, peer, token⟩ := shown
    refine ⟨staged, List.mem_append_left _ peer, ?_⟩
    intro named
    obtain ⟨consumed, shown⟩ := token named
    exact ⟨consumed, List.mem_append_left _ shown⟩
  cases stage with
  | idle => exact ⟨postedNone h.1, uncommitted h.2⟩
  | syncReading => exact ⟨postedNone h.1, uncommitted h.2⟩
  | syncVerifying => exact ⟨postedNone h.1, uncommitted h.2⟩
  | syncMerging => exact ⟨postedNone h.1, uncommitted h.2⟩
  | pairVerifying => exact ⟨posted h.1, uncommitted h.2⟩
  | pairReading => exact ⟨posted h.1, uncommitted h.2⟩
  | locking => exact ⟨posted h.1, uncommitted h.2⟩
  | locked body =>
    obtain ⟨arrived, fresh, holds⟩ := h
    exact ⟨posted arrived, uncommitted fresh, step.locks _ other different holds⟩
  | claiming body firstPair token peer =>
    obtain ⟨arrived, fresh, holds, read⟩ := h
    refine ⟨posted arrived, uncommitted fresh, step.locks _ other different holds, ?_⟩
    rw [read, step.tokens _ other different holds]
  | claimed =>
    obtain ⟨arrived, fresh, free, spent⟩ := h
    exact ⟨posted arrived, uncommitted fresh, unspent free, spent⟩
  | confirming =>
    obtain ⟨arrived, fresh, free, spent⟩ := h
    exact ⟨posted arrived, uncommitted fresh, unspent free, spent⟩
  | reReading =>
    obtain ⟨arrived, fresh, unnamed⟩ := h
    exact ⟨posted arrived, uncommitted fresh, unnamed⟩
  | committing body staged =>
    obtain ⟨arrived, fresh, unnamed, consumes⟩ := h
    refine ⟨posted arrived, uncommitted fresh, unnamed, ?_⟩
    intro token consumed
    obtain ⟨free, spent⟩ := consumes token consumed
    exact ⟨unspent free, spent⟩
  | unlocking body outcome =>
    cases outcome with
    | error answer =>
      obtain ⟨arrived, holds, failed, fresh⟩ := h
      exact ⟨posted arrived, step.locks _ other different holds, failed,
        fresh.imp_left uncommitted⟩
    | ok staged =>
      obtain ⟨arrived, holds, consumed⟩ := h
      exact ⟨posted arrived, step.locks _ other different holds, consumed⟩
  | readingBack =>
    obtain ⟨arrived, unnamed⟩ := h
    exact ⟨posted arrived, unnamed⟩
  | readingToken =>
    obtain ⟨arrived, consumed, shown⟩ := h
    exact ⟨posted arrived, consumed, fun all => List.mem_append_left _ (shown all)⟩
  | answered answer =>
    obtain ⟨refused, paired⟩ := h
    refine ⟨fun failed => (refused failed).imp_left uncommitted, ?_⟩
    intro succeeded body arrived
    exact readBack (paired succeeded body ((step.mem other rfl different).mp arrived))

-- The invariant of a run

/-- Every request has established what its stage says, and every committed consumption is
in the token table, at most one for each token.
-/
structure PairingInvariant (run : PairingRun) : Prop where
  stages : ∀ request,
    StageSound run.hub.tokens run.hub.tokenLock run.log request (run.hub.stage request)
  spent : ∀ key ∈ spentTokens run.log, Spent (run.hub.tokens key)
  single : (spentTokens run.log).Nodup

variable {run : PairingRun}

theorem PairingInvariant.moves (h : PairingInvariant run) {request : Nat}
    (moved : ∀ other, next.stage other = if other = request then stage else run.hub.stage other)
    (step : Spares run.hub next run.log more request) (tokens : next.tokens = run.hub.tokens)
    (spends : spentTokens more = [])
    (sound : StageSound next.tokens next.tokenLock (run.log ++ more) request stage)
    : PairingInvariant { hub := next, log := run.log ++ more } where
  stages other := by
    simp only [moved other]
    split
    · rename_i same
      rw [same]
      exact sound
    · rename_i different
      exact (h.stages other).spared step different
  spent key member := by
    have before : key ∈ spentTokens run.log := by
      simpa [spentTokens, List.filterMap_append, show more.filterMap spentToken = [] from spends]
        using member
    simp only [tokens]
    exact h.spent key before
  single := by
    have same : spentTokens (run.log ++ more) = spentTokens run.log := by
      rw [spentTokens, List.filterMap_append, show more.filterMap spentToken = [] from spends,
        List.append_nil, spentTokens]
    simp only [same]
    exact h.single

theorem PairingInvariant.goto (h : PairingInvariant run) {request : Nat}
    (sound : StageSound run.hub.tokens run.hub.tokenLock run.log request stage)
    : PairingInvariant { hub := run.hub.goto request stage, log := run.log ++ [] } := by
  refine h.moves (HubState.goto_stage run.hub request · stage)
    ⟨by simp, fun _ _ _ held => held, fun _ _ _ _ => rfl⟩ rfl rfl ?_
  rw [List.append_nil]
  exact sound

-- What the next stages establish

theorem rePairRefusal_failed {request : PairRequest} {peer : PeerRow} {refusal : Answer}
    (h : rePairRefusal request peer = some refusal)
    : refusal ≠ .succeeded := by
  unfold rePairRefusal at h
  split at h
  · cases h
    simp [publicKeyMismatchRefusal]
  split at h
  · cases h
    simp [peerRevokedRefusal]
  · cases h

theorem spent_of_consumed {request : PairRequest} {stored : Option Record}
    {nowIso writeId : String} {token : Record} (named : request.instanceId ≠ "")
    (h : consumePairingToken request stored nowIso writeId = .consumed token)
    : ¬ Spent stored ∧ Spent (some token) := by
  unfold consumePairingToken at h
  split at h
  · cases h
  rename_i row
  split at h
  · cases h
  rename_i fresh
  split at h
  · cases h
  split at h
  · cases h
  cases h
  constructor
  · rintro ⟨other, same, spent⟩
    cases same
    exact fresh spent
  · refine ⟨_, rfl, ?_⟩
    simp [truthy, named]

variable {tokens : String → Option Record} {tokenLock : String → Option Nat}
  {log : List PairEvent} {request : Nat} {body : PairRequest}

theorem sound_failed {answer : Answer} (fresh : Uncommitted log request)
    (failed : answer ≠ .succeeded)
    : StageSound tokens tokenLock log request (.answered answer) :=
  ⟨fun _ => Or.inl fresh, fun succeeded => absurd succeeded failed⟩

theorem sound_pairRead (read : Option PeerRow) (posted : Posted log request body)
    (fresh : Uncommitted log request)
    : StageSound tokens tokenLock log request (pairRead body read) := by
  unfold pairRead
  split
  · split
    · rename_i refused
      exact sound_failed fresh (rePairRefusal_failed refused)
    split
    · rename_i unnamed
      exact ⟨posted, fresh, unnamed⟩
    · exact ⟨posted, fresh⟩
  · split
    · exact sound_failed fresh (fun same => by cases same)
    · exact ⟨posted, fresh⟩

theorem sound_claimStage (firstPair : Bool) (peer : Option PeerRow) (nowIso writeId : String)
    (posted : Posted log request body) (fresh : Uncommitted log request)
    (holds : tokenLock body.pairingToken = some request)
    : StageSound tokens tokenLock log request
        (claimStage body firstPair (tokens body.pairingToken) peer nowIso writeId) := by
  unfold claimStage
  cases claim : consumePairingToken body (tokens body.pairingToken) nowIso writeId with
  | consumed token =>
    obtain ⟨unspent, spent⟩ := spent_of_consumed posted.named claim
    exact ⟨posted, fresh, ⟨holds, unspent⟩, spent⟩
  | refused => exact ⟨posted, holds, (fun same => by cases same), Or.inl fresh⟩
  | bootstrapMismatch => exact ⟨posted, holds, (fun same => by cases same), Or.inl fresh⟩

theorem sound_tokenPairStage (firstPair : Bool) (token : Record) (peer : Option PeerRow)
    (nowIso writeId : String) (fails : Bool) (posted : Posted log request body)
    (fresh : Uncommitted log request) (free : HoldsUnspent tokens tokenLock request body)
    (spent : Spent (some token))
    : StageSound tokens tokenLock log request
        (tokenPairStage body firstPair token peer nowIso writeId fails) := by
  unfold tokenPairStage
  split
  · split
    · exact ⟨posted, free.holds, (fun same => by cases same), Or.inl fresh⟩
    · exact ⟨posted, fresh, free, spent⟩
  · split
    · exact ⟨posted, free.holds, (fun same => by cases same), Or.inl fresh⟩
    · exact ⟨posted, fresh, free, spent⟩
  · split
    · rename_i refused
      exact ⟨posted, free.holds, rePairRefusal_failed refused, Or.inl fresh⟩
    split
    · exact ⟨posted, free.holds, (fun same => by cases same), Or.inl fresh⟩
    refine ⟨posted, fresh, (fun same => by cases same), ?_⟩
    intro staged same
    cases same
    exact ⟨free, spent⟩

theorem sound_reReadStage (read : Option PeerRow) (nowIso writeId : String) (fails : Bool)
    (posted : Posted log request body) (fresh : Uncommitted log request)
    (unnamed : body.pairingToken = "")
    : StageSound tokens tokenLock log request
        (reReadStage body nowIso writeId fails read) := by
  unfold reReadStage
  split
  · exact sound_failed fresh (fun same => by cases same)
  split
  · rename_i refused
    exact sound_failed fresh (rePairRefusal_failed refused)
  · split
    · exact sound_failed fresh (fun same => by cases same)
    · exact ⟨posted, fresh, fun _ => unnamed, by simp⟩

theorem sound_confirmStage (token : Record) (nowIso writeId : String) (read : Option PeerRow)
    (posted : Posted log request body) (fresh : Uncommitted log request)
    (free : HoldsUnspent tokens tokenLock request body) (spent : Spent (some token))
    : StageSound tokens tokenLock log request
        (confirmStage body token nowIso writeId read) := by
  unfold confirmStage
  split
  · refine ⟨posted, fresh, (fun same => by cases same), ?_⟩
    intro staged same
    cases same
    exact ⟨free, spent⟩
  · exact ⟨posted, free.holds, (fun same => by cases same), Or.inl fresh⟩

theorem sound_committedStage (staged : StagedPair) (resolves : Bool)
    (posted : Posted log request body) (unnamed : staged.token = none → body.pairingToken = "")
    (holds : ∀ token, staged.token = some token → tokenLock body.pairingToken = some request)
    : StageSound tokens tokenLock log request (committedStage body staged resolves) := by
  unfold committedStage
  split
  · rename_i token consumed
    exact ⟨posted, holds token consumed, by simp [consumed]⟩
  · rename_i token consumed
    exact ⟨posted, holds token consumed, (fun same => by cases same), Or.inr (Or.inl rfl)⟩
  · exact ⟨posted, unnamed⟩
  · exact ⟨fun _ => Or.inr (Or.inl rfl), (fun same => by cases same)⟩

theorem sound_readPeerStage {verdict : CommittedWriteVerdict} (posted : Posted log request body)
    (unnamed : staged.token = none → body.pairingToken = "")
    (shown : verdict = .shown → .peerShown request staged ∈ log)
    : StageSound tokens tokenLock log request (readPeerStage body staged verdict) := by
  unfold readPeerStage
  split
  · rename_i token consumed
    exact ⟨posted, consumed, shown⟩
  rename_i none
  split
  · rename_i all
    refine ⟨fun failed => absurd rfl failed, ?_⟩
    intro _ other arrived
    obtain rfl := posted.only other arrived
    exact ⟨staged, shown all, fun named => absurd (unnamed none) named⟩
  · exact ⟨fun _ => Or.inr (Or.inr (Or.inr (Or.inr rfl))), (fun same => by cases same)⟩

theorem sound_readTokenAnswer {stagedToken : Record} {verdict : CommittedWriteVerdict}
    {token : Option (Option Record)} (posted : Posted log request body)
    (consumed : staged.token = some stagedToken)
    (peer : verdict = .shown → .peerShown request staged ∈ log)
    (shown : ∀ row, token = some row → showsConsumption stagedToken row = true
      → .tokenShown request staged ∈ log)
    : StageSound tokens tokenLock log request
        (.answered (readTokenAnswer staged stagedToken verdict token)) := by
  have unreadable : (if staged.firstPair then firstPairReadBackUnconfirmedRefusal
        else firstPairCommitUnconfirmedRefusal).Unconfirmed := by
    split
    · exact Or.inr (Or.inr (Or.inl rfl))
    · exact Or.inr (Or.inl rfl)
  have failed {answer : Answer} (unconfirmed : answer.Unconfirmed)
      : StageSound tokens tokenLock log request (.answered answer) := by
    refine ⟨fun _ => Or.inr unconfirmed, ?_⟩
    rintro rfl
    rcases unconfirmed with same | same | same | same <;> cases same
  cases token with
  | none => exact failed unreadable
  | some row =>
    simp only [readTokenAnswer]
    split
    · exact failed unreadable
    split
    · rename_i both
      refine ⟨fun failed => absurd rfl failed, ?_⟩
      intro _ other arrived
      obtain rfl := posted.only other arrived
      exact ⟨staged, peer both.1, fun _ => ⟨by simp [consumed], shown row rfl both.2⟩⟩
    · exact failed (Or.inr (Or.inl rfl))

-- One step

theorem advance_keeps (h : PairingInvariant run) (taken : advance run.hub request = some next)
    : PairingInvariant { hub := next, log := run.log ++ [] } := by
  have sound := h.stages request
  unfold advance at taken
  split at taken
  · rename_i call at_stage
    rw [at_stage] at sound
    obtain ⟨none, fresh⟩ := sound
    cases taken
    refine h.goto ?_
    unfold syncRead
    split
    · exact sound_failed fresh (fun same => by cases same)
    split
    · exact sound_failed fresh (fun same => by cases same)
    · split
      · exact sound_failed fresh (fun same => by cases same)
      · exact ⟨none, fresh⟩
  · rename_i body at_stage
    rw [at_stage] at sound
    obtain ⟨posted, fresh⟩ := sound
    cases taken
    exact h.goto (sound_pairRead _ posted fresh)
  · rename_i body firstPair attempt at_stage
    rw [at_stage] at sound
    obtain ⟨posted, fresh⟩ := sound
    split at taken
    · rename_i free
      cases taken
      refine h.moves (HubState.goto_stage _ request · _) ⟨by simp, ?_, fun _ _ _ _ => rfl⟩
        rfl rfl ?_
      · intro key other different held
        have apart : key ≠ body.pairingToken := by
          rintro rfl
          rw [free] at held
          cases held
        simpa [HubState.goto, apart] using held
      · rw [List.append_nil]
        exact ⟨posted, fresh, by simp [HubState.goto]⟩
    · split at taken
      · cases taken
        exact h.goto ⟨posted, fresh⟩
      · cases taken
        exact h.goto (sound_failed fresh (fun same => by cases same))
  · rename_i body firstPair at_stage
    rw [at_stage] at sound
    obtain ⟨posted, fresh, holds⟩ := sound
    cases taken
    exact h.goto ⟨posted, fresh, holds, rfl⟩
  · rename_i body token nowIso writeId at_stage
    rw [at_stage] at sound
    obtain ⟨posted, fresh, free, spent⟩ := sound
    cases taken
    exact h.goto (sound_confirmStage token nowIso writeId _ posted fresh free spent)
  · rename_i body outcome at_stage
    rw [at_stage] at sound
    have posted : Posted run.log request body := by
      cases outcome with
      | error answer => exact sound.1
      | ok staged => exact sound.1
    have holds : run.hub.tokenLock body.pairingToken = some request := by
      cases outcome with
      | error answer => exact sound.2.1
      | ok staged => exact sound.2.1
    cases taken
    refine h.moves (HubState.goto_stage _ request · _) ⟨by simp, ?_, fun _ _ _ _ => rfl⟩
      rfl rfl ?_
    · intro key other different held
      have apart : key ≠ body.pairingToken := by
        rintro rfl
        rw [holds] at held
        exact different (Option.some.inj held).symm
      simpa [HubState.goto, apart] using held
    · rw [List.append_nil]
      cases outcome with
      | error answer =>
        obtain ⟨-, -, failed, fresh⟩ := sound
        exact ⟨fun _ => fresh, fun succeeded => absurd succeeded failed⟩
      | ok staged =>
        obtain ⟨-, -, consumed⟩ := sound
        exact ⟨posted, fun none => by simp [none] at consumed⟩
  · cases taken

theorem arrive_keeps {posting : PeerRequest} (h : PairingInvariant run)
    (taken : hubStep run.hub (.arrive request posting) = some next)
    : PairingInvariant {
        hub := next
        log := run.log ++ pairEvents run.hub (.arrive request posting) } := by
  have sound := h.stages request
  simp only [hubStep] at taken
  split at taken
  · rename_i at_idle
    rw [at_idle] at sound
    obtain ⟨none, fresh⟩ := sound
    cases taken
    cases posting with
    | sync call =>
      refine h.goto ?_
      simp only [arrival]
      split
      · exact sound_failed fresh (fun same => by cases same)
      · exact ⟨none, fresh⟩
    | pair body =>
      have fresh' : Uncommitted (run.log ++ [.arrived request body]) request := by
        intro other staged member
        exact fresh other staged (by simpa using member)
      refine h.moves (HubState.goto_stage _ request · _)
        ⟨by simp, fun _ _ _ held => held,
          fun _ _ _ _ => rfl⟩
        rfl rfl ?_
      simp only [arrival, pairEvents]
      split
      · exact sound_failed fresh' (fun same => by cases same)
      rename_i named
      split
      · exact sound_failed fresh' (fun same => by cases same)
      refine ⟨⟨fun empty => named (Or.inl empty), ?_⟩, fresh'⟩
      intro other member
      rcases List.mem_append.mp member with before | now
      · exact absurd before (none other)
      · simpa using now
  · cases taken

theorem PairingInvariant.commits (h : PairingInvariant run)
    (at_committing : run.hub.stage request = .committing body staged)
    (moved : ∀ other, next.stage other = if other = request then stage else run.hub.stage other)
    (locks : next.tokenLock = run.hub.tokenLock)
    (none : staged.token = none → next.tokens = run.hub.tokens)
    (written : ∀ token, staged.token = some token
      → next.tokens = Function.update run.hub.tokens body.pairingToken (some token))
    (sound : StageSound next.tokens next.tokenLock
      (run.log ++ [.committed request body staged]) request stage)
    : PairingInvariant { hub := next, log := run.log ++ [.committed request body staged] } := by
  have committing := h.stages request
  rw [at_committing] at committing
  obtain ⟨-, -, -, consumes⟩ := committing
  cases consumed : staged.token with
  | none =>
    refine h.moves moved ⟨by simp, ?_, ?_⟩ (none consumed) ?_ sound
    · intro key other _ held
      rw [locks]
      exact held
    · intro key other _ _
      rw [none consumed]
    · simp [spentTokens, spentToken, consumed]
  | some token =>
    obtain ⟨free, spent⟩ := consumes token consumed
    have tokens := written token consumed
    have grown : spentTokens (run.log ++ [.committed request body staged])
        = spentTokens run.log ++ [body.pairingToken] := by
      simp [spentTokens, spentToken, consumed]
    have step : Spares run.hub next run.log [.committed request body staged] request := by
      refine ⟨by simp, ?_, ?_⟩
      · intro key other _ held
        rw [locks]
        exact held
      · intro key other different held
        have apart : key ≠ body.pairingToken := by
          rintro rfl
          rw [free.holds] at held
          exact different (Option.some.inj held).symm
        rw [tokens, Function.update_of_ne apart]
    refine ⟨?_, ?_, ?_⟩
    · intro other
      simp only [moved other]
      split
      · rename_i same
        rw [same]
        exact sound
      · rename_i different
        exact (h.stages other).spared step different
    · intro key member
      simp only [tokens]
      by_cases same : key = body.pairingToken
      · subst same
        rw [Function.update_self]
        exact spent
      · rw [Function.update_of_ne same]
        rw [grown] at member
        rcases List.mem_append.mp member with before | now
        · exact h.spent key before
        · exact absurd (by simpa using now) same
    · simp only [grown]
      refine List.nodup_append.mpr ⟨h.single, by simp, ?_⟩
      intro key before other now same
      obtain rfl : other = body.pairingToken := by simpa using now
      exact free.unspent (h.spent _ (same ▸ before))

theorem commit_keeps {landed resolves : Bool} (h : PairingInvariant run)
    (taken : commit run.hub request landed resolves = some next)
    : PairingInvariant {
        hub := next
        log := run.log ++ pairEvents run.hub (.commit request landed resolves) } := by
  have sound := h.stages request
  unfold commit at taken
  split at taken
  · rename_i body staged at_committing
    rw [at_committing] at sound
    obtain ⟨posted, fresh, unnamed, consumes⟩ := sound
    have holds (token : Record) (consumed : staged.token = some token) :=
      (consumes token consumed).1.holds
    cases taken
    cases landed with
    | false => exact h.goto (sound_committedStage staged resolves posted unnamed holds)
    | true =>
      simp only [pairEvents, at_committing]
      refine h.commits at_committing (HubState.goto_stage _ request · _) rfl ?_ ?_ ?_
      · intro none
        simp [HubState.goto, none]
      · intro token consumed
        simp [HubState.goto, consumed]
      · refine sound_committedStage staged resolves ⟨posted.named, ?_⟩ unnamed holds
        intro other member
        exact posted.only other (by simpa using member)
  · cases taken

theorem readBack_keeps {readable : Bool} (h : PairingInvariant run)
    (taken : hubStep run.hub (.readPeer request readable) = some next)
    : PairingInvariant {
        hub := next
        log := run.log ++ pairEvents run.hub (.readPeer request readable) } := by
  have sound := h.stages request
  simp only [hubStep] at taken
  split at taken
  · rename_i body staged at_reading
    rw [at_reading] at sound
    obtain ⟨posted, unnamed⟩ := sound
    cases taken
    simp only [pairEvents, at_reading]
    refine h.moves (HubState.goto_stage _ request · _)
      ⟨?_, fun _ _ _ held => held, fun _ _ _ _ => rfl⟩ rfl ?_ ?_
    · split <;> simp
    · split <;> rfl
    refine sound_readPeerStage ⟨posted.named, ?_⟩ unnamed ?_
    · intro other member
      rcases List.mem_append.mp member with before | now
      · exact posted.only other before
      · split at now <;> simp at now
    · intro shown
      have seen : ShowsPeer run.hub.peers staged readable := shown
      simp [seen]
  · cases taken

theorem readToken_keeps {readable : Bool} (h : PairingInvariant run)
    (taken : hubStep run.hub (.readToken request readable) = some next)
    : PairingInvariant {
        hub := next
        log := run.log ++ pairEvents run.hub (.readToken request readable) } := by
  have sound := h.stages request
  simp only [hubStep] at taken
  split at taken
  · rename_i body staged stagedToken verdict at_reading
    rw [at_reading] at sound
    obtain ⟨posted, consumed, peer⟩ := sound
    cases taken
    cases readable with
    | false =>
      exact h.goto (sound_readTokenAnswer posted consumed peer (by simp))
    | true =>
      simp only [pairEvents, at_reading]
      refine h.moves (HubState.goto_stage _ request · _)
        ⟨?_, fun _ _ _ held => held, fun _ _ _ _ => rfl⟩ rfl ?_ ?_
      · split <;> simp
      · split <;> rfl
      refine sound_readTokenAnswer ⟨posted.named, ?_⟩ consumed ?_ ?_
      · intro other member
        rcases List.mem_append.mp member with before | now
        · exact posted.only other before
        · split at now <;> simp at now
      · intro shown
        exact List.mem_append_left _ (peer shown)
      · intro row read shown
        cases read
        simp [shown]
  · cases taken

theorem hubStep_keeps (h : PairingInvariant run) (taken : hubStep run.hub label = some next)
    : PairingInvariant { hub := next, log := run.log ++ pairEvents run.hub label } := by
  cases label with
  | advance request => exact advance_keeps h taken
  | arrive request body => exact arrive_keeps h taken
  | commit request landed resolves => exact commit_keeps h taken
  | readPeer request readable => exact readBack_keeps h taken
  | readToken request readable => exact readToken_keeps h taken
  | revoke id nowIso =>
    obtain ⟨row, -, rfl⟩ := Option.map_eq_some_iff.mp taken
    simp only [pairEvents, List.append_nil]
    exact ⟨h.stages, h.spent, h.single⟩
  | verified request refusal =>
    have sound := h.stages request
    simp only [hubStep] at taken
    split at taken
    · rename_i at_stage
      rw [at_stage] at sound
      cases taken
      exact h.goto (sound_failed sound.2 (fun same => by cases same))
    · rename_i at_stage
      rw [at_stage] at sound
      cases taken
      exact h.goto (sound_failed sound.2 (fun same => by cases same))
    · rename_i at_stage
      rw [at_stage] at sound
      cases taken
      refine h.goto ?_
      unfold syncVerified
      split
      · exact sound_failed sound.2 (fun same => by cases same)
      · exact sound
    · rename_i at_stage
      rw [at_stage] at sound
      cases taken
      exact h.goto sound
    · cases taken
  | mergeEnded request outcome =>
    have sound := h.stages request
    simp only [hubStep] at taken
    split at taken
    · rename_i at_stage
      rw [at_stage] at sound
      cases taken
      exact h.goto sound
    · cases taken
  | putPeer request nowIso landed resolves =>
    have sound := h.stages request
    simp only [hubStep, putPeer] at taken
    split at taken
    · rename_i at_stage
      rw [at_stage] at sound
      obtain ⟨none, fresh⟩ := sound
      cases taken
      refine h.moves (HubState.goto_stage _ request · _)
        ⟨by simp, fun _ _ _ held => held, fun _ _ _ _ => rfl⟩ rfl rfl ?_
      simp only [pairEvents, List.append_nil]
      refine ⟨fun _ => Or.inl fresh, ?_⟩
      intro _ body arrived
      exact absurd arrived (none body)
    · cases taken
  | lockMissing request =>
    have sound := h.stages request
    simp only [hubStep] at taken
    split at taken
    · rename_i at_stage
      rw [at_stage] at sound
      cases taken
      exact h.goto (sound_failed sound.2 (fun same => by cases same))
    · cases taken
  | claim request nowIso writeId =>
    have sound := h.stages request
    simp only [hubStep] at taken
    split at taken
    · rename_i body firstPair token peer at_stage
      rw [at_stage] at sound
      obtain ⟨posted, fresh, holds, rfl⟩ := sound
      cases taken
      exact h.goto (sound_claimStage firstPair peer nowIso writeId posted fresh holds)
    · cases taken
  | stagePeer request nowIso writeId fails =>
    have sound := h.stages request
    simp only [hubStep] at taken
    split at taken
    · rename_i body firstPair token peer at_stage
      rw [at_stage] at sound
      obtain ⟨posted, fresh, free, spent⟩ := sound
      cases taken
      exact h.goto (sound_tokenPairStage firstPair token peer nowIso writeId fails posted
        fresh free spent)
    · rename_i body at_stage
      rw [at_stage] at sound
      obtain ⟨posted, fresh, unnamed⟩ := sound
      cases taken
      exact h.goto (sound_reReadStage _ nowIso writeId fails posted fresh unnamed)
    · cases taken

theorem pairing_invariant (h : pairing.Reachable run)
    : PairingInvariant run := by
  refine System.Reachable.invariant ?_ ?_ h
  · rintro start ⟨⟨idle, -⟩, empty⟩
    refine ⟨?_, ?_, ?_⟩
    · intro request
      rw [idle request, empty]
      exact ⟨fun body member => absurd member List.not_mem_nil,
        fun body staged member => absurd member List.not_mem_nil⟩
    · simp [empty, spentTokens]
    · simp [empty, spentTokens]
  · intro before label after kept taken
    obtain ⟨next, step, rfl⟩ := Option.map_eq_some_iff.mp taken
    exact hubStep_keeps kept step

-- Every run

structure PairingSound (run : PairingRun) : Prop where
  /-- No token is consumed by two committed pairings. -/
  single : (spentTokens run.log).Nodup
  /-- The next step, whichever it is, commits a consumption with its Peer write. -/
  together : ∀ label next, pairing.step run label = some next
    → CommitsTogether run.hub next.hub label
      ∧ next.log = run.log ++ pairEvents run.hub label
  /-- A pairing that was refused has committed nothing. -/
  refused : ∀ request answer, run.hub.stage request = .answered answer
    → answer ≠ .succeeded → Uncommitted run.log request ∨ answer.Unconfirmed
  /-- A pairing that answered success has had both its committed rows read back. -/
  paired : ∀ request body, run.hub.stage request = .answered .succeeded
    → .arrived request body ∈ run.log → ReadBack run.log request body

/-- In every interleaving of pairings, syncs and revokes a pairing token is single-use and
a pairing is atomic.
-/
theorem pairing_token_single_use {run : PairingRun} (h : pairing.Reachable run)
    : PairingSound run := by
  have kept := pairing_invariant h
  refine ⟨kept.single, ?_, ?_, ?_⟩
  · intro label next taken
    obtain ⟨hub, step, rfl⟩ := Option.map_eq_some_iff.mp taken
    exact ⟨hubStep_together step, rfl⟩
  · intro request answer at_answered failed
    have sound := kept.stages request
    rw [at_answered] at sound
    exact sound.1 failed
  · intro request body at_answered arrived
    have sound := kept.stages request
    rw [at_answered] at sound
    exact sound.2 rfl body arrived

-- Two posts with one token

def HubState.answerOf (state : HubState) (request : Nat) : Option Answer :=
  match state.stage request with
  | .answered answer => some answer
  | _ => none

def tokenPairRequest : PairRequest :=
  { rePairRequest with instanceId := "spoke-2", publicKey := "key-2", pairingToken := "token-1" }

def tokenHub : HubState :=
  { pairedHub with
    tokens := Function.update (fun _ => none) "token-1"
      (some (Record.ofFields [("expiresAt", .str "2026-01-02T00:00:00.000Z")])) }

/-- The second post waits for the lock, and then reads the token that the first consumed. -/
def twoPosts : List HubLabel := [
  .arrive 0 (.pair tokenPairRequest), .arrive 1 (.pair tokenPairRequest),
  .verified 0 none, .verified 1 none, .advance 0, .advance 1, .advance 0, .advance 1,
  .advance 0, .claim 0 "2026-01-01T00:00:00.000Z" "w-0",
  .stagePeer 0 "2026-01-01T00:00:00.000Z" "w-0" false, .advance 0, .advance 1,
  .commit 0 true true, .advance 0, .advance 1, .advance 1,
  .claim 1 "2026-01-01T00:00:01.000Z" "w-1", .readPeer 0 true, .advance 1, .readToken 0 true]

theorem one_token_pairs_once
    : ∃ run, pairing.run { hub := tokenHub, log := [] } twoPosts = some run
        ∧ spentTokens run.log = ["token-1"] ∧ run.hub.answerOf 0 = some .succeeded
        ∧ run.hub.answerOf 1 = some (.refused 401 "invalid_or_expired_pairing_token")
        ∧ PairingSound run := by
  have runs : (pairing.run { hub := tokenHub, log := [] } twoPosts).map
        (fun run => (spentTokens run.log, run.hub.answerOf 0, run.hub.answerOf 1))
      = some (["token-1"], some .succeeded,
          some (.refused 401 "invalid_or_expired_pairing_token")) := by
    decide
  obtain ⟨run, reached, read⟩ := Option.map_eq_some_iff.mp runs
  obtain ⟨spent, both⟩ := Prod.mk.inj read
  obtain ⟨first, second⟩ := Prod.mk.inj both
  have initial : pairing.initial { hub := tokenHub, log := [] } :=
    ⟨⟨fun _ => rfl, fun _ => rfl⟩, rfl⟩
  exact ⟨run, reached, spent, first, second,
    pairing_token_single_use (System.reachable_of_run initial reached)⟩

end Flair.Federation
