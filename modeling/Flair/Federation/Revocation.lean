import Flair.Federation.PeerRequests

/-! A revoked peer stays revoked. A request may still write a Peer row it has decided on
earlier; a revoke that commits while no request of the peer is in that window is final.
-/

namespace Flair.Federation

open Dynamic Transition

-- The window between a request's decision and its write

def claimable (request : PairRequest) : Option Record → Bool
  | none => false
  | some token => !truthy (token.get "consumedBy") && !bootstrapMismatch request

/-- The id of the Peer row a request goes on to write from what it has read: a sync since
its Peer read, a re-pair since its transaction's first read, a first pair since it
confirmed that no row is committed. `none` outside these windows.
-/
@[simp] def Stage.held : Stage → Option String
  | .syncVerifying call peer =>
    match call.offered with
    | .ok _ => some peer.id
    | .error _ => none
  | .syncMerging _ peer _ _ => some peer.id
  | .claiming request false token (some peer) =>
    if claimable request token ∧ rePairRefusal request peer = none then some peer.id else none
  | .claimed request false _ (some peer) =>
    if rePairRefusal request peer = none then some peer.id else none
  | .committing _ staged => some staged.peer.row.id
  | _ => none

variable {peer : PeerRow}

theorem not_revoked_of_accepted {request : PairRequest} (h : rePairRefusal request peer = none)
    : ¬ peer.Revoked := by
  unfold rePairRefusal at h
  split at h
  · cases h
  · split at h
    · cases h
    · assumption

variable {peers : PeerTable} {id : String}

theorem PeerTable.not_revoked_of_get (found : peers.get id = some peer) (live : ¬ peer.Revoked)
    : ¬ peers.Revoked peer.id := by
  rintro ⟨row, stored, revoked⟩
  rw [PeerTable.id_of_get found, found] at stored
  cases stored
  exact live revoked

-- What each next stage holds

theorem held_arrival (body : PeerRequest) : (arrival body).held = none := by
  unfold arrival
  split <;> split
  all_goals first | rfl | (split <;> rfl)

variable {read : String}

theorem held_syncRead {call : SyncCall} (h : (syncRead call (peers.get read)).held = some id)
    : ¬ peers.Revoked id := by
  cases found : peers.get read with
  | none => simp [found, syncRead] at h
  | some peer =>
    simp only [found, syncRead] at h
    split at h
    · simp at h
    rename_i live
    split at h
    · simp at h
    simp only [Stage.held] at h
    split at h
    · cases h
      exact PeerTable.not_revoked_of_get found live
    · simp at h

theorem held_syncVerified (call : SyncCall) (peer : PeerRow)
    : (syncVerified call peer).held = (Stage.syncVerifying call peer).held := by
  cases checked : call.offered <;> simp [syncVerified, checked]

theorem held_pairRead (request : PairRequest) (read : Option PeerRow)
    : (pairRead request read).held = none := by
  unfold pairRead
  cases read with
  | none =>
    dsimp only
    split <;> rfl
  | some existing =>
    dsimp only
    split
    · rfl
    · split <;> rfl

variable {firstPair : Bool}

theorem held_claiming {request : PairRequest} {token : Option Record}
    (h : (Stage.claiming request firstPair token (peers.get read)).held = some id)
    : ¬ peers.Revoked id := by
  cases firstPair with
  | true => simp at h
  | false =>
    cases found : peers.get read with
    | none => simp [found] at h
    | some peer =>
      simp only [found, Stage.held, Option.ite_none_right_eq_some] at h
      obtain ⟨⟨-, accepted⟩, same⟩ := h
      cases same
      exact PeerTable.not_revoked_of_get found (not_revoked_of_accepted accepted)

variable {stored : Option Record} {nowIso writeId : String} {token : Record}

theorem claimable_of_consumed {request : PairRequest}
    (h : consumePairingToken request stored nowIso writeId = .consumed token)
    : claimable request stored = true := by
  unfold consumePairingToken at h
  split at h
  · cases h
  rename_i row
  split at h
  · cases h
  rename_i fresh
  split at h
  · cases h
  split at h
  · cases h
  · rename_i right
    simp [claimable, fresh, right]

theorem held_claimStage {request : PairRequest} {peer : Option PeerRow}
    (h : (claimStage request firstPair stored peer nowIso writeId).held = some id)
    : (Stage.claiming request firstPair stored peer).held = some id := by
  unfold claimStage at h
  cases claim : consumePairingToken request stored nowIso writeId with
  | refused => simp [claim, pairingTokenRefusal] at h
  | bootstrapMismatch => simp [claim, pairingTokenRefusal] at h
  | consumed token =>
    simp only [claim, pairingTokenRefusal] at h
    cases firstPair with
    | true => simp at h
    | false =>
      cases peer with
      | none => simp at h
      | some peer =>
        simpa [Stage.held, claimable_of_consumed claim] using h

theorem held_tokenPairStage {request : PairRequest} {peer : Option PeerRow} {fails : Bool}
    (h : (tokenPairStage request firstPair token peer nowIso writeId fails).held = some id)
    : (Stage.claimed request firstPair token peer).held = some id := by
  unfold tokenPairStage at h
  cases firstPair with
  | true => cases fails <;> simp at h
  | false =>
    cases peer with
    | none => cases fails <;> simp at h
    | some current =>
      cases accepted : rePairRefusal request current with
      | some refusal => simp [accepted] at h
      | none => cases fails <;> simp_all [Stage.held]

theorem held_reReadStage {request : PairRequest} {fails : Bool}
    (h : (reReadStage request nowIso writeId fails (peers.get read)).held = some id)
    : ¬ peers.Revoked id := by
  cases found : peers.get read with
  | none => simp [found, reReadStage] at h
  | some current =>
    cases accepted : rePairRefusal request current with
    | some refusal => simp [found, reReadStage, accepted] at h
    | none =>
      cases fails with
      | true => simp [found, reReadStage, accepted] at h
      | false =>
        have same : current.id = id := by
          simpa [found, reReadStage, accepted, Stage.held] using h
        subst same
        exact PeerTable.not_revoked_of_get found (not_revoked_of_accepted accepted)

theorem held_confirmStage {request : PairRequest}
    (h : (confirmStage request token nowIso writeId (peers.get request.instanceId)).held = some id)
    : ¬ peers.Revoked id := by
  cases found : peers.get request.instanceId with
  | some row => simp [found, confirmStage] at h
  | none =>
    have same : request.instanceId = id := by
      simpa [found, confirmStage, stagedFirstPair, Stage.held] using h
    rintro ⟨row, stored, -⟩
    rw [same, stored] at found
    cases found

theorem held_committedStage (request : PairRequest) (staged : StagedPair) (resolves : Bool)
    : (committedStage request staged resolves).held = none := by
  unfold committedStage
  cases staged.token <;> cases resolves <;> rfl

theorem held_readPeerStage (request : PairRequest) (staged : StagedPair)
    (verdict : WriteBack.CommittedWriteVerdict)
    : (readPeerStage request staged verdict).held = none := by
  unfold readPeerStage
  cases staged.token <;> rfl

-- One step

/-- What a step of one request does to the Peer rows: it leaves them and holds at most what
it held before or a row that is not revoked now, or it writes the row it held, not revoked,
and holds nothing any more.
-/
inductive RequestEffect (state next : HubState) (request : Nat) : Prop where
  | reads (stage : Stage) (peers : next.peers = state.peers)
      (moved : ∀ other, next.stage other = if other = request then stage else state.stage other)
      (held : ∀ id, stage.held = some id
        → (state.stage request).held = some id ∨ ¬ state.peers.Revoked id)
  | writes (row : PeerRow) (stage : Stage) (peers : next.peers = state.peers.put row)
      (moved : ∀ other, next.stage other = if other = request then stage else state.stage other)
      (held : (state.stage request).held = some row.id) (live : ¬ row.Revoked)
      (released : stage.held = none)

variable {state : HubState} {request : Nat} {stage : Stage}

theorem RequestEffect.releases (h : stage.held = none)
    : RequestEffect state (state.goto request stage) request :=
  .reads stage rfl (fun other => HubState.goto_stage state request other stage)
    (fun id held => by rw [h] at held; cases held)

theorem RequestEffect.decides (h : ∀ id, stage.held = some id → ¬ state.peers.Revoked id)
    : RequestEffect state (state.goto request stage) request :=
  .reads stage rfl (fun other => HubState.goto_stage state request other stage)
    (fun id held => Or.inr (h id held))

theorem RequestEffect.keeps (h : ∀ id, stage.held = some id → (state.stage request).held = some id)
    : RequestEffect state (state.goto request stage) request :=
  .reads stage rfl (fun other => HubState.goto_stage state request other stage)
    (fun id held => Or.inl (h id held))

variable {next : HubState}

theorem advance_effect (h : advance state request = some next)
    : RequestEffect state next request := by
  unfold advance at h
  split at h
  · cases h
    exact .decides (fun id held => held_syncRead held)
  · cases h
    exact .releases (held_pairRead _ _)
  · split at h
    · cases h
      refine .reads _ rfl (fun other => HubState.goto_stage _ request other _) ?_
      simp
    · split at h <;> cases h <;> exact .releases rfl
  · cases h
    exact .decides (fun id held => held_claiming held)
  · cases h
    exact .decides (fun id held => held_confirmStage held)
  · rename_i body outcome at_unlocking
    cases h
    refine .reads _ rfl (fun other => HubState.goto_stage _ request other _) ?_
    cases outcome <;> simp
  · cases h

theorem hubStep_cases {label : HubLabel} (h : hubStep state label = some next)
    : (∃ id nowIso row, label = .revoke id nowIso ∧ state.peers.get id = some row
        ∧ next = { state with peers := state.peers.put (row.revoke nowIso) })
      ∨ ∃ request, RequestEffect state next request := by
  cases label with
  | revoke id nowIso =>
    obtain ⟨row, found, rfl⟩ := Option.map_eq_some_iff.mp h
    exact Or.inl ⟨id, nowIso, row, rfl, found, rfl⟩
  | arrive request body =>
    refine Or.inr ⟨request, ?_⟩
    simp only [hubStep] at h
    split at h
    · cases h
      exact .releases (held_arrival body)
    · cases h
  | verified request refusal =>
    refine Or.inr ⟨request, ?_⟩
    simp only [hubStep] at h
    split at h
    · cases h
      exact .releases rfl
    · cases h
      exact .releases rfl
    · rename_i at_verifying
      cases h
      refine .keeps ?_
      intro id held
      rw [at_verifying, ← held_syncVerified]
      exact held
    · cases h
      exact .releases rfl
    · cases h
  | advance request => exact Or.inr ⟨request, advance_effect h⟩
  | mergeEnded request outcome =>
    refine Or.inr ⟨request, ?_⟩
    simp only [hubStep] at h
    split at h
    · rename_i at_merging
      cases h
      refine .keeps ?_
      intro id held
      rw [at_merging]
      exact held
    · cases h
  | putPeer request nowIso landed resolves =>
    refine Or.inr ⟨request, ?_⟩
    simp only [hubStep, putPeer] at h
    split at h
    · rename_i call peer merged at_merging
      cases h
      cases landed with
      | false => exact .releases rfl
      | true =>
        refine .writes _ _ rfl (fun other => HubState.goto_stage _ request other _) ?_ ?_ rfl
        · rw [at_merging]
          rfl
        · simp [PeerRow.Revoked, peerUpdate_status]
    · cases h
  | lockMissing request =>
    refine Or.inr ⟨request, ?_⟩
    simp only [hubStep] at h
    split at h
    · cases h
      exact .releases rfl
    · cases h
  | claim request nowIso writeId =>
    refine Or.inr ⟨request, ?_⟩
    simp only [hubStep] at h
    split at h
    · rename_i at_claiming
      cases h
      refine .keeps ?_
      intro id held
      rw [at_claiming]
      exact held_claimStage held
    · cases h
  | stagePeer request nowIso writeId fails =>
    refine Or.inr ⟨request, ?_⟩
    simp only [hubStep] at h
    split at h
    · rename_i at_claimed
      cases h
      refine .keeps ?_
      intro id held
      rw [at_claimed]
      exact held_tokenPairStage held
    · cases h
      exact .decides (fun id held => held_reReadStage held)
    · cases h
  | commit request landed resolves =>
    refine Or.inr ⟨request, ?_⟩
    simp only [hubStep, commit] at h
    split at h
    · rename_i body staged at_committing
      cases h
      cases landed with
      | false => exact .releases (held_committedStage _ _ _)
      | true =>
        refine .writes staged.peer.row _ rfl
          (fun other => HubState.goto_stage _ request other _) ?_
          staged.peer.not_revoked (held_committedStage _ _ _)
        rw [at_committing]
        rfl
    · cases h
  | readPeer request readable =>
    refine Or.inr ⟨request, ?_⟩
    simp only [hubStep] at h
    split at h
    · cases h
      exact .releases (held_readPeerStage _ _ _)
    · cases h
  | readToken request readable =>
    refine Or.inr ⟨request, ?_⟩
    simp only [hubStep] at h
    split at h
    · cases h
      exact .releases rfl
    · cases h

-- Whole runs

structure CutOff (id : String) (publicKey : Option Value) (state : HubState) : Prop where
  revoked
    : ∃ row, state.peers.get id = some row ∧ row.Revoked ∧ row.publicKey = publicKey
  unheld : ∀ request, (state.stage request).held ≠ some id

/-- Every step keeps a peer cut off: a request writes only a row it holds, and takes hold of
none that is revoked.
-/
theorem CutOff.step {label : HubLabel} {publicKey : Option Value} (h : CutOff id publicKey state)
    (taken : hubStep state label = some next)
    : CutOff id publicKey next := by
  obtain ⟨⟨row, found, revoked, sameKey⟩, unheld⟩ := h
  rcases hubStep_cases taken with ⟨other, nowIso, stored, -, read, rfl⟩ | ⟨request, effect⟩
  · refine ⟨?_, unheld⟩
    by_cases same : id = other
    · subst same
      obtain rfl := Option.some.inj (found.symm.trans read)
      refine ⟨row.revoke nowIso, ?_, PeerRow.revoke_revoked row nowIso, ?_⟩
      · simp [PeerTable.id_of_get found]
      · simpa using sameKey
    · refine ⟨row, ?_, revoked, sameKey⟩
      simpa [PeerTable.id_of_get read, same] using found
  · cases effect with
    | reads stage peers moved held =>
      refine ⟨⟨row, by rw [peers]; exact found, revoked, sameKey⟩, ?_⟩
      intro other now
      rw [moved] at now
      split at now
      · rcases held id now with before | live
        · exact unheld request before
        · exact live ⟨row, found, revoked⟩
      · exact unheld other now
    | writes written stage peers moved held live released =>
      have different : id ≠ written.id := by
        rintro rfl
        exact unheld request held
      refine ⟨⟨row, by simpa [peers, different] using found, revoked, sameKey⟩, ?_⟩
      intro other now
      rw [moved] at now
      split at now
      · rw [released] at now
        cases now
      · exact unheld other now

/-- Once a revoked row is committed and no request holds a row of that peer, every run from
there leaves the peer revoked under the same key.
-/
theorem revoked_peer_stays_revoked {state later : HubState} {id : String} {row : PeerRow}
    (found : state.peers.get id = some row) (revoked : row.Revoked)
    (unheld : ∀ request, (state.stage request).held ≠ some id)
    (run : hub.Reaches state later)
    : ∃ stored, later.peers.get id = some stored ∧ stored.Revoked
        ∧ stored.publicKey = row.publicKey := by
  have start : CutOff id row.publicKey state := ⟨⟨row, found, revoked, rfl⟩, unheld⟩
  have kept : CutOff id row.publicKey later := by
    refine run.preserves ?_ start
    intro before label after cut _ taken
    exact cut.step taken
  exact kept.revoked

def spokeRow : PeerRow where
  id := "spoke-1"
  fields := Record.ofFields [("publicKey", .str "key-1"), ("status", .str "paired")]

def pairedHub : HubState where
  peers := PeerTable.put (fun _ => none) spokeRow
  tokens _ := none
  tokenLock _ := none
  stage _ := .idle

def revokedHub : HubState :=
  { pairedHub with peers := pairedHub.peers.put (spokeRow.revoke "2026-01-02T00:00:00.000Z") }

def rePairRequest : PairRequest where
  instanceId := "spoke-1"
  publicKey := "key-1"
  role := none
  endpoint := none
  signature := "signed"
  pairingToken := ""
  tpsAgent := ""
  tpsAgentIsAdmin := false

/-- A re-pair after the revoke leaves the peer revoked. -/
theorem revokedHub_stays_revoked
    : ∃ later,
        hub.run revokedHub [.arrive 0 (.pair rePairRequest), .verified 0 none, .advance 0]
          = some later
        ∧ ∃ stored, later.peers.get "spoke-1" = some stored ∧ stored.Revoked
            ∧ stored.publicKey = some (.str "key-1") := by
  let labels : List HubLabel :=
    [.arrive 0 (.pair rePairRequest), .verified 0 none, .advance 0]
  have runs : (hub.run revokedHub labels).isSome = true := by decide
  obtain ⟨later, run⟩ := Option.isSome_iff_exists.mp runs
  have found : revokedHub.peers.get "spoke-1"
      = some (spokeRow.revoke "2026-01-02T00:00:00.000Z") := by
    decide
  refine ⟨later, run, ?_⟩
  exact revoked_peer_stays_revoked found (PeerRow.revoke_revoked _ _)
    (fun _ => Option.some_ne_none _ |>.symm) (System.reaches_of_run run)

-- Inside the window

theorem committing_writes {body : PairRequest} {staged : StagedPair}
    (h : state.stage request = .committing body staged)
    : ∃ later row, hub.Reaches state later ∧ later.peers.get staged.peer.row.id = some row
        ∧ ¬ row.Revoked := by
  obtain ⟨next, taken, stored⟩
      : ∃ next, hub.step state (.commit request true true) = some next
          ∧ next.peers.get staged.peer.row.id = some staged.peer.row := by
    simp [hub, hubStep, commit, h]
  exact ⟨next, staged.peer.row, System.ReachesUnder.single trivial taken, stored,
    staged.peer.not_revoked⟩

theorem merging_writes {call : SyncCall} {left : List SyncRecord} {merged : Nat}
    (h : state.stage request = .syncMerging call peer left merged)
    : ∃ later row, hub.Reaches state later ∧ later.peers.get peer.id = some row
        ∧ ¬ row.Revoked := by
  induction left generalizing state merged with
  | nil =>
    let row := peerUpdate peer call.lamportClock "2026-01-03T00:00:00.000Z" merged
    obtain ⟨next, taken, stored⟩
        : ∃ next,
            hub.step state (.putPeer request "2026-01-03T00:00:00.000Z" true true) = some next
            ∧ next.peers.get peer.id = some row := by
      simp [hub, hubStep, putPeer, h, row]
    refine ⟨next, row, System.ReachesUnder.single trivial taken, stored, ?_⟩
    simp [row, PeerRow.Revoked, peerUpdate_status]
  | cons record left ih =>
    obtain ⟨next, taken, at_next⟩
        : ∃ next, hub.step state (.mergeEnded request .merged) = some next
            ∧ next.stage request = .syncMerging call peer left (merged + 1) := by
      simp [hub, hubStep, h]
    obtain ⟨later, row, run, stored, live⟩ := ih at_next
    exact ⟨later, row, (System.ReachesUnder.single trivial taken).trans run, stored, live⟩

theorem claimed_writes {body : PairRequest}
    (h : state.stage request = .claimed body false token (some peer))
    (accepted : rePairRefusal body peer = none)
    : ∃ later row, hub.Reaches state later ∧ later.peers.get peer.id = some row
        ∧ ¬ row.Revoked := by
  obtain ⟨next, taken, at_next⟩
      : ∃ next, hub.step state (.stagePeer request "2026-01-03T00:00:00.000Z" "w" false)
            = some next
          ∧ next.stage request = .committing body {
              peer := rePairedRow body peer "2026-01-03T00:00:00.000Z" "w"
              token := some token
              firstPair := false } := by
    simp [hub, hubStep, h, tokenPairStage, accepted]
  obtain ⟨later, row, run, stored, live⟩ := committing_writes at_next
  exact ⟨later, row, (System.ReachesUnder.single trivial taken).trans run, stored, live⟩

theorem consumed_of_claimable {request : PairRequest} (h : claimable request stored = true)
    : ∃ nowIso token, consumePairingToken request stored nowIso "w" = .consumed token := by
  cases stored with
  | none => cases h
  | some row =>
    simp only [claimable, Bool.and_eq_true, Bool.not_eq_true'] at h
    obtain ⟨fresh, right⟩ := h
    refine ⟨(asString (row.get "expiresAt")).getD "", ?_⟩
    have valid : tokenExpired row ((asString (row.get "expiresAt")).getD "") = false := by
      cases expiry : asString (row.get "expiresAt") with
      | none => simp [tokenExpired, expiry]
      | some text => cases instant : instantOf text <;> simp [tokenExpired, expiry, instant]
    simp [consumePairingToken, fresh, right, valid]

theorem held_writes (h : (state.stage request).held = some id)
    : ∃ later row, hub.Reaches state later ∧ later.peers.get id = some row
        ∧ ¬ row.Revoked := by
  cases at_stage : state.stage request with
  | syncMerging call peer left merged =>
    rw [at_stage] at h
    cases h
    exact merging_writes at_stage
  | committing body staged =>
    rw [at_stage] at h
    cases h
    exact committing_writes at_stage
  | syncVerifying call peer =>
    simp only [at_stage, Stage.held] at h
    split at h
    · rename_i offered checked
      cases h
      obtain ⟨next, taken, at_next⟩
          : ∃ next, hub.step state (.verified request none) = some next
              ∧ next.stage request = .syncMerging call peer offered 0 := by
        simp [hub, hubStep, at_stage, syncVerified, checked]
      obtain ⟨later, row, run, stored, live⟩ := merging_writes at_next
      exact ⟨later, row, (System.ReachesUnder.single trivial taken).trans run, stored, live⟩
    · cases h
  | claimed body firstPair token peer =>
    cases firstPair <;> cases peer <;> simp only [at_stage, Stage.held] at h
    all_goals first | cases h | skip
    simp only [Option.ite_none_right_eq_some] at h
    obtain ⟨accepted, same⟩ := h
    cases same
    exact claimed_writes at_stage accepted
  | claiming body firstPair token peer =>
    cases firstPair <;> cases peer <;> simp only [at_stage, Stage.held] at h
    all_goals first | cases h | skip
    rename_i peer
    simp only [Option.ite_none_right_eq_some] at h
    obtain ⟨⟨fresh, accepted⟩, same⟩ := h
    cases same
    obtain ⟨nowIso, consumed, claim⟩ := consumed_of_claimable fresh
    obtain ⟨next, taken, at_next⟩
        : ∃ next, hub.step state (.claim request nowIso "w") = some next
            ∧ next.stage request = .claimed body false consumed (some peer) := by
      simp [hub, hubStep, at_stage, claimStage, claim, pairingTokenRefusal]
    obtain ⟨later, row, run, stored, live⟩ := claimed_writes at_next accepted
    exact ⟨later, row, (System.ReachesUnder.single trivial taken).trans run, stored, live⟩
  | idle => simp [at_stage] at h
  | syncReading _ => simp [at_stage] at h
  | pairVerifying _ => simp [at_stage] at h
  | pairReading _ => simp [at_stage] at h
  | locking _ _ _ => simp [at_stage] at h
  | locked _ _ => simp [at_stage] at h
  | confirming _ _ _ _ => simp [at_stage] at h
  | reReading _ => simp [at_stage] at h
  | unlocking _ _ => simp [at_stage] at h
  | readingBack _ _ => simp [at_stage] at h
  | readingToken _ _ _ _ => simp [at_stage] at h
  | answered _ => simp [at_stage] at h

theorem held_revoke_can_be_lost {row : PeerRow} (found : state.peers.get id = some row)
    (held : (state.stage request).held = some id) (nowIso : String)
    : ∃ revoked later stored, hub.step state (.revoke id nowIso) = some revoked
        ∧ revoked.peers.Revoked id ∧ hub.Reaches revoked later
        ∧ later.peers.get id = some stored ∧ ¬ stored.Revoked := by
  have same := PeerTable.id_of_get found
  let revoked : HubState := { state with peers := state.peers.put (row.revoke nowIso) }
  have taken : hub.step state (.revoke id nowIso) = some revoked := by
    simp [hub, hubStep, found, revoked]
  have cut : revoked.peers.Revoked id :=
    ⟨row.revoke nowIso, by simp [revoked, same], PeerRow.revoke_revoked row nowIso⟩
  have still : (revoked.stage request).held = some id := held
  obtain ⟨later, stored, run, at_id, live⟩ := held_writes still
  exact ⟨revoked, later, stored, taken, cut, run, at_id, live⟩

def emptySync : SyncCall where
  request := {
    instanceId := "spoke-1"
    records := some { items := [], bounded := by decide }
    signature := "signed" }
  lamportClock := none

/-- A revoke between a re-pair's read in its transaction and its commit, and one between a
sync's first read and its last write, are lost.
-/
theorem revoke_in_window_is_lost
    : hub.initial pairedHub ∧ ∀ labels ∈ [
        [.arrive 0 (.pair rePairRequest), .verified 0 none, .advance 0,
          .stagePeer 0 "2026-01-01T00:00:00.000Z" "w" false],
        [.arrive 0 (.sync emptySync), .advance 0]],
        ∃ state revoked later stored,
          hub.run pairedHub labels = some state
          ∧ hub.step state (.revoke "spoke-1" "2026-01-02T00:00:00.000Z") = some revoked
          ∧ revoked.peers.Revoked "spoke-1" ∧ hub.Reaches revoked later
          ∧ later.peers.get "spoke-1" = some stored ∧ ¬ stored.Revoked := by
  refine ⟨⟨fun _ => rfl, fun _ => rfl⟩, ?_⟩
  intro labels member
  have seen : (hub.run pairedHub labels).map
        (fun state => (state.peers.get "spoke-1", (state.stage 0).held))
      = some (some spokeRow, some "spoke-1") := by
    simp only [List.mem_cons, List.not_mem_nil, or_false] at member
    rcases member with rfl | rfl <;> decide
  obtain ⟨state, run, read⟩ := Option.map_eq_some_iff.mp seen
  obtain ⟨found, held⟩ := Prod.mk.inj read
  obtain ⟨revoked, later, stored, lost⟩ :=
    held_revoke_can_be_lost found held "2026-01-02T00:00:00.000Z"
  exact ⟨state, revoked, later, stored, run, lost⟩

end Flair.Federation
