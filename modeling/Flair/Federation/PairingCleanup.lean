import Flair.Federation.PeerRows
import Flair.Foundations.InsertionMap
import Flair.Foundations.Systems

/-! The hub's cleanup tick between token minting and pairings: the PairingToken table, the
bootstrap users and one transition for each awaited step of the three. Follows
`resources/federation-cleanup.ts`, `flair federation token` and `FederationPair.post`.
-/

namespace Flair.Federation

open Dynamic Transition

-- Tokens and users

/-- A username as its UTF-16 code units, as `bootstrapUser` builds it. -/
abbrev UserName := List Nat

local instance : LawfulBEq UserName := List.instLawfulBEq

abbrev TokenTable := InsertionMap String Record

def BOOTSTRAP_USER_PREFIX : UserName := utf16Units "pair-bootstrap-"

/-- `String(token.id).slice(0, 8)` -/
def tokenPrefix (id : String) : List Nat := (utf16Units id).take 8

/-- `!!token.consumedBy` -/
def tokenConsumed (token : Record) : Bool := truthy (token.get "consumedBy")

/-- `token.expiresAt && new Date(token.expiresAt) < now` -/
def tokenExpiredAt (token : Record) (now : Int) : Bool :=
  ((asString (token.get "expiresAt")).bind instantOf).any (· < now)

def tokenLive (token : Record) (now : Int) : Bool :=
  !tokenConsumed token && !tokenExpiredAt token now

theorem tokenExpiredAt_mono {token : Record} {earlier later : Int} (le : earlier ≤ later)
    (expired : tokenExpiredAt token earlier = true)
    : tokenExpiredAt token later = true := by
  simp only [tokenExpiredAt, Option.any_eq_true, decide_eq_true_eq] at expired ⊢
  obtain ⟨expiry, read, lt⟩ := expired
  exact ⟨expiry, read, lt.trans_le le⟩

theorem tokenLive_anti {token : Record} {earlier later : Int} (le : earlier ≤ later)
    (live : tokenLive token later = true)
    : tokenLive token earlier = true := by
  simp only [tokenLive, Bool.and_eq_true, Bool.not_eq_true'] at live ⊢
  refine ⟨live.1, ?_⟩
  by_contra expired
  rw [Bool.not_eq_false] at expired
  simp [tokenExpiredAt_mono le expired] at live

structure InstanceRow where
  id : Option Value
  role : Option Value

inductive SweepMode where
  | hub
  | notHub
  | multiple
  | unreadable
deriving DecidableEq

def isUsableInstanceRow (row : InstanceRow) : Bool :=
  match row.id with
  | some (.str id) => id != ""
  | _ => false

/-- `typeof role === "string" ? role.trim().toLowerCase() : ""`, on the letters of a role. -/
def normalizeRole : Option Value → String
  | some (.str role) => String.ofList ((trim role).toList.map Char.toLower)
  | _ => ""

def decideSweepMode : Option (List InstanceRow) → SweepMode
  | none => .unreadable
  | some rows =>
    match rows.filter isUsableInstanceRow with
    | [] => .notHub
    | [row] => if normalizeRole row.role = "hub" then .hub else .notHub
    | _ => .multiple

-- The tick

abbrev TokenEntry := String × Record

/-- What a tick has read and done after its scan. -/
structure TickData where
  users : Option (List UserName)
  now : Int
  liveTokenPrefixes : List (List Nat)
  droppedUsers : List UserName
  failed : Bool

/-- Where the tick stands before its next awaited step. A candidate is about to have its
user dropped, or its own row deleted; in the user-driven pass a user is about to be dropped.
-/
inductive TickStage where
  | idle
  | listing
  | listed (users : Option (List UserName)) (failed : Bool)
  | scanning (users : Option (List UserName)) (now : Int) (failed : Bool)
  | candidate (tick : TickData) (token : TokenEntry) (left : List TokenEntry)
  | housekeeping (tick : TickData) (token : TokenEntry) (left : List TokenEntry)
  | sweeping (tick : TickData) (username : UserName) (left : List UserName)
  | finished (users : Option (List UserName)) (failed : Bool)

/-- `consumed || expired` of a scanned row. -/
def isCandidate (now : Int) (entry : TokenEntry) : Bool :=
  tokenConsumed entry.2 || tokenExpiredAt entry.2 now

def TickData.toDrop (tick : TickData) : List UserName :=
  (tick.users.getD []).filter fun username =>
    BOOTSTRAP_USER_PREFIX.isPrefixOf username
      && !tick.liveTokenPrefixes.contains (username.drop BOOTSTRAP_USER_PREFIX.length)

def sweepOn (tick : TickData) : List UserName → TickStage
  | [] => .finished tick.users tick.failed
  | username :: left => .sweeping tick username left

def candidatesOn (tick : TickData) : List TokenEntry → TickStage
  | [] => sweepOn tick tick.toDrop
  | token :: left => .candidate tick token left

def scanned (users : Option (List UserName)) (now : Int) (failed : Bool) (tokens : TokenTable)
    : TickStage :=
  candidatesOn {
      users
      now
      liveTokenPrefixes :=
        (tokens.filter fun entry => !isCandidate now entry).map fun entry => tokenPrefix entry.1
      droppedUsers := []
      failed }
    (tokens.filter (isCandidate now))

def pendingDrop : TickStage → Option UserName
  | .candidate tick token _ =>
    if bootstrapUser token.1 ∈ tick.droppedUsers then none else some (bootstrapUser token.1)
  | .sweeping tick username _ =>
    if username ∈ tick.droppedUsers then none else some username
  | _ => none

def pendingDelete : TickStage → Option String
  | .housekeeping _ token _ => some token.1
  | _ => none

/-- The tick after `dropBootstrapUser` of one user. -/
def TickData.drop (tick : TickData) (username : UserName) (fails : Bool) : TickData :=
  if username ∈ tick.droppedUsers then tick
  else { tick with
    droppedUsers := username :: tick.droppedUsers
    failed := tick.failed || fails }

def afterDrop (fails : Bool) : TickStage → TickStage
  | .candidate tick token left =>
    let next := tick.drop (bootstrapUser token.1) fails
    if tokenExpiredAt token.2 tick.now && !tokenConsumed token.2 then
      .housekeeping next token left
    else candidatesOn next left
  | .sweeping tick username left => sweepOn (tick.drop username fails) left
  | stage => stage

def afterDelete (confirmed : Bool) : TickStage → TickStage
  | .housekeeping tick _ left =>
    candidatesOn { tick with failed := tick.failed || !confirmed } left
  | stage => stage

-- Minting and pairing beside the tick

inductive MintStage where
  | idle
  | persisted (id : String)
  | rollingBack (id : String)
  | done

inductive PairStage where
  | idle
  | read (request : PairRequest) (stored : Option Record)
  | claimed (request : PairRequest) (token : Record)
  | consumed (request : PairRequest)
  | done

structure CleanupState where
  now : Int
  tokens : TokenTable
  users : List UserName
  tick : TickStage
  mint : Nat → MintStage
  pair : Nat → PairStage

/-- An operation may be applied although its answer is an error; a drop or delete that
answers success is applied.
-/
inductive CleanupLabel where
  | wait (elapsed : Nat)
  | begin (rows : Option (List InstanceRow))
  | listUsers (result : Option (List UserName))
  | readClock
  | scan (readable : Bool)
  | drop (applied fails : Bool)
  | delete (applied confirmed : Bool)
  | persistToken (mint : Nat) (id createdAt expiresAt : String) (applied accepted : Bool)
  | addUser (mint : Nat) (applied accepted : Bool)
  | rollback (mint : Nat) (applied : Bool)
  | readToken (pair : Nat) (request : PairRequest)
  | claimToken (pair : Nat) (nowIso pairAttemptWriteId : String)
  | commitClaim (pair : Nat) (landed : Bool)
  | dropOwnUser (pair : Nat) (applied : Bool)

namespace CleanupState

def drop (state : CleanupState) (username : UserName) (applied : Bool) : CleanupState :=
  if applied then { state with users := state.users.filter (· != username) } else state

def delete (state : CleanupState) (id : String) (applied : Bool) : CleanupState :=
  if applied then { state with tokens := state.tokens.delete id } else state

/-- `upsert` of a minted token: its fields over those of a row stored under the id. -/
def minted (state : CleanupState) (id createdAt expiresAt : String) : Record :=
  ((state.tokens.get id).getD ∅).assign (Record.ofFields
    [("id", .str id), ("createdAt", .str createdAt), ("expiresAt", .str expiresAt)])

def upsert (state : CleanupState) (id createdAt expiresAt : String) : CleanupState :=
  { state with tokens := state.tokens.set id (state.minted id createdAt expiresAt) }

def gotoMint (state : CleanupState) (mint : Nat) (stage : MintStage) : CleanupState :=
  { state with mint := Function.update state.mint mint stage }

def gotoPair (state : CleanupState) (pair : Nat) (stage : PairStage) : CleanupState :=
  { state with pair := Function.update state.pair pair stage }

end CleanupState

def tickStep (state : CleanupState) : CleanupLabel → Option CleanupState
  | .begin rows =>
    match state.tick with
    | .idle =>
      if decideSweepMode rows = .hub then some { state with tick := .listing }
      else some { state with tick := .finished none false }
    | _ => none
  | .listUsers result =>
    match state.tick with
    | .listing =>
      some { state with
        tick := .listed (result.map (List.filter BOOTSTRAP_USER_PREFIX.isPrefixOf))
          result.isNone }
    | _ => none
  | .readClock =>
    match state.tick with
    | .listed users failed => some { state with tick := .scanning users state.now failed }
    | _ => none
  | .scan readable =>
    match state.tick with
    | .scanning users now failed =>
      if readable then some { state with tick := scanned users now failed state.tokens }
      else some { state with tick := .finished users true }
    | _ => none
  | .drop applied fails =>
    match state.tick with
    | .candidate _ _ _ | .sweeping _ _ _ =>
      match pendingDrop state.tick with
      | none => some { state with tick := afterDrop false state.tick }
      | some username =>
        some { state.drop username (applied || !fails) with
          tick := afterDrop fails state.tick }
    | _ => none
  | .delete applied confirmed =>
    match pendingDelete state.tick with
    | none => none
    | some id =>
      some { state.delete id (applied || confirmed) with
        tick := afterDelete confirmed state.tick }
  | _ => none

def otherStep (state : CleanupState) : CleanupLabel → Option CleanupState
  | .wait elapsed => some { state with now := state.now + elapsed }
  | .persistToken mint id createdAt expiresAt applied accepted =>
    match state.mint mint with
    | .idle =>
      let stored :=
        if applied || accepted then state.upsert id createdAt expiresAt else state
      some (stored.gotoMint mint (if accepted then .persisted id else .done))
    | _ => none
  | .addUser mint applied accepted =>
    match state.mint mint with
    | .persisted id =>
      if bootstrapUser id ∈ state.users then some (state.gotoMint mint (.rollingBack id))
      else
        let added :=
          if applied || accepted then { state with users := bootstrapUser id :: state.users }
          else state
        some (added.gotoMint mint (if accepted then .done else .rollingBack id))
    | _ => none
  | .rollback mint applied =>
    match state.mint mint with
    | .rollingBack id => some ((state.delete id applied).gotoMint mint .done)
    | _ => none
  | .readToken pair request =>
    match state.pair pair with
    | .idle =>
      if request.instanceId = "" then some (state.gotoPair pair .done)
      else some (state.gotoPair pair (.read request (state.tokens.get request.pairingToken)))
    | _ => none
  | .claimToken pair nowIso pairAttemptWriteId =>
    match state.pair pair with
    | .read request stored =>
      if instantOf nowIso = some state.now then
        match consumePairingToken request stored nowIso pairAttemptWriteId with
        | .consumed token => some (state.gotoPair pair (.claimed request token))
        | _ => some (state.gotoPair pair .done)
      else none
    | _ => none
  | .commitClaim pair landed =>
    match state.pair pair with
    | .claimed request token =>
      if landed then
        some ({ state with
          tokens := state.tokens.set request.pairingToken token }.gotoPair pair
            (.consumed request))
      else some (state.gotoPair pair .done)
    | _ => none
  | .dropOwnUser pair applied =>
    match state.pair pair with
    | .consumed request =>
      some ((state.drop (bootstrapUser request.pairingToken) applied).gotoPair pair .done)
    | _ => none
  | _ => none

/-- Any table with one row an id and any users, before the tick, the mints and the pairings
begin.
-/
def cleanup : System CleanupState CleanupLabel where
  initial state :=
    InsertionMap.Distinct state.tokens ∧ state.tick = .idle
      ∧ (∀ mint, state.mint mint = .idle) ∧ ∀ pair, state.pair pair = .idle
  step state label := (tickStep state label).or (otherStep state label)

end Flair.Federation
