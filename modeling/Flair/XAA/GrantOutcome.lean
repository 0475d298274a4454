import Flair.XAA.GrantSafety

/-! What jwt-bearer grants issue, create, touch and refuse, over all runs. -/

namespace Flair.XAA

open Dynamic Transition KeyLedger Flair.OAuth

variable {hashes : OAuthHashes}

structure GrantsKeep (state : GrantState) : Prop where
  pair
    : ∀ id, tokensOf id state.log = [] ∨ OneToken state.log id ∨ OnePair state.log id
  jti
    : ∀ id other jti, id ≠ other → (state.grant id).jti = some jti
      → (state.grant other).jti = some jti → OnePair state.log id → OnePair state.log other
      → ∃ claimedAt otherAt, .claimed id jti claimedAt ∈ state.log
        ∧ .claimed other jti otherAt ∈ state.log
        ∧ (claimedAt + idJagReplayRetentionMs ≤ otherAt
          ∨ otherAt + idJagReplayRetentionMs ≤ claimedAt)
  created
    : ∀ later id key principalId earlier,
      state.log = later ++ .provisioned id key principalId :: earlier → LookedUp earlier id key
  touched
    : ∀ later id touch prior earlier, state.log = later ++ .touched id touch prior true :: earlier
      → prior.maps = true
        ∨ ∃ order, order ≤ touch.readAt ∧ WrittenSinceConfirm earlier id touch.id order
  refused
    : ∀ id answer, (state.grant id).stage = .answered answer → issuesPair answer = false
      → tokensOf id state.log = [] ∨ .refreshFailed id ∈ state.log ∧ OneToken state.log id
  stored
    : ∀ later id token earlier, state.log = later ++ .tokenStored id token :: earlier
      → Entitled earlier id token.principalId

/-- Of two claims of one jti by different grants, one was made after the other's row had been
kept for its time.
-/
theorem LogSound.claims_apart {log : List GrantEvent} (sound : LogSound log) {id other : Nat}
    {jti : String} {claimedAt otherAt : Int} (different : id ≠ other)
    (claimed : .claimed id jti claimedAt ∈ log) (also : .claimed other jti otherAt ∈ log)
    : claimedAt + idJagReplayRetentionMs ≤ otherAt
      ∨ otherAt + idJagReplayRetentionMs ≤ claimedAt := by
  obtain ⟨later, earlier, split⟩ := List.append_of_mem claimed
  rw [split] at also
  rcases List.mem_append.mp also with after | here
  · obtain ⟨last, between, rest⟩ := List.append_of_mem after
    have whole : log = last ++ .claimed other jti otherAt
        :: (between ++ .claimed id jti claimedAt :: earlier) := by
      rw [split, rest]
      simp
    exact .inl (sound _ _ _ whole id claimedAt (by simp))
  · rcases List.mem_cons.mp here with same | before
    · cases same
      exact absurd rfl different
    · exact .inr (sound _ _ _ split other otherAt before)

theorem GrantsInv.claimed_of_pair {state : GrantState} (inv : GrantsInv state) {id : Nat}
    (pair : OnePair state.log id)
    : Claimed state.log id (state.grant id) := by
  obtain ⟨refresh, access, stored, -, -⟩ := pair
  have some_stored : tokensOf id state.log ≠ [] := by
    rw [stored]
    exact List.cons_ne_nil _ _
  cases here : (state.grant id).stage with
  | accessStored principalId scope new => exact (inv.at here).1
  | answered answer =>
    rcases inv.at here with ⟨-, -, claimed⟩ | ⟨-, none | ⟨-, -, claimed⟩⟩
    · exact claimed
    · exact absurd none some_stored
    · exact claimed
  | _ => exact absurd (inv.none_of_stage (by simp [here]) (by simp [here])) some_stored

/-- In every run each grant stores at most one pair, grants of one jti are apart by its row's
retention, a pair is created after a lookup that found none, a touch undoes only what was
committed after its last read, and tokens name the principal that was created or read back.
-/
theorem grants_issue_once {state : GrantState} (h : (jwtBearerGrants hashes).Reachable state)
    : GrantsKeep state := by
  have inv := grantsInv_of_reachable h
  refine ⟨?_, ?_, ?_, ?_, ?_, ?_⟩
  · intro id
    cases here : (state.grant id).stage with
    | accessStored principalId scope pair => exact .inr (.inl (inv.at here).2.2)
    | answered answer =>
      rcases inv.at here with ⟨-, pair, -⟩ | ⟨-, none | ⟨-, one, -⟩⟩
      · exact .inr (.inr pair)
      · exact .inl none
      · exact .inr (.inl one)
    | _ => exact .inl (inv.none_of_stage (by simp [here]) (by simp [here]))
  · intro id other jti different carried also pair otherPair
    obtain ⟨claimedAt, claimed⟩ := inv.claimed_of_pair pair jti carried
    obtain ⟨otherAt, otherClaimed⟩ := inv.claimed_of_pair otherPair jti also
    exact ⟨claimedAt, otherAt, claimed, otherClaimed,
      inv.log.claims_apart different claimed otherClaimed⟩
  · intro later id key principalId earlier split
    exact inv.log _ _ _ split
  · intro later id touch prior earlier split
    exact inv.log _ _ _ split
  · intro id answer here refused
    rcases inv.at here with ⟨issued, -⟩ | ⟨-, none | ⟨failed, one, -⟩⟩
    · rw [refused] at issued
      cases issued
    · exact .inl none
    · exact .inr ⟨failed, one⟩
  · intro later id token earlier split
    exact inv.log _ _ _ split

-- Runs

def plainHashes : OAuthHashes := ⟨id, id⟩

def noGrants (credentials : InsertionMap String CredentialCell) : GrantState where
  clock := 0
  jtiRows _ := none
  jtis := Ledger.fresh
  subjects := Ledger.fresh
  credentials
  grant _ := Grant.idle
  log := []

theorem noGrants_initial (credentials : InsertionMap String CredentialCell)
    : (jwtBearerGrants plainHashes).initial (noGrants credentials) :=
  ⟨rfl, rfl, fun _ => rfl, rfl⟩

def assertionOf (jti : String) (exp : Rat) : Record :=
  .ofFields [("sub", .str "s"), ("jti", .str jti), ("exp", .num exp)]

def jitIdp : IdpConfig := ⟨"idp", none, "", true, [], "client"⟩

def newPair : NewPair := ⟨"at", "rt", "access", "refresh"⟩

def searchingGrant (id : Nat) (jti : String) (exp : Rat) : List GrantLabel :=
  [.arrive id (some (.ok (assertionOf jti exp, jitIdp))) none, .lock id, .claim id false,
    .record id .resolved]

def creatingGrant (id : Nat) (jti : String) (exp : Rat) : List GrantLabel :=
  searchingGrant id jti exp
    ++ [.search id none "now", .provision id "x" "c" "now" true, .storeAccess id newPair]

def activeCredential : Record :=
  .ofFields [("id", .str "c"), ("kind", .str "idp"), ("idpSubject", .str "s"),
    ("idpProvider", .str "idp"), ("status", .str "active"), ("principalId", .str "p")]

/-- Witness: a grant that creates a credential and one that touches it. -/
theorem grants_issue_once_twice
    : ∃ state, GrantsKeep state ∧ (tokensOf 0 state.log).length = 2
        ∧ (tokensOf 1 state.log).length = 2 := by
  have runs : ((jwtBearerGrants plainHashes).run (noGrants [])
      (creatingGrant 0 "j" 10 ++ [.storeRefresh 0] ++ searchingGrant 1 "k" 10
        ++ [.search 1 (some "c") "later", .confirm 1, .commitTouch 1 true, .verify 1,
          .storeAccess 1 newPair, .storeRefresh 1])).any (fun state =>
        (tokensOf 0 state.log).length = 2 && (tokensOf 1 state.log).length = 2) = true := by
    decide +kernel
  obtain ⟨state, run, checks⟩ := (Option.any_eq_true _ _).mp runs
  simp only [Bool.and_eq_true, decide_eq_true_eq] at checks
  exact ⟨state, grants_issue_once (System.reachable_of_run (noGrants_initial []) run), checks⟩

def createdKeys (id : Nat) (log : List GrantEvent) : List SubjectKey :=
  log.filterMap fun event =>
    match event with
    | .provisioned owner key _ => if owner = id then some key else none
    | _ => none

def refusedGrant (grant : Grant) : Bool :=
  match grant.stage with
  | .answered answer => !issuesPair answer
  | _ => false

/-- A jti is used again once its row is gone, a subject's deleted credential is created again,
a revoke that commits between a touch's confirmation and its commit is undone, and a grant whose
refresh token's write fails is refused with its access token stored.
-/
theorem grants_reissue_and_undo
    : (∃ state, (jwtBearerGrants plainHashes).Reachable state
        ∧ (state.grant 0).jti = some "j" ∧ (state.grant 1).jti = some "j"
        ∧ (tokensOf 0 state.log).length = 2 ∧ (tokensOf 1 state.log).length = 2)
      ∧ (∃ state, (jwtBearerGrants plainHashes).Reachable state
        ∧ createdKeys 0 state.log = [("idp", "s")] ∧ createdKeys 1 state.log = [("idp", "s")])
      ∧ (∃ state after, (jwtBearerGrants plainHashes).Reachable state
        ∧ grantStep plainHashes state (.commitTouch 0 true) = some after
        ∧ (state.cell "c").maps = false ∧ (after.cell "c").maps = true)
      ∧ ∃ state, (jwtBearerGrants plainHashes).Reachable state
        ∧ refusedGrant (state.grant 0) = true ∧ (tokensOf 0 state.log).length = 1 := by
  refine ⟨?reissued, ?recreated, ?undone, ?refused⟩
  case reissued =>
    have runs : ((jwtBearerGrants plainHashes).run (noGrants [])
        (creatingGrant 0 "j" 10 ++ [.storeRefresh 0, .tick 90000000, .expire "j"]
          ++ searchingGrant 1 "j" 90010
          ++ [.search 1 (some "c") "later", .confirm 1, .commitTouch 1 true, .verify 1,
            .storeAccess 1 newPair, .storeRefresh 1])).any (fun state =>
          (state.grant 0).jti = some "j" && (state.grant 1).jti = some "j"
            && (tokensOf 0 state.log).length = 2 && (tokensOf 1 state.log).length = 2) = true := by
      decide +kernel
    obtain ⟨state, run, checks⟩ := (Option.any_eq_true _ _).mp runs
    simp only [Bool.and_eq_true, decide_eq_true_eq] at checks
    obtain ⟨⟨⟨first, second⟩, stored⟩, again⟩ := checks
    exact ⟨state, System.reachable_of_run (noGrants_initial []) run, first, second, stored, again⟩
  case recreated =>
    have runs : ((jwtBearerGrants plainHashes).run (noGrants [])
        (creatingGrant 0 "j" 10 ++ [.other "c" none 0] ++ creatingGrant 1 "k" 10)).any (fun state =>
          createdKeys 0 state.log = [("idp", "s")] && createdKeys 1 state.log = [("idp", "s")])
        = true := by
      decide +kernel
    obtain ⟨state, run, checks⟩ := (Option.any_eq_true _ _).mp runs
    simp only [Bool.and_eq_true, decide_eq_true_eq] at checks
    exact ⟨state, System.reachable_of_run (noGrants_initial []) run, checks⟩
  case undone =>
    have runs : ((jwtBearerGrants plainHashes).run
        (noGrants [("c", ⟨some activeCredential, some 0⟩)])
        (.tick 10 :: searchingGrant 0 "j" 10
          ++ [.search 0 (some "c") "later", .confirm 0,
            .other "c" (some (activeCredential.set "status" (.str "revoked"))) 5])).any (fun
          state =>
          (grantStep plainHashes state (.commitTouch 0 true)).any fun after =>
            !(state.cell "c").maps && (after.cell "c").maps) = true := by
      decide +kernel
    obtain ⟨state, run, checks⟩ := (Option.any_eq_true _ _).mp runs
    obtain ⟨after, taken, checks⟩ := (Option.any_eq_true _ _).mp checks
    simp only [Bool.and_eq_true, Bool.not_eq_true'] at checks
    exact ⟨state, after, System.reachable_of_run (noGrants_initial _) run, taken, checks⟩
  case refused =>
    have runs : ((jwtBearerGrants plainHashes).run (noGrants [])
        (creatingGrant 0 "j" 10 ++ [.fail 0 "write failed"])).any (fun state =>
          refusedGrant (state.grant 0) && (tokensOf 0 state.log).length = 1) = true := by
      decide +kernel
    obtain ⟨state, run, checks⟩ := (Option.any_eq_true _ _).mp runs
    simp only [Bool.and_eq_true, decide_eq_true_eq] at checks
    exact ⟨state, System.reachable_of_run (noGrants_initial []) run, checks⟩

end Flair.XAA
