import Flair.XAA.JwtBearerGrants

/-! What a jwt-bearer grant may store, along every run of concurrent grants. -/

namespace Flair.XAA

open Dynamic Transition KeyLedger Flair.OAuth
open Flair.WriteBack (verifyCommittedFields committedShowsFields)

-- What an event follows

def tokensOf (id : Nat) (log : List GrantEvent) : List IdpTokenRow :=
  log.filterMap fun event =>
    match event with
    | .tokenStored owner token => if owner = id then some token else none
    | _ => none

def LookedUp (log : List GrantEvent) (id : Nat) (key : SubjectKey) : Prop :=
  ∃ since before, log = since ++ .foundNone id key :: before
    ∧ ∀ other principalId, .provisioned other key principalId ∉ since

def ReadAfterTouch (log : List GrantEvent) (id : Nat) (principalId : String) : Prop :=
  ∃ since before credential committed, log = since ++ .readBack id credential committed :: before
    ∧ isUsableCredential committed = true
    ∧ credentialPrincipalId committed = some principalId
    ∧ ∃ touch prior landed, touch.id = credential ∧ .touched id touch prior landed ∈ before

def Untouched (log : List GrantEvent) (id : Nat) : Prop :=
  ∀ touch prior landed, .touched id touch prior landed ∉ log

def Entitled (log : List GrantEvent) (id : Nat) (principalId : String) : Prop :=
  (Untouched log id ∧ ∃ key, .provisioned id key principalId ∈ log)
    ∨ ReadAfterTouch log id principalId

/-- Another writer's commit on the touched credential, of this order, came after the grant had
confirmed the credential active.
-/
def WrittenSinceConfirm (log : List GrantEvent) (id : Nat) (credential : String) (order : Int)
    : Prop :=
  ∃ since before committed, log = since ++ .confirmed id credential committed :: before
    ∧ credentialMapsPrincipal committed = true ∧ .otherWrote credential order ∈ since

def EventSound : GrantEvent → List GrantEvent → Prop
  | .claimed _ jti writtenAt, earlier =>
    ∀ other last, .claimed other jti last ∈ earlier → last + idJagReplayRetentionMs ≤ writtenAt
  | .provisioned id key _, earlier => LookedUp earlier id key
  | .touched id touch prior true, earlier =>
    prior.maps = true
      ∨ ∃ order, order ≤ touch.readAt ∧ WrittenSinceConfirm earlier id touch.id order
  | .tokenStored id token, earlier => Entitled earlier id token.principalId
  | _, _ => True

def LogSound (log : List GrantEvent) : Prop :=
  ∀ later event earlier, log = later ++ event :: earlier → EventSound event earlier

theorem logSound_nil : LogSound [] := by
  intro later event earlier split
  cases later <;> cases split

theorem LogSound.cons {log : List GrantEvent} {event : GrantEvent} (sound : LogSound log)
    (now : EventSound event log)
    : LogSound (event :: log) := by
  intro later other earlier split
  cases later with
  | nil =>
    cases split
    exact now
  | cons first rest =>
    obtain ⟨rfl, same⟩ := List.cons.inj split
    exact sound rest other earlier same

-- More events in front

section Later

variable {log new : List GrantEvent} {id : Nat}

theorem LookedUp.later {key : SubjectKey} (h : LookedUp log id key)
    (none : ∀ other principalId, .provisioned other key principalId ∉ new)
    : LookedUp (new ++ log) id key := by
  obtain ⟨since, before, split, quiet⟩ := h
  refine ⟨new ++ since, before, by simp [split], ?_⟩
  intro other principalId member
  rcases List.mem_append.mp member with fresh | old
  · exact none other principalId fresh
  · exact quiet other principalId old

theorem ReadAfterTouch.later {principalId : String} (h : ReadAfterTouch log id principalId)
    : ReadAfterTouch (new ++ log) id principalId := by
  obtain ⟨since, before, credential, committed, split, facts⟩ := h
  exact ⟨new ++ since, before, credential, committed, by simp [split], facts⟩

theorem Untouched.later (h : Untouched log id) (none : Untouched new id)
    : Untouched (new ++ log) id := by
  intro touch prior landed member
  rcases List.mem_append.mp member with fresh | old
  · exact none touch prior landed fresh
  · exact h touch prior landed old

theorem Entitled.later {principalId : String} (h : Entitled log id principalId)
    (none : Untouched new id)
    : Entitled (new ++ log) id principalId := by
  rcases h with ⟨untouched, key, created⟩ | read
  · exact .inl ⟨untouched.later none, key, List.mem_append_right _ created⟩
  · exact .inr read.later

theorem untouched_singleton {event : GrantEvent}
    (other : ∀ touch prior landed, event ≠ .touched id touch prior landed)
    : Untouched [event] id := by
  intro touch prior landed member
  exact other touch prior landed (List.mem_singleton.mp member).symm

theorem WrittenSinceConfirm.later {credential : String} {order : Int}
    (h : WrittenSinceConfirm log id credential order)
    : WrittenSinceConfirm (new ++ log) id credential order := by
  obtain ⟨since, before, committed, split, maps, written⟩ := h
  exact ⟨new ++ since, before, committed, by simp [split], maps,
    List.mem_append_right _ written⟩

end Later

-- What holds of a grant

def GrantEvent.owner : GrantEvent → Option Nat
  | .claimed id _ _ | .foundNone id _ | .confirmed id _ _ | .touched id _ _ _ | .readBack id _ _
  | .provisioned id _ _ | .tokenStored id _ | .refreshFailed id => some id
  | .otherWrote _ _ => none

theorem tokensOf_later {log new : List GrantEvent} {id : Nat}
    (others : ∀ event ∈ new, event.owner ≠ some id)
    : tokensOf id (new ++ log) = tokensOf id log := by
  have quiet : tokensOf id new = [] := by
    refine List.filterMap_eq_nil_iff.mpr ?_
    intro event member
    cases event with
    | tokenStored owner token =>
      have apart := others _ member
      simp only [GrantEvent.owner, ne_eq, Option.some.injEq] at apart
      simp [apart]
    | _ => rfl
  rw [tokensOf, List.filterMap_append]
  exact congrArg (· ++ tokensOf id log) quiet

def issuesPair : OAuthAnswer → Bool
  | .pair _ _ _ => true
  | _ => false

def Claimed (log : List GrantEvent) (id : Nat) (grant : Grant) : Prop :=
  ∀ jti, grant.jti = some jti → ∃ writtenAt, .claimed id jti writtenAt ∈ log

structure Ready (log : List GrantEvent) (id : Nat) (grant : Grant) : Prop where
  claimed : Claimed log id grant
  none : tokensOf id log = []

structure Touch.Sound (touch : Touch) : Prop where
  maps : credentialMapsPrincipal touch.cred = true
  row : ∃ now, touch.touched = touchedRow touch.cred now

def ConfirmHolds (log : List GrantEvent) (cell : CredentialCell) (id : Nat) (credential : String)
    : Prop :=
  (∃ since before committed, log = since ++ .confirmed id credential committed :: before
      ∧ credentialMapsPrincipal committed = true)
    ∧ (cell.maps = true
      ∨ ∃ order, cell.order = some order ∧ WrittenSinceConfirm log id credential order)

def OneToken (log : List GrantEvent) (id : Nat) : Prop :=
  ∃ access, tokensOf id log = [access] ∧ access.tokenType = .access

def OnePair (log : List GrantEvent) (id : Nat) : Prop :=
  ∃ refresh access, tokensOf id log = [refresh, access] ∧ refresh.tokenType = .refresh
    ∧ access.tokenType = .access

def GrantHolds (clock : Int) (log : List GrantEvent) (cell : String → CredentialCell) (id : Nat)
    (grant : Grant)
    : Prop :=
  match grant.stage with
  | .idle | .waiting | .claiming => tokensOf id log = [] ∧ Untouched log id
  | .recording writtenAt =>
    (tokensOf id log = [] ∧ Untouched log id) ∧ writtenAt ≤ clock
      ∧ ∀ jti, grant.jti = some jti → ∀ other last, .claimed other jti last ∈ log
        → last + idJagReplayRetentionMs ≤ writtenAt
  | .searching => Ready log id grant ∧ Untouched log id
  | .touching touch => Ready log id grant ∧ touch.Sound
  | .confirmed touch =>
    Ready log id grant ∧ touch.Sound ∧ ConfirmHolds log (cell touch.id) id touch.id
  | .provisioning => Ready log id grant ∧ Untouched log id ∧ LookedUp log id grant.key
  | .verifying touch =>
    Ready log id grant ∧ touch.Sound ∧ ∃ prior landed, .touched id touch prior landed ∈ log
  | .issuing principalId => Ready log id grant ∧ Entitled log id principalId
  | .accessStored principalId _ _ =>
    Claimed log id grant ∧ Entitled log id principalId ∧ OneToken log id
  | .answered answer =>
    (issuesPair answer = true ∧ OnePair log id ∧ Claimed log id grant)
      ∨ issuesPair answer = false
        ∧ (tokensOf id log = []
          ∨ .refreshFailed id ∈ log ∧ OneToken log id ∧ Claimed log id grant)

/-- What the steps of others leave of a grant's facts. -/
structure Follows (id : Nat) (grant : Grant) (new log : List GrantEvent)
    (before after : String → CredentialCell)
    : Prop where
  others : ∀ event ∈ new, event.owner ≠ some id
  claims : ∀ jti, grant.heldJti = some jti → ∀ other last, .claimed other jti last ∉ new
  creates
    : ∀ key, grant.heldSubject = some key
      → ∀ other principalId, .provisioned other key principalId ∉ new
  cells
    : ∀ credential, after credential = before credential ∨ (after credential).maps = true
      ∨ ∃ order, (after credential).order = some order ∧ .otherWrote credential order ∈ new

section Follow

variable {id : Nat} {grant : Grant} {new log : List GrantEvent}
  {before after : String → CredentialCell}

theorem Claimed.later (h : Claimed log id grant) : Claimed (new ++ log) id grant := by
  intro jti carried
  obtain ⟨writtenAt, member⟩ := h jti carried
  exact ⟨writtenAt, List.mem_append_right _ member⟩

theorem Claimed.cons {event : GrantEvent} (h : Claimed log id grant)
    : Claimed (event :: log) id grant := by
  intro jti carried
  obtain ⟨writtenAt, member⟩ := h jti carried
  exact ⟨writtenAt, List.mem_cons_of_mem _ member⟩

theorem Follows.untouched (follows : Follows id grant new log before after)
    : Untouched new id :=
  fun _ _ _ member => follows.others _ member rfl

theorem Follows.ready (follows : Follows id grant new log before after)
    (h : Ready log id grant)
    : Ready (new ++ log) id grant :=
  ⟨h.claimed.later, (tokensOf_later follows.others).trans h.none⟩

theorem Follows.confirm (follows : Follows id grant new log before after) {credential : String}
    (h : ConfirmHolds log (before credential) id credential)
    : ConfirmHolds (new ++ log) (after credential) id credential := by
  obtain ⟨⟨since, earlier, committed, split, maps⟩, now⟩ := h
  refine ⟨⟨new ++ since, earlier, committed, by simp [split], maps⟩, ?_⟩
  rcases follows.cells credential with same | active | ⟨order, current, written⟩
  · rw [same]
    rcases now with active | ⟨order, current, written⟩
    · exact .inl active
    · exact .inr ⟨order, current, written.later⟩
  · exact .inl active
  · exact .inr ⟨order, current, new ++ since, earlier, committed, by simp [split], maps,
      List.mem_append_left _ written⟩

theorem GrantHolds.follow {clock later : Int} (h : GrantHolds clock log before id grant)
    (follows : Follows id grant new log before after) (time : clock ≤ later)
    : GrantHolds later (new ++ log) after id grant := by
  have tokens : tokensOf id (new ++ log) = tokensOf id log := tokensOf_later follows.others
  obtain ⟨payload, config, clientId, stage⟩ := grant
  cases stage with
  | idle | waiting | claiming => exact ⟨tokens.trans h.1, h.2.later follows.untouched⟩
  | recording writtenAt =>
    obtain ⟨⟨none, untouched⟩, past, apart⟩ := h
    refine ⟨⟨tokens.trans none, untouched.later follows.untouched⟩, past.trans time, ?_⟩
    intro jti carried other last member
    rcases List.mem_append.mp member with fresh | old
    · exact absurd fresh (follows.claims jti carried other last)
    · exact apart jti carried other last old
  | searching => exact ⟨follows.ready h.1, h.2.later follows.untouched⟩
  | touching touch => exact ⟨follows.ready h.1, h.2⟩
  | confirmed touch => exact ⟨follows.ready h.1, h.2.1, follows.confirm h.2.2⟩
  | provisioning =>
    exact ⟨follows.ready h.1, h.2.1.later follows.untouched, h.2.2.later (follows.creates _ rfl)⟩
  | verifying touch =>
    obtain ⟨ready, sound, prior, landed, touched⟩ := h
    exact ⟨follows.ready ready, sound, prior, landed, List.mem_append_right _ touched⟩
  | issuing principalId => exact ⟨follows.ready h.1, h.2.later follows.untouched⟩
  | accessStored principalId scope pair =>
    obtain ⟨claimed, entitled, access, stored, type⟩ := h
    exact ⟨claimed.later, entitled.later follows.untouched, access, tokens.trans stored, type⟩
  | answered answer =>
    rcases h with ⟨issued, ⟨refresh, access, stored, types⟩, claimed⟩ | ⟨refused, rest⟩
    · exact .inl ⟨issued, ⟨refresh, access, tokens.trans stored, types⟩, claimed.later⟩
    refine .inr ⟨refused, ?_⟩
    rcases rest with none | ⟨failed, ⟨access, stored, type⟩, claimed⟩
    · exact .inl (tokens.trans none)
    · exact .inr ⟨List.mem_append_right _ failed, ⟨access, tokens.trans stored, type⟩,
        claimed.later⟩

end Follow

end Flair.XAA
