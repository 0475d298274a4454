import Flair.Federation.Merge

/-! A merge moves no authority over an agent: administrator state, lifecycle status, a
pending key and the key and home of an agent homed elsewhere are the receiver's own.
-/

namespace Flair.Federation

open Dynamic

/-- Two recorded homes are the same instance; a missing, null or empty one is no home. -/
def SameHome (left right : Option Value) : Prop :=
  left = right ∨ (noAgentHome left = true ∧ noAgentHome right = true)

-- The fields a merge selects

theorem get_restoreField (merged stored : Record) (restored field : String)
    : (restoreField merged stored restored).get field
      = if field = restored then stored.get field else merged.get field := by
  unfold restoreField
  cases found : stored.get restored with
  | none =>
    by_cases same : field = restored
    · simp [same, found]
    · simp [same]
  | some value =>
    by_cases same : field = restored
    · simp [same, found]
    · simp [same]

theorem keepMark_marked (field : String) (mark : Value) (merged stored : Record)
    : decide ((keepMark field mark merged stored).get field = some mark)
      = decide (stored.get field = some mark) := by
  unfold keepMark
  split
  · assumption
  · simp [get_restoreField]

variable {field : String}

theorem get_keepMark_other {kept : String} (mark : Value) (merged stored : Record)
    (other : field ≠ kept)
    : (keepMark kept mark merged stored).get field = merged.get field := by
  unfold keepMark
  split
  · rfl
  · simp [get_restoreField, other]

theorem keepReceiverAgentAuthority_isAdmin (merged : Record) (stored : Option Record)
    : agentRecordIsAdmin (some (keepReceiverAgentAuthority merged stored))
      = agentRecordIsAdmin stored := by
  cases stored with
  | none =>
    by_cases role : merged.get "role" = some adminRole
    · simp only [keepReceiverAgentAuthority, role, if_true]
      split <;> simp [agentRecordIsAdmin]
    · simp only [keepReceiverAgentAuthority, role, if_false]
      split <;> simp [agentRecordIsAdmin, role]
  | some row =>
    have marked := keepMark_marked "role" adminRole merged row
    simpa [agentRecordIsAdmin, keepReceiverAgentAuthority, get_keepMark_other] using marked

theorem get_keepReceiverAgentAuthority (merged : Record) (stored : Option Record)
    (role : field ≠ "role") (admin : field ≠ "admin")
    : (keepReceiverAgentAuthority merged stored).get field = merged.get field := by
  cases stored with
  | none =>
    simp only [keepReceiverAgentAuthority]
    split <;> split <;> simp [role, admin]
  | some row =>
    simp [keepReceiverAgentAuthority, get_keepMark_other, role, admin]

def syncFields : List String := ["_originatorInstanceId", "_syncedFrom", "_syncedAt"]

theorem get_stampSync (receipt : Receipt) (originator : String) (merged : Record)
    (other : field ∉ syncFields)
    : (stampSync receipt originator merged).get field = merged.get field := by
  simp only [syncFields, List.mem_cons, List.not_mem_nil, or_false, not_or] at other
  simp [stampSync, other]

variable {row : Record} {record : SyncRecord}

theorem get_mergeRecord (visible : field ≠ "visibility") (stamp : field ≠ "updatedAt")
    : (mergeRecord (some row) record).get field = row.get field
      ∨ (record.data.has field = true
        ∧ (mergeRecord (some row) record).get field = record.data.get field) := by
  by_cases newer : textLt (storedUpdatedAt row) record.updatedAtText
  · have carried : (mergeRecord (some row) record).get field
        = (record.data.get field).or (row.get field) := by
      simp only [mergeRecord, newer, if_true]
      split <;> simp [visible, stamp]
    cases found : record.data.get field with
    | none =>
      rw [found] at carried
      exact Or.inl (by simpa using carried)
    | some value =>
      rw [found] at carried
      exact Or.inr ⟨by simp [Record.has, found], by simpa using carried⟩
  · exact Or.inl (by simp [mergeRecord, newer])

-- What an admitted Agent record cannot change

theorem mergeOne_agent (receipt : Receipt) (record : SyncRecord) (stored : Option Record)
    (isAgent : record.table = "Agent")
    : (mergeOne receipt record stored).2 = stored
      ∨ (agentRefusal receipt record stored = none
        ∧ ∃ originator,
            (mergeOne receipt record stored).2
            = some (keepReceiverAgentAuthority
                (stampSync receipt originator (mergeRecord stored record)) stored)) := by
  have generic : record.table ≠ "Presence" := by simp [isAgent]
  rcases mergeOne_stored receipt record stored generic with
    kept | ⟨table, originator, merged, ⟨admission, merging⟩, writes, _, left⟩
  · exact Or.inl kept
  obtain rfl : table = .agent := by
    have named : table.name = "Agent" := admission.table_name.trans isAgent
    cases table <;> simp [SyncTable.name] at named ⊢
  obtain rfl : stampSync receipt originator (mergeRecord stored record) = merged := by
    simp only [mergedRow] at merging
    split at merging
    · exact Except.ok.inj merging
    · cases merging
  cases refusal : agentRefusal receipt record stored with
  | some reason => simp [mergePlan, refusal, WriteBack.Plan.writes] at writes
  | none =>
    refine Or.inr ⟨rfl, originator, ?_⟩
    rw [left]
    simp [mergePlan, refusal, WriteBack.Plan.landed, WriteBack.Plan.staged,
      WriteBack.Plan.markerField, WriteBack.Plan.values]

structure Admitted (receipt : Receipt) (record : SyncRecord) (stored : Option Record) : Prop where
  status : inboundChangesExistingPrincipalStatus record stored = false
  pending : inboundChangesExistingPendingKey record stored = false
  created : agentAdminIdCreateRefusal record stored
    (configuredAdminAgentIds receipt.adminAgents) = none
  identity : agentIdentityRefusal record stored receipt.sender = none

theorem admitted_of_agentRefusal {receipt : Receipt} {stored : Option Record}
    (h : agentRefusal receipt record stored = none)
    : Admitted receipt record stored := by
  unfold agentRefusal at h
  split at h
  · cases h
  rename_i status
  split at h
  · cases h
  rename_i pending
  obtain ⟨created, identity⟩ := Option.or_eq_none_iff.mp h
  exact {
    status := by simpa using status
    pending := by simpa using pending
    created := created
    identity := identity
  }

/-- The fields an Agent merge selects between the record and the stored row. -/
def selectedFields : List String := ["status", "publicKey", "originatorInstanceId"]

theorem merged_selected (receipt : Receipt) (record : SyncRecord) (row : Record)
    (originator : String) (member : field ∈ selectedFields)
    : let merged := keepReceiverAgentAuthority
          (stampSync receipt originator (mergeRecord (some row) record)) (some row)
      merged.get field = row.get field
      ∨ (record.data.has field = true ∧ merged.get field = record.data.get field) := by
  intro merged
  have apart : field ≠ "role" ∧ field ≠ "admin" ∧ field ≠ "visibility" ∧ field ≠ "updatedAt"
      ∧ field ∉ syncFields := by
    simp only [selectedFields, List.mem_cons, List.not_mem_nil, or_false] at member
    rcases member with rfl | rfl | rfl <;> decide
  obtain ⟨role, admin, visible, stamp, sync⟩ := apart
  have carried : merged.get field = (mergeRecord (some row) record).get field := by
    rw [get_keepReceiverAgentAuthority _ _ role admin, get_stampSync receipt originator _ sync]
  rw [carried]
  exact get_mergeRecord visible stamp

variable {merged : Record}

theorem status_kept (agrees : inboundChangesExistingPrincipalStatus record (some row) = false)
    (selected : merged.get "status" = row.get "status"
      ∨ (record.data.has "status" = true ∧ merged.get "status" = record.data.get "status"))
    : effectiveAgentStatus (merged.get "status") = effectiveAgentStatus (row.get "status") := by
  rcases selected with same | ⟨_, same⟩
  · rw [same]
  · rw [same]
    simp only [inboundChangesExistingPrincipalStatus, Bool.not_eq_false'] at agrees
    exact Option.some.inj (eq_of_strictEquals agrees)

theorem pending_kept (agrees : inboundChangesExistingPendingKey record (some row) = false)
    (pending : row.get "publicKey" = some pendingPublicKey)
    (selected : merged.get "publicKey" = row.get "publicKey"
      ∨ (record.data.has "publicKey" = true
        ∧ merged.get "publicKey" = record.data.get "publicKey"))
    : merged.get "publicKey" = some pendingPublicKey := by
  rcases selected with same | ⟨carried, same⟩
  · rw [same, pending]
  simp only [inboundChangesExistingPendingKey, pending, carried, decide_true, Bool.true_and,
    Bool.not_eq_false'] at agrees
  rw [same]
  exact eq_of_strictEquals agrees

theorem identity_kept {sender : String}
    (agrees : agentIdentityRefusal record (some row) sender = none)
    (foreign : senderIsAgentHome (some row) sender = false)
    (key : merged.get "publicKey" = row.get "publicKey"
      ∨ (record.data.has "publicKey" = true
        ∧ merged.get "publicKey" = record.data.get "publicKey"))
    (home : merged.get "originatorInstanceId" = row.get "originatorInstanceId"
      ∨ (record.data.has "originatorInstanceId" = true
        ∧ merged.get "originatorInstanceId" = record.data.get "originatorInstanceId"))
    : merged.get "publicKey" = row.get "publicKey"
      ∧ SameHome (merged.get "originatorInstanceId") (row.get "originatorInstanceId") := by
  have unchanged : inboundChangesAgentIdentity record (some row) = false := by
    simpa [agentIdentityRefusal, foreign] using agrees
  simp only [inboundChangesAgentIdentity, Bool.or_eq_false_iff, Bool.and_eq_false_iff,
    Bool.not_eq_false'] at unchanged
  obtain ⟨sameKey, sameHome⟩ := unchanged
  constructor
  · rcases key with same | ⟨carried, same⟩
    · exact same
    rcases sameKey with absent | equal
    · rw [carried] at absent
      cases absent
    · rw [same]
      exact eq_of_strictEquals equal
  · rcases home with same | ⟨carried, same⟩
    · exact Or.inl same
    rcases sameHome with absent | equal
    · rw [carried] at absent
      cases absent
    rw [same]
    simp only [sameAgentHome, Bool.or_eq_true, Bool.and_eq_true] at equal
    rcases equal with nowhere | equal
    · exact Or.inr nowhere
    · exact Or.inl (eq_of_strictEquals equal)

-- The merge as a whole

/-- The authority of an agent that a merge must leave alone: what the row after the merge
keeps of the row before it.
-/
structure AuthorityKept (before after : Record) (sender : String) : Prop where
  status : effectiveAgentStatus (after.get "status") = effectiveAgentStatus (before.get "status")
  publicKey
    : after.get "publicKey" = before.get "publicKey"
      ∨ senderIsAgentHome (some before) sender = true
  home
    : SameHome (after.get "originatorInstanceId") (before.get "originatorInstanceId")
      ∨ senderIsAgentHome (some before) sender = true
  pending
    : before.get "publicKey" = some pendingPublicKey
      → after.get "publicKey" = some pendingPublicKey

theorem AuthorityKept.refl (row : Record) (sender : String) : AuthorityKept row row sender where
  status := rfl
  publicKey := Or.inl rfl
  home := Or.inl (Or.inl rfl)
  pending := id

/-- The merged row of an admitted record keeps the stored row's authority, by cases on
whether the sender is the stored home.
-/
theorem authorityKept_of_admitted {receipt : Receipt}
    (admitted : Admitted receipt record (some row)) (originator : String)
    : AuthorityKept row
        (keepReceiverAgentAuthority
          (stampSync receipt originator (mergeRecord (some row) record)) (some row))
        receipt.sender := by
  have selected (field : String) (member : field ∈ selectedFields) :=
    merged_selected receipt record row originator member
  have status := selected "status" (by decide)
  have key := selected "publicKey" (by decide)
  have home := selected "originatorInstanceId" (by decide)
  have identity (foreign : senderIsAgentHome (some row) receipt.sender = false) :=
    identity_kept admitted.identity foreign key home
  cases sender : senderIsAgentHome (some row) receipt.sender with
  | true =>
    exact {
      status := status_kept admitted.status status
      publicKey := Or.inr sender
      home := Or.inr sender
      pending := fun pending => pending_kept admitted.pending pending key
    }
  | false =>
    exact {
      status := status_kept admitted.status status
      publicKey := Or.inl (identity sender).1
      home := Or.inl (identity sender).2
      pending := fun pending => pending_kept admitted.pending pending key
    }

/-- A federation merge moves no authority: administrator state is what it was, a stored row
keeps its lifecycle status, its pending key and, unless the verified sender is its home,
its key and home, and no row appears for a configured administrator id.
-/
theorem agent_merge_moves_no_authority (receipt : Receipt) (record : SyncRecord)
    (stored : Option Record) (isAgent : record.table = "Agent")
    : let after := (mergeOne receipt record stored).2
      agentRecordIsAdmin after = agentRecordIsAdmin stored
      ∧ (∀ before, stored = some before
          → ∃ row, after = some row ∧ AuthorityKept before row receipt.sender)
      ∧ (stored = none → record.id ∈ configuredAdminAgentIds receipt.adminAgents
          → after = none) := by
  intro after
  rcases mergeOne_agent receipt record stored isAgent with kept | ⟨passed, originator, left⟩
  · have same : after = stored := kept
    rw [same]
    refine ⟨rfl, fun before found => ⟨before, found, .refl before receipt.sender⟩, ?_⟩
    intro absent _
    exact absent
  · have admitted := admitted_of_agentRefusal passed
    have row : after = some _ := left
    rw [row]
    refine ⟨keepReceiverAgentAuthority_isAdmin _ stored, ?_, ?_⟩
    · rintro before rfl
      exact ⟨_, rfl, authorityKept_of_admitted admitted originator⟩
    · rintro rfl named
      have created := admitted.created
      simp [agentAdminIdCreateRefusal, named] at created

def promotion : SyncRecord :=
  plainRecord .agent "worker" "2025-08-31" [("role", adminRole), ("admin", .bool true)]

/-- A stored agent with no administrator state, homed on the sending spoke. -/
def worker : Record := Record.ofFields [
  ("id", .str "worker"),
  ("updatedAt", .str "2025-08-01"),
  ("role", .str "agent"),
  ("publicKey", .str "worker-key"),
  ("originatorInstanceId", .str "spoke")
]

theorem promotion_moves_no_authority
    : let after := (mergeOne spokeReceipt promotion (some worker)).2
      agentRecordIsAdmin after = agentRecordIsAdmin (some worker)
      ∧ (∀ before, some worker = some before
          → ∃ row, after = some row ∧ AuthorityKept before row spokeReceipt.sender)
      ∧ (some worker = none
          → promotion.id ∈ configuredAdminAgentIds spokeReceipt.adminAgents
          → after = none) :=
  agent_merge_moves_no_authority spokeReceipt promotion (some worker) rfl

end Flair.Federation
