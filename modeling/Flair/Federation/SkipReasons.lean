import Mathlib.Data.List.Nodup

/-! Why a receiver skips a record, and whether a later offer of the same record can merge.
Follows `resources/federation-classify.ts`.
-/

namespace Flair.Federation

inductive SkipReason where
  | unknownTable
  | nonOriginator
  | futureTimestamp
  | noOpSameHash
  | unknownOriginatorKey
  | invalidSignature
  | missingSignature
  | principalMismatch
  | pointerNotFederated
  | agentStatusNotFederated
  | agentPendingKeyNotFederated
  | agentIdentityNotFromHome
  | agentAdminIdNotFederated
  | idMismatch
  | invalidExpiry
  | mergeTargetChanged
  | mergeTargetBusy
  | mergeError
  | invalidAgentId
  | skillNotFederated
  | seedIdNotFederated
  | contentSuffixIdNotFederated
  | presenceReceiveDisabled
  | presenceAgentNotReplicated
  | presenceAgentHomedElsewhere
  | presenceStaleHeartbeat
  | presenceInvalidShape
  | presenceFutureTimestamp
deriving DecidableEq, Repr

namespace SkipReason

def text : SkipReason → String
  | unknownTable => "unknown_table"
  | nonOriginator => "non_originator"
  | futureTimestamp => "future_timestamp"
  | noOpSameHash => "no_op_same_hash"
  | unknownOriginatorKey => "unknown_originator_key"
  | invalidSignature => "invalid_signature"
  | missingSignature => "missing_signature"
  | principalMismatch => "principal_mismatch"
  | pointerNotFederated => "pointer_not_federated"
  | agentStatusNotFederated => "agent_status_not_federated"
  | agentPendingKeyNotFederated => "agent_pending_key_not_federated"
  | agentIdentityNotFromHome => "agent_identity_not_from_home"
  | agentAdminIdNotFederated => "agent_admin_id_not_federated"
  | idMismatch => "id_mismatch"
  | invalidExpiry => "invalid_expiry"
  | mergeTargetChanged => "merge_target_changed"
  | mergeTargetBusy => "merge_target_busy"
  | mergeError => "merge_error"
  | invalidAgentId => "invalid_agent_id"
  | skillNotFederated => "skill_not_federated"
  | seedIdNotFederated => "seed_id_not_federated"
  | contentSuffixIdNotFederated => "content_suffix_id_not_federated"
  | presenceReceiveDisabled => "presence_receive_disabled"
  | presenceAgentNotReplicated => "presence_agent_not_replicated"
  | presenceAgentHomedElsewhere => "presence_agent_homed_elsewhere"
  | presenceStaleHeartbeat => "presence_stale_heartbeat"
  | presenceInvalidShape => "presence_invalid_shape"
  | presenceFutureTimestamp => "presence_future_timestamp"

/-- The keys of `SKIP_REASON_CLASS`, in the order they are listed. -/
def all : List SkipReason :=
  [unknownTable, nonOriginator, futureTimestamp, noOpSameHash, unknownOriginatorKey,
    invalidSignature, missingSignature, principalMismatch, pointerNotFederated,
    agentStatusNotFederated, agentPendingKeyNotFederated, agentIdentityNotFromHome,
    agentAdminIdNotFederated, idMismatch, invalidExpiry, mergeTargetChanged, mergeTargetBusy,
    mergeError, invalidAgentId, skillNotFederated, seedIdNotFederated,
    contentSuffixIdNotFederated, presenceReceiveDisabled, presenceAgentNotReplicated,
    presenceAgentHomedElsewhere, presenceStaleHeartbeat, presenceInvalidShape,
    presenceFutureTimestamp]

/-- `isSkipReason`: read a receiver-supplied reason string. -/
def ofText (text : String) : Option SkipReason := all.find? (fun reason => reason.text == text)

theorem mem_all (reason : SkipReason) : reason ∈ all := by
  have listed : all.contains reason = true := by cases reason <;> rfl
  exact List.contains_iff_mem.mp listed

theorem text_injective : Function.Injective text := by
  intro left right h
  have distinct : (all.map text).Nodup := by decide
  exact List.inj_on_of_nodup_map distinct (mem_all left) (mem_all right) h

@[simp] theorem ofText_text (reason : SkipReason) : ofText reason.text = some reason := by
  unfold ofText
  cases found : all.find? (fun other => other.text == reason.text) with
  | none =>
    have absent := List.find?_eq_none.mp found reason (mem_all reason)
    exact absurd (by simp) absent
  | some other =>
    have same := List.find?_some found
    rw [text_injective (eq_of_beq same)]

end SkipReason

end Flair.Federation
