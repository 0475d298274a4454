import Flair.Federation.AgentMerges

/-! A record that loses the last-writer-wins comparison still reaches the write: the kept
row is stamped as received from the sender, and normalised as a received row of its table.
-/

namespace Flair.Federation

open Dynamic Memories

-- The checks that stand between a losing record and the write

/-- The Memory checks a losing record passes: its own expiry is acceptable, and the stored
row is neither a skill nor under a reserved or unreadable id.
-/
structure MemoryAccepted (receipt : Receipt) (record : SyncRecord) (row : Record) : Prop where
  expiry
    : ∃ incoming,
        stampEphemeralExpiry record.data (some row) true receipt.stampedAt
            receipt.ephemeralTtlHours
        = .accepted incoming
  skill : isSkillWrite row = false
  reserved : record.id ≠ seedSkillRowId
  readable : endsWithContentSelectorSuffix (row.get "id") = false

structure Accepted (receipt : Receipt) (table : SyncTable) (originator : String)
    (record : SyncRecord) (row : Record)
    : Prop where
  admission : Admission receipt table originator record (some row)
  target : WriteBack.sameStoredRow (some row) (some row) = true
  agent
    : table = .agent
      → isValidAgentId record.id = true ∧ agentRefusal receipt record (some row) = none
  memory : table = .memory → MemoryAccepted receipt record row

/-- The stored row already carries the bookkeeping this merge would stamp. -/
structure CarriesStamps (receipt : Receipt) (originator : String) (row : Record) : Prop where
  originator : row.get "_originatorInstanceId" = some (.str originator)
  sender : row.get "_syncedFrom" = some (.str receipt.sender)
  syncedAt : row.get "_syncedAt" = some (.str receipt.syncedAt)

def strippedMemoryFields : List String := ["writeBackWriteId", "skillSubjectId"]

structure SettledMemory (receipt : Receipt) (row : Record) : Prop where
  declared
    : ∀ field ∈ row.fields, field ∈ memoryAttributes ∧ field ∉ strippedMemoryFields
  provenance : row.has "provenance" = true → (asString (row.get "provenance")).isSome = true
  token : row.get "instanceToken" = some (.str (receiverToken receipt (some row)))
  embedding : isEmptyEmbedding (row.get "embedding") = false

def Settled (receipt : Receipt) (table : SyncTable) (row : Record) : Prop :=
  match table with
  | .memory => SettledMemory receipt row
  | .message =>
    row.get "state" = some Relay.consumed
      → row.get "failureReason" = some .null ∧ row.has "consumedAt" = true
  | _ => True

-- The row a losing record leaves

variable {row : Record} {record : SyncRecord}

theorem mergeRecord_losing (losing : ¬ textLt (storedUpdatedAt row) record.updatedAtText)
    (data : Record)
    : mergeRecord (some row) { record with data } = row := by
  have same : SyncRecord.updatedAtText { record with data } = record.updatedAtText := rfl
  simp [mergeRecord, same, losing]

/-- The stored row as a losing record's write leaves it. -/
def keptRow (receipt : Receipt) (table : SyncTable) (originator : String) (row : Record)
    : Record :=
  match table with
  | .memory =>
    normalizeEmptyEmbedding
      (stampMemory receipt (some row)
        (stampSync receipt originator (stripInboundMemoryRow row)))
  | .message => reconcileMessage (stampSync receipt originator row) (some row)
  | _ => stampSync receipt originator row

theorem isSkillWrite_strip (row : Record)
    : isSkillWrite (stripInboundMemoryRow row) = isSkillWrite row := by
  have tags : "tags" ∈ memoryAttributes := by decide
  simp [isSkillWrite, tags]

variable {receipt : Receipt}

theorem mergedMemory_losing {originator : String} {merged : Record}
    (losing : ¬ textLt (storedUpdatedAt row) record.updatedAtText)
    : mergedMemory receipt record originator (some row) = .ok merged
      ↔ MemoryAccepted receipt record row
        ∧ merged
          = stampMemory receipt (some row)
              (stampSync receipt originator (stripInboundMemoryRow row)) := by
  have id : "id" ∈ memoryAttributes := by decide
  unfold mergedMemory
  cases stamped : stampEphemeralExpiry record.data (some row) true receipt.stampedAt
      receipt.ephemeralTtlHours with
  | refused message =>
    constructor
    · intro h
      cases h
    rintro ⟨accepted, _⟩
    obtain ⟨incoming, found⟩ := accepted.expiry
    rw [stamped] at found
    cases found
  | threw =>
    constructor
    · intro h
      cases h
    rintro ⟨accepted, _⟩
    obtain ⟨incoming, found⟩ := accepted.expiry
    rw [stamped] at found
    cases found
  | accepted incoming =>
    simp only [mergeRecord_losing losing incoming, isSkillWrite_strip,
      get_stripInboundMemoryRow, id, if_true]
    constructor
    · intro h
      split at h
      · cases h
      rename_i skill
      split at h
      · cases h
      rename_i reserved
      split at h
      · cases h
      rename_i readable
      refine ⟨?_, (Except.ok.inj h).symm⟩
      exact {
        expiry := ⟨incoming, stamped⟩
        skill := by simpa using skill
        reserved := reserved
        readable := by simpa using readable
      }
    · rintro ⟨accepted, rfl⟩
      simp [accepted.skill, accepted.reserved, accepted.readable]

theorem memoryPlan_landed (merged : Record) (row : Option Record)
    : (memoryPlan merged row).landed "" row = some merged := by
  cases row with
  | none => rfl
  | some row =>
    unfold memoryPlan
    by_cases kept : ∀ field ∈ row.fields, merged.has field = true
    · have reached : row.assign (Record.changes row merged) = merged :=
        Record.assign_changes (fun field present => kept field (Record.mem_fields.mpr present))
      simp only [if_pos kept]
      exact congrArg some reached
    · simp only [if_neg kept]
      rfl

theorem keepReceiverAgentAuthority_stampSync (receipt : Receipt) (originator : String)
    (row : Record)
    : keepReceiverAgentAuthority (stampSync receipt originator row) (some row)
      = stampSync receipt originator row := by
  have same (field : String) (other : field ∉ syncFields)
      : (stampSync receipt originator row).get field = row.get field :=
    get_stampSync receipt originator row other
  have role := same "role" (by decide)
  have admin := same "admin" (by decide)
  simp [keepReceiverAgentAuthority, keepMark, role, admin]

theorem losing_lands {table : SyncTable} {originator : String} (generic : record.table ≠ "Presence")
    (losing : ¬ textLt (storedUpdatedAt row) record.updatedAtText)
    (accepted : Accepted receipt table originator record row)
    : (mergeOne receipt record (some row)).2 = some (keptRow receipt table originator row) := by
  have kept : mergeRecord (some row) record = row := mergeRecord_losing losing record.data
  have stamped : (.ok (stampSync receipt originator (mergeRecord (some row) record))
      : Except SkipReason Record) = .ok (stampSync receipt originator row) := by
    rw [kept]
  have lands {merged : Record} :
      mergedRow receipt table record originator (some row) = .ok merged
      → (mergePlan receipt table record merged (some row)).writes = true
      → (mergeOne receipt record (some row)).2
        = (mergePlan receipt table record merged (some row)).landed "" (some row) :=
    fun merging writes =>
      mergeOne_lands accepted.admission generic merging writes accepted.target
  cases table with
  | memory =>
    have merging : mergedRow receipt .memory record originator (some row) = .ok _ :=
      (mergedMemory_losing losing).mpr ⟨accepted.memory rfl, rfl⟩
    rw [lands merging ?_]
    · exact memoryPlan_landed _ (some row)
    · simp only [mergePlan, memoryPlan]
      split <;> rfl
  | agent =>
    obtain ⟨valid, passed⟩ := accepted.agent rfl
    have merging : mergedRow receipt .agent record originator (some row)
        = .ok (stampSync receipt originator row) := by
      simp [mergedRow, valid, kept]
    have planned : mergePlan receipt .agent record (stampSync receipt originator row)
        (some row) = .write (stampSync receipt originator row) .idempotent := by
      simp [mergePlan, passed, keepReceiverAgentAuthority_stampSync]
    rw [lands merging (by rw [planned]; rfl), planned]
    rfl
  | soul | relationship | message =>
    rw [lands stamped rfl]
    rfl
  | presence => exact absurd accepted.admission.table_name.symm generic

-- When the kept row is the stored row

theorem stampSync_eq_self (receipt : Receipt) (originator : String) (row : Record)
    : stampSync receipt originator row = row ↔ CarriesStamps receipt originator row := by
  constructor
  · intro same
    have read (field : String)
        : (stampSync receipt originator row).get field = row.get field := by
      rw [same]
    exact {
      originator := by simpa [stampSync] using (read "_originatorInstanceId").symm
      sender := by simpa [stampSync] using (read "_syncedFrom").symm
      syncedAt := by simpa [stampSync] using (read "_syncedAt").symm
    }
  · rintro ⟨originator, sender, syncedAt⟩
    rw [stampSync, Record.set_eq_self originator, Record.set_eq_self sender,
      Record.set_eq_self syncedAt]

theorem get_stampMemory (receipt : Receipt) (localRow : Option Record) (merged : Record)
    (field : String)
    : (stampMemory receipt localRow merged).get field
      = if field = "instanceToken" then some (.str (receiverToken receipt localRow))
        else if field = "provenance" then (asString (merged.get "provenance")).map Value.str
        else if field ∈ memoryAttributes ∧ field ∉ strippedMemoryFields then merged.get field
        else none := by
  have declared : "provenance" ∈ memoryAttributes := by decide
  by_cases token : field = "instanceToken"
  · simp [stampMemory, token]
  by_cases provenance : field = "provenance"
  · subst provenance
    cases selected : asString (merged.get "provenance") with
    | none => simp [stampMemory, declared, selected, serverStampedMemoryFields]
    | some text => simp [stampMemory, declared, selected]
  · have stripped : field ∈ serverStampedMemoryFields ↔ field ∈ strippedMemoryFields := by
      simp [serverStampedMemoryFields, strippedMemoryFields, token, provenance]
    by_cases gone : field ∈ strippedMemoryFields
    · cases selected : asString (merged.get "provenance") <;>
        simp [stampMemory, declared, selected, token, provenance, stripped, gone]
    · cases selected : asString (merged.get "provenance") <;>
        simp [stampMemory, declared, selected, token, provenance, stripped, gone]

theorem get_keptRow_memory (receipt : Receipt) (originator : String) (row : Record)
    (field : String)
    : (keptRow receipt .memory originator row).get field
      = if field = "embedding" ∧ isEmptyEmbedding (row.get "embedding") = true then some .null
        else if field = "instanceToken" then
          some (.str (receiverToken receipt (some row)))
        else if field = "provenance" then (asString (row.get "provenance")).map Value.str
        else if field ∈ memoryAttributes ∧ field ∉ strippedMemoryFields then
          (stampSync receipt originator row).get field
        else none := by
  have stamps (field : String) (member : field ∈ memoryAttributes)
      : (stampSync receipt originator (stripInboundMemoryRow row)).get field
        = (stampSync receipt originator row).get field := by
    simp [stampSync, member]
  have provenance
      : (stampSync receipt originator (stripInboundMemoryRow row)).get "provenance"
        = row.get "provenance" := by
    rw [stamps "provenance" (by decide)]
    exact get_stampSync receipt originator row (by decide)
  have embedding
      : (stampMemory receipt (some row)
          (stampSync receipt originator (stripInboundMemoryRow row))).get "embedding"
        = row.get "embedding" := by
    rw [get_stampMemory, if_neg (by decide), if_neg (by decide), if_pos (by decide),
      stamps "embedding" (by decide)]
    exact get_stampSync receipt originator row (by decide)
  rw [keptRow, get_normalizeEmptyEmbedding, embedding, get_stampMemory, provenance]
  by_cases member : field ∈ memoryAttributes
  · rw [stamps field member]
  · simp [member]

theorem keptRow_memory_eq_self (receipt : Receipt) (originator : String) (row : Record)
    : keptRow receipt .memory originator row = row
      ↔ CarriesStamps receipt originator row ∧ SettledMemory receipt row := by
  constructor
  · intro same
    have read (field : String)
        : (keptRow receipt .memory originator row).get field = row.get field := by
      rw [same]
    simp only [get_keptRow_memory] at read
    have settled : SettledMemory receipt row := {
      declared := by
        intro field present
        by_contra outside
        have token : field ≠ "instanceToken" := by
          rintro rfl
          exact outside (by decide)
        have provenance : field ≠ "provenance" := by
          rintro rfl
          exact outside (by decide)
        have embedding : field ≠ "embedding" := by
          rintro rfl
          exact outside (by decide)
        have absent := read field
        simp only [embedding, token, provenance, false_and, if_false, if_neg outside] at absent
        simp [Record.has, ← absent] at present
      provenance := by
        intro present
        have kept : (asString (row.get "provenance")).map Value.str = row.get "provenance" := by
          simpa using read "provenance"
        cases selected : asString (row.get "provenance") with
        | none =>
          rw [selected] at kept
          simp [Record.has, ← kept] at present
        | some text => rfl
      token := by simpa using (read "instanceToken").symm
      embedding := by
        by_contra empty
        have emptied := read "embedding"
        simp only [Bool.not_eq_false] at empty
        simp only [empty, and_self, if_true] at emptied
        simp [isEmptyEmbedding, ← emptied] at empty
    }
    have stamp (field : String) (member : field ∈ syncFields)
        : (stampSync receipt originator row).get field = row.get field := by
      have known : field ≠ "embedding" ∧ field ≠ "instanceToken" ∧ field ≠ "provenance"
          ∧ field ∈ memoryAttributes ∧ field ∉ strippedMemoryFields := by
        simp only [syncFields, List.mem_cons, List.not_mem_nil, or_false] at member
        rcases member with rfl | rfl | rfl <;> decide
      obtain ⟨embedding, token, provenance, kept⟩ := known
      simpa only [embedding, token, provenance, false_and, if_false, if_pos kept]
        using read field
    refine ⟨?_, settled⟩
    exact {
      originator := by simpa [stampSync] using (stamp "_originatorInstanceId" (by decide)).symm
      sender := by simpa [stampSync] using (stamp "_syncedFrom" (by decide)).symm
      syncedAt := by simpa [stampSync] using (stamp "_syncedAt" (by decide)).symm
    }
  · rintro ⟨stamps, settled⟩
    have stamped := (stampSync_eq_self receipt originator row).mpr stamps
    apply Record.ext_get
    intro field
    rw [get_keptRow_memory, stamped, settled.embedding]
    by_cases token : field = "instanceToken"
    · simp [token, settled.token]
    by_cases provenance : field = "provenance"
    · subst provenance
      cases found : row.get "provenance" with
      | none => simp [asString]
      | some value =>
        obtain ⟨text, selected⟩ := Option.isSome_iff_exists.mp
          (settled.provenance (by simp [Record.has, found]))
        have same := asString_eq_some.mp selected
        simp [← found, same, asString]
    · by_cases present : row.has field = true
      · simp [token, provenance, settled.declared field (Record.mem_fields.mpr present)]
      · have absent : row.get field = none := by simpa [Record.has] using present
        simp [token, provenance, absent]

/-- The kept message is the stored one exactly when it was already stamped and, if it is
consumed, carries a consumption stamp and no failure reason.
-/
theorem keptRow_message_eq_self (receipt : Receipt) (originator : String) (row : Record)
    : keptRow receipt .message originator row = row
      ↔ CarriesStamps receipt originator row ∧ Settled receipt .message row := by
  have state := get_stampSync receipt originator row (show "state" ∉ syncFields by decide)
  have stamp := get_stampSync receipt originator row (show "consumedAt" ∉ syncFields by decide)
  have kept : keptRow receipt .message originator row
      = if row.get "state" = some Relay.consumed
        then ((stampSync receipt originator row).set "failureReason" .null).set "consumedAt"
          ((row.get "consumedAt").getD .null)
        else stampSync receipt originator row := by
    cases found : row.get "state" with
    | none => simp [keptRow, reconcileMessage, state, found]
    | some value =>
      have same : (stampSync receipt originator row).set "state" value
          = stampSync receipt originator row := Record.set_eq_self (state.trans found)
      by_cases absorbed : value = Relay.consumed
      · subst absorbed
        simp [keptRow, reconcileMessage, state, stamp, found, same]
      · simp [keptRow, reconcileMessage, state, found, same, absorbed]
  rw [kept]
  by_cases absorbed : row.get "state" = some Relay.consumed
  · rw [if_pos absorbed]
    constructor
    · intro same
      have read (field : String)
          : (((stampSync receipt originator row).set "failureReason" .null).set "consumedAt"
              ((row.get "consumedAt").getD .null)).get field
            = row.get field := by
        rw [same]
      refine ⟨?_, fun _ => ⟨?_, ?_⟩⟩
      · exact {
          originator := by simpa [stampSync] using (read "_originatorInstanceId").symm
          sender := by simpa [stampSync] using (read "_syncedFrom").symm
          syncedAt := by simpa [stampSync] using (read "_syncedAt").symm
        }
      · simpa using (read "failureReason").symm
      · have present := read "consumedAt"
        simp only [Record.get_set, if_true] at present
        exact Record.has_iff.mpr ⟨_, present.symm⟩
    · rintro ⟨stamps, settled⟩
      obtain ⟨reason, present⟩ := settled absorbed
      obtain ⟨value, found⟩ := Record.has_iff.mp present
      rw [(stampSync_eq_self receipt originator row).mpr stamps, Record.set_eq_self reason]
      exact Record.set_eq_self (by simp [found])
  · rw [if_neg absorbed, stampSync_eq_self]
    exact ⟨fun stamps => ⟨stamps, fun consumed => absurd consumed absorbed⟩, And.left⟩

theorem keptRow_eq_self (receipt : Receipt) (table : SyncTable) (originator : String)
    (row : Record)
    : keptRow receipt table originator row = row
      ↔ CarriesStamps receipt originator row ∧ Settled receipt table row := by
  cases table with
  | memory => exact keptRow_memory_eq_self receipt originator row
  | message => exact keptRow_message_eq_self receipt originator row
  | soul | agent | relationship | presence =>
    exact (stampSync_eq_self receipt originator row).trans ⟨fun h => ⟨h, trivial⟩, And.left⟩

-- The losing merge

theorem accepted_of_changed (generic : record.table ≠ "Presence")
    (losing : ¬ textLt (storedUpdatedAt row) record.updatedAtText)
    (changed : (mergeOne receipt record (some row)).2 ≠ some row)
    : ∃ table originator, Accepted receipt table originator record row := by
  rcases mergeOne_stored receipt record (some row) generic with
    kept | ⟨table, originator, merged, ⟨admission, merging⟩, writes, target, _⟩
  · exact absurd kept changed
  refine ⟨table, originator, admission, target, ?_, ?_⟩
  · rintro rfl
    constructor
    · by_contra invalid
      simp [mergedRow, invalid] at merging
    · cases refusal : agentRefusal receipt record (some row) with
      | none => rfl
      | some reason => simp [mergePlan, refusal, WriteBack.Plan.writes] at writes
  · rintro rfl
    exact ((mergedMemory_losing losing).mp merging).1

/-- A record that is not newer than the stored row leaves it as it was exactly when some
check refuses the record, or the row already carries this merge's stamps and is as a merge
of its table leaves one.
-/
theorem losing_record_leaves_no_trace_iff (receipt : Receipt) (record : SyncRecord)
    (row : Record) (generic : record.table ≠ "Presence")
    (losing : ¬ textLt (storedUpdatedAt row) record.updatedAtText)
    : (mergeOne receipt record (some row)).2 = some row
      ↔ ∀ table originator,
          Accepted receipt table originator record row
          → CarriesStamps receipt originator row ∧ Settled receipt table row := by
  constructor
  · intro untouched table originator accepted
    have lands := losing_lands generic losing accepted
    rw [untouched] at lands
    exact (keptRow_eq_self receipt table originator row).mp (Option.some.inj lands).symm
  · intro settled
    by_contra changed
    obtain ⟨table, originator, accepted⟩ := accepted_of_changed generic losing changed
    have same := (keptRow_eq_self receipt table originator row).mpr
      (settled table originator accepted)
    apply changed
    rw [losing_lands generic losing accepted, same]

/-- A stored Soul row, written here and never synced. -/
def localSoul : Record := Record.ofFields [
  ("id", .str "s"),
  ("updatedAt", .str "2025-08-20"),
  ("value", .str "mine")
]

def olderSoul : SyncRecord := plainRecord .soul "s" "2025-08-10" [("value", .str "theirs")]

theorem olderSoul_leaves_no_trace_iff
    : (mergeOne spokeReceipt olderSoul (some localSoul)).2 = some localSoul
      ↔ ∀ table originator,
          Accepted spokeReceipt table originator olderSoul localSoul
          → CarriesStamps spokeReceipt originator localSoul
            ∧ Settled spokeReceipt table localSoul :=
  losing_record_leaves_no_trace_iff spokeReceipt olderSoul localSoul (by decide) (by decide)

/-- The older record loses and is still reported merged, and the stored row then names the
spoke as its originator.
-/
theorem olderSoul_leaves_a_trace
    : ¬ textLt (storedUpdatedAt localSoul) olderSoul.updatedAtText
      ∧ (mergeOne spokeReceipt olderSoul (some localSoul)).1 = .merged
      ∧ (mergeOne spokeReceipt olderSoul (some localSoul)).2 ≠ some localSoul
      ∧ ((mergeOne spokeReceipt olderSoul (some localSoul)).2.bind
          (fun row => row.get "_originatorInstanceId")) = some (.str "spoke") := by
  refine ⟨by decide, by decide, by decide, by decide⟩

end Flair.Federation
