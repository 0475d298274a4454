import Flair.Federation.LosingRecords
import Flair.Foundations.LastWriter
import Mathlib.Tactic.FinCases

/-! Two receivers that merge the same records in any two orders agree on every application
field the newest record carries, and on every one that no record carries.
-/

namespace Flair.Federation

open Dynamic Memories

-- Application fields

/-- Fields a receiver decides for itself: its incarnation token and clock-stamped expiry of
a Memory, the administrator state of an Agent, the absorbing state of a Message.
-/
def receiverFields : SyncTable → List String
  | .memory => ["instanceToken", "expiresAt"]
  | .agent => ["role", "admin"]
  | .message => ["state", "failureReason", "consumedAt"]
  | .soul | .relationship | .presence => []

def ApplicationField (table : SyncTable) (field : String) : Prop :=
  field ∉ syncFields ∧ field ∉ receiverFields table

def normalized (table : SyncTable) (field : String) (value : Option Value) : Option Value :=
  match table with
  | .memory =>
    if field = "embedding" ∧ isEmptyEmbedding value = true then some .null
    else if field = "provenance" then (asString value).map Value.str
    else if field ∈ memoryAttributes ∧ field ∉ strippedMemoryFields then value
    else none
  | _ => value

theorem normalized_embedding (value : Option Value)
    : normalized .memory "embedding" value
      = if isEmptyEmbedding value = true then some .null else value := by
  by_cases empty : isEmptyEmbedding value = true
  · simp [normalized, empty]
  · have kept : "embedding" ∈ memoryAttributes ∧ "embedding" ∉ strippedMemoryFields := by decide
    simp [normalized, empty, kept]

theorem normalized_provenance (value : Option Value)
    : normalized .memory "provenance" value = (asString value).map Value.str := by
  simp [normalized]

variable {field : String}

theorem normalized_plain (vector : field ≠ "embedding") (provenance : field ≠ "provenance")
    (value : Option Value)
    : normalized .memory field value
      = if field ∈ memoryAttributes ∧ field ∉ strippedMemoryFields then value else none := by
  simp [normalized, vector, provenance]

@[simp] theorem normalized_normalized (table : SyncTable) (field : String)
    (value : Option Value)
    : normalized table field (normalized table field value) = normalized table field value := by
  cases table with
  | soul | agent | relationship | message | presence => rfl
  | memory =>
    by_cases vector : field = "embedding"
    · subst vector
      have null : isEmptyEmbedding (some .null) = false := rfl
      by_cases empty : isEmptyEmbedding value = true
      · simp [normalized_embedding, empty, null]
      · simp [normalized_embedding, empty]
    · by_cases provenance : field = "provenance"
      · subst provenance
        rw [normalized_provenance, normalized_provenance]
        cases asString value <;> rfl
      · rw [normalized_plain vector provenance, normalized_plain vector provenance]
        split <;> rfl

/-- The record carries a value for the field that a merge does not replace by the stored
one: for visibility and durability a null counts as none.
-/
def Carries (record : SyncRecord) (field : String) : Prop :=
  record.data.has field = true
  ∧ (field = "visibility" ∨ field = "durability"
      → isNullish (record.data.get field) = false)

def OwnStamp (record : SyncRecord) : Prop :=
  record.data.get "updatedAt" = record.updatedAt.map Value.str

-- One merge, field by field

theorem get_landedMemory (receipt : Receipt) (originator : String) (localRow : Option Record)
    (merged : Record) (application : ApplicationField .memory field)
    : (normalizeEmptyEmbedding (stampMemory receipt localRow
          (stampSync receipt originator (stripInboundMemoryRow merged)))).get field
      = normalized .memory field (merged.get field) := by
  obtain ⟨sync, own⟩ := application
  have token : field ≠ "instanceToken" := by
    rintro rfl
    exact own (by decide)
  have stamps (name : String) (other : name ∉ syncFields) (member : name ∈ memoryAttributes)
      : (stampSync receipt originator (stripInboundMemoryRow merged)).get name
        = merged.get name := by
    rw [get_stampSync receipt originator _ other]
    simp [member]
  have embedding
      : (stampMemory receipt localRow
          (stampSync receipt originator (stripInboundMemoryRow merged))).get "embedding"
        = merged.get "embedding" := by
    rw [get_stampMemory, if_neg (by decide), if_neg (by decide), if_pos (by decide),
      stamps "embedding" (by decide) (by decide)]
  rw [get_normalizeEmptyEmbedding, embedding, get_stampMemory, if_neg token,
    stamps "provenance" (by decide) (by decide)]
  by_cases vector : field = "embedding"
  · subst vector
    rw [stamps "embedding" sync (by decide)]
    rfl
  · by_cases provenance : field = "provenance"
    · subst provenance
      rfl
    rw [normalized_plain vector provenance, if_neg provenance, if_neg (fun h => vector h.1)]
    by_cases kept : field ∈ memoryAttributes ∧ field ∉ strippedMemoryFields
    · rw [if_pos kept, if_pos kept, stamps field sync kept.1]
    · rw [if_neg kept, if_neg kept]

theorem get_reconcileMessage (merged : Record) (row : Option Record)
    (other : field ∉ receiverFields .message)
    : (reconcileMessage merged row).get field = merged.get field := by
  simp only [receiverFields, List.mem_cons, List.not_mem_nil, or_false, not_or] at other
  unfold reconcileMessage
  dsimp only
  split
  · rfl
  · split <;> simp [other]

def Incoming (receipt : Receipt) (table : SyncTable) (record : SyncRecord)
    (localRow : Option Record) (data : Record)
    : Prop :=
  match table with
  | .memory =>
    stampEphemeralExpiry record.data localRow true receipt.stampedAt receipt.ephemeralTtlHours
      = .accepted data
  | _ => data = record.data

variable {receipt : Receipt} {table : SyncTable} {record : SyncRecord} {stored : Option Record}

/-- The row a prepared merge lands agrees, on every application field, with the normalised
last-writer-wins merge of its payload.
-/
theorem landed_fields {originator : String} {merged : Record} (generic : record.table ≠ "Presence")
    (ready : Prepared receipt table originator merged record stored)
    (writes : (mergePlan receipt table record merged stored).writes = true)
    : ∃ data next,
        Incoming receipt table record stored data
        ∧ (mergePlan receipt table record merged stored).landed "" stored = some next
        ∧ ∀ field,
            ApplicationField table field
            → next.get field
              = normalized table field ((mergeRecord stored { record with data }).get field) := by
  obtain ⟨admission, merging⟩ := ready
  cases table with
  | presence => exact absurd admission.table_name.symm generic
  | soul | relationship =>
    cases merging
    exact ⟨record.data, _, rfl, rfl, fun field application =>
      get_stampSync receipt originator _ application.1⟩
  | message =>
    cases merging
    refine ⟨record.data, _, rfl, rfl, fun field application => ?_⟩
    exact (get_reconcileMessage _ stored application.2).trans
      (get_stampSync receipt originator _ application.1)
  | agent =>
    simp only [mergedRow] at merging
    split at merging
    · cases merging
      cases refusal : agentRefusal receipt record stored with
      | some reason => simp [mergePlan, refusal, WriteBack.Plan.writes] at writes
      | none =>
        refine ⟨record.data, _, rfl, by simp only [mergePlan, refusal]; rfl, ?_⟩
        intro field application
        have own := application.2
        simp only [receiverFields, List.mem_cons, List.not_mem_nil, or_false, not_or] at own
        exact (get_keepReceiverAgentAuthority _ stored own.1 own.2).trans
          (get_stampSync receipt originator _ application.1)
    · cases merging
  | memory =>
    simp only [mergedRow, mergedMemory] at merging
    cases stamped : stampEphemeralExpiry record.data stored true receipt.stampedAt
        receipt.ephemeralTtlHours with
    | refused message => simp [stamped] at merging
    | threw => simp [stamped] at merging
    | accepted data =>
      simp only [stamped] at merging
      split at merging
      · cases merging
      split at merging
      · cases merging
      split at merging
      · cases merging
      cases merging
      refine ⟨data, _, stamped, memoryPlan_landed _ stored, ?_⟩
      intro field application
      exact get_landedMemory receipt originator stored _ application

-- The payload and the winner

variable {data : Record}

theorem get_stampEphemeralExpiry {content : Record} {preExisting : Option Record} {incoming : Bool}
    {now : Int} {ttlHours : Option Rat}
    (stamped : stampEphemeralExpiry content preExisting incoming now ttlHours = .accepted data)
    (other : field ≠ "expiresAt")
    : data.get field = (inheritDurability content preExisting).get field := by
  have supplied {row : Record} {value : Option Value}
      (found : stampSupplied row value incoming now = .accepted data)
      : data.get field = row.get field := by
    unfold stampSupplied at found
    split at found
    · cases found
    split at found
    · cases found
    split at found
    · cases found
    · cases found
      simp [other]
  unfold stampEphemeralExpiry at stamped
  dsimp only at stamped
  split at stamped
  · cases stamped
    split <;> simp [other]
  split at stamped
  · exact supplied stamped
  split at stamped
  · exact supplied stamped
  unfold stampLifetime at stamped
  split at stamped
  · cases stamped
  · cases stamped
    simp [other]

variable {localRow : Option Record}

theorem Incoming.get_carried (h : Incoming receipt table record localRow data)
    (application : ApplicationField table field) (carries : Carries record field)
    : data.get field = record.data.get field := by
  cases table with
  | soul | agent | relationship | message | presence => rw [h]
  | memory =>
    have expiry : field ≠ "expiresAt" := by
      rintro rfl
      exact application.2 (by decide)
    rw [get_stampEphemeralExpiry h expiry]
    by_cases inherited : field = "durability"
    · subst inherited
      have present := carries.2 (Or.inr rfl)
      unfold inheritDurability
      split
      · rfl
      · rfl
      · simp [present]
    · exact get_inheritDurability_other _ _ inherited

theorem Incoming.get_absent (h : Incoming receipt table record localRow data)
    (application : ApplicationField table field) (absent : record.data.get field = none)
    : data.get field = none
      ∨ data.get field = localRow.bind (fun row => row.get field) := by
  cases table with
  | soul | agent | relationship | message | presence =>
    rw [h]
    exact Or.inl absent
  | memory =>
    have expiry : field ≠ "expiresAt" := by
      rintro rfl
      exact application.2 (by decide)
    rw [get_stampEphemeralExpiry h expiry]
    by_cases inherited : field = "durability"
    · subst inherited
      unfold inheritDurability
      split
      · exact Or.inl absent
      · exact Or.inl absent
      rename_i durability _ found
      split
      · exact Or.inr (by simp [found])
      · exact Or.inl absent
    · rw [get_inheritDurability_other _ _ inherited]
      exact Or.inl absent

variable {row : Record}

theorem OwnStamp.of_newer (own : OwnStamp record)
    (newer : textLt (storedUpdatedAt row) record.updatedAtText)
    : record.data.get "updatedAt" = some (.str record.updatedAtText) := by
  unfold OwnStamp at own
  cases stamp : record.updatedAt with
  | none =>
    have empty : record.updatedAtText = "" := by simp [SyncRecord.updatedAtText, stamp]
    rw [empty] at newer
    exact absurd newer (List.not_lt_nil _)
  | some text =>
    rw [own, stamp]
    simp [SyncRecord.updatedAtText, stamp]

theorem mergeRecord_carried (incoming : Incoming receipt table record stored data)
    (application : ApplicationField table field) (own : OwnStamp record)
    (wins : ∀ row, stored = some row → textLt (storedUpdatedAt row) record.updatedAtText)
    (carries : Carries record field)
    : (mergeRecord stored { record with data }).get field = record.data.get field := by
  have carried := incoming.get_carried application carries
  cases stored with
  | none => exact carried
  | some row =>
    have newer := wins row rfl
    by_cases stamp : field = "updatedAt"
    · subst stamp
      rw [own.of_newer newer]
      have same : SyncRecord.updatedAtText { record with data } = record.updatedAtText := rfl
      simp [mergeRecord, same, newer]
    · obtain ⟨value, found⟩ := Record.has_iff.mp carries.1
      have same : SyncRecord.updatedAtText { record with data } = record.updatedAtText := rfl
      have kept : field = "visibility" → isNullish (data.get "visibility") = false := by
        rintro rfl
        rw [carried]
        exact carries.2 (Or.inl rfl)
      simp only [mergeRecord, same, newer, if_true]
      by_cases visible : field = "visibility"
      · simp [kept visible, stamp, carried, found]
      · split <;> simp [visible, stamp, carried, found]

theorem mergeRecord_absent (incoming : Incoming receipt table record stored data)
    (application : ApplicationField table field) (own : OwnStamp record)
    (wins : ∀ row, stored = some row → textLt (storedUpdatedAt row) record.updatedAtText)
    (absent : record.data.get field = none)
    : (mergeRecord stored { record with data }).get field
      = stored.bind (fun row => row.get field) := by
  have payload := incoming.get_absent application absent
  cases stored with
  | none => exact payload.elim id id
  | some row =>
    have newer := wins row rfl
    have stamp : field ≠ "updatedAt" := by
      rintro rfl
      rw [own.of_newer newer] at absent
      cases absent
    have same : SyncRecord.updatedAtText { record with data } = record.updatedAtText := rfl
    simp only [mergeRecord, same, newer, if_true]
    rcases payload with missing | kept
    · split <;> simp [stamp, missing]
    simp only [Option.bind_some] at kept
    split
    · by_cases visible : field = "visibility" <;> simp [visible, stamp, kept]
    · simp [stamp, kept]

-- The stored row as a last-writer-wins register

open LastWriter

/-- Merges of one table's records over one stored row, each by its own receipt: every one is
merged, or skipped because the row already carries its content.
-/
def mergeRegister : Register (Option Record) (Receipt × SyncRecord) (List Nat) where
  stamp entry := codeUnits entry.2.updatedAtText
  held state := state.map (fun row => codeUnits (storedUpdatedAt row))
  Step state entry next :=
    (mergeOne entry.1 entry.2 state).2 = next
    ∧ ((mergeOne entry.1 entry.2 state).1 = .merged
      ∨ (mergeOne entry.1 entry.2 state).1 = .refused .noOpSameHash)

def OfTable (table : SyncTable) (entry : Receipt × SyncRecord) : Prop :=
  entry.2.table = table.name ∧ OwnStamp entry.2

def reading (table : SyncTable) (field : String) (state : Option Record) : Option Value :=
  normalized table field (state.bind (fun row => row.get field))

variable {state : Option Record} {entry : Receipt × SyncRecord}

theorem loses_iff
    : mergeRegister.Loses state entry
      ↔ ∃ row, state = some row ∧ ¬ textLt (storedUpdatedAt row) entry.2.updatedAtText := by
  cases state with
  | none => simp [Register.Loses, mergeRegister]
  | some row => simp [Register.Loses, mergeRegister, textLt]

theorem wins_of_not_loses (wins : ¬ mergeRegister.Loses state entry) (row : Record)
    (found : state = some row)
    : textLt (storedUpdatedAt row) entry.2.updatedAtText := by
  by_contra kept
  exact wins (loses_iff.mpr ⟨row, found, kept⟩)

-- The skip for an unchanged content hash

/-- A classification skips for the content hash exactly when the local row has it, and the
checks before that one pass.
-/
theorem classifyRecord_noOp {peerRole receiverInstanceId : String} {now : Int}
    (h : classifyRecord record peerRole receiverInstanceId localRow now = .error .noOpSameHash)
    : ∃ row, localRow = some row ∧ noOpSameHash record row = true := by
  unfold classifyRecord at h
  dsimp only at h
  split at h
  · cases h
  split at h
  · cases h
  split at h
  · cases h
  split at h
  · cases h
  rename_i row
  split at h
  · rename_i same
    exact ⟨row, rfl, same⟩
  · cases h

theorem Admission.not_noOp {originator : String}
    (h : Admission receipt table originator record (some row))
    : noOpSameHash record row = false := by
  have classified := h.classified
  unfold classifyRecord at classified
  dsimp only at classified
  split at classified
  · cases classified
  split at classified
  · cases classified
  split at classified
  · cases classified
  split at classified
  · cases classified
  · rename_i different
    simpa using different

theorem checkSignature_ne_noOp (receipt : Receipt) (record : SyncRecord) (originator : String)
    : checkSignature receipt record originator ≠ .error .noOpSameHash := by
  unfold checkSignature
  split
  · split <;> simp
  dsimp only
  split
  · simp
  · split
    · simp
    · split <;> simp

theorem checkPrincipalEntitlement_ne_noOp (record : SyncRecord) (table : SyncTable)
    (enforceV1Principal : Bool)
    : checkPrincipalEntitlement record table enforceV1Principal ≠ some .noOpSameHash := by
  unfold checkPrincipalEntitlement
  split
  · simp
  split
  · split
    · simp
    · split <;> simp
  · split <;> simp

theorem mergedRow_ne_noOp (receipt : Receipt) (table : SyncTable) (record : SyncRecord)
    (originator : String) (localRow : Option Record)
    : mergedRow receipt table record originator localRow ≠ .error .noOpSameHash := by
  unfold mergedRow
  split
  · unfold mergedMemory
    split
    · simp
    · simp
    dsimp only
    split
    · simp
    · split
      · simp
      · split <;> simp
  · split <;> simp
  · simp

theorem agentRefusal_ne_noOp (receipt : Receipt) (record : SyncRecord) (row : Option Record)
    : agentRefusal receipt record row ≠ some .noOpSameHash := by
  unfold agentRefusal
  split
  · simp
  split
  · simp
  have created : agentAdminIdCreateRefusal record row
      (configuredAdminAgentIds receipt.adminAgents) ≠ some .noOpSameHash := by
    unfold agentAdminIdCreateRefusal
    split
    · simp
    · split <;> simp
  have identity : agentIdentityRefusal record row receipt.sender ≠ some .noOpSameHash := by
    unfold agentIdentityRefusal
    split
    · simp
    · split <;> simp
  intro h
  rcases Option.or_eq_some_iff.mp h with first | ⟨_, second⟩
  · exact created first
  · exact identity second

theorem admitRecord_noOp (h : admitRecord receipt record localRow = .error .noOpSameHash)
    : ∃ row, localRow = some row ∧ noOpSameHash record row = true := by
  unfold admitRecord at h
  split at h
  · cases h
  split at h
  · split at h <;> cases h
  rename_i table known
  cases classified : classifyRecord record receipt.senderRole receipt.sender localRow
      receipt.classifiedAt with
  | error reason =>
    simp only [classified, bind, Except.bind, Except.error.injEq] at h
    subst h
    exact classifyRecord_noOp classified
  | ok originator =>
    simp only [classified, bind, Except.bind] at h
    split at h
    · cases h
    cases signature : checkSignature receipt record originator with
    | error reason =>
      simp only [signature, Except.error.injEq] at h
      subst h
      exact absurd signature (checkSignature_ne_noOp receipt record originator)
    | ok passed =>
      simp only [signature] at h
      split at h
      · rename_i reason refused
        cases h
        exact absurd refused (checkPrincipalEntitlement_ne_noOp record table _)
      · cases h

theorem mergeOne_noOp (generic : record.table ≠ "Presence")
    (skipped : (mergeOne receipt record stored).1 = .refused .noOpSameHash)
    : (mergeOne receipt record stored).2 = stored
      ∧ ∃ row, stored = some row ∧ noOpSameHash record row = true := by
  rcases mergeOne_cases receipt record stored generic with
    ⟨reason, prepared, refused⟩ | ⟨table, originator, merged, ready, ⟨_, ended⟩ | ended⟩
  · rw [refused] at skipped ⊢
    obtain rfl := MergeOutcome.refused.inj skipped
    refine ⟨rfl, ?_⟩
    cases admitted : admitRecord receipt record stored with
    | error reason =>
      simp only [prepareMerge, admitted, bind, Except.bind, Except.error.injEq] at prepared
      subst prepared
      exact admitRecord_noOp admitted
    | ok found =>
      obtain ⟨table, originator⟩ := found
      have other : table ≠ .presence := by
        rintro rfl
        exact generic (admitRecord_eq_ok.mp admitted).table_name.symm
      cases merging : mergedRow receipt table record originator stored with
      | error reason =>
        simp only [prepareMerge, admitted, merging, other, bind, Except.bind, if_false,
          Except.error.injEq] at prepared
        subst prepared
        exact absurd merging (mergedRow_ne_noOp receipt table record originator stored)
      | ok merged =>
        simp [prepareMerge, admitted, merging, other, bind, Except.bind] at prepared
  · rcases ended with same | same | same | ⟨reason, planned, same⟩
    · rw [same] at skipped
      cases skipped
    · rw [same] at skipped
      cases skipped
    · rw [same] at skipped
      cases skipped
    · cases table with
      | agent =>
        cases refusal : agentRefusal receipt record stored with
        | none => simp [mergePlan, refusal] at planned
        | some other =>
          simp only [mergePlan, refusal, WriteBack.Plan.skip.injEq] at planned
          subst planned
          rw [same] at skipped
          simp only [outcomeOf, Option.bind_some, SkipReason.ofText_text, Option.getD_some,
            MergeOutcome.refused.injEq] at skipped
          subst skipped
          exact absurd refusal (agentRefusal_ne_noOp receipt record stored)
      | memory =>
        simp only [mergePlan, memoryPlan] at planned
        split at planned
        · cases planned
        · split at planned <;> cases planned
      | soul | relationship | message | presence => cases planned
  · obtain ⟨_, _, _, same | same⟩ := ended
    · rw [same] at skipped
      cases skipped
    · rw [same] at skipped
      cases skipped

-- One merge of the register

/-- What one merge does to the stored row: nothing, when the row has the record's content
hash and the record is not newer, else the landed row, whose application fields are those of
the normalised last-writer-wins merge.
-/
theorem step_cases {next : Option Record} (generic : table ≠ .presence)
    (ofTable : OfTable table entry) (step : mergeRegister.Step state entry next)
    : (next = state ∧ ∃ row, state = some row ∧ noOpSameHash entry.2 row = true)
      ∨ ((∀ row, state = some row → noOpSameHash entry.2 row = false)
        ∧ ∃ data row,
            next = some row
            ∧ Incoming entry.1 table entry.2 state data
            ∧ ∀ field,
                ApplicationField table field
                → row.get field
                  = normalized table field
                      ((mergeRecord state { entry.2 with data }).get field)) := by
  obtain ⟨left, reported⟩ := step
  have named : entry.2.table ≠ "Presence" := by
    rw [ofTable.1]
    cases table <;> simp [SyncTable.name] at generic ⊢
  rcases reported with merged | skipped
  · obtain ⟨found, originator, row, ready, writes, landed⟩ := mergeOne_merged named merged
    obtain rfl : found = table := by
      have same := ready.admission.known
      rw [ofTable.1, SyncTable.ofName_name] at same
      exact (Option.some.inj same).symm
    obtain ⟨data, final, incoming, lands, fields⟩ := landed_fields named ready writes
    refine Or.inr ⟨?_, data, final, ?_, incoming, fields⟩
    · rintro stored rfl
      exact ready.admission.not_noOp
    · rw [← left, landed, lands]
  · obtain ⟨kept, row, found, same⟩ := mergeOne_noOp named skipped
    exact Or.inl ⟨left.symm.trans kept, row, found, same⟩

theorem loses_of_noOp (same : noOpSameHash entry.2 row = true)
    : mergeRegister.Loses (some row) entry := by
  refine loses_iff.mpr ⟨row, rfl, ?_⟩
  unfold noOpSameHash at same
  cases stamp : entry.2.updatedAt with
  | none => simp [stamp] at same
  | some updatedAt =>
    rw [stamp] at same
    simp only [Bool.and_eq_true, decide_eq_true_eq] at same
    simpa [SyncRecord.updatedAtText, stamp] using same.2

theorem applicationField_updatedAt (table : SyncTable) : ApplicationField table "updatedAt" := by
  cases table <;> exact ⟨by decide, by decide⟩

theorem normalized_updatedAt (table : SyncTable) (value : Option Value)
    : normalized table "updatedAt" value = value := by
  have kept : "updatedAt" ∈ memoryAttributes ∧ "updatedAt" ∉ strippedMemoryFields := by decide
  cases table with
  | memory => rw [normalized_plain (by decide) (by decide), if_pos kept]
  | soul | agent | relationship | message | presence => rfl

section Steps

variable {table : SyncTable} {field : String}

theorem register_keeps (generic : table ≠ .presence)
    (application : ApplicationField table field)
    : mergeRegister.Keeps (OfTable table) (reading table field) := by
  intro state entry next ofTable step loses
  obtain ⟨row, rfl, older⟩ := loses_iff.mp loses
  rcases step_cases generic ofTable step with ⟨rfl, _⟩ | ⟨_, data, final, rfl, _, fields⟩
  · rfl
  · have kept : mergeRecord (some row) { entry.2 with data } = row := mergeRecord_losing older data
    simp only [reading, Option.bind_some, fields field application, kept, normalized_normalized]

theorem register_writes (generic : table ≠ .presence)
    (application : ApplicationField table field) {entry : Receipt × SyncRecord}
    (ofTable : OfTable table entry) (carries : Carries entry.2 field)
    : mergeRegister.Writes (reading table field) entry
        (normalized table field (entry.2.data.get field)) := by
  intro state next step wins
  rcases step_cases generic ofTable step with ⟨rfl, row, rfl, same⟩ | ⟨_, data, final, rfl,
    incoming, fields⟩
  · exact absurd (loses_of_noOp same) wins
  have carried := mergeRecord_carried incoming application ofTable.2
    (wins_of_not_loses wins) carries
  simp only [reading, Option.bind_some, fields field application, carried,
    normalized_normalized]

theorem register_absent (generic : table ≠ .presence)
    (application : ApplicationField table field) {entry : Receipt × SyncRecord}
    {state next : Option Record} (ofTable : OfTable table entry)
    (absent : entry.2.data.get field = none) (step : mergeRegister.Step state entry next)
    : reading table field next = reading table field state := by
  by_cases loses : mergeRegister.Loses state entry
  · exact register_keeps generic application ofTable step loses
  rcases step_cases generic ofTable step with ⟨rfl, row, rfl, same⟩ | ⟨_, data, final, rfl,
    incoming, fields⟩
  · exact absurd (loses_of_noOp same) loses
  have kept := mergeRecord_absent incoming application ofTable.2
    (wins_of_not_loses loses) absent
  simp only [reading, Option.bind_some, fields field application, kept,
    normalized_normalized]

theorem register_lawful (generic : table ≠ .presence)
    : mergeRegister.Lawful (OfTable table) := by
  have application := applicationField_updatedAt table
  constructor
  · intro state entry next ofTable step loses
    obtain ⟨row, rfl, older⟩ := loses_iff.mp loses
    rcases step_cases generic ofTable step with ⟨rfl, _⟩ | ⟨_, data, final, rfl, _, fields⟩
    · rfl
    have kept : mergeRecord (some row) { entry.2 with data } = row :=
      mergeRecord_losing older data
    have same : final.get "updatedAt" = row.get "updatedAt" := by
      rw [fields "updatedAt" application, normalized_updatedAt, kept]
    simp [mergeRegister, storedUpdatedAt, same]
  · intro state entry next ofTable step wins
    rcases step_cases generic ofTable step with ⟨rfl, row, rfl, same⟩ | ⟨_, data, final, rfl,
      incoming, fields⟩
    · exact absurd (loses_of_noOp same) wins
    have stamp : final.get "updatedAt"
        = (mergeRecord state { entry.2 with data }).get "updatedAt" := by
      rw [fields "updatedAt" application, normalized_updatedAt]
    have text : storedUpdatedAt final = entry.2.updatedAtText := by
      have own := ofTable.2
      unfold OwnStamp at own
      cases updated : entry.2.updatedAt with
      | none =>
        rw [updated] at own
        have empty : entry.2.updatedAtText = "" := by simp [SyncRecord.updatedAtText, updated]
        cases state with
        | none =>
          have kept := mergeRecord_absent incoming application ofTable.2
            (wins_of_not_loses wins) own
          rw [storedUpdatedAt, stamp, kept, empty]
          rfl
        | some row =>
          have newer := wins_of_not_loses wins row rfl
          rw [empty] at newer
          exact absurd newer (List.not_lt_nil _)
      | some text =>
        rw [updated] at own
        have carries : Carries entry.2 "updatedAt" :=
          ⟨Record.has_iff.mpr ⟨_, own⟩, fun h => by simp at h⟩
        have carried := mergeRecord_carried incoming application ofTable.2
          (wins_of_not_loses wins) carries
        rw [storedUpdatedAt, stamp, carried, own]
        simp [asString, SyncRecord.updatedAtText, updated]
    simp [mergeRegister, text]

end Steps

-- Whole runs

def Normal (table : SyncTable) (state : Option Record) : Prop :=
  ∀ field, ApplicationField table field
    → state.bind (fun row => row.get field) = reading table field state

theorem step_normal {next : Option Record} (generic : table ≠ .presence)
    (ofTable : OfTable table entry) (step : mergeRegister.Step state entry next)
    : (next = state ∧ ∃ row, state = some row ∧ noOpSameHash entry.2 row = true)
      ∨ Normal table next := by
  rcases step_cases generic ofTable step with unchanged | ⟨_, data, final, rfl, _, fields⟩
  · exact Or.inl unchanged
  · refine Or.inr fun field application => ?_
    simp only [reading, Option.bind_some, fields field application, normalized_normalized]

def AllNoOp (start : Option Record) (records : List SyncRecord) : Prop :=
  ∀ record ∈ records, ∃ row, start = some row ∧ noOpSameHash record row = true

/-- A run ends where it began when every record is a no-op there, else with a normal row, by
induction on the run up to its first landed merge.
-/
theorem run_ends {start final : Option Record} {entries : List (Receipt × SyncRecord)}
    (generic : table ≠ .presence) (run : mergeRegister.Run start entries final)
    (ofTable : ∀ entry ∈ entries, OfTable table entry)
    : (AllNoOp start (entries.map Prod.snd) → final = start)
      ∧ (¬ AllNoOp start (entries.map Prod.snd) → Normal table final) := by
  induction run with
  | nil state =>
    refine ⟨fun _ => rfl, fun some => ?_⟩
    exact absurd (fun record member => by cases member) some
  | @cons state next final entry rest step run ih =>
    have head := ofTable entry List.mem_cons_self
    have tail : ∀ entry ∈ rest, OfTable table entry :=
      fun entry member => ofTable entry (List.mem_cons_of_mem _ member)
    obtain ⟨still, settled⟩ := ih tail
    constructor
    · intro all
      have first := all entry.2 (by simp)
      have later : AllNoOp state (rest.map Prod.snd) :=
        fun record member => all record (List.mem_cons_of_mem _ member)
      obtain ⟨row, found, same⟩ := first
      rcases step_cases generic head step with ⟨rfl, _⟩ | ⟨different, _⟩
      · exact still later
      · rw [different row found] at same
        cases same
    · intro some
      rcases step_normal generic head step with ⟨rfl, noOp⟩ | normal
      · refine settled fun later => some ?_
        intro record member
        rcases List.mem_cons.mp member with rfl | member
        · exact noOp
        · exact later record member
      · refine run.preserves tail ?_ normal
        intro state entry next head step normal
        rcases step_normal generic head step with ⟨rfl, _⟩ | normal
        · exact normal
        · exact normal

/-- A field of the final row that the newest record carries, or that no record has, is
decided by the start and the newest record alone.
-/
theorem run_reading {start final : Option Record} {entries : List (Receipt × SyncRecord)}
    {newest : SyncRecord} (generic : table ≠ .presence)
    (run : mergeRegister.Run start entries final) (ofTable : ∀ entry ∈ entries, OfTable table entry)
    (offered : newest ∈ entries.map Prod.snd)
    (top : ∀ entry ∈ entries,
      (entry.2.data = newest.data ∧ entry.2.updatedAt = newest.updatedAt)
      ∨ textLt entry.2.updatedAtText newest.updatedAtText)
    (application : ApplicationField table field)
    (decided : Carries newest field ∨ ∀ entry ∈ entries, entry.2.data.get field = none)
    : reading table field final
      = if (∀ row, start = some row → textLt (storedUpdatedAt row) newest.updatedAtText)
            ∧ newest.data.has field = true
        then normalized table field (newest.data.get field)
        else reading table field start := by
  have stamps : ∀ entry ∈ entries,
      mergeRegister.stamp entry < codeUnits newest.updatedAtText
      ∨ (entry.2.data = newest.data ∧ mergeRegister.stamp entry = codeUnits newest.updatedAtText) := by
    intro entry member
    rcases top entry member with ⟨data, stamp⟩ | older
    · exact Or.inr ⟨data, by simp [mergeRegister, SyncRecord.updatedAtText, stamp]⟩
    · exact Or.inl older
  rcases decided with carries | absent
  · by_cases wins : ∀ row, start = some row → textLt (storedUpdatedAt row) newest.updatedAtText
    · rw [if_pos ⟨wins, carries.1⟩]
      have all : ∀ entry ∈ entries, OfTable table entry
          ∧ (mergeRegister.stamp entry < codeUnits newest.updatedAtText
            ∨ (mergeRegister.stamp entry = codeUnits newest.updatedAtText
              ∧ mergeRegister.Writes (reading table field) entry
                (normalized table field (newest.data.get field)))) := by
        intro entry member
        refine ⟨ofTable entry member, ?_⟩
        rcases stamps entry member with older | ⟨data, stamp⟩
        · exact Or.inl older
        have carried : Carries entry.2 field := by
          unfold Carries
          rw [data]
          exact carries
        rw [← data]
        exact Or.inr ⟨stamp, register_writes generic application (ofTable entry member) carried⟩
      have met : ∃ entry ∈ entries,
          mergeRegister.stamp entry = codeUnits newest.updatedAtText := by
        obtain ⟨entry, member, rfl⟩ := List.mem_map.mp offered
        exact ⟨entry, member, rfl⟩
      have before : mergeRegister.Before (codeUnits newest.updatedAtText) start := by
        intro held found
        obtain ⟨row, stored, rfl⟩ := Option.map_eq_some_iff.mp found
        exact wins row stored
      exact run.written (register_lawful generic) (register_keeps generic application) all met
        before
    · rw [if_neg (fun h => wins h.1)]
      obtain ⟨row, older⟩ := not_forall.mp wins
      obtain ⟨stored, older⟩ := Classical.not_imp.mp older
      refine run.dominated (register_lawful generic) (register_keeps generic application) ?_
      intro entry member
      refine ⟨ofTable entry member, _, congrArg _ stored, ?_⟩
      have below : codeUnits newest.updatedAtText ≤ codeUnits (storedUpdatedAt row) :=
        not_lt.mp older
      rcases stamps entry member with less | ⟨_, same⟩
      · exact less.le.trans below
      · exact same.le.trans below
  · have missing : newest.data.has field = false := by
      obtain ⟨entry, member, rfl⟩ := List.mem_map.mp offered
      simp [Record.has, absent entry member]
    rw [if_neg (fun h => by simp [missing] at h)]
    let unchanged (state : Option Record) : Prop :=
      reading table field state = reading table field start
    have all : ∀ entry ∈ entries, OfTable table entry ∧ entry.2.data.get field = none :=
      fun entry member => ⟨ofTable entry member, absent entry member⟩
    change unchanged final
    refine run.preserves all ?_ rfl
    rintro state entry next ⟨ok, none⟩ step same
    exact (register_absent generic application ok none step).trans same

/-- Two receivers that merge the same records over the same row, in any order and any number
of times, agree on every application field that the newest record carries or that no record
has, when each record carries its own stamp and every record that differs from the newest
one is older.
-/
theorem merges_converge (table : SyncTable) (generic : table ≠ .presence)
    (start first second : Option Record) (left right : List (Receipt × SyncRecord))
    (leftRun : mergeRegister.Run start left first)
    (rightRun : mergeRegister.Run start right second)
    (same : ∀ record, record ∈ left.map Prod.snd ↔ record ∈ right.map Prod.snd)
    (ofTable : ∀ record ∈ left.map Prod.snd, record.table = table.name ∧ OwnStamp record)
    (newest : SyncRecord) (offered : newest ∈ left.map Prod.snd)
    (top : ∀ record ∈ left.map Prod.snd,
      (record.data = newest.data ∧ record.updatedAt = newest.updatedAt)
      ∨ textLt record.updatedAtText newest.updatedAtText)
    (field : String) (application : ApplicationField table field)
    (decided : Carries newest field
      ∨ ∀ record ∈ left.map Prod.snd, record.data.has field = false)
    : first.bind (fun row => row.get field) = second.bind (fun row => row.get field) := by
  have inLeft : ∀ entry ∈ left, entry.2 ∈ left.map Prod.snd :=
    fun entry member => List.mem_map_of_mem member
  have inRight : ∀ entry ∈ right, entry.2 ∈ left.map Prod.snd :=
    fun entry member => (same entry.2).mpr (List.mem_map_of_mem member)
  have absent (entries : List (Receipt × SyncRecord))
      (within : ∀ entry ∈ entries, entry.2 ∈ left.map Prod.snd)
      : Carries newest field ∨ ∀ entry ∈ entries, entry.2.data.get field = none := by
    refine decided.imp_right fun none entry member => ?_
    simpa [Record.has] using none entry.2 (within entry member)
  obtain ⟨leftStill, leftNormal⟩ :=
    run_ends generic leftRun (fun entry member => ofTable entry.2 (inLeft entry member))
  obtain ⟨rightStill, rightNormal⟩ :=
    run_ends generic rightRun (fun entry member => ofTable entry.2 (inRight entry member))
  by_cases idle : AllNoOp start (left.map Prod.snd)
  · have idleRight : AllNoOp start (right.map Prod.snd) :=
      fun record member => idle record ((same record).mpr member)
    rw [leftStill idle, rightStill idleRight]
  · have busyRight : ¬ AllNoOp start (right.map Prod.snd) :=
      fun all => idle fun record member => all record ((same record).mp member)
    rw [leftNormal idle field application, rightNormal busyRight field application]
    rw [run_reading generic leftRun (fun entry member => ofTable entry.2 (inLeft entry member))
      offered (fun entry member => top entry.2 (inLeft entry member)) application
      (absent left inLeft)]
    rw [run_reading generic rightRun (fun entry member => ofTable entry.2 (inRight entry member))
      ((same newest).mp offered) (fun entry member => top entry.2 (inRight entry member))
      application (absent right inRight)]

-- Records that do not converge

/-- Merging two records over an absent row in one order. -/
def mergeBoth (first second : SyncRecord) : Option Record :=
  (mergeOne spokeReceipt second (mergeOne spokeReceipt first none).2).2

/-- Both orders of two records are runs of merges, and the final rows differ on a field. -/
def Diverge (left right : SyncRecord) (field : String) : Prop :=
  mergeRegister.Run none [(spokeReceipt, left), (spokeReceipt, right)] (mergeBoth left right)
  ∧ mergeRegister.Run none [(spokeReceipt, right), (spokeReceipt, left)] (mergeBoth right left)
  ∧ (mergeBoth left right).bind (fun row => row.get field)
    ≠ (mergeBoth right left).bind (fun row => row.get field)

theorem mergeBoth_run {first second : SyncRecord}
    (one : (mergeOne spokeReceipt first none).1 = .merged)
    (two : (mergeOne spokeReceipt second (mergeOne spokeReceipt first none).2).1 = .merged)
    : mergeRegister.Run none [(spokeReceipt, first), (spokeReceipt, second)]
        (mergeBoth first second) :=
  .cons ⟨rfl, Or.inl one⟩ (.cons ⟨rfl, Or.inl two⟩ (.nil _))

def soulValue (updatedAt value : String) : SyncRecord :=
  plainRecord .soul "s" updatedAt [("value", .str value)]

def soulWithMood : SyncRecord :=
  plainRecord .soul "s" "2025-08-10" [("value", .str "old"), ("mood", .str "calm")]

def soulUnstamped : SyncRecord :=
  { soulValue "2025-08-20" "new" with
    data := Record.ofFields [("id", .str "s"), ("value", .str "new")] }

def nullVisibility : SyncRecord :=
  plainRecord .relationship "r" "2025-08-20" [("visibility", .null)]

def sharedVisibility : SyncRecord :=
  plainRecord .relationship "r" "2025-08-10" [("visibility", .str "shared")]

def messageIn (updatedAt : String) (state : Value) : SyncRecord :=
  plainRecord .message "m" updatedAt [("state", state)]

def agentAs (updatedAt : String) (role : Value) : SyncRecord :=
  plainRecord .agent "worker" updatedAt [("role", role)]

def ephemeralMemory : SyncRecord :=
  plainRecord .memory "m" "2025-08-10"
    [("durability", ephemeral), ("expiresAt", .str "2025-09-02T00:00:00Z")]

def standardMemory : SyncRecord :=
  plainRecord .memory "m" "2025-08-20" [("durability", .str "standard")]

/-- Records diverge on a tie of their stamps, on a field the newer one leaves out, on a
payload without its stamp, on a null visibility, and on the fields a receiver decides.
-/
theorem merges_diverge
    : Diverge (soulValue "2025-08-20" "a") (soulValue "2025-08-20" "b") "value"
      ∧ Diverge soulWithMood (soulValue "2025-08-20" "new") "mood"
      ∧ Diverge soulUnstamped (soulValue "2025-08-10" "old") "value"
      ∧ Diverge nullVisibility sharedVisibility "visibility"
      ∧ Diverge (messageIn "2025-08-10" Relay.consumed)
          (messageIn "2025-08-20" (.str "delivered")) "state"
      ∧ Diverge (agentAs "2025-08-10" (.str "agent")) (agentAs "2025-08-20" adminRole) "role"
      ∧ Diverge ephemeralMemory standardMemory "expiresAt" := by
  have diverge {left right : SyncRecord} {field : String}
      (runs : (mergeOne spokeReceipt left none).1 = .merged
        ∧ (mergeOne spokeReceipt right (mergeOne spokeReceipt left none).2).1 = .merged
        ∧ (mergeOne spokeReceipt right none).1 = .merged
        ∧ (mergeOne spokeReceipt left (mergeOne spokeReceipt right none).2).1 = .merged
        ∧ (mergeBoth left right).bind (fun row => row.get field)
          ≠ (mergeBoth right left).bind (fun row => row.get field))
      : Diverge left right field := by
    obtain ⟨one, two, three, four, differ⟩ := runs
    exact ⟨mergeBoth_run one two, mergeBoth_run three four, differ⟩
  refine ⟨?_, ?_, ?_, ?_, ?_, ?_, ?_⟩
  all_goals exact diverge (by decide +kernel)

theorem soulValues_converge
    : (mergeBoth (soulValue "2025-08-10" "old") (soulValue "2025-08-20" "new")).bind
        (fun row => row.get "value")
      = (mergeBoth (soulValue "2025-08-20" "new") (soulValue "2025-08-10" "old")).bind
        (fun row => row.get "value") := by
  refine merges_converge .soul (by decide) none _ _ _ _
    (mergeBoth_run (by decide) (by decide)) (mergeBoth_run (by decide) (by decide)) ?_ ?_
    (soulValue "2025-08-20" "new") (by decide) ?_ "value" ⟨by decide, by decide⟩
    (Or.inl ⟨by decide, by decide⟩)
  · intro record
    simp [or_comm]
  · intro record member
    fin_cases member <;> exact ⟨by decide, by unfold OwnStamp; decide⟩
  · intro record member
    fin_cases member <;> decide

end Flair.Federation
