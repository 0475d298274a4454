import Flair.Federation.AgentAuthority
import Flair.Federation.PresenceReceipts
import Flair.Memories.Attributes
import Flair.Memories.Durability
import Flair.Relay.MessageStates
import Flair.WriteBack.Undisturbed

/-! The merge of one offered record into its table: the checks before the write, the row
they build, and the plan the write-back decides on the in-transaction row. Follows
`mergeOne` of `resources/Federation.ts`.
-/

namespace Flair.Federation

open Dynamic Memories

/-- What the merge of one record reads besides the record and the tables it writes: the
batch-verified sender, other rows, the clock and the configuration. `verifies` stands for
the record's signature check against its originator's key.
-/
structure Receipt where
  sender : String
  senderRole : String
  senderKey : Option Value
  peerKey : String → Option Value
  verifies : SyncRecord → String → Value → Bool
  classifiedAt : Int
  stampedAt : Int
  syncedAt : String
  freshToken : String
  ephemeralTtlHours : Option Rat
  adminAgents : Option String
  requireRecordSignatures : Bool
  requireRecordPrincipal : Bool
  presenceReceiveEnabled : Bool
  receivedAt : Rat
  presenceAgent : Option Record
  presenceAgentAtWrite : Option Record

-- Admission

def checkSignature (receipt : Receipt) (record : SyncRecord) (originator : String)
    : Except SkipReason Unit :=
  match record.signature.filter (fun signature => signature ≠ "") with
  | none => if receipt.requireRecordSignatures then .error .missingSignature else .ok ()
  | some _ =>
    let key :=
      if originator = receipt.sender then receipt.senderKey else receipt.peerKey originator
    match key with
    | none => .error .unknownOriginatorKey
    | some key =>
      if !truthy (some key) then .error .unknownOriginatorKey
      else if receipt.verifies record originator key then .ok ()
      else .error .invalidSignature

/-- The checks every table shares, in order: the table and the originator of an admitted
record. A record that names an inherited property of the table map makes the read throw.
-/
def admitRecord (receipt : Receipt) (record : SyncRecord) (localRow : Option Record)
    : Except SkipReason (SyncTable × String) := do
  if record.data.get "id" ≠ some (.str record.id) then
    .error .idMismatch
  else
    match SyncTable.ofName record.table with
    | none => .error (if record.table ∈ inheritedNames then .mergeError else .unknownTable)
    | some table => do
        let originator ←
          classifyRecord record receipt.senderRole receipt.sender localRow receipt.classifiedAt
        if table = .presence && !receipt.presenceReceiveEnabled then
          .error .presenceReceiveDisabled
        else
          checkSignature receipt record originator
          match checkPrincipalEntitlement record table receipt.requireRecordPrincipal with
          | some reason => .error reason
          | none => .ok (table, originator)

-- The merged row

/-- `mergeRecord`: record-level last-writer-wins; a null visibility keeps the stored one. -/
def mergeRecord (localRow : Option Record) (record : SyncRecord) : Record :=
  match localRow with
  | none => record.data
  | some row =>
    if textLt (storedUpdatedAt row) record.updatedAtText then
      let incoming :=
        if isNullish (record.data.get "visibility") then record.data.delete "visibility"
        else record.data
      (row.assign incoming).set "updatedAt" (.str record.updatedAtText)
    else row

/-- `AGENT_ID_PATTERN`: 1 to 64 letters, digits, underscores and hyphens. -/
def isValidAgentId (id : String) : Bool :=
  decide (1 ≤ id.length ∧ id.length ≤ 64)
  && id.toList.all fun c => c.isAlphanum || c == '_' || c == '-'

def stampSync (receipt : Receipt) (originator : String) (merged : Record) : Record :=
  ((merged.set "_originatorInstanceId" (.str originator)).set "_syncedFrom"
    (.str receipt.sender)).set "_syncedAt" (.str receipt.syncedAt)

def receiverToken (receipt : Receipt) (localRow : Option Record) : String :=
  match localRow.bind (fun row => row.get "instanceToken") with
  | some (.str token) => if token = "" then receipt.freshToken else token
  | _ => receipt.freshToken

def stampMemory (receipt : Receipt) (localRow : Option Record) (merged : Record) : Record :=
  let stripped := stripServerStampedFields (stripInboundMemoryRow merged)
  let stamped :=
    match asString ((stripInboundMemoryRow merged).get "provenance") with
    | some provenance => stripped.set "provenance" (.str provenance)
    | none => stripped
  stamped.set "instanceToken" (.str (receiverToken receipt localRow))

def mergedMemory (receipt : Receipt) (record : SyncRecord) (originator : String)
    (localRow : Option Record)
    : Except SkipReason Record :=
  match stampEphemeralExpiry record.data localRow true receipt.stampedAt
      receipt.ephemeralTtlHours with
  | .refused _ => .error .invalidExpiry
  | .threw => .error .mergeError
  | .accepted incoming =>
    let merged := stripInboundMemoryRow (mergeRecord localRow { record with data := incoming })
    if isSkillWrite merged then .error .skillNotFederated
    else if record.id = seedSkillRowId then .error .seedIdNotFederated
    else if endsWithContentSelectorSuffix (merged.get "id") then
      .error .contentSuffixIdNotFederated
    else .ok (stampMemory receipt localRow (stampSync receipt originator merged))

def mergedRow (receipt : Receipt) (table : SyncTable) (record : SyncRecord)
    (originator : String) (localRow : Option Record)
    : Except SkipReason Record :=
  match table with
  | .memory => mergedMemory receipt record originator localRow
  | .agent =>
    if isValidAgentId record.id
    then .ok (stampSync receipt originator (mergeRecord localRow record))
    else .error .invalidAgentId
  | _ => .ok (stampSync receipt originator (mergeRecord localRow record))

-- The decision on the in-transaction row

def agentRefusal (receipt : Receipt) (record : SyncRecord) (row : Option Record)
    : Option SkipReason :=
  if inboundChangesExistingPrincipalStatus record row then some .agentStatusNotFederated
  else if inboundChangesExistingPendingKey record row then some .agentPendingKeyNotFederated
  else
    (agentAdminIdCreateRefusal record row (configuredAdminAgentIds receipt.adminAgents)).or
      (agentIdentityRefusal record row receipt.sender)

/-- The absorbing-state rule on a merged message: a consumed one carries no failure reason
and keeps the in-transaction row's consumption stamp.
-/
def reconcileMessage (merged : Record) (row : Option Record) : Record :=
  let field (name : String) := row.bind (fun row => row.get name)
  match Relay.reconcileState (field "state") (merged.get "state") with
  | none => merged
  | some state =>
    let reconciled := merged.set "state" state
    if state = Relay.consumed then
      let stamp :=
        if isNullish (field "consumedAt") then (merged.get "consumedAt").getD .null
        else (field "consumedAt").getD .null
      (reconciled.set "failureReason" .null).set "consumedAt" stamp
    else reconciled

def memoryPlan (merged : Record) (row : Option Record) : WriteBack.Plan :=
  match row with
  | none => .write merged .idempotent
  | some row =>
    if ∀ field ∈ row.fields, merged.has field = true
    then .update (Record.changes row merged) .idempotent
    else .write merged .idempotent

def mergePlan (receipt : Receipt) (table : SyncTable) (record : SyncRecord) (merged : Record)
    (row : Option Record)
    : WriteBack.Plan :=
  match table with
  | .agent =>
    match agentRefusal receipt record row with
    | some reason => .skip (some reason.text)
    | none => .write (keepReceiverAgentAuthority merged row) .idempotent
  | .message => .write (reconcileMessage merged row) .idempotent
  | .memory => memoryPlan (normalizeEmptyEmbedding merged) row
  | _ => .write merged .idempotent

def presencePlan (receipt : Receipt) (validated : Record) (row : Option Record)
    : WriteBack.Plan :=
  match presenceHomeBindingReason receipt.presenceAgentAtWrite receipt.sender with
  | some reason => .skip (some reason.text)
  | none =>
    match mergePresenceReceipt row validated receipt.receivedAt with
    | .error reason => .skip (some reason.text)
    | .ok merged => .write merged .idempotent

def mergeCall (localRow : Option Record) (plan : Option Record → WriteBack.Plan)
    : WriteBack.Call where
  plan _ row := some (plan row)
  attempts := 1
  expectedRow := some localRow
  «matches» _ := true
  matchFields := []
  wholeRow := true
  verifyAlso _ := true

def preparePresence (receipt : Receipt) (record : SyncRecord) (localRow : Option Record)
    : Except SkipReason Record := do
  let validated ←
    validatePresenceReceipt record.id record.data receipt.receivedAt receipt.sender
  match presenceHomeBindingReason receipt.presenceAgent receipt.sender with
  | some reason => .error reason
  | none =>
    let _ ← mergePresenceReceipt localRow validated receipt.receivedAt
    .ok validated

/-- Everything before the write-back: the call it makes, or why the record is refused. -/
def prepareMerge (receipt : Receipt) (record : SyncRecord) (localRow : Option Record)
    : Except SkipReason WriteBack.Call := do
  let (table, originator) ← admitRecord receipt record localRow
  if table = .presence then
    let validated ← preparePresence receipt record localRow
    .ok (mergeCall localRow (presencePlan receipt validated))
  else
    let merged ← mergedRow receipt table record originator localRow
    .ok (mergeCall localRow (mergePlan receipt table record merged))

-- The merge

inductive MergeOutcome where
  | refused (reason : SkipReason)
  | merged
  | indeterminate
deriving DecidableEq

/-- The outcome of a merge whose write-back ended in a phase: a conflict before the commit
is a refusal, any other failure after the write-back started is indeterminate.
-/
def outcomeOf : WriteBack.Phase → MergeOutcome
  | .resolved (.skip reason) =>
    .refused ((reason.bind SkipReason.ofText).getD .agentStatusNotFederated)
  | .resolved _ => .merged
  | .failed .conflict => .refused .mergeTargetChanged
  | _ => .indeterminate

/-- `mergeOne` over a stored row that nothing else writes and a store that does not fail:
the outcome, and the row it leaves.
-/
def mergeOne (receipt : Receipt) (record : SyncRecord) (stored : Option Record)
    : MergeOutcome × Option Record :=
  match prepareMerge receipt record stored with
  | .error reason => (.refused reason, stored)
  | .ok call =>
    let final := WriteBack.undisturbed call "" stored
    (outcomeOf final.phase, final.stored)

-- What a merge leaves

/-- The whole-row check of an undisturbed merge is the identity check of the stored row with
itself, which only an identity field holding an array or an object fails.
-/
theorem mergeCall_sameTarget (stored : Option Record)
    (plan : Option Record → WriteBack.Plan)
    : (mergeCall stored plan).sameTarget stored stored
      = WriteBack.sameStoredRow stored stored := by
  cases stored with
  | none => rfl
  | some row => simp [WriteBack.Call.sameTarget, mergeCall]

theorem mergePlan_idempotent (receipt : Receipt) (table : SyncTable) (record : SyncRecord)
    (merged : Record) (row : Option Record)
    : (mergePlan receipt table record merged row).idempotent = true := by
  cases table with
  | memory =>
    simp only [mergePlan, memoryPlan]
    split
    · rfl
    · split <;> rfl
  | agent =>
    simp only [mergePlan]
    split <;> rfl
  | soul | relationship | message | presence => rfl

structure Admission (receipt : Receipt) (table : SyncTable) (originator : String)
    (record : SyncRecord) (localRow : Option Record)
    : Prop where
  carriesId : record.data.get "id" = some (.str record.id)
  known : SyncTable.ofName record.table = some table
  classified
    : classifyRecord record receipt.senderRole receipt.sender localRow receipt.classifiedAt
      = .ok originator
  received : table = .presence → receipt.presenceReceiveEnabled = true
  signature : checkSignature receipt record originator = .ok ()
  entitled : checkPrincipalEntitlement record table receipt.requireRecordPrincipal = none

variable {receipt : Receipt} {record : SyncRecord} {table : SyncTable} {originator : String}

theorem admitRecord_eq_ok {localRow : Option Record}
    : admitRecord receipt record localRow = .ok (table, originator)
      ↔ Admission receipt table originator record localRow := by
  constructor
  · intro h
    unfold admitRecord at h
    split at h
    · cases h
    rename_i carried
    split at h
    · cases h
    rename_i named known
    cases classified : classifyRecord record receipt.senderRole receipt.sender localRow
        receipt.classifiedAt with
    | error reason => simp [classified, bind, Except.bind] at h
    | ok text =>
      simp only [classified, bind, Except.bind] at h
      split at h
      · cases h
      rename_i received
      cases signature : checkSignature receipt record text with
      | error reason => simp [signature] at h
      | ok passed =>
        simp only [signature] at h
        split at h
        · cases h
        rename_i entitled
        cases h
        exact {
          carriesId := not_not.mp carried
          known := known
          classified := classified
          received := by simpa using received
          signature := signature
          entitled := entitled
        }
  · rintro ⟨carried, known, classified, received, signature, entitled⟩
    have on : (decide (table = .presence) && !receipt.presenceReceiveEnabled) = false := by
      by_cases isPresence : table = .presence
      · simp [received isPresence]
      · simp [isPresence]
    simp [admitRecord, carried, known, classified, signature, entitled, on, bind, Except.bind]

theorem Admission.table_name {localRow : Option Record}
    (h : Admission receipt table originator record localRow)
    : table.name = record.table :=
  SyncTable.name_of_ofName h.known

/-- A generic merge that reached its write-back: the table, the originator and the row it
merged to.
-/
structure Prepared (receipt : Receipt) (table : SyncTable) (originator : String)
    (merged : Record) (record : SyncRecord) (stored : Option Record)
    : Prop where
  admission : Admission receipt table originator record stored
  merging : mergedRow receipt table record originator stored = .ok merged

variable {stored : Option Record}

theorem prepareMerge_ok {call : WriteBack.Call} (generic : record.table ≠ "Presence")
    (prepared : prepareMerge receipt record stored = .ok call)
    : ∃ table originator merged,
        Prepared receipt table originator merged record stored
        ∧ call = mergeCall stored (mergePlan receipt table record merged) := by
  cases admitted : admitRecord receipt record stored with
  | error reason => simp [prepareMerge, admitted, bind, Except.bind] at prepared
  | ok found =>
    obtain ⟨table, originator⟩ := found
    have admission := admitRecord_eq_ok.mp admitted
    have other : table ≠ .presence := by
      rintro rfl
      exact generic admission.table_name.symm
    cases merging : mergedRow receipt table record originator stored with
    | error reason =>
      simp [prepareMerge, admitted, merging, other, bind, Except.bind] at prepared
    | ok merged =>
      simp only [prepareMerge, admitted, merging, other, bind, Except.bind, if_false,
        Except.ok.injEq] at prepared
      exact ⟨table, originator, merged, ⟨admission, merging⟩, prepared.symm⟩

/-- How a generic merge ends: refused before its write-back, over an untouched row after it,
or with the row its plan lands.
-/
theorem mergeOne_cases (receipt : Receipt) (record : SyncRecord) (stored : Option Record)
    (generic : record.table ≠ "Presence")
    : (∃ reason,
        prepareMerge receipt record stored = .error reason
        ∧ mergeOne receipt record stored = (.refused reason, stored))
      ∨ ∃ table originator merged,
          Prepared receipt table originator merged record stored
          ∧ (((mergeOne receipt record stored).2 = stored
              ∧ ((mergeOne receipt record stored).1 = .indeterminate
                ∨ (mergeOne receipt record stored).1 = .refused .mergeTargetChanged
                ∨ (mergeOne receipt record stored).1 = .refused .agentStatusNotFederated
                ∨ ∃ reason,
                    mergePlan receipt table record merged stored = .skip reason
                    ∧ (mergeOne receipt record stored).1
                      = outcomeOf (.resolved (.skip reason))))
            ∨ ((mergePlan receipt table record merged stored).writes = true
              ∧ WriteBack.sameStoredRow stored stored = true
              ∧ (mergeOne receipt record stored).2
                = (mergePlan receipt table record merged stored).landed "" stored
              ∧ ((mergeOne receipt record stored).1 = .merged
                ∨ (mergeOne receipt record stored).1 = .indeterminate))) := by
  cases prepared : prepareMerge receipt record stored with
  | error reason => exact Or.inl ⟨reason, rfl, by simp only [mergeOne, prepared]⟩
  | ok call =>
    have ended : mergeOne receipt record stored
        = (outcomeOf (WriteBack.undisturbed call "" stored).phase,
          (WriteBack.undisturbed call "" stored).stored) := by
      simp only [mergeOne, prepared]
    obtain ⟨table, originator, merged, ready, rfl⟩ := prepareMerge_ok generic prepared
    refine Or.inr ⟨table, originator, merged, ready, ?_⟩
    rw [ended]
    dsimp only
    rcases WriteBack.undisturbed_cases
        (mergeCall stored (mergePlan receipt table record merged)) "" stored with
      ⟨kept, ended⟩ | ⟨plan, answered, writes, target, left, ended⟩
    · refine Or.inl ⟨kept, ?_⟩
      rcases ended with ⟨failure, phase⟩ | phase | ⟨reason, answered, phase⟩
      · rw [phase]
        cases failure with
        | conflict => exact Or.inr (Or.inl rfl)
        | unconfirmed | threw => exact Or.inl rfl
      · rw [phase]
        exact Or.inr (Or.inr (Or.inl rfl))
      · rw [phase]
        exact Or.inr (Or.inr (Or.inr ⟨reason, Option.some.inj answered, rfl⟩))
    · cases answered
      have matching := (mergeCall_sameTarget stored _).symm.trans target
      refine Or.inr ⟨writes, matching, left, ?_⟩
      rcases ended with phase | phase | phase
      · rw [phase]
        left
        cases planned : mergePlan receipt table record merged stored with
        | skip reason => simp [planned, WriteBack.Plan.writes] at writes
        | write row evidence | update patch evidence => rfl
      · rw [phase]
        exact Or.inr rfl
      · rw [phase]
        exact Or.inr rfl

theorem mergeOne_stored (receipt : Receipt) (record : SyncRecord) (stored : Option Record)
    (generic : record.table ≠ "Presence")
    : (mergeOne receipt record stored).2 = stored
      ∨ ∃ table originator merged,
          Prepared receipt table originator merged record stored
          ∧ (mergePlan receipt table record merged stored).writes = true
          ∧ WriteBack.sameStoredRow stored stored = true
          ∧ (mergeOne receipt record stored).2
            = (mergePlan receipt table record merged stored).landed "" stored := by
  rcases mergeOne_cases receipt record stored generic with
    ⟨reason, _, refused⟩ | ⟨table, originator, merged, ready, ⟨kept, _⟩ | ended⟩
  · exact Or.inl (congrArg Prod.snd refused)
  · exact Or.inl kept
  · obtain ⟨writes, target, left, _⟩ := ended
    exact Or.inr ⟨table, originator, merged, ready, writes, target, left⟩

theorem mergeOne_merged (generic : record.table ≠ "Presence")
    (reported : (mergeOne receipt record stored).1 = .merged)
    : ∃ table originator merged,
        Prepared receipt table originator merged record stored
        ∧ (mergePlan receipt table record merged stored).writes = true
        ∧ (mergeOne receipt record stored).2
          = (mergePlan receipt table record merged stored).landed "" stored := by
  rcases mergeOne_cases receipt record stored generic with
    ⟨reason, _, refused⟩ | ⟨table, originator, merged, ready, ⟨_, ended⟩ | ended⟩
  · rw [refused] at reported
    cases reported
  · rcases ended with same | same | same | ⟨reason, _, same⟩
    · rw [same] at reported
      cases reported
    · rw [same] at reported
      cases reported
    · rw [same] at reported
      cases reported
    · rw [same] at reported
      cases reported
  · obtain ⟨writes, _, left, _⟩ := ended
    exact ⟨table, originator, merged, ready, writes, left⟩

theorem mergeOne_lands {merged : Record}
    (admission : Admission receipt table originator record stored)
    (generic : record.table ≠ "Presence")
    (merging : mergedRow receipt table record originator stored = .ok merged)
    (writes : (mergePlan receipt table record merged stored).writes = true)
    (target : WriteBack.sameStoredRow stored stored = true)
    : (mergeOne receipt record stored).2
      = (mergePlan receipt table record merged stored).landed "" stored := by
  have other : table ≠ .presence := by
    rintro rfl
    exact generic admission.table_name.symm
  have prepared : prepareMerge receipt record stored
      = .ok (mergeCall stored (mergePlan receipt table record merged)) := by
    simp [prepareMerge, admitRecord_eq_ok.mpr admission, merging, other, bind, Except.bind]
  simp only [mergeOne, prepared]
  refine WriteBack.undisturbed_lands rfl rfl writes ?_ ?_
  · exact mergePlan_idempotent receipt table record merged stored
  · exact (mergeCall_sameTarget stored _).trans target

-- A receipt to run the model on

/-- A batch of a paired spoke at the start of September 2025, with the default settings. -/
def spokeReceipt : Receipt where
  sender := "spoke"
  senderRole := "spoke"
  senderKey := some (.str "spoke-key")
  peerKey _ := none
  verifies _ _ _ := false
  classifiedAt := 1756684800000
  stampedAt := 1756684800000
  syncedAt := "2025-09-01T00:00:00.000Z"
  freshToken := "fresh"
  ephemeralTtlHours := some 24
  adminAgents := some "root"
  requireRecordSignatures := false
  requireRecordPrincipal := false
  presenceReceiveEnabled := false
  receivedAt := 1756684800000
  presenceAgent := none
  presenceAgentAtWrite := none

def plainRecord (table : SyncTable) (id : String) (updatedAt : String)
    (fields : List (String × Value))
    : SyncRecord where
  table := table.name
  id
  data := Record.ofFields (("id", .str id) :: ("updatedAt", .str updatedAt) :: fields)
  updatedAt := some updatedAt
  originatorInstanceId := none
  signature := none
  principalId := none
  v := none

example
    : (mergeOne spokeReceipt (plainRecord .soul "s" "2025-08-31" [("value", .str "b")]) none).1
      = .merged := by
  decide

end Flair.Federation
