import Flair.RemRestore.OwnRows
import Mathlib.Data.List.ReduceOption

/-! What a replay's report says of its writes: every planned write has one outcome, the counts
and lists hold exactly those outcomes, and an unknown write is the last one of its id.
-/

namespace Flair.RemRestore

open Dynamic

variable {api : Api} {numberText : Rat → String} {run : Run}

-- Outcomes

def okWrite : Exchange → Option Write
  | (.write write, .ok _) => some write
  | _ => none

def unknownWrite : Exchange → Option Write
  | (.write write, .unknown _) => some write
  | _ => none

def doneFate : Write × Fate → Option Write
  | (write, .done) => some write
  | _ => none

def unknownFate : Write × Fate → Option Write
  | (write, .unknown) => some write
  | _ => none

def skippedPut : Write × Fate → Option Write
  | (write, .notAttempted) => if write.verb = .put then some write else none
  | _ => none

def errorText : Write × Fate → Option String
  | (write, .failed message) =>
    some (write.verb.word ++ "-" ++ write.table.word ++ " " ++ write.id ++ ": " ++ message)
  | _ => none

def of (verb : Verb) (table : Table) (write : Write) : Bool :=
  write.verb = verb && write.table = table

def idsOf (table : Table) (writes : List Write) : List String :=
  (writes.filter fun write => write.table = table).map Write.id

@[simp] theorem idsOf_append (table : Table) (first second : List Write)
    : idsOf table (first ++ second) = idsOf table first ++ idsOf table second := by
  simp [idsOf]

@[simp] theorem idsOf_singleton (table : Table) (write : Write)
    : idsOf table [write] = if table = write.table then [write.id] else [] := by
  by_cases h : table = write.table
  · simp [idsOf, h]
  · have apart : ¬ write.table = table := fun same => h same.symm
    simp [idsOf, h, apart]

@[simp] theorem idsOf_nil (table : Table) : idsOf table [] = [] := rfl

def FateShown (sent : List Exchange) : Write × Fate → Prop
  | (write, .failed message) =>
    encodeRecordIdRefusal write.id = some message
      ∨ ∃ answer, (.write write, answer) ∈ sent ∧ answer.error = some message
        ∧ answer.isUnknown = false
  | (write, .notAttempted) =>
    ∃ other ∈ sent.filterMap unknownWrite, other.table = write.table ∧ other.id = write.id
  | _ => True

structure Accounts (planned : List Write) (run : Run) : Prop where
  fates : run.fates.map Prod.fst = planned
  done : run.fates.filterMap doneFate = run.sent.filterMap okWrite
  unknownSent : run.fates.filterMap unknownFate = run.sent.filterMap unknownWrite
  shown : ∀ fate ∈ run.fates, FateShown run.sent fate
  deleted : ∀ table, run.report.deleted table
    = (run.fates.filterMap doneFate).countP (of .delete table)
  restored : ∀ table, run.report.restored table
    = (run.fates.filterMap doneFate).countP (of .put table)
  unknown : ∀ table, run.report.unknown table = idsOf table (run.fates.filterMap unknownFate)
  skipped : ∀ table, run.report.skippedAfterUnknownDelete table
    = idsOf table (run.fates.filterMap skippedPut)

def WriteErrors (run : Run) : Prop := run.report.errors = run.fates.filterMap errorText

def KnowsUnknown (run : Run) : Prop :=
  ∀ table, run.unknownWrites table = idsOf table (run.sent.filterMap unknownWrite)

variable {sent : List Exchange}

theorem FateShown.more {fate : Write × Fate} (h : FateShown sent fate) (more : List Exchange)
    : FateShown (sent ++ more) fate := by
  obtain ⟨write, fate⟩ := fate
  cases fate with
  | done | unknown => trivial
  | failed message =>
    rcases h with refused | ⟨answer, member, error, known⟩
    · exact .inl refused
    · exact .inr ⟨answer, List.mem_append_left _ member, error, known⟩
  | notAttempted =>
    obtain ⟨other, member, same⟩ := h
    refine ⟨other, ?_, same⟩
    rw [List.filterMap_append]
    exact List.mem_append_left _ member

-- One write

theorem attempt_sent (write : Write)
    : ∃ retried first, (∀ exchange ∈ first,
          exchange.1 = .write write ∧ exchange.2.isProviderTimeoutRefusal = true)
        ∧ (run.attempt api write).2 = { run with
            sent := run.sent ++ first ++ [(.write write, (run.attempt api write).1)]
            report := { run.report with retried } } := by
  unfold Run.attempt
  dsimp only [Run.send]
  split
  · rename_i again
    refine ⟨_, [(.write write, api run.sent (.write write))], ?_, rfl⟩
    intro exchange member
    rw [List.mem_singleton.mp member]
    exact ⟨rfl, again.2.2⟩
  · exact ⟨run.report.retried, [], by simp, by simp⟩

variable {first : List Exchange} {write : Write}

theorem okWrite_retried
    (h : ∀ exchange ∈ first, exchange.1 = .write write ∧ exchange.2.isProviderTimeoutRefusal = true)
    : first.filterMap okWrite = [] ∧ first.filterMap unknownWrite = [] := by
  constructor
  all_goals
    rw [List.filterMap_eq_nil_iff]
    rintro ⟨request, answer⟩ member
    obtain ⟨rfl, refusal⟩ := h _ member
    cases answer with
    | refused status code message => rfl
    | _ => simp [Answer.isProviderTimeoutRefusal] at refusal

/-- The run after a write's exchanges, before its outcome is noted. -/
def Run.after (run : Run) (extra : List Exchange) (retried : Table → List String) : Run :=
  { run with sent := run.sent ++ extra, report := { run.report with retried } }

structure EndsAs (sent extra : List Exchange) (write : Write) (answer : Answer) : Prop where
  ok : extra.filterMap okWrite = if answer.succeeded then [write] else []
  unknown : extra.filterMap unknownWrite = if answer.isUnknown then [write] else []
  failed : ∀ message, answer.error = some message → answer.isUnknown = false
    → FateShown (sent ++ extra) (write, .failed message)

theorem EndsAs.of_answer {answer : Answer}
    (retried : ∀ exchange ∈ first,
      exchange.1 = .write write ∧ exchange.2.isProviderTimeoutRefusal = true)
    : EndsAs sent (first ++ [(.write write, answer)]) write answer := by
  obtain ⟨noOk, noUnknown⟩ := okWrite_retried retried
  refine ⟨?_, ?_, ?_⟩
  · rw [List.filterMap_append, noOk]
    cases answer <;> rfl
  · rw [List.filterMap_append, noUnknown]
    cases answer <;> rfl
  · intro message error known
    exact .inr ⟨answer, by simp, error, known⟩

def Answer.fate : Answer → Fate
  | .ok _ => .done
  | .unknown _ => .unknown
  | .refused _ _ message | .failed message => .failed message

namespace Run

variable (write : Write) (answer : Answer)

@[simp] theorem settle_fates
    : (run.settle write answer).fates = run.fates ++ [(write, answer.fate)] := by
  cases answer with
  | ok body => cases h : write.verb <;> simp [settle, note, countDone, h, Answer.fate]
  | _ => rfl

theorem settle_counts (table : Table)
    : (run.settle write answer).report.deleted table
        = run.report.deleted table
          + (if answer.succeeded && of .delete table write then 1 else 0)
      ∧ (run.settle write answer).report.restored table
        = run.report.restored table
          + if answer.succeeded && of .put table write then 1 else 0 := by
  cases answer with
  | ok body =>
    cases h : write.verb
    all_goals
      by_cases same : table = write.table
      · subst same
        simp [settle, note, countDone, h, Answer.succeeded, of]
      · have apart : ¬ write.table = table := fun equal => same equal.symm
        simp [settle, note, countDone, h, Answer.succeeded, of, same, apart]
  | _ => exact ⟨rfl, rfl⟩

theorem settle_unknown (table : Table)
    : (run.settle write answer).report.unknown table
        = run.report.unknown table
          ++ (if answer.isUnknown && write.table = table then [write.id] else [])
      ∧ (run.settle write answer).unknownWrites table
        = run.unknownWrites table
          ++ (if answer.isUnknown && write.table = table then [write.id] else []) := by
  cases answer with
  | ok body => cases h : write.verb <;> simp [settle, note, countDone, h, Answer.isUnknown]
  | unknown message =>
    by_cases same : table = write.table
    · subst same
      simp [settle, note, addUnknown, Answer.isUnknown]
    · have apart : ¬ write.table = table := fun equal => same equal.symm
      simp [settle, note, addUnknown, Answer.isUnknown, same, apart]
  | _ => simp [settle, note, addError, Answer.isUnknown]

@[simp] theorem settle_skipped
    : (run.settle write answer).report.skippedAfterUnknownDelete
      = run.report.skippedAfterUnknownDelete := by
  cases answer with
  | ok body => cases h : write.verb <;> simp [settle, note, countDone, h]
  | _ => rfl

theorem settle_errors
    : (run.settle write answer).report.errors
      = run.report.errors ++ (errorText (write, answer.fate)).toList := by
  cases answer with
  | ok body => cases h : write.verb <;> simp [settle, note, countDone, h, Answer.fate, errorText]
  | _ => simp [settle, note, addError, addUnknown, Answer.fate, errorText]

end Run

theorem doneFate_fate (write : Write) (answer : Answer)
    : [(write, answer.fate)].filterMap doneFate = if answer.succeeded then [write] else [] := by
  cases answer <;> rfl

theorem unknownFate_fate (write : Write) (answer : Answer)
    : [(write, answer.fate)].filterMap unknownFate
      = if answer.isUnknown then [write] else [] := by
  cases answer <;> rfl

theorem unknownFate_notAttempted (write : Write)
    : [(write, Fate.notAttempted)].filterMap unknownFate = [] := rfl

theorem skippedPut_fate (write : Write) (answer : Answer)
    : [(write, answer.fate)].filterMap skippedPut = [] := by
  cases answer <;> rfl

variable {planned : List Write}

theorem Accounts.settle {extra : List Exchange} {answer : Answer} (h : Accounts planned run)
    (ends : EndsAs run.sent extra write answer) (retried : Table → List String)
    : Accounts (planned ++ [write]) ((run.after extra retried).settle write answer) where
  fates := by simp [Run.after, h.fates]
  done := by
    rw [Run.settle_fates, Run.settle_sent, Run.after, List.filterMap_append, h.done,
      doneFate_fate, List.filterMap_append, ends.ok]
  unknownSent := by
    rw [Run.settle_fates, Run.settle_sent, Run.after, List.filterMap_append, h.unknownSent,
      unknownFate_fate, List.filterMap_append, ends.unknown]
  shown := by
    rw [Run.settle_fates, Run.settle_sent]
    intro fate member
    rcases List.mem_append.mp member with before | here
    · exact (h.shown fate before).more extra
    rw [List.mem_singleton.mp here]
    cases answer with
    | ok _ | unknown _ => trivial
    | refused _ _ message | failed message => exact ends.failed message rfl rfl
  deleted table := by
    rw [Run.settle_fates, (Run.settle_counts write answer table).1, List.filterMap_append, doneFate_fate]
    simp only [Run.after, h.deleted, List.countP_append]
    cases answer.succeeded <;> simp [List.countP_cons]
  restored table := by
    rw [Run.settle_fates, (Run.settle_counts write answer table).2, List.filterMap_append, doneFate_fate]
    simp only [Run.after, h.restored, List.countP_append]
    cases answer.succeeded <;> simp [List.countP_cons]
  unknown table := by
    rw [Run.settle_fates, (Run.settle_unknown write answer table).1, List.filterMap_append,
      unknownFate_fate]
    simp only [Run.after, h.unknown, idsOf_append]
    cases answer.isUnknown <;> simp [eq_comm]
  skipped table := by
    rw [Run.settle_fates, Run.settle_skipped, List.filterMap_append, skippedPut_fate,
      List.append_nil]
    exact h.skipped table

theorem Accounts.skip (h : Accounts planned run) (known : KnowsUnknown run)
    (listed : write.id ∈ run.unknownWrites write.table)
    : Accounts (planned ++ [write]) (run.perform api write) := by
  have shown : FateShown run.sent (write, .notAttempted) := by
    rw [known, idsOf, List.mem_map] at listed
    obtain ⟨other, member, same⟩ := listed
    obtain ⟨inside, table⟩ := List.mem_filter.mp member
    exact ⟨other, inside, by simpa using table, same⟩
  have everyShown : ∀ fate ∈ run.fates ++ [(write, .notAttempted)], FateShown run.sent fate := by
    intro fate member
    rcases List.mem_append.mp member with before | here
    · exact h.shown fate before
    · exact List.mem_singleton.mp here ▸ shown
  unfold Run.perform
  rw [if_pos listed]
  cases verb : write.verb with
  | delete =>
    refine ⟨by simp [Run.note, h.fates], ?_, ?_, everyShown, ?_, ?_, ?_, ?_⟩
    all_goals simp [Run.note, doneFate, unknownFate_notAttempted, skippedPut, verb, h.done,
      h.unknownSent, h.deleted, h.restored, h.unknown, h.skipped]
  | put =>
    refine ⟨by simp [Run.note, Run.addSkipped, h.fates], ?_, ?_, everyShown, ?_, ?_, ?_, ?_⟩
    case refine_6 =>
      intro table
      by_cases same : table = write.table
      · subst same
        simp [Run.note, Run.addSkipped, skippedPut, verb, h.skipped]
      · simp [Run.note, Run.addSkipped, skippedPut, verb, h.skipped, same]
    all_goals simp [Run.note, Run.addSkipped, doneFate, unknownFate_notAttempted, h.done,
      h.unknownSent, h.deleted, h.restored, h.unknown]

-- The loops

def NoWriteAfterUnknown (sent : List Exchange) : Prop :=
  sent.Pairwise fun earlier later =>
    ∀ first ∈ unknownWrite earlier, ∀ second answer, later = (.write second, answer)
      → ¬ (first.table = second.table ∧ first.id = second.id)

/-- What holds between two writes of a run. -/
structure LoopInvariant (planned : List Write) (run : Run) : Prop where
  accounts : Accounts planned run
  errors : WriteErrors run
  known : KnowsUnknown run
  final : NoWriteAfterUnknown run.sent

theorem NoWriteAfterUnknown.send {sent first : List Exchange} {write : Write} {answer : Answer}
    (h : NoWriteAfterUnknown sent)
    (fresh : write.id ∉ idsOf write.table (sent.filterMap unknownWrite))
    (retried : ∀ exchange ∈ first,
      exchange.1 = .write write ∧ exchange.2.isProviderTimeoutRefusal = true)
    : NoWriteAfterUnknown (sent ++ (first ++ [(.write write, answer)])) := by
  obtain ⟨-, noUnknown⟩ := okWrite_retried retried
  have settled : ∀ exchange ∈ first, unknownWrite exchange = none :=
    List.filterMap_eq_nil_iff.mp noUnknown
  have own : ∀ exchange ∈ first ++ [(.write write, answer)], exchange.1 = .write write := by
    intro exchange member
    rcases List.mem_append.mp member with early | last
    · exact (retried exchange early).1
    · rw [List.mem_singleton.mp last]
  refine List.pairwise_append.mpr ⟨h, ?_, ?_⟩
  · refine List.pairwise_append.mpr ⟨?_, List.pairwise_singleton _ _, ?_⟩
    · refine List.pairwise_of_forall_mem_list ?_
      intro earlier member later _ write' unknown
      rw [settled earlier member] at unknown
      cases unknown
    · intro earlier member later _ write' unknown
      rw [settled earlier member] at unknown
      cases unknown
  · intro earlier before later member write' unknown second answer' is
    have same : second = write := by
      have named := own later member
      rw [is] at named
      exact Request.write.inj named
    rintro ⟨table, id⟩
    apply fresh
    rw [same] at table id
    rw [idsOf, List.mem_map]
    refine ⟨write', List.mem_filter.mpr ⟨?_, by simpa using table⟩, id⟩
    exact List.mem_filterMap.mpr ⟨earlier, before, unknown⟩

theorem LoopInvariant.perform (h : LoopInvariant planned run) (write : Write)
    : LoopInvariant (planned ++ [write]) (run.perform api write) := by
  by_cases listed : write.id ∈ run.unknownWrites write.table
  · have accounts : Accounts (planned ++ [write]) (run.perform api write) :=
      h.accounts.skip h.known listed
    have errors : run.report.errors = run.fates.filterMap errorText := h.errors
    refine ⟨accounts, ?_, ?_, ?_⟩
    all_goals
      unfold Run.perform
      rw [if_pos listed]
    · cases write.verb <;> simp [WriteErrors, Run.note, Run.addSkipped, errors, errorText]
    · cases write.verb <;> exact h.known
    · cases write.verb <;> exact h.final
  · have sentBy (extra : List Exchange) (retried : Table → List String) (answer : Answer)
        (ends : EndsAs run.sent extra write answer)
        (final : NoWriteAfterUnknown (run.sent ++ extra))
        : LoopInvariant (planned ++ [write]) ((run.after extra retried).settle write answer) := by
      refine ⟨h.accounts.settle ends retried, ?_, ?_, ?_⟩
      · rw [WriteErrors, Run.settle_errors, Run.settle_fates]
        have errors : run.report.errors = run.fates.filterMap errorText := h.errors
        simp only [Run.after, List.filterMap_append, errors]
        cases answer <;> rfl
      · intro table
        rw [(Run.settle_unknown write answer table).2, Run.settle_sent]
        simp only [Run.after, List.filterMap_append, ends.unknown, idsOf_append, ← h.known table]
        cases answer.isUnknown <;> simp [eq_comm]
      · rw [Run.settle_sent]
        exact final
    unfold Run.perform
    rw [if_neg listed]
    cases refusal : encodeRecordIdRefusal write.id with
    | some message =>
      have ends : EndsAs run.sent [] write (.failed message) := by
        refine ⟨rfl, rfl, ?_⟩
        intro text error _
        exact .inl (refusal.trans error)
      have settled := sentBy [] run.report.retried (.failed message) ends
        (by simpa using h.final)
      simpa [Run.after] using settled
    | none =>
      obtain ⟨retried, first, refused, attempted⟩ := @attempt_sent api run write
      have ends : EndsAs run.sent
          (first ++ [(.write write, (run.attempt api write).1)]) write
          (run.attempt api write).1 :=
        .of_answer refused
      have settled := sentBy _ retried _ ends
        (h.final.send (h.known write.table ▸ listed) refused)
      dsimp only
      rw [attempted]
      simpa [Run.after] using settled

theorem LoopInvariant.performAll {before planned : List Write} (h : LoopInvariant before run)
    : LoopInvariant (before ++ planned) (planned.foldl (Run.perform api) run) := by
  induction planned generalizing before run with
  | nil => simpa using h
  | cons write rest ih => simpa using ih (h.perform write)

-- The whole run

def Reads (exchanges : List Exchange) : Prop :=
  ∀ exchange ∈ exchanges, ∀ write, exchange.1 ≠ .write write

theorem Reads.none {exchanges : List Exchange} (h : Reads exchanges)
    : exchanges.filterMap okWrite = [] ∧ exchanges.filterMap unknownWrite = [] := by
  constructor
  all_goals
    rw [List.filterMap_eq_nil_iff]
    rintro ⟨request, answer⟩ member
    cases request with
    | write write => exact absurd rfl (h _ member write)
    | _ => rfl

theorem NoWriteAfterUnknown.reads {more : List Exchange} (h : NoWriteAfterUnknown sent)
    (reads : Reads more)
    : NoWriteAfterUnknown (sent ++ more) := by
  refine List.pairwise_append.mpr ⟨h, ?_, ?_⟩
  · refine List.pairwise_of_forall_mem_list ?_
    intro earlier _ later member first _ second answer is
    exact absurd (congrArg Prod.fst is) (reads later member second)
  · intro earlier _ later member first _ second answer is
    exact absurd (congrArg Prod.fst is) (reads later member second)

theorem reads_of_writesSent (none : run.writesSent = []) : Reads run.sent := by
  intro exchange member write is
  have found := List.filterMap_eq_nil_iff.mp none exchange member
  rw [is] at found
  cases found

theorem noWriteAfterUnknown_of_writesSent (none : run.writesSent = [])
    : NoWriteAfterUnknown run.sent := by
  have reads : Reads run.sent := reads_of_writesSent none
  have start : NoWriteAfterUnknown [] := List.Pairwise.nil
  simpa using start.reads reads

def listing (api : Api) (agentId : String) (table : Table) (sent : List Exchange) : Exchange :=
  (.list table agentId, api sent (.list table agentId))

theorem listRows_sent (agentId : String) (table : Table)
    : (listRows api agentId table run).2
        = { run with sent := run.sent ++ [listing api agentId table run.sent] }
      ∧ ∀ body, (listRows api agentId table run).1 = .ok body
        → listing api agentId table run.sent = (.list table agentId, .ok body) := by
  unfold listRows listing
  dsimp only [Run.send]
  cases answered : api run.sent (.list table agentId) with
  | ok body =>
    refine ⟨rfl, ?_⟩
    intro other same
    rw [Except.ok.inj same]
  | _ => exact ⟨rfl, fun body same => nomatch same⟩

theorem reads_listings (api : Api) (agentId : String) (first second : List Exchange)
    : Reads [listing api agentId .memory first, listing api agentId .soul second] := by
  simp [Reads, listing]

@[simp] theorem mem_distinct {ids : List String} {id : String} : id ∈ distinct ids ↔ id ∈ ids := by
  simp [distinct]

def SameIds (numberText : Rat → String) (rows listed : List Value) : Prop :=
  ∃ expected actual, rowIds numberText rows = some expected
    ∧ rowIds numberText listed = some actual ∧ ∀ id, id ∈ actual ↔ id ∈ expected

/-- The verification's two listings hold exactly the plan's ids. -/
def ListingMatches (agentId : String) (numberText : Rat → String) (plan : Plan)
    (more : List Exchange)
    : Prop :=
  ∃ memories souls,
    more = [(.list .memory agentId, .ok memories), (.list .soul agentId, .ok souls)]
      ∧ SameIds numberText plan.memories (asArray memories)
      ∧ SameIds numberText plan.souls (asArray souls)

theorem verifyErrors_nil {verified : Verified} (h : verifyErrors verified = [])
    : ∀ table, table ≠ .candidate
      → verified.missingIds table = [] ∧ verified.extraIds table = [] := by
  have each (ids : List String) (what : String) (none : verifyError ids what = none)
      : ids = [] := by
    by_contra some_
    simp [verifyError, some_] at none
  simp only [verifyErrors, List.reduceOption, List.filterMap_eq_nil_iff, List.mem_cons,
    List.not_mem_nil, or_false, id_eq, forall_eq_or_imp, forall_eq] at h
  obtain ⟨missingMem, missingSouls, extraMem, extraSouls⟩ := h
  intro table other
  cases table with
  | memory => exact ⟨each _ _ missingMem, each _ _ extraMem⟩
  | soul => exact ⟨each _ _ missingSouls, each _ _ extraSouls⟩
  | candidate => exact absurd rfl other

theorem compareIds_same {unknown expected actual : Table → List String} (table : Table)
    (settled : unknown table = [])
    (missing : (compareIds unknown expected actual).missingIds table = [])
    (extra : (compareIds unknown expected actual).extraIds table = [])
    (id : String)
    : id ∈ actual table ↔ id ∈ expected table := by
  simp only [compareIds, List.filter_eq_nil_iff, mem_distinct, settled] at missing extra
  constructor
  · intro read
    simpa using extra id read
  · intro held
    simpa using missing id held

/-- The verification only reads and adds errors; it adds none only when both listings are read
and hold the plan's ids.
-/
theorem verify_spec (agentId : String) (plan : Plan)
    : ∃ more errors verified, Reads more
        ∧ verify api agentId numberText plan run = { run with
            sent := run.sent ++ more
            report := { run.report with verified, errors := run.report.errors ++ errors } }
        ∧ (errors = [] → run.report.unknown .memory = [] → run.report.unknown .soul = []
          → ListingMatches agentId numberText plan more) := by
  obtain ⟨memoryRun, memoryAnswer⟩ := @listRows_sent api run agentId .memory
  obtain ⟨soulRun, soulAnswer⟩ := @listRows_sent api
    (listRows api agentId .memory run).2 agentId .soul
  have reads := reads_listings api agentId run.sent
    (run.sent ++ [listing api agentId .memory run.sent])
  rw [memoryRun] at soulRun soulAnswer
  unfold verify
  dsimp only
  rw [memoryRun]
  split
  · refine ⟨[listing api agentId .memory run.sent], [_], run.report.verified, ?_, rfl, by simp⟩
    simp [Reads, listing]
  rename_i memories read
  rw [soulRun]
  split
  · exact ⟨_, [_], run.report.verified, reads, by rw [List.append_assoc]; rfl, by simp⟩
  rename_i souls readSouls
  split
  · rename_i expectedMem expectedSouls actualMem actualSouls memText soulText listedMem
      listedSouls
    refine ⟨_, _, some _, reads, by rw [List.append_assoc]; rfl, ?_⟩
    intro none noMemory noSoul
    have found := verifyErrors_nil none
    refine ⟨memories, souls, ?_, ⟨expectedMem, actualMem, memText, listedMem, ?_⟩,
      ⟨expectedSouls, actualSouls, soulText, listedSouls, ?_⟩⟩
    · exact congrArg₂ (fun first second => [first, second]) (memoryAnswer memories read)
        (soulAnswer souls readSouls)
    · exact compareIds_same .memory noMemory (found .memory nofun).1
        (found .memory nofun).2
    · exact compareIds_same .soul noSoul (found .soul nofun).1
        (found .soul nofun).2
  · exact ⟨_, [_], run.report.verified, reads, by rw [List.append_assoc]; rfl, by simp⟩

/-- The writes a live run goes on to: none, when it stops before them. -/
def plannedOf (api : Api) (opts : RestoreOpts) (around : Surroundings) : Option Plan :=
  match readArchive opts around with
  | some (.ok extracted) =>
    if opts.dryRun then none else (prepare api opts around extracted {}).1
  | _ => none

def planWrites (numberText : Rat → String) : Option Plan → List Write
  | none => []
  | some plan => plan.writes numberText

/-- A completed run did every planned write, and its verification, when not turned off, read
exactly the snapshot's ids.
-/
structure Complete (opts : RestoreOpts) (numberText : Rat → String) (plan : Option Plan)
    (run : Run)
    : Prop where
  done : ∀ fate ∈ run.fates, fate.2 = .done
  matched : opts.verifyPostRestore ≠ some false
    → ∃ planned before more, plan = some planned ∧ run.sent = before ++ more
      ∧ ListingMatches opts.agentId numberText planned more

/-- Each planned write has one fate, counted or listed; the errors begin with the failed ones;
and a completed run is complete.
-/
def ReportExact (opts : RestoreOpts) (numberText : Rat → String) (plan : Option Plan) (run : Run)
    : Prop :=
  Accounts (planWrites numberText plan) run
  ∧ (∃ others, run.report.errors = run.fates.filterMap errorText ++ others)
  ∧ (run.report.status = .completed → Complete opts numberText plan run)

theorem conclude_completed {run : Run} (h : (conclude run).report.status = .completed)
    : run.report.errors = [] ∧ ∀ table, run.report.unknown table = [] := by
  simp only [conclude] at h
  split at h
  · cases h
  rename_i settled
  split at h
  · cases h
  rename_i none
  simp only [not_or, not_not] at settled none
  obtain ⟨memory, soul, candidate⟩ := settled
  refine ⟨none, ?_⟩
  rintro (_ | _ | _)
  · exact memory
  · exact soul
  · exact candidate

theorem Accounts.all_done (h : Accounts planned run) (errors : run.fates.filterMap errorText = [])
    (settled : ∀ table, run.report.unknown table = [])
    : ∀ fate ∈ run.fates, fate.2 = .done := by
  have noUnknown : run.fates.filterMap unknownFate = [] := by
    rw [List.eq_nil_iff_forall_not_mem]
    intro write member
    have listed := settled write.table
    rw [h.unknown, idsOf, List.map_eq_nil_iff, List.filter_eq_nil_iff] at listed
    exact listed write member (by simp)
  rintro ⟨write, fate⟩ member
  cases fate with
  | done => rfl
  | failed message =>
    have found := List.filterMap_eq_nil_iff.mp errors _ member
    cases found
  | unknown =>
    have found := List.filterMap_eq_nil_iff.mp noUnknown _ member
    cases found
  | notAttempted =>
    obtain ⟨other, inside, -⟩ := h.shown _ member
    rw [← h.unknownSent, noUnknown] at inside
    cases inside

theorem Accounts.reads (h : Accounts planned run) {more : List Exchange} (reads : Reads more)
    (report : Report)
    (same : report.deleted = run.report.deleted ∧ report.restored = run.report.restored
      ∧ report.unknown = run.report.unknown
      ∧ report.skippedAfterUnknownDelete = run.report.skippedAfterUnknownDelete)
    : Accounts planned { run with sent := run.sent ++ more, report } := by
  obtain ⟨noOk, noUnknown⟩ := reads.none
  obtain ⟨deleted, restored, unknown, skipped⟩ := same
  refine ⟨h.fates, ?_, ?_, fun fate member => (h.shown fate member).more more, ?_, ?_, ?_, ?_⟩
  · simp [noOk, h.done]
  · simp [noUnknown, h.unknownSent]
  · exact deleted ▸ h.deleted
  · exact restored ▸ h.restored
  · exact unknown ▸ h.unknown
  · exact skipped ▸ h.skipped

variable {opts : RestoreOpts} {around : Surroundings} {extracted : Extracted}

theorem loopInvariant_start {plan : Plan}
    (prepared : prepare api opts around extracted {} = (some plan, run))
    : LoopInvariant [] run := by
  obtain ⟨-, -, unknownWrites, fates, path, report⟩ := prepare_some prepared
  have sent : run.writesSent = [] := by
    have started := @prepare_writesSent api {} opts around extracted
    rw [prepared] at started
    exact started
  have reads : Reads run.sent := reads_of_writesSent sent
  obtain ⟨noOk, noUnknown⟩ := reads.none
  refine ⟨?_, ?_, ?_, noWriteAfterUnknown_of_writesSent sent⟩
  · constructor <;> simp [fates, report, noOk, noUnknown]
  · simp [WriteErrors, fates, report]
  · intro table
    simp [unknownWrites, noUnknown]

structure SameCounts (before after : Run) : Prop where
  fates : after.fates = before.fates
  deleted : after.report.deleted = before.report.deleted
  restored : after.report.restored = before.report.restored
  unknown : after.report.unknown = before.report.unknown
  skipped : after.report.skippedAfterUnknownDelete = before.report.skippedAfterUnknownDelete

variable {before : Run}

theorem SameCounts.of_reads {after : Run} (h : ReadsOnly before after)
    : SameCounts before after := by
  constructor <;> simp [h.fates, h.report]

theorem SameCounts.fail {after : Run} (h : SameCounts before after) (message : String)
    : SameCounts before (after.fail message) :=
  ⟨h.fates, h.deleted, h.restored, h.unknown, h.skipped⟩

theorem SameCounts.trans {first second third : Run} (h : SameCounts first second)
    (more : SameCounts second third)
    : SameCounts first third :=
  ⟨more.fates.trans h.fates, more.deleted.trans h.deleted, more.restored.trans h.restored,
    more.unknown.trans h.unknown, more.skipped.trans h.skipped⟩

theorem SameCounts.failAll {after : Run} (h : SameCounts before after) (texts : List String)
    (message : String → String)
    : SameCounts before (texts.foldl (fun run id => run.fail (message id)) after) := by
  induction texts generalizing after with
  | nil => exact h
  | cons id rest ih => exact ih (h.fail (message id))

theorem failAll_failed (texts : List String) (message : String → String)
    (h : texts ≠ [] ∨ run.report.status = .failed)
    : (texts.foldl (fun run id => run.fail (message id)) run).report.status = .failed := by
  induction texts generalizing run with
  | nil => exact h.resolve_left (· rfl)
  | cons id rest ih => exact ih (.inr rfl)

theorem prepare_none {after : Run}
    (prepared : prepare api opts around extracted run = (none, after))
    : SameCounts run after ∧ (after.rejected = true ∨ after.report.status = .failed) := by
  have memories := @ReadsOnly.listRows api run opts.agentId .memory
  have souls := memories.trans (@ReadsOnly.listRows api
    (listLive api opts.agentId .memory run).2 opts.agentId .soul)
  unfold prepare at prepared
  dsimp only at prepared
  split at prepared
  · rw [← (Prod.mk.inj prepared).2]
    exact ⟨(SameCounts.of_reads memories).fail _, .inr rfl⟩
  split at prepared
  · rw [← (Prod.mk.inj prepared).2]
    exact ⟨(SameCounts.of_reads souls).fail _, .inr rfl⟩
  split at prepared
  · rw [← (Prod.mk.inj prepared).2]
    exact ⟨(SameCounts.of_reads souls).fail _, .inr rfl⟩
  rename_i path _
  have noted : SameCounts run ((listLive api opts.agentId .soul
      (listLive api opts.agentId .memory run).2).2.notePreRestore path) := by
    have same := SameCounts.of_reads souls
    exact ⟨same.fates, same.deleted, same.restored, same.unknown, same.skipped⟩
  split at prepared
  · split at prepared
    · rename_i inSnapshot inLive _ _ nonempty
      rw [← (Prod.mk.inj prepared).2]
      refine ⟨noted.failAll _ _, .inr (failAll_failed _ _ (.inl ?_))⟩
      obtain ⟨id, member⟩ := List.exists_mem_of_ne_nil _ nonempty
      apply List.ne_nil_of_mem (a := id)
      simpa [or_comm] using member
    · split at prepared
      · rw [← (Prod.mk.inj prepared).2]
        have pages := SameCounts.of_reads (@ReadsOnly.candidatePages api
          ((listLive api opts.agentId .soul
            (listLive api opts.agentId .memory run).2).2.notePreRestore path)
          opts.agentId candidateListMaxPages [] none)
        exact ⟨(noted.trans pages).fail _, .inr rfl⟩
      · cases prepared
  · rw [← (Prod.mk.inj prepared).2]
    exact ⟨⟨noted.fates, noted.deleted, noted.restored, noted.unknown, noted.skipped⟩,
      .inl rfl⟩

theorem accounts_of_counts {run : Run} (h : SameCounts {} run) (none : run.writesSent = [])
    : Accounts [] run := by
  have reads : Reads run.sent := reads_of_writesSent none
  obtain ⟨noOk, noUnknown⟩ := reads.none
  constructor
  all_goals simp [h.fates, h.deleted, h.restored, h.unknown, h.skipped, noOk, noUnknown]

theorem live_run {plan : Plan} (read : readArchive opts around = some (.ok extracted))
    (live : opts.dryRun = false)
    (prepared : prepare api opts around extracted {} = (some plan, run))
    : NoWriteAfterUnknown (applySnapshot api opts around).sent
      ∧ ((applySnapshot api opts around).rejected = false
        → ReportExact opts around.numberText (some plan) (applySnapshot api opts around)) := by
  obtain ⟨-, open_, -⟩ := prepare_some prepared
  have loops := @LoopInvariant.performAll api run [] (plan.writes around.numberText)
    (loopInvariant_start prepared)
  have replayed := @replay_eq api around.numberText run plan open_
  simp only [applySnapshot, read, live, prepared, Bool.false_eq_true, if_false]
  generalize replay api around.numberText plan run = after at replayed
  generalize (plan.writes around.numberText).foldl (Run.perform api) run = performed at *
  subst replayed
  have accounts : Accounts (plan.writes around.numberText)
      { performed with rejected := rejects around.numberText plan.rows } := by
    have := loops.accounts
    exact ⟨this.fates, this.done, this.unknownSent, this.shown, this.deleted, this.restored,
      this.unknown, this.skipped⟩
  have errors : performed.report.errors = performed.fates.filterMap errorText := loops.errors
  split
  · rename_i rejected
    exact ⟨loops.final, fun open_ => by cases rejected.symm.trans open_⟩
  split
  · rename_i unverified
    refine ⟨loops.final, fun _ => ⟨?_, ⟨[], by simp [conclude, errors]⟩, ?_⟩⟩
    · exact ⟨accounts.fates, accounts.done, accounts.unknownSent, accounts.shown,
        accounts.deleted, accounts.restored, accounts.unknown, accounts.skipped⟩
    intro completed
    obtain ⟨none, settled⟩ := conclude_completed completed
    refine ⟨accounts.all_done (errors.symm.trans none) settled, ?_⟩
    exact fun on => absurd unverified on
  · obtain ⟨more, found, verified, reads, ends, matched⟩ :=
      @verify_spec api around.numberText
        { performed with rejected := rejects around.numberText plan.rows }
        opts.agentId plan
    rw [ends]
    have accounted := accounts.reads reads
      { performed.report with verified, errors := performed.report.errors ++ found }
      ⟨rfl, rfl, rfl, rfl⟩
    refine ⟨loops.final.reads reads, fun _ => ⟨?_, ⟨found, by simp [conclude, errors]⟩, ?_⟩⟩
    · exact ⟨accounted.fates, accounted.done, accounted.unknownSent, accounted.shown,
        accounted.deleted, accounted.restored, accounted.unknown, accounted.skipped⟩
    intro completed
    obtain ⟨none, settled⟩ := conclude_completed completed
    obtain ⟨noErrors, noFound⟩ := List.append_eq_nil_iff.mp none
    refine ⟨accounts.all_done (errors.symm.trans noErrors) settled, ?_⟩
    intro _
    exact ⟨plan, _, more, rfl, rfl, matched noFound (settled .memory) (settled .soul)⟩

/-- Over any archive, listings and answers to requests: no write follows one of its table and
id whose outcome is unknown; when the run returns a report, each planned write has one fate,
counted as done, failed or unknown or, a put not attempted, listed as skipped; and a completed
run did every planned write and, unless verification is turned off, read back exactly the
snapshot's ids.
-/
theorem report_accounts_for_writes (api : Api) (opts : RestoreOpts) (around : Surroundings)
    : NoWriteAfterUnknown (applySnapshot api opts around).sent
      ∧ ((applySnapshot api opts around).rejected = false → opts.dryRun = false
        → ReportExact opts around.numberText (plannedOf api opts around)
          (applySnapshot api opts around)) := by
  cases read : readArchive opts around with
  | none =>
    have ends : applySnapshot api opts around = { rejected := true } := by
      simp [applySnapshot, read]
    rw [ends]
    exact ⟨List.Pairwise.nil, fun open_ => by cases open_⟩
  | some archive =>
    cases archive with
    | error message =>
      have ends : applySnapshot api opts around = Run.fail {} message := by
        simp [applySnapshot, read]
      rw [ends]
      refine ⟨List.Pairwise.nil, fun _ _ => ⟨?_, ⟨[message], rfl⟩, fun done => by cases done⟩⟩
      simp only [plannedOf, read]
      exact accounts_of_counts ⟨rfl, rfl, rfl, rfl, rfl⟩ rfl
    | ok extracted =>
      cases live : opts.dryRun with
      | true =>
        have ends : applySnapshot api opts around = dryRun api opts extracted {} := by
          simp [applySnapshot, read, live]
        rw [ends]
        exact ⟨noWriteAfterUnknown_of_writesSent (dryRun_writesSent opts extracted),
          fun _ dry => by cases dry⟩
      | false =>
        cases prepared : prepare api opts around extracted {} with
        | mk found run =>
          have planned : plannedOf api opts around = found := by
            simp [plannedOf, read, live, prepared]
          have started := @prepare_writesSent api {} opts around extracted
          rw [prepared] at started
          rw [planned]
          cases found with
          | none =>
            have ends : applySnapshot api opts around = run := by
              simp [applySnapshot, read, live, prepared]
            obtain ⟨counts, stopped⟩ := prepare_none prepared
            rw [ends]
            refine ⟨noWriteAfterUnknown_of_writesSent started, fun open_ _ =>
              ⟨accounts_of_counts counts started, ⟨run.report.errors, ?_⟩, ?_⟩⟩
            · simp [counts.fates]
            intro completed
            rcases stopped with rejected | failed
            · exact absurd rejected (by simp [open_])
            · rw [failed] at completed
              cases completed
          | some plan =>
            obtain ⟨final, report⟩ := live_run read live prepared
            exact ⟨final, fun open_ _ => report open_⟩

def anasRow : Value := .obj [("agentId", .str "ana"), ("id", .str "m1")]

/-- A target that lists one row of the agent twice and leaves its deletes without an answer. -/
def repeatingTarget : Api
  | _, .list .memory _ => .ok (some (.arr [anasRow, anasRow]))
  | _, .list _ _ => .ok (some (.arr []))
  | _, .listCandidates _ _ =>
    .ok (some (.obj [("candidates", .arr []), ("hasMore", .bool false)]))
  | _, .write _ => .unknown "no response"

def keepingTarget : Api
  | _, .list .memory _ => .ok (some (.arr [anasRow]))
  | _, .list _ _ => .ok (some (.arr []))
  | _, .listCandidates _ _ =>
    .ok (some (.obj [("candidates", .arr []), ("hasMore", .bool false)]))
  | _, .write _ => .ok none

/-- Witness: a delete left without an answer, whose row is listed again. -/
theorem repeated_delete_accounted
    : (applySnapshot repeatingTarget anaRestore emptyArchive).rejected = false
      ∧ ReportExact anaRestore emptyArchive.numberText
          (plannedOf repeatingTarget anaRestore emptyArchive)
          (applySnapshot repeatingTarget anaRestore emptyArchive) :=
  ⟨rfl, (report_accounts_for_writes repeatingTarget anaRestore emptyArchive).2 rfl rfl⟩

/-- Two planned deletes of one id, the first unknown: the second is in no count and no list. And
a run without verification is completed though the target still lists a row that the snapshot
does not hold.
-/
theorem report_leaves_out
    : (planWrites emptyArchive.numberText
          (plannedOf repeatingTarget anaRestore emptyArchive)).length = 2
      ∧ (applySnapshot repeatingTarget anaRestore emptyArchive).report.deleted .memory = 0
      ∧ (applySnapshot repeatingTarget anaRestore emptyArchive).report.unknown .memory = ["m1"]
      ∧ (applySnapshot repeatingTarget anaRestore emptyArchive).report.skippedAfterUnknownDelete
          .memory = []
      ∧ (applySnapshot repeatingTarget anaRestore emptyArchive).fates.filterMap errorText = []
      ∧ (applySnapshot keepingTarget { anaRestore with verifyPostRestore := some false }
          emptyArchive).report.status = .completed
      ∧ keepingTarget [] (.list .memory "ana") = .ok (some (.arr [anasRow])) := by
  exact ⟨rfl, rfl, rfl, rfl, rfl, rfl, rfl⟩

end Flair.RemRestore
