import Flair.RemRestore.ApplySnapshot

/-! Whose rows a replay deletes and writes. The loops check no owner, so the rows of a run are
the agent's exactly when everything the listings and the archive hold is.
-/

namespace Flair.RemRestore

open Dynamic

-- The planned writes of a run

def Plan.rows (plan : Plan) : List (Verb × Table × Value) :=
  plan.currentMem.map (.delete, .memory, ·)
    ++ plan.currentSouls.map (.delete, .soul, ·)
    ++ plan.currentCandidates.map (.delete, .candidate, ·)
    ++ plan.souls.map (.put, .soul, ·)
    ++ plan.memories.map (.put, .memory, ·)

def plannedWrites (numberText : Rat → String) : List (Verb × Table × Value) → List Write
  | [] => []
  | (verb, table, row) :: rest =>
    match usableId row with
    | none => plannedWrites numberText rest
    | some raw =>
      match stringOf numberText raw with
      | none => []
      | some id => { verb, table, id, row } :: plannedWrites numberText rest

/-- Some row's id has no text, which ends the run without a report. -/
def rejects (numberText : Rat → String) (rows : List (Verb × Table × Value)) : Bool :=
  rows.any fun (_, _, row) =>
    (usableId row).any fun raw => (stringOf numberText raw).isNone

def Plan.writes (plan : Plan) (numberText : Rat → String) : List Write :=
  plannedWrites numberText plan.rows

variable {api : Api} {numberText : Rat → String} {run : Run}

namespace Run

def writeAll (api : Api) (numberText : Rat → String) (rows : List (Verb × Table × Value))
    (run : Run)
    : Run :=
  rows.foldl (fun run (verb, table, row) => run.writeRow api numberText verb table row) run

theorem writeRows_eq (verb : Verb) (table : Table) (rows : List Value)
    : run.writeRows api numberText verb table rows
      = run.writeAll api numberText (rows.map (verb, table, ·)) := by
  simp [writeRows, writeAll, List.foldl_map]

theorem writeAll_append (first second : List (Verb × Table × Value))
    : run.writeAll api numberText (first ++ second)
      = (run.writeAll api numberText first).writeAll api numberText second := by
  simp [writeAll]

@[simp] theorem settle_rejected (write : Write) (answer : Answer)
    : (run.settle write answer).rejected = run.rejected := by
  cases answer with
  | ok body => cases h : write.verb <;> simp [settle, note, countDone, h]
  | _ => rfl

@[simp] theorem attempt_rejected (write : Write)
    : (run.attempt api write).2.rejected = run.rejected := by
  unfold attempt
  dsimp only [send]
  split <;> rfl

@[simp] theorem perform_rejected (write : Write)
    : (run.perform api write).rejected = run.rejected := by
  unfold perform
  split
  · cases write.verb <;> rfl
  · split
    · exact settle_rejected write _
    · exact (settle_rejected write _).trans (attempt_rejected write)

theorem writeAll_of_rejected (rows : List (Verb × Table × Value)) (h : run.rejected = true)
    : run.writeAll api numberText rows = run := by
  induction rows with
  | nil => rfl
  | cons row rest ih =>
    have here : run.writeRow api numberText row.1 row.2.1 row.2.2 = run := by
      simp [writeRow, h]
    simpa [writeAll, here] using ih

theorem writeAll_eq (rows : List (Verb × Table × Value)) (open_ : run.rejected = false)
    : run.writeAll api numberText rows
      = { (plannedWrites numberText rows).foldl (perform api) run with
          rejected := rejects numberText rows } := by
  induction rows generalizing run with
  | nil => simp [writeAll, plannedWrites, rejects, ← open_]
  | cons first rest ih =>
    obtain ⟨verb, table, row⟩ := first
    have step : run.writeAll api numberText ((verb, table, row) :: rest)
        = (run.writeRow api numberText verb table row).writeAll api numberText rest := rfl
    rw [step, writeRow, open_, if_neg (by simp), plannedWrites]
    cases found : usableId row with
    | none =>
      simp only [rejects, List.any_cons, found, Option.any_none, Bool.false_or]
      exact ih open_
    | some raw =>
      cases text : stringOf numberText raw with
      | none =>
        simp only [text]
        rw [writeAll_of_rejected rest rfl]
        simp [rejects, found, text]
      | some id =>
        simp only [text, List.foldl_cons]
        rw [ih ((perform_rejected _).trans open_)]
        simp [rejects, found, text]

end Run

theorem replay_eq (plan : Plan) (open_ : run.rejected = false)
    : replay api numberText plan run
      = { (plan.writes numberText).foldl (Run.perform api) run with
          rejected := rejects numberText plan.rows } := by
  rw [Plan.writes, ← Run.writeAll_eq plan.rows open_]
  simp only [replay, Run.writeRows_eq, Plan.rows, Run.writeAll_append]

-- What a run sends

@[simp] def Run.writesSent (run : Run) : List Write :=
  run.sent.filterMap fun exchange =>
    match exchange.1 with
    | .write write => some write
    | _ => none

namespace Run

@[simp] theorem settle_sent (write : Write) (answer : Answer)
    : (run.settle write answer).sent = run.sent := by
  cases answer with
  | ok body => cases h : write.verb <;> simp [settle, note, countDone, h]
  | _ => rfl

@[simp] theorem settle_writesSent (write : Write) (answer : Answer)
    : (run.settle write answer).writesSent = run.writesSent := by
  rw [writesSent, settle_sent, writesSent]

theorem attempt_writesSent (write : Write)
    : ∃ more, (run.attempt api write).2.writesSent = run.writesSent ++ write :: more
        ∧ ∀ other ∈ more, other = write := by
  unfold attempt
  dsimp only [send]
  split
  · exact ⟨[write], by simp [writesSent, addRetried], by simp⟩
  · exact ⟨[], by simp [writesSent], by simp⟩

theorem perform_writesSent {write other : Write}
    (sent : other ∈ (run.perform api write).writesSent)
    : other ∈ run.writesSent ∨ other = write ∧ encodeRecordIdRefusal write.id = none := by
  unfold perform at sent
  split at sent
  · refine .inl ?_
    cases h : write.verb <;> simpa [h, writesSent, note, addSkipped] using sent
  split at sent
  · exact .inl (by simpa [writesSent] using sent)
  rename_i addressed
  obtain ⟨more, appended, same⟩ := @attempt_writesSent api run write
  have inside : other ∈ (run.attempt api write).2.writesSent := by
    simpa [writesSent] using sent
  rw [appended] at inside
  rcases List.mem_append.mp inside with before | later
  · exact .inl before
  · rcases List.mem_cons.mp later with rfl | again
    · exact .inr ⟨rfl, addressed⟩
    · exact .inr ⟨same other again, addressed⟩

theorem performAll_writesSent {writes : List Write} {other : Write}
    (sent : other ∈ (writes.foldl (perform api) run).writesSent)
    : other ∈ run.writesSent ∨ other ∈ writes ∧ encodeRecordIdRefusal other.id = none := by
  induction writes generalizing run with
  | nil => exact .inl sent
  | cons write rest ih =>
    rcases ih sent with before | ⟨later, addressed⟩
    · rcases perform_writesSent before with earlier | ⟨rfl, addressed⟩
      · exact .inl earlier
      · exact .inr ⟨List.mem_cons_self, addressed⟩
    · exact .inr ⟨List.mem_cons_of_mem _ later, addressed⟩

@[simp] theorem send_list_writesSent (table : Table) (agentId : String)
    : (run.send api (.list table agentId)).2.writesSent = run.writesSent := by
  simp [send, writesSent]

@[simp] theorem send_listCandidates_writesSent (agentId : String) (after : Option String)
    : (run.send api (.listCandidates agentId after)).2.writesSent = run.writesSent := by
  simp [send, writesSent]

end Run

@[simp] theorem listRows_writesSent (agentId : String) (table : Table)
    : (listRows api agentId table run).2.writesSent = run.writesSent := by
  unfold listRows
  dsimp only
  split <;> exact Run.send_list_writesSent table agentId

@[simp] theorem listLive_writesSent (agentId : String) (table : Table)
    : (listLive api agentId table run).2.writesSent = run.writesSent :=
  listRows_writesSent agentId table

@[simp] theorem candidatePages_writesSent (agentId : String) (left : Nat) (listed : List String)
    (after : Option String)
    : (candidatePages api agentId left listed after run).2.writesSent = run.writesSent := by
  induction left generalizing listed after run with
  | zero => rfl
  | succ left ih =>
    have sent := @Run.send_listCandidates_writesSent api run agentId after
    unfold candidatePages
    dsimp only
    split
    · exact sent
    · exact sent
    · exact sent
    split
    · exact sent
    split
    · exact sent
    split
    · exact sent
    · split
      · exact sent
      · exact ih _ _ |>.trans sent

@[simp] theorem listAgentCandidates_writesSent (agentId : String)
    : (listAgentCandidates api agentId run).2.writesSent = run.writesSent :=
  candidatePages_writesSent agentId _ _ _

/-- A run of reads keeps the flag and the unknown ids it started with. -/
structure ReadsOnly (before after : Run) : Prop where
  rejected : after.rejected = before.rejected
  unknownWrites : after.unknownWrites = before.unknownWrites
  fates : after.fates = before.fates
  report : after.report = before.report

theorem ReadsOnly.trans {first second third : Run} (h : ReadsOnly first second)
    (more : ReadsOnly second third)
    : ReadsOnly first third :=
  ⟨more.rejected.trans h.rejected, more.unknownWrites.trans h.unknownWrites,
    more.fates.trans h.fates, more.report.trans h.report⟩

theorem ReadsOnly.send (request : Request) : ReadsOnly run (run.send api request).2 :=
  ⟨rfl, rfl, rfl, rfl⟩

theorem ReadsOnly.listRows (agentId : String) (table : Table)
    : ReadsOnly run (listRows api agentId table run).2 := by
  unfold RemRestore.listRows
  dsimp only
  split <;> exact .send _

theorem ReadsOnly.candidatePages (agentId : String) (left : Nat) (listed : List String)
    (after : Option String)
    : ReadsOnly run (candidatePages api agentId left listed after run).2 := by
  induction left generalizing listed after run with
  | zero => exact ⟨rfl, rfl, rfl, rfl⟩
  | succ left ih =>
    have sent := @ReadsOnly.send api run (.listCandidates agentId after)
    unfold RemRestore.candidatePages
    dsimp only
    split
    · exact sent
    · exact sent
    · exact sent
    split
    · exact sent
    split
    · exact sent
    split
    · exact sent
    · split
      · exact sent
      · exact sent.trans (ih _ _)

theorem prepare_some {opts : RestoreOpts} {around : Surroundings} {extracted : Extracted}
    {plan : Plan} {after : Run}
    (prepared : prepare api opts around extracted run = (some plan, after))
    : (plan.memories = extracted.memories ∧ plan.souls = extracted.souls)
      ∧ after.rejected = run.rejected ∧ after.unknownWrites = run.unknownWrites
      ∧ after.fates = run.fates
      ∧ ∃ path, after.report = { run.report with preRestoreSnapshotPath := some path } := by
  have memories := @ReadsOnly.listRows api run opts.agentId .memory
  have souls := memories.trans (@ReadsOnly.listRows api
    (listLive api opts.agentId .memory run).2 opts.agentId .soul)
  unfold prepare at prepared
  dsimp only at prepared
  split at prepared
  · cases prepared
  split at prepared
  · cases prepared
  split at prepared
  · cases prepared
  rename_i path _
  split at prepared
  · split at prepared
    · cases prepared
    split at prepared
    · cases prepared
    have pages := @ReadsOnly.candidatePages api
      ((listLive api opts.agentId .soul
        (listLive api opts.agentId .memory run).2).2.notePreRestore path)
      opts.agentId candidateListMaxPages [] none
    obtain ⟨planned, rfl⟩ := Prod.mk.inj prepared
    refine ⟨Option.some.inj planned ▸ ⟨rfl, rfl⟩, pages.rejected.trans souls.rejected,
      pages.unknownWrites.trans souls.unknownWrites, pages.fates.trans souls.fates,
      path, pages.report.trans ?_⟩
    rw [← souls.report]
    rfl
  · cases prepared

theorem failAll_writesSent (texts : List String) (message : String → String)
    : (texts.foldl (fun run id => run.fail (message id)) run).writesSent = run.writesSent := by
  induction texts generalizing run with
  | nil => rfl
  | cons id rest ih => exact ih

@[simp] theorem prepare_writesSent (opts : RestoreOpts) (around : Surroundings)
    (extracted : Extracted)
    : (prepare api opts around extracted run).2.writesSent = run.writesSent := by
  have memories := @listLive_writesSent api run opts.agentId .memory
  have souls := @listLive_writesSent api
    (listLive api opts.agentId .memory run).2 opts.agentId .soul
  unfold prepare
  dsimp only
  split
  · exact memories
  split
  · exact souls.trans memories
  split
  · exact souls.trans memories
  split
  · split
    · exact (failAll_writesSent _ _).trans (souls.trans memories)
    · split
      · exact (listAgentCandidates_writesSent _).trans (souls.trans memories)
      · exact (listAgentCandidates_writesSent _).trans (souls.trans memories)
  · exact souls.trans memories

@[simp] theorem dryRun_writesSent (opts : RestoreOpts) (extracted : Extracted)
    : (dryRun api opts extracted run).writesSent = run.writesSent := by
  have memories := @listRows_writesSent api run opts.agentId .memory
  have souls := (@listRows_writesSent api
    (listRows api opts.agentId .memory run).2 opts.agentId .soul).trans memories
  unfold dryRun
  dsimp only
  split
  · exact memories
  split
  · exact souls
  by_cases unlisted : opts.listCandidates = some false
  · rw [if_pos unlisted]
    exact souls
  · rw [if_neg unlisted]
    split <;> exact (listAgentCandidates_writesSent _).trans souls

@[simp] theorem verify_writesSent (agentId : String) (plan : Plan)
    : (verify api agentId numberText plan run).writesSent = run.writesSent := by
  have memories := @listRows_writesSent api run agentId .memory
  have souls := (@listRows_writesSent api
    (listRows api agentId .memory run).2 agentId .soul).trans memories
  unfold verify
  dsimp only
  split
  · exact memories
  · split
    · exact souls
    · split <;> exact souls

theorem applySnapshot_writesSent {opts : RestoreOpts} {around : Surroundings}
    {extracted : Extracted} {plan : Plan} (live : opts.dryRun = false)
    (read : readArchive opts around = some (.ok extracted))
    (prepared : prepare api opts around extracted {} = (some plan, run))
    : (applySnapshot api opts around).writesSent
      = (replay api around.numberText plan run).writesSent := by
  simp only [applySnapshot, read, live, prepared, Bool.false_eq_true, if_false]
  split
  · rfl
  · split
    · rfl
    · exact verify_writesSent opts.agentId plan

-- Ownership

/-- The row of a write belongs to the agent: a `Memory` or `Soul` row by its `agentId`, a
candidate, listed by its id alone, by that of the stored row.
-/
def Owned (agentId : String) (candidateAgent : String → Option Value) (write : Write) : Prop :=
  match write.table with
  | .candidate => candidateAgent write.id = some (.str agentId)
  | _ => write.row.member "agentId" = some (.str agentId)

def withWrites (reads : Api) (writes : List Exchange → Write → Answer) : Api :=
  fun sent request =>
    match request with
    | .write write => writes sent write
    | _ => reads sent request

def OwnPlan (reads : Api) (opts : RestoreOpts) (around : Surroundings)
    (candidateAgent : String → Option Value)
    : Prop :=
  ∀ extracted plan run, opts.dryRun = false → readArchive opts around = some (.ok extracted)
    → prepare reads opts around extracted {} = (some plan, run)
    → ∀ write ∈ plan.writes around.numberText, encodeRecordIdRefusal write.id = none
      → Owned opts.agentId candidateAgent write

section
variable {reads : Api} {writes : List Exchange → Write → Answer}

theorem candidatePages_withWrites (agentId : String) (left : Nat) (listed : List String)
    (after : Option String)
    : candidatePages (withWrites reads writes) agentId left listed after run
      = candidatePages reads agentId left listed after run := by
  induction left generalizing listed after run with
  | zero => rfl
  | succ left ih =>
    unfold candidatePages
    simp only [ih]
    rfl

theorem prepare_withWrites (opts : RestoreOpts) (around : Surroundings) (extracted : Extracted)
    : prepare (withWrites reads writes) opts around extracted run
      = prepare reads opts around extracted run := by
  unfold prepare listAgentCandidates
  simp only [candidatePages_withWrites]
  rfl

def allSucceed : List Exchange → Write → Answer := fun _ _ => .ok none

theorem perform_allSucceed {write : Write} (known : run.unknownWrites = fun _ => [])
    : (run.perform (withWrites reads allSucceed) write).unknownWrites = (fun _ => [])
      ∧ (encodeRecordIdRefusal write.id = none
        → write ∈ (run.perform (withWrites reads allSucceed) write).writesSent)
      ∧ ∀ other ∈ run.writesSent,
        other ∈ (run.perform (withWrites reads allSucceed) write).writesSent := by
  have answered : run.attempt (withWrites reads allSucceed) write
      = (.ok none, { run with sent := run.sent ++ [(.write write, .ok none)] }) := by
    simp [Run.attempt, Run.send, withWrites, allSucceed, Answer.isProviderTimeoutRefusal]
  unfold Run.perform
  rw [known, if_neg (by simp)]
  cases encodeRecordIdRefusal write.id with
  | some message => simp [Run.settle, Run.note, Run.addError, known]
  | none =>
    rw [answered]
    refine ⟨?_, ?_, ?_⟩
    · cases h : write.verb <;> simp [Run.settle, Run.note, Run.countDone, h, known]
    · simp
    intro other before
    rw [Run.settle_writesSent]
    simp only [Run.writesSent, List.filterMap_append]
    exact List.mem_append_left _ before

theorem performAll_allSucceed {planned : List Write} (known : run.unknownWrites = fun _ => [])
    : (∀ write ∈ planned, encodeRecordIdRefusal write.id = none → write
        ∈ (planned.foldl (Run.perform (withWrites reads allSucceed)) run).writesSent)
      ∧ ∀ other ∈ run.writesSent, other
        ∈ (planned.foldl (Run.perform (withWrites reads allSucceed)) run).writesSent := by
  induction planned generalizing run with
  | nil => simp
  | cons first rest ih =>
    obtain ⟨still, here, kept⟩ := @perform_allSucceed _ reads first known
    obtain ⟨later, keeps⟩ := ih still
    refine ⟨?_, fun other before => keeps other (kept other before)⟩
    intro write member addressed
    rcases List.mem_cons.mp member with rfl | inside
    · exact keeps write (here addressed)
    · exact later write inside addressed

/-- The rows a replay deletes and puts are the agent's, however its writes are answered,
exactly when the run stops before its writes or every row with a usable id that the live
listings return and the archive holds is the agent's.
-/
theorem writes_only_own_rows_iff (reads : Api) (opts : RestoreOpts) (around : Surroundings)
    (candidateAgent : String → Option Value)
    : (∀ writes, ∀ write ∈ (applySnapshot (withWrites reads writes) opts around).writesSent,
        Owned opts.agentId candidateAgent write)
      ↔ OwnPlan reads opts around candidateAgent := by
  constructor
  · intro own extracted plan run live read prepared write planned addressed
    have known : run.unknownWrites = fun _ => [] := (prepare_some prepared).2.2.1
    have open_ : run.rejected = false := (prepare_some prepared).2.1
    apply own allSucceed
    rw [applySnapshot_writesSent live read ((prepare_withWrites _ _ _).trans prepared),
      replay_eq plan open_]
    exact (performAll_allSucceed known).1 write planned addressed
  · intro own writes write sent
    cases read : readArchive opts around with
    | none => simp [applySnapshot, read] at sent
    | some archive =>
      cases archive with
      | error message => simp [applySnapshot, read, Run.fail, Run.addError] at sent
      | ok extracted =>
        cases live : opts.dryRun with
        | true =>
          simp only [applySnapshot, read, live, if_true, dryRun_writesSent] at sent
          simp at sent
        | false =>
          cases prepared : prepare (withWrites reads writes) opts around extracted {} with
          | mk found run =>
            have started := @prepare_writesSent (withWrites reads writes) {}
              opts around extracted
            rw [prepared] at started
            cases found with
            | none =>
              simp only [applySnapshot, read, live, prepared, Bool.false_eq_true,
                if_false, started] at sent
              simp at sent
            | some plan =>
              have open_ : run.rejected = false := (prepare_some prepared).2.1
              rw [applySnapshot_writesSent live read prepared, replay_eq plan open_]
                at sent
              rcases Run.performAll_writesSent sent with before | ⟨planned, addressed⟩
              · rw [started] at before
                simp at before
              · rw [prepare_withWrites] at prepared
                exact own extracted plan run live read prepared write planned addressed

end

def emptyArchive : Surroundings where
  snapshotExists := true
  extracted := .ok {
    memories := []
    soul := .null
    metadata := .obj [("agentId", .str "ana")] }
  createSnapshot _ _ := .ok "pre.tar.gz"
  numberText _ := ""

def anaRestore : RestoreOpts := { agentId := "ana", snapshotPath := "ana.tar.gz" }

def bosRow : Value := .obj [("agentId", .str "bo"), ("id", .str "m1")]

def orgWideTarget : Api
  | _, .list .memory _ => .ok (some (.arr [bosRow]))
  | _, .list _ _ => .ok (some (.arr []))
  | _, .listCandidates _ _ =>
    .ok (some (.obj [("candidates", .arr []), ("hasMore", .bool false)]))
  | _, .write _ => .ok none

/-- An org-wide listing makes the replay of one agent delete another agent's memory. -/
theorem org_wide_listing_deletes_others
    : ∃ write ∈ (applySnapshot orgWideTarget anaRestore emptyArchive).writesSent,
        write.verb = .delete ∧ write.row = bosRow
          ∧ ∀ candidateAgent, ¬ Owned anaRestore.agentId candidateAgent write := by
  have sent : (applySnapshot orgWideTarget anaRestore emptyArchive).writesSent
      = [{ verb := .delete, table := .memory, id := "m1", row := bosRow }] := by
    rfl
  rw [sent]
  refine ⟨_, List.mem_singleton_self _, rfl, rfl, ?_⟩
  intro candidateAgent own
  simp [Owned, bosRow, anaRestore, Value.member] at own

end Flair.RemRestore
