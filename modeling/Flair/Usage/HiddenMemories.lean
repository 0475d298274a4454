import Flair.Usage.CountedOnce

/-! To a recording, a memory outside its agent's read scope is one that is absent: it changes
nothing, and each of its steps and its answer are the same in both cases.
-/

namespace Flair.Usage

open Dynamic KeyLedger Transition

-- What a request sees

def UsageRequest.scope : UsageRequest → Record → Bool
  | .working batch _ => batch.canRead
  | _ => fun _ => false

/-- The memory is absent, or its row is outside the request's read scope. -/
def Hidden (request : UsageRequest) (row : Option Record) : Prop := row.filter request.scope = none

def UsageRequest.memory : UsageRequest → Option String
  | .working _ (.prechecking id) | .working _ (.locking id) | .working _ (.lockingPair id _)
  | .working _ (.reading id) | .working _ (.gating id) | .working _ (.claiming id _)
  | .working _ (.counting id _ _) | .working _ (.releasing id _) => some id
  | .working _ .scoping | .working _ .picking | .idle | .answered _ | .crashed => none

/-- The memory a request has found readable and is writing the ledger row or the count for. -/
def UsageRequest.claims : UsageRequest → Option String
  | .working _ (.claiming id _) | .working _ (.counting id _ _) => some id
  | _ => none

/-- The answer a request gives, unless its process ends first. -/
def UsageRequest.Due (answer : UsageAnswer) : UsageRequest → Prop
  | .working batch _ => batch.answer = answer
  | .answered given => given = answer
  | .crashed => True
  | .idle => False

/-- A request's step: its answer stays the one it was to give, and it claims a memory only
when it sees the memory's row.
-/
structure Walks (memories : String → Option Record) (before after : UsageRequest) : Prop where
  due : ∀ answer, before.Due answer → after.Due answer
  claims : ∀ memory, after.claims = some memory
    → before.claims = some memory ∨ ¬ Hidden before (memories memory)

variable {memories : String → Option Record}

theorem Walks.refl (request : UsageRequest)
    : Walks memories request request :=
  ⟨fun _ due => due, fun _ claims => Or.inl claims⟩

theorem Walks.crash (request : UsageRequest)
    : Walks memories request request.crash := by
  cases request with
  | working batch stage => exact ⟨fun _ _ => trivial, fun _ claims => nomatch claims⟩
  | idle | answered _ | crashed => exact .refl _

theorem Walks.of_unclaimed {before after : UsageRequest}
    (due : ∀ answer, before.Due answer → after.Due answer) (unclaimed : after.claims = none)
    : Walks memories before after := by
  refine ⟨due, ?_⟩
  intro memory claims
  rw [unclaimed] at claims
  cases claims

variable {state next : UsageState} {caller : Nat}

theorem walks_goto {request : UsageRequest}
    (requests : next.requests = Function.update state.requests caller request)
    (own : Walks state.memories (state.requests caller) request) (other : Nat)
    : Walks state.memories (state.requests other) (next.requests other) := by
  rw [requests]
  by_cases same : other = caller
  · subst same
    rw [Function.update_self]
    exact own
  · rw [Function.update_of_ne same]
    exact .refl _

variable {label : UsageLabel}

theorem step_walks (taken : usageStep state label = some next) (caller : Nat)
    : Walks state.memories (state.requests caller) (next.requests caller) := by
  cases label with
  | crash =>
    cases taken
    exact .crash _
  | write memory row =>
    cases taken
    exact .refl _
  | post own auth allowed data attribution now =>
    simp only [usageStep] at taken
    split at taken
    · rename_i at_idle
      cases taken
      refine walks_goto rfl (.of_unclaimed ?_ ?_) caller
      · intro answer due
        rw [at_idle] at due
        exact due.elim
      · unfold postArrival
        split <;> rfl
    · cases taken
  | cite own auth usedMemoryIds now =>
    simp only [usageStep] at taken
    split at taken
    · rename_i at_idle
      cases taken
      refine walks_goto rfl (.of_unclaimed ?_ ?_) caller
      · intro answer due
        rw [at_idle] at due
        exact due.elim
      · unfold citeArrival
        split <;> rfl
    · cases taken
  | resolveScope own scope =>
    simp only [usageStep] at taken
    split at taken
    · rename_i batch at_scoping
      cases taken
      refine walks_goto rfl ?_ caller
      rw [at_scoping]
      cases scope with
      | none => exact .of_unclaimed (fun _ due => due) rfl
      | some canRead => exact .of_unclaimed (fun _ due => due) rfl
    · cases taken
  | pick own =>
    simp only [usageStep] at taken
    split at taken
    · rename_i batch at_picking
      cases taken
      refine walks_goto rfl ?_ caller
      rw [at_picking]
      unfold picked
      split
      · exact .of_unclaimed (fun _ due => due) rfl
      · split <;> exact .of_unclaimed (fun _ due => due) rfl
    · cases taken
  | precheck own readable =>
    simp only [usageStep] at taken
    split at taken
    · rename_i batch id at_prechecking
      cases taken
      refine walks_goto rfl ?_ caller
      rw [at_prechecking]
      unfold prechecked
      generalize Option.isSome _ = readable
      cases readable <;> exact .of_unclaimed (fun _ due => due) rfl
    · cases taken
  | take own =>
    simp only [usageStep, takeLock] at taken
    split at taken
    · rename_i batch id at_locking
      split at taken
      all_goals
        cases taken
        refine walks_goto rfl ?_ caller
        rw [at_locking]
        exact .of_unclaimed (fun _ due => due) rfl
    · rename_i batch id attempt at_locking
      split at taken
      · cases taken
        refine walks_goto rfl ?_ caller
        rw [at_locking]
        exact .of_unclaimed (fun _ due => due) rfl
      · cases taken
        refine walks_goto rfl ?_ caller
        rw [at_locking]
        split <;> exact .of_unclaimed (fun _ due => due) rfl
    · cases taken
  | lockRefused own =>
    simp only [usageStep] at taken
    split at taken
    · rename_i batch id at_locking
      cases taken
      refine walks_goto rfl ?_ caller
      rw [at_locking]
      exact .of_unclaimed (fun _ due => due) rfl
    · rename_i batch id attempt at_locking
      cases taken
      refine walks_goto rfl ?_ caller
      rw [at_locking]
      exact .of_unclaimed (fun _ due => due) rfl
    · cases taken
  | readLedger own readable =>
    simp only [usageStep] at taken
    split at taken
    · rename_i batch id at_reading
      cases taken
      refine walks_goto rfl ?_ caller
      rw [at_reading]
      split <;> exact .of_unclaimed (fun _ due => due) rfl
    · cases taken
  | readMemory own readable =>
    simp only [usageStep] at taken
    split at taken
    · rename_i batch id at_gating
      cases taken
      refine walks_goto rfl ?_ caller
      rw [at_gating]
      unfold gated
      split
      · rename_i prepared found
        refine ⟨fun _ due => due, ?_⟩
        rintro memory claims
        cases claims
        refine Or.inr ?_
        intro hidden
        cases readable with
        | false => cases found
        | true => exact absurd (hidden.symm.trans found) (by simp)
      · exact .of_unclaimed (fun _ due => due) rfl
    · cases taken
  | claim own landed resolves =>
    simp only [usageStep] at taken
    split at taken
    · rename_i batch id prepared at_claiming
      split at taken
      · cases taken
        refine walks_goto rfl ?_ caller
        rw [at_claiming]
        split
        · exact ⟨fun _ due => due, fun _ claims => Or.inl claims⟩
        · exact .of_unclaimed (fun _ due => due) rfl
      · cases taken
    · cases taken
  | count own step =>
    simp only [usageStep, countStep] at taken
    split at taken
    · cases taken
    · rename_i batch id prepared helper at_counting foreign
      obtain ⟨inner, -, rfl⟩ := Option.map_eq_some_iff.mp taken
      refine walks_goto rfl ?_ caller
      rw [at_counting]
      exact ⟨fun _ due => due, fun _ claims => Or.inl claims⟩
    · cases taken
  | settle own =>
    simp only [usageStep] at taken
    split at taken
    · rename_i batch id prepared helper at_counting
      split at taken
      · cases taken
        refine walks_goto rfl ?_ caller
        rw [at_counting]
        exact .of_unclaimed (fun _ due => due) rfl
      · cases taken
    · cases taken
  | release own =>
    simp only [usageStep] at taken
    split at taken
    · rename_i batch id key rest at_releasing
      cases taken
      refine walks_goto rfl ?_ caller
      rw [at_releasing]
      split <;> exact .of_unclaimed (fun _ due => due) rfl
    · cases taken

-- Steps beside a hidden memory

def UsageState.withMemory (state : UsageState) (memory : String) (row : Option Record)
    : UsageState :=
  { state with memories := Function.update state.memories memory row }

structure ChangesNothing (state next : UsageState) : Prop where
  memories : next.memories = state.memories
  ledger : next.ledger = state.ledger
  raises : next.raises = state.raises

def UsageLabel.blind : UsageLabel → Bool
  | .precheck _ _ | .readMemory _ _ | .claim _ _ _ | .count _ _ | .crash | .write _ _ => false
  | _ => true

theorem usageStep_blind (blind : label.blind = true) (taken : usageStep state label = some next)
    : ChangesNothing state next
      ∧ ∀ memory row,
          usageStep (state.withMemory memory row) label = some (next.withMemory memory row) := by
  cases label with
  | precheck | readMemory | claim | count | crash | write => cases blind
  | post caller | cite caller | resolveScope caller | pick caller | readLedger caller
  | release caller =>
    simp only [usageStep] at taken
    split at taken
    · rename_i standing
      cases taken
      refine ⟨⟨rfl, rfl, rfl⟩, fun memory row => ?_⟩
      simp only [usageStep, UsageState.withMemory, standing]
      rfl
    · cases taken
  | lockRefused caller =>
    simp only [usageStep] at taken
    split at taken
    iterate 2
      · rename_i standing
        cases taken
        refine ⟨⟨rfl, rfl, rfl⟩, fun memory row => ?_⟩
        simp only [usageStep, UsageState.withMemory, standing]
        rfl
    · cases taken
  | settle caller =>
    simp only [usageStep] at taken
    split at taken
    · rename_i standing
      split at taken
      · rename_i finished
        cases taken
        refine ⟨⟨rfl, rfl, rfl⟩, fun memory row => ?_⟩
        simp only [usageStep, UsageState.withMemory, standing, finished]
        rfl
      · cases taken
    · cases taken
  | take caller =>
    simp only [usageStep, takeLock] at taken
    split at taken
    · rename_i standing
      split at taken <;> rename_i locked <;> cases taken <;>
      · refine ⟨⟨rfl, rfl, rfl⟩, fun memory row => ?_⟩
        simp only [usageStep, takeLock, UsageState.withMemory, standing, locked]
        rfl
    · rename_i standing
      split at taken <;> rename_i locked <;> cases taken <;>
      · refine ⟨⟨rfl, rfl, rfl⟩, fun memory row => ?_⟩
        simp only [usageStep, takeLock, UsageState.withMemory, standing, locked]
        rfl
    · cases taken

structure SeesNothing (state next : UsageState) (label : UsageLabel) (caller : Nat)
    (memory : String)
    : Prop where
  nothing : ChangesNothing state next
  same : ∀ row, Hidden (state.requests caller) row
    → usageStep (state.withMemory memory row) label = some (next.withMemory memory row)

variable {batch : Batch}

theorem gated_hidden {row : Option Record} (id : String) (hidden : row.filter batch.canRead = none)
    (readable : Bool)
    : gated batch id (if readable then row else none) = leave batch id := by
  cases readable <;> simp [gated, hidden]

theorem prechecked_hidden {row : Option Record} (id : String)
    (hidden : row.filter batch.canRead = none) (readable : Bool)
    : prechecked batch id (if readable then row else none) = .working batch .picking := by
  cases readable <;> simp [prechecked, hidden]

variable {memory : String}

/-- Each step of a request that is crediting no other memory and has not claimed this one
sees nothing of a row outside its scope, by cases on the step.
-/
theorem sees_nothing (own : label.caller = some caller)
    (hidden : Hidden (state.requests caller) (state.memories memory))
    (only : ∀ id ∈ (state.requests caller).memory, id = memory)
    (unclaimed : (state.requests caller).claims = none) (taken : usageStep state label = some next)
    : SeesNothing state next label caller memory := by
  by_cases blind : label.blind = true
  · obtain ⟨nothing, same⟩ := usageStep_blind blind taken
    exact ⟨nothing, fun row _ => same memory row⟩
  cases label with
  | post | cite | resolveScope | pick | take | lockRefused | readLedger | settle | release =>
    exact absurd rfl blind
  | crash | write _ _ => cases own
  | precheck caller' readable =>
    cases own
    simp only [usageStep] at taken
    split at taken
    · rename_i batch id at_prechecking
      rw [at_prechecking] at hidden only
      obtain rfl := only id rfl
      rw [prechecked_hidden id hidden] at taken
      cases taken
      refine ⟨⟨rfl, rfl, rfl⟩, fun row unseen => ?_⟩
      rw [at_prechecking] at unseen
      simp only [usageStep, UsageState.withMemory, at_prechecking, Function.update_self,
        prechecked_hidden id unseen]
      rfl
    · cases taken
  | readMemory caller' readable =>
    cases own
    simp only [usageStep] at taken
    split at taken
    · rename_i batch id at_gating
      rw [at_gating] at hidden only
      obtain rfl := only id rfl
      rw [gated_hidden id hidden] at taken
      cases taken
      refine ⟨⟨rfl, rfl, rfl⟩, fun row unseen => ?_⟩
      rw [at_gating] at unseen
      simp only [usageStep, UsageState.withMemory, at_gating, Function.update_self,
        gated_hidden id unseen]
      rfl
    · cases taken
  | claim caller' landed resolves =>
    cases own
    simp only [usageStep] at taken
    split at taken
    · rename_i at_claiming
      rw [at_claiming] at unclaimed
      cases unclaimed
    · cases taken
  | count caller' step =>
    cases own
    simp only [usageStep, countStep] at taken
    split at taken
    · cases taken
    · rename_i at_counting _
      rw [at_counting] at unclaimed
      cases unclaimed
    · cases taken

-- Runs beside a hidden memory

def Shields (caller : Nat) (memory : String) : Guard UsageState UsageLabel :=
  fun state _ => Hidden (state.requests caller) (state.memories memory)

theorem unclaimed_of_shielded {later : UsageState}
    (unclaimed : (state.requests caller).claims ≠ some memory)
    (run : usage.ReachesUnder (Shields caller memory) state later)
    : (later.requests caller).claims ≠ some memory := by
  refine @System.ReachesUnder.preserves _ _ usage (Shields caller memory)
    (fun now => (now.requests caller).claims ≠ some memory) ?_ state later run unclaimed
  intro before label after free hidden taken claims
  rcases (step_walks taken caller).claims memory claims with already | seen
  · exact free already
  · exact seen hidden

theorem unclaimed_of_memory {request : UsageRequest} (only : ∀ id ∈ request.memory, id = memory)
    (free : request.claims ≠ some memory)
    : request.claims = none := by
  cases request with
  | idle | answered _ | crashed => rfl
  | working batch stage =>
    cases stage with
    | claiming id prepared =>
      obtain rfl := only id rfl
      exact absurd rfl free
    | counting id prepared helper =>
      obtain rfl := only id rfl
      exact absurd rfl free
    | scoping | picking | prechecking _ | locking _ | lockingPair _ _ | reading _ | gating _
    | releasing _ _ => rfl

theorem answer_of_batch {later : UsageState} {stage : UsageStage} {answer : UsageAnswer}
    (working : state.requests caller = .working batch stage) (run : usage.Reaches state later)
    (answered : later.requests caller = .answered answer)
    : answer = batch.answer := by
  have begun : (state.requests caller).Due batch.answer := by
    rw [working]
    rfl
  have due : (later.requests caller).Due batch.answer := by
    refine @System.ReachesUnder.preserves _ _ usage (fun _ _ => True)
      (fun now => (now.requests caller).Due batch.answer) ?_ state later run begun
    intro before label after due _ taken
    exact (step_walks taken caller).due batch.answer due
  rw [answered] at due
  exact due

/-- In every state that recordings and crashes reach, beside other writers that leave a count
its row between its last check and its commit: an agent has raised a memory's count by at most
one, recordings have raised it by no more than the memory has ledger rows, which is what the
count has grown by when they ran alone, and while a memory is absent or hidden from a
recording each of the recording's steps on it changes nothing and is the step it would be over
any other row it cannot read. A batch's answer depends on none of this.
-/
theorem usage_counted_once (state : UsageState) (reached : usage.ReachableUnder Unraced state)
    : (∀ agent memory, state.pairRaise agent memory ≤ 1)
      ∧ (∀ memory, state.memoryRaise memory ≤ (state.ledgerRows memory).length)
      ∧ (∀ start memory,
          usage.initial start
          → usage.ReachesUnder Alone start state
          → storedCount (state.memories memory)
            = storedCount (start.memories memory) + state.memoryRaise memory)
      ∧ (∀ caller memory later,
          (state.requests caller).claims ≠ some memory
          → usage.ReachesUnder (Shields caller memory) state later
          → Hidden (later.requests caller) (later.memories memory)
          → ∀ label next,
              label.caller = some caller
              → (∀ id ∈ (later.requests caller).memory, id = memory)
              → usageStep later label = some next
              → SeesNothing later next label caller memory)
      ∧ ∀ caller batch stage later answer,
          state.requests caller = .working batch stage
          → usage.Reaches state later
          → later.requests caller = .answered answer
          → answer = batch.answer := by
  have inv := usageInv_of_reachable reached
  refine ⟨inv.pairRaise_le, inv.memoryRaise_le, ?_, ?_, ?_⟩
  · intro start memory initial run
    exact count_of_alone initial run memory
  · intro caller memory later unclaimed run hidden label next own only taken
    have free := unclaimed_of_shielded unclaimed run
    exact sees_nothing own hidden only (unclaimed_of_memory only free) taken
  · intro caller batch stage later answer working run answered
    exact answer_of_batch working run answered

-- A crash between a ledger row and its count

def ann : AgentId := ⟨"ann", by decide⟩

def bob : AgentId := ⟨"bob", by decide⟩

def countedThrice : UsageState where
  memories id :=
    if id = "m" then some (.ofFields [("id", .str "m"), ("agentId", .str "ann"),
      ("usageCount", .num 3)])
    else none
  ledger := []
  locks := Ledger.fresh
  requests _ := .idle
  raises := []

def claiming (caller : Nat) (agent : AgentId) : List UsageLabel := [
  .post caller (.agent agent) true (.ofFields [("memoryId", .str "m")]) none "t",
  .resolveScope caller (some fun _ => true), .pick caller, .take caller, .take caller,
  .readLedger caller true, .readMemory caller true, .claim caller true true
]

def counting (caller : Nat) : List UsageLabel := [
  .count caller .advance, .count caller .advance, .count caller .advance,
  .count caller (.stage "w"), .count caller .advance, .count caller (.commit true true),
  .count caller .advance, .settle caller, .release caller, .release caller, .pick caller
]

def repeating (caller : Nat) (agent : AgentId) : List UsageLabel := [
  .post caller (.agent agent) true (.ofFields [("memoryId", .str "m")]) none "t",
  .resolveScope caller (some fun _ => true), .pick caller, .take caller, .take caller,
  .readLedger caller true, .release caller, .release caller, .pick caller
]

/-- One agent is counted; another's process ends before its count, and it records again. -/
def crashedCount : List UsageLabel :=
  claiming 0 ann ++ counting 0 ++ claiming 1 bob ++ [.crash] ++ repeating 2 bob
    ++ repeating 3 ann

def afterCrash : UsageState := (usage.run countedThrice crashedCount).getD countedThrice

theorem run_crashedCount : usage.run countedThrice crashedCount = some afterCrash := by
  have runs : (usage.run countedThrice crashedCount).isSome = true := by decide +kernel
  obtain ⟨state, same⟩ := Option.isSome_iff_exists.mp runs
  rw [afterCrash, same]
  rfl

theorem afterCrash_reached : usage.ReachableUnder Unraced afterCrash := by
  refine ⟨countedThrice, ⟨fun _ => rfl, rfl, rfl⟩, ?_⟩
  refine System.reachesUnder_of_run ?_ run_crashedCount
  intro label member state
  cases label with
  | write memory row => simp [crashedCount, claiming, counting, repeating] at member
  | _ => trivial

theorem usage_counted_once_after_crash
    : afterCrash.memoryRaise "m" = 1
      ∧ (afterCrash.ledgerRows "m").length = 2
      ∧ storedCount (afterCrash.memories "m") = 4
      ∧ afterCrash.pairRaise bob "m" ≤ 1
      ∧ afterCrash.memoryRaise "m" ≤ (afterCrash.ledgerRows "m").length :=
  ⟨by decide +kernel, by decide +kernel, by decide +kernel,
    (usage_counted_once afterCrash afterCrash_reached).1 bob "m",
    (usage_counted_once afterCrash afterCrash_reached).2.1 "m"⟩

end Flair.Usage
