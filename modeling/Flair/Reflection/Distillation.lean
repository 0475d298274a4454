import Flair.Reflection.ReflectScope

/-! Distillation of a gathered set: the validator of the model's output, the two attempts of
`generateCandidates` and the request around them. Whatever the model answers, an accepted
candidate cites gathered records only.
-/

namespace Flair.Reflection

open Dynamic

-- The validator

def MAX_CANDIDATES_PER_RUN : Nat := 10

def MAX_CLAIM_LENGTH : Nat := 500

structure RawCandidate where
  claim : String
  sourceMemoryIds : List String
  tags : Option (List String)
  visibility : Option String
  teamRelevance : Option String
deriving DecidableEq

inductive InvalidReason where
  | invalid_json
  | shape_mismatch
  | too_many_candidates
  | claim_too_long
  | source_id_out_of_set
deriving DecidableEq

/-- `candidate.claim`: a non-empty string of at most `MAX_CLAIM_LENGTH` code units. -/
def readClaim (candidate : Value) : Except InvalidReason String :=
  match candidate.member "claim" with
  | some (.str claim) =>
    if claim = "" then .error .shape_mismatch
    else if MAX_CLAIM_LENGTH < codeUnitCount claim then .error .claim_too_long
    else .ok claim
  | _ => .error .shape_mismatch

/-- The loop over `candidate.sourceMemoryIds`. -/
def readSourceIds (gatheredMemoryIds : List String)
    : List Value → Except InvalidReason (List String)
  | [] => .ok []
  | .str id :: rest =>
    if id ∈ gatheredMemoryIds then do
      let ids ← readSourceIds gatheredMemoryIds rest
      .ok (id :: ids)
    else .error .source_id_out_of_set
  | _ :: _ => .error .shape_mismatch

def readSources (gatheredMemoryIds : List String) (candidate : Value)
    : Except InvalidReason (List String) :=
  match candidate.member "sourceMemoryIds" with
  | some (.arr []) => .error .shape_mismatch
  | some (.arr ids) => readSourceIds gatheredMemoryIds ids
  | _ => .error .shape_mismatch

/-- Every element of an array as a string; `none` when some element is not one. -/
def stringItems : List Value → Option (List String)
  | [] => some []
  | .str text :: rest => (stringItems rest).map (text :: ·)
  | _ :: _ => none

def readTags (candidate : Value) : Except InvalidReason (Option (List String)) :=
  match candidate.member "tags" with
  | none => .ok none
  | some (.arr items) =>
    match stringItems items with
    | some tags => .ok (some tags)
    | none => .error .shape_mismatch
  | some _ => .error .shape_mismatch

def readVisibility (candidate : Value) : Except InvalidReason (Option String) :=
  match candidate.member "visibility" with
  | none => .ok none
  | some (.str "private") => .ok (some "private")
  | some (.str "shared") => .ok (some "shared")
  | some _ => .error .shape_mismatch

def readTeamRelevance (candidate : Value) : Except InvalidReason (Option String) :=
  match candidate.member "teamRelevance" with
  | none => .ok none
  | some (.str text) => .ok (some text)
  | some _ => .error .shape_mismatch

def readCandidate (gatheredMemoryIds : List String) (candidate : Value)
    : Except InvalidReason RawCandidate := do
  let claim ← readClaim candidate
  let sourceMemoryIds ← readSources gatheredMemoryIds candidate
  let tags ← readTags candidate
  let visibility ← readVisibility candidate
  let teamRelevance ← readTeamRelevance candidate
  .ok { claim, sourceMemoryIds, tags, visibility, teamRelevance }

def readCandidates (gatheredMemoryIds : List String)
    : List Value → Except InvalidReason (List RawCandidate)
  | [] => .ok []
  | candidate :: rest => do
      let read ← readCandidate gatheredMemoryIds candidate
      let others ← readCandidates gatheredMemoryIds rest
      .ok (read :: others)

def parseAndValidateCandidates (jsonParse : String → Option Value) (raw : String)
    (gatheredMemoryIds : List String)
    : Except InvalidReason (List RawCandidate) :=
  match jsonParse raw with
  | none => .error .invalid_json
  | some parsed =>
    match parsed.member "candidates" with
    | some (.arr rawCandidates) =>
      if MAX_CANDIDATES_PER_RUN < rawCandidates.length then .error .too_many_candidates
      else readCandidates gatheredMemoryIds rawCandidates
    | _ => .error .shape_mismatch

-- What a well-formed output is

structure States (gatheredMemoryIds : List String) (value : Value) (candidate : RawCandidate)
    : Prop where
  claim : value.member "claim" = some (.str candidate.claim)
  claimNonempty : candidate.claim ≠ ""
  claimShort : codeUnitCount candidate.claim ≤ MAX_CLAIM_LENGTH
  sources : value.member "sourceMemoryIds"
    = some (.arr (candidate.sourceMemoryIds.map Value.str))
  sourcesNonempty : candidate.sourceMemoryIds ≠ []
  sourcesGathered : ∀ id ∈ candidate.sourceMemoryIds, id ∈ gatheredMemoryIds
  tags : value.member "tags"
    = candidate.tags.map fun tags => .arr (tags.map Value.str)
  visibility : value.member "visibility" = candidate.visibility.map Value.str
  visibilityKnown : ∀ ruling ∈ candidate.visibility, ruling = "private" ∨ ruling = "shared"
  teamRelevance : value.member "teamRelevance" = candidate.teamRelevance.map Value.str

def WellFormedOutput (gatheredMemoryIds : List String) (output : Value)
    (candidates : List RawCandidate)
    : Prop :=
  ∃ items, output.member "candidates" = some (.arr items)
    ∧ items.length ≤ MAX_CANDIDATES_PER_RUN
    ∧ List.Forall₂ (States gatheredMemoryIds) items candidates

variable {candidate : Value}

theorem readClaim_eq_ok {claim : String}
    : readClaim candidate = .ok claim
      ↔ candidate.member "claim" = some (.str claim) ∧ claim ≠ ""
        ∧ codeUnitCount claim ≤ MAX_CLAIM_LENGTH := by
  unfold readClaim
  split
  case h_1 text held =>
    split
    · constructor
      · intro read
        contradiction
      · rintro ⟨same, nonempty, -⟩
        simp_all
    · split
      · constructor
        · intro read
          contradiction
        · rintro ⟨same, -, short⟩
          simp_all
          omega
      · constructor
        · rintro ⟨rfl⟩
          exact ⟨held, by assumption, by omega⟩
        · rintro ⟨same, -⟩
          simp_all
  case h_2 other =>
    constructor
    · intro read
      contradiction
    · rintro ⟨same, -⟩
      exact absurd same (other claim)

variable {gatheredMemoryIds : List String}

theorem readSourceIds_eq_ok {values : List Value} {ids : List String}
    : readSourceIds gatheredMemoryIds values = .ok ids
      ↔ values = ids.map Value.str ∧ ∀ id ∈ ids, id ∈ gatheredMemoryIds := by
  induction values generalizing ids with
  | nil => cases ids <;> simp [readSourceIds]
  | cons value rest ih =>
    cases value with
    | str id =>
      by_cases gathered : id ∈ gatheredMemoryIds
      · simp only [readSourceIds, if_pos gathered, bind_eq_ok, ih, Except.ok.injEq]
        constructor
        · rintro ⟨others, ⟨rfl, all⟩, rfl⟩
          exact ⟨rfl, List.forall_mem_cons.mpr ⟨gathered, all⟩⟩
        · rintro ⟨same, all⟩
          obtain ⟨first, others, rfl, ⟨rfl⟩, rfl⟩ := List.map_eq_cons_iff.mp same.symm
          exact ⟨others, ⟨rfl, (List.forall_mem_cons.mp all).2⟩, rfl⟩
      · simp only [readSourceIds, if_neg gathered, reduceCtorEq, false_iff]
        rintro ⟨same, all⟩
        obtain ⟨first, others, rfl, ⟨rfl⟩, -⟩ := List.map_eq_cons_iff.mp same.symm
        exact gathered (List.forall_mem_cons.mp all).1
    | _ => cases ids <;> simp [readSourceIds]

theorem readSources_eq_ok {ids : List String}
    : readSources gatheredMemoryIds candidate = .ok ids
      ↔ candidate.member "sourceMemoryIds" = some (.arr (ids.map Value.str)) ∧ ids ≠ []
        ∧ ∀ id ∈ ids, id ∈ gatheredMemoryIds := by
  unfold readSources
  split
  case h_1 held => cases ids <;> simp [held]
  case h_2 values nonempty held =>
    rw [readSourceIds_eq_ok, held]
    constructor
    · rintro ⟨rfl, all⟩
      refine ⟨rfl, ?_, all⟩
      rintro rfl
      exact nonempty rfl
    · rintro ⟨same, -, all⟩
      exact ⟨by simpa using same, all⟩
  case h_3 other =>
    constructor
    · intro read
      contradiction
    · rintro ⟨same, -⟩
      exact absurd same (other _)

theorem stringItems_eq_some {items : List Value} {texts : List String}
    : stringItems items = some texts ↔ items = texts.map Value.str := by
  induction items generalizing texts with
  | nil => cases texts <;> simp [stringItems]
  | cons item rest ih =>
    cases item with
    | str text =>
      cases texts with
      | nil => simp [stringItems]
      | cons first others =>
        simp only [stringItems, Option.map_eq_some_iff, List.cons.injEq, List.map_cons,
          Value.str.injEq]
        constructor
        · rintro ⟨read, found, rfl, rfl⟩
          exact ⟨rfl, ih.mp found⟩
        · rintro ⟨rfl, same⟩
          exact ⟨others, ih.mpr same, rfl, rfl⟩
    | _ => cases texts <;> simp [stringItems]

theorem readTags_eq_ok {tags : Option (List String)}
    : readTags candidate = .ok tags
      ↔ candidate.member "tags" = tags.map fun tags => .arr (tags.map Value.str) := by
  unfold readTags
  split
  case h_1 absent => cases tags <;> simp [absent]
  case h_2 items held =>
    rw [held]
    cases read : stringItems items with
    | some texts =>
      obtain rfl := stringItems_eq_some.mp read
      cases tags with
      | none => simp
      | some named =>
        have apart : Function.Injective (List.map Value.str) :=
          List.map_injective_iff.mpr fun _ _ same => Value.str.inj same
        simp [apart.eq_iff]
    | none =>
      cases tags with
      | none => simp
      | some named =>
        simp only [reduceCtorEq, Option.map_some, Option.some.injEq, Value.arr.injEq, false_iff]
        intro same
        simp [stringItems_eq_some.mpr same] at read
  case h_3 value array held =>
    rw [held]
    cases tags with
    | none => simp
    | some named =>
      simp only [reduceCtorEq, Option.map_some, Option.some.injEq, false_iff]
      rintro rfl
      exact array _ rfl

theorem readVisibility_eq_ok {visibility : Option String}
    : readVisibility candidate = .ok visibility
      ↔ candidate.member "visibility" = visibility.map Value.str
        ∧ ∀ ruling ∈ visibility, ruling = "private" ∨ ruling = "shared" := by
  unfold readVisibility
  split
  case h_1 absent => cases visibility <;> simp [absent]
  case h_2 held => cases visibility <;> grind
  case h_3 held => cases visibility <;> grind
  case h_4 value privately shared held =>
    constructor
    · intro read
      contradiction
    rintro ⟨same, known⟩
    rw [held] at same
    cases visibility with
    | none => simp at same
    | some ruling =>
      cases same
      rcases known ruling rfl with rfl | rfl
      · exact absurd rfl privately
      · exact absurd rfl shared

theorem readTeamRelevance_eq_ok {teamRelevance : Option String}
    : readTeamRelevance candidate = .ok teamRelevance
      ↔ candidate.member "teamRelevance" = teamRelevance.map Value.str := by
  unfold readTeamRelevance
  split <;> cases teamRelevance <;> grind

theorem readCandidate_eq_ok {value : Value} {candidate : RawCandidate}
    : readCandidate gatheredMemoryIds value = .ok candidate
      ↔ States gatheredMemoryIds value candidate := by
  simp only [readCandidate, bind_eq_ok, readClaim_eq_ok, readSources_eq_ok, readTags_eq_ok,
    readVisibility_eq_ok, readTeamRelevance_eq_ok, Except.ok.injEq]
  constructor
  · rintro ⟨claim, ⟨claimed, nonempty, short⟩, ids, ⟨cited, some, all⟩, tags, tagged, visibility,
      ⟨ruled, known⟩, teamRelevance, justified, rfl⟩
    exact ⟨claimed, nonempty, short, cited, some, all, tagged, ruled, known, justified⟩
  · intro stated
    exact ⟨_, ⟨stated.claim, stated.claimNonempty, stated.claimShort⟩, _,
      ⟨stated.sources, stated.sourcesNonempty, stated.sourcesGathered⟩, _, stated.tags, _,
      ⟨stated.visibility, stated.visibilityKnown⟩, _, stated.teamRelevance, rfl⟩

theorem readCandidates_eq_ok {values : List Value} {candidates : List RawCandidate}
    : readCandidates gatheredMemoryIds values = .ok candidates
      ↔ List.Forall₂ (States gatheredMemoryIds) values candidates := by
  induction values generalizing candidates with
  | nil => cases candidates <;> simp [readCandidates]
  | cons value rest ih =>
    simp only [readCandidates, bind_eq_ok, readCandidate_eq_ok, ih, Except.ok.injEq]
    constructor
    · rintro ⟨first, stated, others, all, rfl⟩
      exact .cons stated all
    · intro all
      cases all with
      | cons stated all => exact ⟨_, stated, _, all, rfl⟩

variable {jsonParse : String → Option Value}

/-- The validator accepts exactly the well-formed outputs, with the candidates they state;
anything else it refuses as a whole.
-/
theorem parseAndValidateCandidates_eq_ok {raw : String} {candidates : List RawCandidate}
    : parseAndValidateCandidates jsonParse raw gatheredMemoryIds = .ok candidates
      ↔ ∃ output, jsonParse raw = some output
        ∧ WellFormedOutput gatheredMemoryIds output candidates := by
  unfold parseAndValidateCandidates
  cases jsonParse raw with
  | none => simp
  | some parsed =>
    simp only [Option.some.injEq, exists_eq_left', WellFormedOutput]
    split
    case h_1 items held =>
      rw [held]
      split
      case isTrue long =>
        constructor
        · intro accepted
          contradiction
        · rintro ⟨listed, same, short, -⟩
          obtain rfl : items = listed := by simpa using same
          omega
      case isFalse short =>
        rw [readCandidates_eq_ok]
        constructor
        · intro all
          exact ⟨items, rfl, by omega, all⟩
        · rintro ⟨listed, same, -, all⟩
          obtain rfl : items = listed := by simpa using same
          exact all
    case h_2 other =>
      constructor
      · intro accepted
        contradiction
      · rintro ⟨listed, same, -⟩
        exact absurd same (other listed)

-- The two attempts

/-- What one call of `models.generate` gives back. -/
inductive ModelAnswer where
  | threw (name : Option String)
  | answered (content : String) (finishReason : Option String)

inductive GenerateFailure where
  | no_backend
  | generate_failed
  | validation_failed
  | incomplete_generation
deriving DecidableEq

structure GenerateCandidatesOutcome where
  candidates : List RawCandidate
  usedJsonFallback : Bool

def MODEL_BACKEND_NOT_FOUND_ERROR_NAME : String := "ModelBackendNotFoundError"

def isIncompleteFinishReason (finishReason : Option String) : Bool :=
  finishReason == some "length" || finishReason == some "content_filter"

/-- The attempts in order, each with its `usedJsonFallback`; the reason is the one of the
last attempt that failed.
-/
def generateAttempts (jsonParse : String → Option Value) (gatheredMemoryIds : List String)
    : List (Bool × ModelAnswer) → GenerateFailure
      → Except GenerateFailure GenerateCandidatesOutcome
  | [], failureReason => .error failureReason
  | (_, .threw name) :: _, _ =>
    if name = some MODEL_BACKEND_NOT_FOUND_ERROR_NAME then .error .no_backend
    else .error .generate_failed
  | (usedJsonFallback, .answered content finishReason) :: rest, _ =>
    if isIncompleteFinishReason finishReason then
      generateAttempts jsonParse gatheredMemoryIds rest .incomplete_generation
    else
      match parseAndValidateCandidates jsonParse content gatheredMemoryIds with
      | .ok candidates => .ok { candidates, usedJsonFallback }
      | .error _ => generateAttempts jsonParse gatheredMemoryIds rest .validation_failed

def generateCandidates (jsonParse : String → Option Value) (gatheredMemoryIds : List String)
    (schemaMode jsonMode : ModelAnswer)
    : Except GenerateFailure GenerateCandidatesOutcome :=
  generateAttempts jsonParse gatheredMemoryIds [(false, schemaMode), (true, jsonMode)]
    .validation_failed

theorem answer_of_generateAttempts {attempts : List (Bool × ModelAnswer)}
    {failureReason : GenerateFailure} {outcome : GenerateCandidatesOutcome}
    (run : generateAttempts jsonParse gatheredMemoryIds attempts failureReason = .ok outcome)
    : ∃ content finishReason, (outcome.usedJsonFallback, .answered content finishReason) ∈ attempts
        ∧ parseAndValidateCandidates jsonParse content gatheredMemoryIds
          = .ok outcome.candidates := by
  induction attempts generalizing failureReason with
  | nil => contradiction
  | cons attempt rest ih =>
    obtain ⟨fallback, answer⟩ := attempt
    cases answer with
    | threw name =>
      simp only [generateAttempts] at run
      split at run <;> contradiction
    | answered content finishReason =>
      simp only [generateAttempts] at run
      split at run
      · obtain ⟨later, finish, member, accepted⟩ := ih run
        exact ⟨later, finish, List.mem_cons_of_mem _ member, accepted⟩
      split at run
      case h_1 candidates accepted =>
        cases run
        exact ⟨content, finishReason, List.mem_cons_self, accepted⟩
      case h_2 =>
        obtain ⟨later, finish, member, accepted⟩ := ih run
        exact ⟨later, finish, List.mem_cons_of_mem _ member, accepted⟩

-- The request

/-- The caller of `POST /ReflectMemories` and the fields of its body. -/
structure ReflectRequest where
  actorId : Option String
  callerIsAdmin : Bool
  agentId : Option String
  scope : Option Value
  since : Option Value
  maxMemories : Option Value
  tag : Option Value
  execute : Option Value

def resolveReflectActor (request : ReflectRequest) : Except (Nat × String) (Option String) :=
  let bodyAgentId := request.agentId.filter (· != "")
  let actorId := request.actorId.filter (· != "")
  if bodyAgentId.isNone && actorId.isNone then .error (400, "agentId required")
  else if actorId.isSome && !request.callerIsAdmin && bodyAgentId.isSome
      && bodyAgentId != actorId then
    .error (403, "forbidden: can only reflect on own memories")
  else .ok (if actorId.isSome && !request.callerIsAdmin then actorId else request.agentId)

/-- `maxMemories` when it is a number. -/
def ReflectRequest.maxOverride (request : ReflectRequest) : Option Rat :=
  match request.maxMemories with
  | some (.num amount) => some amount
  | _ => none

/-- The server around one run: its clock and the setting `FLAIR_REM_MAX_MEMORIES`. -/
structure RunSetting where
  now : Int
  gatherNow : Int
  maxMemoriesEnv : Option Rat

def ReflectRequest.params (host : Host) (setting : RunSetting) (request : ReflectRequest)
    : ScopeParams where
  scope := request.scope.getD (.str "recent")
  tag := request.tag
  sinceDate :=
    match request.since with
    | some since =>
      if truthy (some since) then host.dateOf since else some (setting.now - 24 * 3600000)
    | none => some (setting.now - 24 * 3600000)

inductive ReflectOutcome where
  | refused (status : Nat) (error : String)
  | threw (memories : List ReflectMemory)
  | prompted (memories : List ReflectMemory)
  | nothingGathered
  | notGenerated (memories : List ReflectMemory) (reason : GenerateFailure)
  | distilled (memories : List ReflectMemory) (generated : GenerateCandidatesOutcome)

def ReflectRequest.query (host : Host) (setting : RunSetting) (request : ReflectRequest)
    (agentId : Option String)
    : GatherQuery where
  agentId := agentId
  params := request.params host setting
  gatherNow := setting.gatherNow
  maxN := resolveMaxMemoriesPerRun request.maxOverride setting.maxMemoriesEnv

/-- `post` after the gather, up to the candidates it goes on to stage. Writing an invalid
`since` into the prompt throws.
-/
def reflectOn (jsonParse : String → Option Value) (request : ReflectRequest)
    (sinceDate : Option Int) (schemaMode jsonMode : ModelAnswer) (memories : List ReflectMemory)
    : ReflectOutcome :=
  if !truthy request.execute then
    if sinceDate.isNone then .threw memories else .prompted memories
  else if memories = [] then .nothingGathered
  else if sinceDate.isNone then .threw memories
  else
    match generateCandidates jsonParse (memories.map ReflectMemory.id) schemaMode jsonMode with
    | .error reason => .notGenerated memories reason
    | .ok generated => .distilled memories generated

/-- `post` of `ReflectMemories`. -/
def reflect (host : Host) (jsonParse : String → Option Value) (setting : RunSetting)
    (request : ReflectRequest) (scan : List ScannedRow) (pausedAfter : Bool)
    (schemaMode jsonMode : ModelAnswer)
    : ReflectOutcome :=
  match resolveReflectActor request with
  | .error (status, error) => .refused status error
  | .ok agentId =>
    match gather host (request.query host setting agentId) scan pausedAfter with
    | none => .refused 503 "rem_aborted"
    | some memories =>
      reflectOn jsonParse request (request.params host setting).sinceDate schemaMode jsonMode
        memories

namespace ReflectOutcome

def memories : ReflectOutcome → List ReflectMemory
  | .refused _ _ | .nothingGathered => []
  | .threw memories | .prompted memories | .notGenerated memories _
  | .distilled memories _ => memories

def candidates : ReflectOutcome → List RawCandidate
  | .distilled _ generated => generated.candidates
  | _ => []

end ReflectOutcome

variable {request : ReflectRequest} {schemaMode jsonMode : ModelAnswer}

theorem memories_reflectOn {sinceDate : Option Int} {gathered : List ReflectMemory}
    {memory : ReflectMemory}
    (member : memory ∈ (reflectOn jsonParse request sinceDate schemaMode jsonMode
      gathered).memories)
    : memory ∈ gathered := by
  unfold reflectOn at member
  repeat' split at member
  all_goals first | contradiction | exact member

theorem generated_of_reflectOn {sinceDate : Option Int} {gathered : List ReflectMemory}
    {candidate : RawCandidate}
    (member : candidate ∈ (reflectOn jsonParse request sinceDate schemaMode jsonMode
      gathered).candidates)
    : ∃ generated,
        generateCandidates jsonParse (gathered.map ReflectMemory.id) schemaMode jsonMode
          = .ok generated
        ∧ reflectOn jsonParse request sinceDate schemaMode jsonMode gathered
          = .distilled gathered generated := by
  unfold reflectOn at member ⊢
  split at member
  · split at member <;> contradiction
  split at member
  · contradiction
  split at member
  · contradiction
  split at member
  · contradiction
  case h_2 shown nonempty dated _ generated accepted =>
    exact ⟨generated, accepted, by simp_all⟩

theorem eligible_of_mem_memories {host : Host} {setting : RunSetting} {scan : List ScannedRow}
    {pausedAfter : Bool} {memory : ReflectMemory}
    (member : memory ∈ (reflect host jsonParse setting request scan pausedAfter schemaMode
      jsonMode).memories)
    : memory ∈ scan.map ScannedRow.record
      ∧ ∃ agentId, resolveReflectActor request = .ok agentId
        ∧ isEligible host (request.query host setting agentId) memory = true := by
  unfold reflect at member
  split at member
  · contradiction
  case h_2 agentId resolved =>
    split at member
    · contradiction
    case h_2 gathered scanned =>
      obtain ⟨row, eligible⟩ := mem_gather scanned (memories_reflectOn member)
      exact ⟨row, agentId, resolved, eligible⟩

theorem wellFormed_of_candidates {host : Host} {setting : RunSetting} {scan : List ScannedRow}
    {pausedAfter : Bool} {candidate : RawCandidate}
    (member : candidate ∈ (reflect host jsonParse setting request scan pausedAfter schemaMode
      jsonMode).candidates)
    : ∃ content finishReason output,
        (schemaMode = .answered content finishReason ∨ jsonMode = .answered content finishReason)
        ∧ jsonParse content = some output
        ∧ WellFormedOutput ((reflect host jsonParse setting request scan pausedAfter schemaMode
            jsonMode).memories.map ReflectMemory.id) output
          (reflect host jsonParse setting request scan pausedAfter schemaMode
            jsonMode).candidates := by
  unfold reflect at member ⊢
  split at member
  · contradiction
  case h_2 agentId resolved =>
    split at member
    · contradiction
    case h_2 gathered scanned =>
      obtain ⟨generated, ran, outcome⟩ := generated_of_reflectOn member
      obtain ⟨content, finishReason, attempt, accepted⟩ := answer_of_generateAttempts ran
      obtain ⟨output, parsed, wellFormed⟩ := parseAndValidateCandidates_eq_ok.mp accepted
      refine ⟨content, finishReason, output, ?_, parsed, by rw [outcome]; exact wellFormed⟩
      simp only [List.mem_cons, Prod.mk.injEq, List.not_mem_nil, or_false] at attempt
      rcases attempt with ⟨-, same⟩ | ⟨-, same⟩
      · exact .inl same.symm
      · exact .inr same.symm

theorem cites_of_wellFormedOutput {output : Value} {candidates : List RawCandidate}
    {candidate : RawCandidate} (wellFormed : WellFormedOutput gatheredMemoryIds output candidates)
    (member : candidate ∈ candidates)
    : candidate.sourceMemoryIds ≠ []
      ∧ ∀ id ∈ candidate.sourceMemoryIds, id ∈ gatheredMemoryIds := by
  obtain ⟨items, -, -, all⟩ := wellFormed
  obtain ⟨item, -, stated⟩ : ∃ item ∈ items, States gatheredMemoryIds item candidate := by
    clear * - all member
    induction all with
    | nil => contradiction
    | cons stated _ ih =>
      rcases List.mem_cons.mp member with rfl | later
      · exact ⟨_, List.mem_cons_self, stated⟩
      · obtain ⟨item, within, stated⟩ := ih later
        exact ⟨item, List.mem_cons_of_mem _ within, stated⟩
  exact ⟨stated.sourcesNonempty, stated.sourcesGathered⟩

/-- Whatever the stored records, the request and the model's output: a run gathers records
of its agent only, under a tag only records carrying it, and a session-journal record only
when it is scoped to a session of that record; the parser accepts an output exactly when it
breaks no rule, and then each accepted candidate cites gathered records; a refused output
leaves the run without candidates.
-/
theorem distillation_stays_in_scope (host : Host) (jsonParse : String → Option Value)
    (setting : RunSetting) (request : ReflectRequest) (scan : List ScannedRow)
    (pausedAfter : Bool) (schemaMode jsonMode : ModelAnswer)
    : (∀ memory ∈ (reflect host jsonParse setting request scan pausedAfter schemaMode
          jsonMode).memories,
        memory ∈ scan.map ScannedRow.record
        ∧ resolveReflectActor request = .ok (some memory.agentId)
        ∧ (request.scope = some (.str "tagged")
          → ∃ held ∈ memory.tags.getD [], request.tag = some held)
        ∧ (memory.isJournal = true
          → ∃ session ∈ memory.tags.getD [],
              ScopedToSession (request.params host setting) session))
      ∧ (∀ candidate ∈ (reflect host jsonParse setting request scan pausedAfter schemaMode
          jsonMode).candidates,
        candidate.sourceMemoryIds ≠ []
        ∧ ∀ id ∈ candidate.sourceMemoryIds,
          ∃ memory ∈ (reflect host jsonParse setting request scan pausedAfter schemaMode
            jsonMode).memories, memory.id = id)
      ∧ (∀ raw gatheredMemoryIds candidates,
        parseAndValidateCandidates jsonParse raw gatheredMemoryIds = .ok candidates
          ↔ ∃ output, jsonParse raw = some output
            ∧ WellFormedOutput gatheredMemoryIds output candidates)
      ∧ ((∀ content finishReason output candidates,
          (schemaMode = .answered content finishReason ∨ jsonMode = .answered content finishReason)
          → jsonParse content = some output
          → ¬ WellFormedOutput ((reflect host jsonParse setting request scan pausedAfter
              schemaMode jsonMode).memories.map ReflectMemory.id) output candidates)
        → (reflect host jsonParse setting request scan pausedAfter schemaMode
            jsonMode).candidates = []) := by
  refine ⟨?gathered, ?cited, fun _ _ _ => parseAndValidateCandidates_eq_ok, ?refused⟩
  case gathered =>
    intro memory member
    obtain ⟨scanned, agentId, resolved, eligible⟩ := eligible_of_mem_memories member
    obtain ⟨owner, -, -, inScope⟩ := isEligible_facts eligible
    refine ⟨scanned, by rw [owner, resolved]; rfl, ?_, session_of_journal inScope⟩
    intro tagged
    exact carries_of_tagged inScope
      (by simp [ScopeParams.isTagged, ReflectRequest.query, ReflectRequest.params, tagged])
  case cited =>
    intro candidate member
    obtain ⟨_, _, output, -, -, wellFormed⟩ :=
      wellFormed_of_candidates member
    obtain ⟨nonempty, within⟩ := cites_of_wellFormedOutput wellFormed member
    exact ⟨nonempty, fun id cites => List.mem_map.mp (within id cites)⟩
  case refused =>
    intro violated
    by_contra some
    obtain ⟨candidate, member⟩ := List.exists_mem_of_ne_nil _ some
    obtain ⟨content, finishReason, output, answered, parsed, wellFormed⟩ :=
      wellFormed_of_candidates member
    exact violated content finishReason output _ answered parsed wellFormed

end Flair.Reflection
