import Flair.Hooks.SessionStartHooks

/-! The continuity capture hooks: one entry under PostToolUse and one under Stop, each with
the pin it had. Follows `src/doctor-client.ts` and `src/hook-install.ts`.
-/

namespace Flair.Hooks

open Dynamic Settings

def CONTINUITY_HOOK_EVENTS : List String := ["PostToolUse", "Stop"]

def CONTINUITY_POST_TOOL_USE_MATCHER : String := "Write|Edit|NotebookEdit|Bash"

def isContinuityHook (hook : Value) : Bool :=
  (hookCommand hook).any fun command => includes command CONTINUITY_CAPTURE_HOOK_MARKER

def findContinuityEntry (settings : Settings) (event : String) : Option (Nat × Nat) :=
  (settings.eventGroups event).bind (hookGrouping.find isContinuityHook)

def decideContinuityWrite (cli : Cli) (existingCommand : Option String) (entryLabel : String)
    : PinWriteDecision :=
  let pinText := continuityPackageArgument existingCommand
  match decidePinWrite cli FLAIR_MCP_PACKAGE entryLabel pinText with
  | .write pin =>
    if existingCommand.isNone then .write pin
    else
      let spec := decodeWiringSpec cli (pinText.getD "") FLAIR_MCP_PACKAGE
      if isComparableWiringPin spec then .write (wiringPinString spec) else .write none
  | decision => decision

def continuityGroup (event command : String) : Value :=
  .obj ([("hooks", .arr [hookEntry command])]
    ++ if event = "PostToolUse" then [("matcher", .str CONTINUITY_POST_TOOL_USE_MATCHER)] else [])

/-- What becomes of one event: the guard holds it back, or an action is taken. -/
inductive ContinuityStep where
  | blocked (decision : PinWriteDecision)
  | done (action : HookDeltaAction) (settings : Settings)

def installContinuityEvent (cli : Cli) (agentId : String) (flairUrl : Option String)
    (event : String) (settings : Settings)
    : Except String ContinuityStep :=
  let groups := (settings.eventGroups event).getD []
  let existing := findContinuityEntry settings event
  let group := (existing.bind fun place => groups[place.1]?).getD .null
  let hook := (existing.bind fun place => (hookGrouping.held group)[place.2]?).getD .null
  match decideContinuityWrite cli (existing.bind fun _ => hookCommand hook)
    (event ++ " continuity capture hook") with
  | .write pin => do
      let command ← buildContinuityCaptureHookCommand agentId flairUrl pin
      match existing with
      | some place =>
        let soleOwner := (hookGrouping.held group).length = 1
        let wantMatcher := event = "PostToolUse" ∧ soleOwner
        if runsCommand hook command
            ∧ (wantMatcher → matcherIs group CONTINUITY_POST_TOOL_USE_MATCHER) then
          return .done .noop settings
        else
          return .done .update (settings.putGroups event (groups.modify place.1 fun group =>
            let renewed := hookGrouping.withEntries group
              ((hookGrouping.held group).set place.2 (hookEntry command))
            if wantMatcher then
              withProperty renewed "matcher" (.str CONTINUITY_POST_TOOL_USE_MATCHER)
            else renewed))
      | none => return .done .add (settings.pushGroup event (continuityGroup event command))
  | decision => return .blocked decision

def PinWriteDecision.isRefuse : PinWriteDecision → Bool
  | .refuse _ => true
  | _ => false

structure ContinuityHookInstall where
  actions : List (String × HookDeltaAction)
  newConfig : Settings
  decision : Option PinWriteDecision

/-- The events in order; of several decisions that hold, a refusal comes first. -/
def installContinuityEvents (cli : Cli) (agentId : String) (flairUrl : Option String)
    : List String → Option PinWriteDecision → Settings → Except String ContinuityHookInstall
  | [], decision, settings => return ⟨[], settings, decision⟩
  | event :: events, decision, settings => do
      match ← installContinuityEvent cli agentId flairUrl event settings with
      | .blocked blocking =>
        let later ← installContinuityEvents cli agentId flairUrl events
          (if decision.isNone || blocking.isRefuse then some blocking else decision) settings
        return { later with actions := (event, .noop) :: later.actions }
      | .done action middle =>
        let later ← installContinuityEvents cli agentId flairUrl events decision middle
        return { later with actions := (event, action) :: later.actions }

/-- `computeContinuityHookInstall`: nothing is changed when the guard holds one event. -/
def computeContinuityHookInstall (cli : Cli) (settings : Settings) (agentId : String)
    (flairUrl : Option String)
    : Except String ContinuityHookInstall := do
  let installed ← installContinuityEvents cli agentId flairUrl CONTINUITY_HOOK_EVENTS none settings
  if installed.decision.isSome then
    return ⟨CONTINUITY_HOOK_EVENTS.map fun event => (event, .noop), settings, installed.decision⟩
  else return installed

def PinWriteDecision.line : PinWriteDecision → String
  | .write _ => "null"
  | .hold line | .refuse line => line

def installContinuityHooks (request : InstallRequest) (settings : Settings)
    : Except String Outcome := do
  if request.harness ≠ .claudeCode then
    throw ("continuity capture is Claude Code only — codex has no PostToolUse/Stop matcher Flair "
      ++ "can journal (SessionStart is still flair hook install --harness codex)")
  refuseUnsafe request.agentId request.flairUrl " (allowed: letters, digits, . _ : / -)"
  let installed ← computeContinuityHookInstall request.cli settings request.agentId
    (some request.flairUrl)
  match installed.decision with
  | some decision => return .held decision.line
  | none =>
    if anyChanged installed.actions then return .write installed.newConfig
    else return .noop ("continuity capture hooks already current in " ++ request.path)

def removeContinuityEvent (event : String) (settings : Settings) : HookDeltaAction × Settings :=
  match findContinuityEntry settings event with
  | none => (.noop, settings)
  | some place => (.remove, settings.removeEntry event place)

def computeContinuityHookRemoval (settings : Settings) : List (String × HookDeltaAction) × Settings :=
  let (actions, removed) := mergeEvents removeContinuityEvent CONTINUITY_HOOK_EVENTS settings
  (actions, if anyChanged actions then removed.dropEmptyHooks else removed)

def uninstallContinuityHooks (path : String) (settings : Settings) : Outcome :=
  let (actions, removed) := computeContinuityHookRemoval settings
  if anyChanged actions then .write removed
  else .noop ("no continuity capture hooks found in " ++ path ++ " — nothing to remove")

-- The pin of an entry

def PinKept (cli : Cli) (pin : Option String) : Prop :=
  ∀ version ∈ pin, matchesStrictSemver version.toList = true
    ∧ pinWriteWouldLowerOrIsUnknown cli version cli.version = false

variable {cli : Cli} {pin : Option String}

theorem pinKept_of_decide {existing : Option String} {label : String}
    (decided : decideContinuityWrite cli existing label = .write pin) (strict : cli.Strict)
    (reflexive : ∀ version, cli.compare version version = 0)
    : isResolvedVersion cli.version = true ∧ PinKept cli pin := by
  simp only [decideContinuityWrite] at decided
  split at decided
  · rename_i written
    obtain ⟨resolved, rfl, guard⟩ := decidePinWrite_write written
    refine ⟨resolved, ?_⟩
    split at decided
    · obtain rfl := PinWriteDecision.write.inj decided
      rintro version ⟨⟩
      exact ⟨strict, running_notLowered strict reflexive⟩
    · split at decided
      · rename_i comparable
        obtain rfl := PinWriteDecision.write.inj decided
        cases decoded : decodeWiringSpec cli
            ((continuityPackageArgument existing).getD "") FLAIR_MCP_PACKAGE with
        | none => simp [decoded, isComparableWiringPin] at comparable
        | some spec =>
          have kind : spec.token.kind = .version := by
            simpa [decoded, isComparableWiringPin] using comparable
          obtain ⟨version, pinned, strict_pin⟩ := pin_of_version decoded kind
          rw [pinned]
          rintro other ⟨⟩
          rcases guard spec decoded with none_kind | ⟨-, notLowered⟩
          · rw [kind] at none_kind
            cases none_kind
          · rw [pinned, Option.getD_some] at notLowered
            exact ⟨strict_pin, notLowered⟩
      · obtain rfl := PinWriteDecision.write.inj decided
        rintro version ⟨⟩
  · rename_i notWritten
    exact absurd decided (notWritten pin)

variable {agentId command : String} {flairUrl : Option String}

theorem decideContinuityWrite_again {label : String}
    (resolved : isResolvedVersion cli.version = true) (kept : PinKept cli pin)
    (built : buildContinuityCaptureHookCommand agentId flairUrl pin = .ok command)
    : decideContinuityWrite cli (some command) label = .write pin := by
  have token : ∀ version ∈ pin, IsToken version := fun version member =>
    token_of_form (matchesFormVersion_of_strict (kept version member).1)
  have spaceless : ∀ version ∈ pin, Spaceless version := fun version member =>
    spaceless_of_version (matchesFormVersion_of_strict (kept version member).1)
  have unquoted : ∀ version ∈ pin, version.toList.all isUnquotedChar = true := by
    intro version member
    rw [List.all_eq_true]
    intro c inside
    have apart := token version member c inside
    simp only [isTokenTerminator, Bool.or_eq_false_iff] at apart
    simp [isUnquotedChar, apart.1.1.1.1, bne, apart.1.1.2, apart.1.1.1.2]
  have argument := continuityPackageArgument_built built spaceless unquoted
  cases pin with
  | none =>
    have bare : pinnedSpec none = FLAIR_MCP_PACKAGE := rfl
    simp only [decideContinuityWrite, decidePinWrite, argument, bare, resolved,
      Option.getD_some, decodeWiringSpec_bare, isComparableWiringPin]
    rfl
  | some version =>
    obtain ⟨strict, notLowered⟩ := kept version rfl
    have some_text : version ≠ "" := by
      rintro rfl
      revert strict
      decide
    have pinned : pinnedSpec (some version) = FLAIR_MCP_PACKAGE ++ "@" ++ version := by
      have given : (some version).filter (fun pin => decide (pin ≠ "")) = some version := by
        simp [some_text]
      rw [pinnedSpec, given]
      rfl
    simp [decideContinuityWrite, decidePinWrite, argument, pinned, resolved,
      decodeWiringSpec_pinned cli (token version rfl), partitionWiringToken_strict cli strict,
      wiringPinString, isComparableWiringPin, notLowered]

-- One event

def continuityKind : Kind := fun _ => isContinuityHook

@[simp] theorem continuityKind_apply (event : String)
    : continuityKind event = isContinuityHook := rfl

def ContinuityDone (cli : Cli) (agentId : String) (flairUrl : Option String) : EventStep :=
  fun event settings action next =>
    installContinuityEvent cli agentId flairUrl event settings = .ok (.done action next)

theorem isContinuityHook_entry
    (built : buildContinuityCaptureHookCommand agentId flairUrl pin = .ok command)
    : isContinuityHook (hookEntry command) = true := by
  simp [isContinuityHook, includes_continuity built]

theorem findContinuityEntry_cases (settings : Settings) (event : String)
    : (findContinuityEntry settings event = none ∧ settings.ownEntries continuityKind event = [])
      ∨ ∃ groups, settings.eventGroups event = some groups
        ∧ ∃ first : Grouping.First hookGrouping isContinuityHook groups,
          findContinuityEntry settings event = some first.place :=
  find_cases continuityKind settings event

def WantedMatcher (event : String) (group : Value) : Prop :=
  event = "PostToolUse" ∧ (hookGrouping.held group).length = 1 →
    matcherIs group CONTINUITY_POST_TOOL_USE_MATCHER = true

variable {event : String} {settings : Settings}

theorem installContinuityEvent_current {groups : List Value}
    (listed : settings.eventGroups event = some groups)
    (first : Grouping.First hookGrouping isContinuityHook groups)
    (runs : runsCommand first.entry command = true) (matched : WantedMatcher event first.group)
    (decided : decideContinuityWrite cli (some command) (event ++ " continuity capture hook")
      = .write pin)
    (built : buildContinuityCaptureHookCommand agentId flairUrl pin = .ok command)
    : ContinuityDone cli agentId flairUrl event settings .noop settings := by
  have found : findContinuityEntry settings event = some first.place := by
    rw [findContinuityEntry, listed, Option.bind_some, first.find_eq]
  have entry : (hookGrouping.held first.group)[first.place.2]? = some first.entry := by
    rw [first.held_group]
    simp [Grouping.First.place]
  have current : hookCommand first.entry = some command := by
    simp only [runsCommand, Bool.and_eq_true, decide_eq_true_eq] at runs
    exact runs.2
  simp only [ContinuityDone, installContinuityEvent, found, listed, Option.getD_some,
    Option.bind_some, first.getElem?_place, entry, current, decided, built, bind, Except.bind]
  rw [if_pos ⟨runs, matched⟩]
  rfl

def renewedGroup (event : String) {groups : List Value}
    (first : Grouping.First hookGrouping isContinuityHook groups) (entry : Value)
    : Value :=
  let renewed := first.groupOf (first.ahead ++ entry :: first.behind)
  if event = "PostToolUse" ∧ (hookGrouping.held first.group).length = 1 then
    withProperty renewed "matcher" (.str CONTINUITY_POST_TOOL_USE_MATCHER)
  else renewed

theorem renewedGroup_facts (event : String) {groups : List Value}
    (first : Grouping.First hookGrouping isContinuityHook groups) {entry : Value}
    (isOurs : isContinuityHook entry = true)
    : hookGrouping.entries (renewedGroup event first entry)
        = some (first.ahead ++ entry :: first.behind)
      ∧ hookGrouping.residue isContinuityHook (renewedGroup event first entry)
        = hookGrouping.residue isContinuityHook first.group
      ∧ WantedMatcher event (renewedGroup event first entry) := by
  have renewed := first.entries_groupOf (first.ahead ++ entry :: first.behind)
  unfold renewedGroup
  split
  · rename_i wanted
    have listed : hookGrouping.entries (withProperty
          (first.groupOf (first.ahead ++ entry :: first.behind)) "matcher"
          (.str CONTINUITY_POST_TOOL_USE_MATCHER))
        = some (first.ahead ++ entry :: first.behind) := by
      rw [entries_withProperty _ _ (by decide), renewed]
    have alone : first.ahead ++ first.behind = [] := by
      have length := wanted.2
      rw [first.held_group, List.length_append, List.length_cons] at length
      rw [← List.length_eq_zero_iff, List.length_append]
      omega
    obtain ⟨noneAhead, noneBehind⟩ := List.append_eq_nil_iff.mp alone
    refine ⟨listed, ?_, fun _ => ?_⟩
    · rw [first.residue_alone alone, Grouping.residue_of_only listed (by simp)]
      simpa [noneAhead, noneBehind] using isOurs
    · rw [matcherIs, property_withProperty (object_of_property (property_hooks_of_entries renewed)),
        if_pos rfl, decide_eq_true_eq]
  · rename_i unwanted
    refine ⟨renewed, first.residue_replaced isOurs, fun wanted => absurd ⟨wanted.1, ?_⟩ unwanted⟩
    have length := wanted.2
    rw [Grouping.held_of_entries renewed] at length
    rw [first.held_group]
    simpa using length

theorem continuityDone_facts {next : Settings} {action : HookDeltaAction}
    (done : ContinuityDone cli agentId flairUrl event settings action next)
    : (action = .noop → next = settings)
      ∧ (∀ other ≠ event, next.eventGroups other = settings.eventGroups other)
      ∧ (∀ other, settings.Typed other → next.Typed other)
      ∧ (next.ownEntries continuityKind event).length
        = max 1 (settings.ownEntries continuityKind event).length
      ∧ (event ∈ CONTINUITY_HOOK_EVENTS → settings.Typed event →
        next.withoutFamily CONTINUITY_HOOK_EVENTS continuityKind
          = settings.withoutFamily CONTINUITY_HOOK_EVENTS continuityKind)
      ∧ (cli.Strict → (∀ version, cli.compare version version = 0) →
        ∀ later : Settings, later.eventGroups event = next.eventGroups event →
          ContinuityDone cli agentId flairUrl event later .noop later) := by
  unfold ContinuityDone installContinuityEvent at done
  simp only at done
  split at done
  swap
  · simp [pure, Except.pure] at done
  rename_i pin decided
  obtain ⟨command, built, done⟩ := bind_eq_ok.mp done
  have ours := isContinuityHook_entry built
  obtain ⟨absent, none_own⟩ | ⟨groups, listed, first, present⟩ :=
    findContinuityEntry_cases settings event
  · simp only [absent, pure, Except.pure, Except.ok.injEq, ContinuityStep.done.injEq] at done
    obtain ⟨rfl, rfl⟩ := done
    have entries : hookGrouping.entries (continuityGroup event command)
        = some [hookEntry command] := by
      unfold continuityGroup
      split <;> rfl
    have own := @own_pushGroup continuityKind settings event _ _ entries ours
    refine ⟨by simp, fun other apart => by simp [apart],
      fun other typed => typed_putGroups typed, by simp [own, none_own],
      fun among typed => withoutFamily_pushGroup among typed entries ours,
      fun strict reflexive later same => ?_⟩
    obtain ⟨pushed, group, -, entry, -⟩ := @first_pushGroup continuityKind settings event _ _
      entries ours none_own
    rw [eventGroups_pushGroup, if_pos rfl] at same
    obtain ⟨resolved, kept⟩ := pinKept_of_decide decided strict reflexive
    refine installContinuityEvent_current same pushed ?_ ?_
      (decideContinuityWrite_again resolved kept built) built
    · simp [entry, runsCommand]
    · rw [group]
      rintro ⟨rfl, -⟩
      rfl
  · have hook : (hookGrouping.held first.group)[first.place.2]? = some first.entry := by
      rw [first.held_group]
      simp [Grouping.First.place]
    have again : cli.Strict → (∀ version, cli.compare version version = 0) →
        decideContinuityWrite cli (some command) (event ++ " continuity capture hook")
          = .write pin := by
      intro strict reflexive
      obtain ⟨resolved, kept⟩ := pinKept_of_decide decided strict reflexive
      exact decideContinuityWrite_again resolved kept built
    simp only [present, listed, Option.getD_some, Option.bind_some, first.getElem?_place, hook]
      at done
    split at done
    · rename_i current
      simp only [pure, Except.pure, Except.ok.injEq, ContinuityStep.done.injEq] at done
      obtain ⟨rfl, rfl⟩ := done
      refine ⟨fun _ => rfl, fun _ _ => rfl, fun _ typed => typed, ?_, fun _ _ => rfl,
        fun strict reflexive later same => ?_⟩
      · rw [ownEntries, listed, Option.getD_some, continuityKind_apply, first.own_eq]
        simp
      · exact installContinuityEvent_current (same.trans listed) first current.1 current.2
          (again strict reflexive) built
    · rename_i stale
      simp only [pure, Except.pure, Except.ok.injEq, ContinuityStep.done.injEq] at done
      obtain ⟨rfl, rfl⟩ := done
      have renewed : groups.modify first.place.1 (fun group =>
            let renewed := hookGrouping.withEntries group
              ((hookGrouping.held group).set first.place.2 (hookEntry command))
            if event = "PostToolUse" ∧ (hookGrouping.held first.group).length = 1 then
              withProperty renewed "matcher" (.str CONTINUITY_POST_TOOL_USE_MATCHER)
            else renewed)
          = first.withGroup (renewedGroup event first (hookEntry command)) := by
        rw [first.modify_place, renewedGroup, first.held_group]
        simp [Grouping.First.place, Grouping.First.groupOf]
      obtain ⟨entries, residue, wanted⟩ := renewedGroup_facts event first ours
      have own := first.own_replaced entries ours
      simp only [renewed]
      refine ⟨by simp, fun other apart => by simp [apart],
        fun other typed => typed_putGroups typed, ?_, fun among typed => ?_,
        fun strict reflexive later same => ?_⟩
      · rw [ownEntries_putGroups, if_pos rfl, ownEntries, listed, Option.getD_some,
          continuityKind_apply, own, first.own_eq]
        simp
      · refine withoutFamily_putGroups among typed ?_
        rw [listed, Option.getD_some]
        exact first.others_withGroup residue
      · rw [eventGroups_putGroups, if_pos rfl] at same
        exact installContinuityEvent_current same (first.replaced entries ours)
          (by simp [Grouping.First.replaced, runsCommand]) wanted (again strict reflexive) built

-- Both events

section

variable {cli : Cli} {agentId : String} {flairUrl : Option String} {events : List String}
  {settings : Settings} {installed : ContinuityHookInstall}

theorem continuityDone_confined
    : (ContinuityDone cli agentId flairUrl).Confined where
  frame done := (continuityDone_facts done).2.1
  kept done := (continuityDone_facts done).1 rfl

theorem installContinuityEvents_held {decision : PinWriteDecision}
    (ran : installContinuityEvents cli agentId flairUrl events (some decision) settings
      = .ok installed)
    : installed.decision ≠ none := by
  induction events generalizing settings decision installed with
  | nil =>
    obtain rfl := Except.ok.inj ran
    simp
  | cons event events ih =>
    unfold installContinuityEvents at ran
    obtain ⟨step, here, ran⟩ := bind_eq_ok.mp ran
    have later : ∃ decision settings later,
        installContinuityEvents cli agentId flairUrl events (some decision) settings
          = .ok later ∧ installed.decision = later.decision := by
      cases step with
      | blocked blocking =>
        obtain ⟨rest, same, ran⟩ := bind_eq_ok.mp ran
        obtain rfl := Except.ok.inj ran
        simp only [Option.isNone_some, Bool.false_or] at same
        split at same <;> exact ⟨_, _, rest, same, rfl⟩
      | done action middle =>
        obtain ⟨rest, same, ran⟩ := bind_eq_ok.mp ran
        obtain rfl := Except.ok.inj ran
        exact ⟨_, _, rest, same, rfl⟩
    obtain ⟨_, _, rest, same, decided⟩ := later
    rw [decided]
    exact ih same

theorem installContinuityEvents_run {decision : Option PinWriteDecision}
    (ran : installContinuityEvents cli agentId flairUrl events decision settings = .ok installed)
    (free : installed.decision = none)
    : EventRun (ContinuityDone cli agentId flairUrl) events settings
        (installed.actions.map Prod.snd) installed.newConfig := by
  induction events generalizing settings decision installed with
  | nil =>
    obtain rfl := Except.ok.inj ran
    exact .nil settings
  | cons event events ih =>
    unfold installContinuityEvents at ran
    obtain ⟨step, here, ran⟩ := bind_eq_ok.mp ran
    cases step with
    | blocked blocking =>
      obtain ⟨rest, same, ran⟩ := bind_eq_ok.mp ran
      obtain rfl := Except.ok.inj ran
      have held : (if (decision.isNone || blocking.isRefuse) = true then some blocking
          else decision) ≠ none := by
        split
        · simp
        · rename_i unheld
          intro none_decision
          simp [none_decision] at unheld
      obtain ⟨some_decision, is_some⟩ := Option.ne_none_iff_exists'.mp held
      rw [is_some] at same
      have stays := installContinuityEvents_held same
      exact absurd free stays
    | done action middle =>
      obtain ⟨rest, same, ran⟩ := bind_eq_ok.mp ran
      obtain rfl := Except.ok.inj ran
      exact .cons here (ih same free)

theorem installContinuityEvents_settled
    (current : ∀ event ∈ events,
      ContinuityDone cli agentId flairUrl event settings .noop settings)
    : installContinuityEvents cli agentId flairUrl events none settings
      = .ok ⟨events.map fun event => (event, .noop), settings, none⟩ := by
  induction events with
  | nil => rfl
  | cons event events ih =>
    rw [List.forall_mem_cons] at current
    obtain ⟨here, current⟩ := current
    rw [ContinuityDone] at here
    simp only [installContinuityEvents, here, bind, Except.bind, ih current]
    rfl

theorem computeContinuityHookInstall_facts
    (computed : computeContinuityHookInstall cli settings agentId flairUrl = .ok installed)
    (free : installed.decision = none)
    : (anyChanged installed.actions = false → installed.newConfig = settings)
      ∧ (∀ event ∈ CONTINUITY_HOOK_EVENTS,
        (installed.newConfig.ownEntries continuityKind event).length
          = max 1 (settings.ownEntries continuityKind event).length)
      ∧ ((∀ event ∈ CONTINUITY_HOOK_EVENTS, settings.Typed event) →
        installed.newConfig.withoutFamily CONTINUITY_HOOK_EVENTS continuityKind
          = settings.withoutFamily CONTINUITY_HOOK_EVENTS continuityKind)
      ∧ (cli.Strict → (∀ version, cli.compare version version = 0) →
        computeContinuityHookInstall cli installed.newConfig agentId flairUrl
          = .ok ⟨CONTINUITY_HOOK_EVENTS.map fun event => (event, .noop), installed.newConfig,
              none⟩) := by
  unfold computeContinuityHookInstall at computed
  obtain ⟨result, ran, computed⟩ := bind_eq_ok.mp computed
  split at computed
  · rename_i held
    obtain rfl := Except.ok.inj computed
    exact absurd free (Option.isSome_iff_ne_none.mp held)
  · obtain rfl := Except.ok.inj computed
    have run := installContinuityEvents_run ran free
    have once : CONTINUITY_HOOK_EVENTS.Nodup := by decide
    refine ⟨fun unchanged => run.kept continuityDone_confined
        (anyChanged_eq_false.mp unchanged), fun event member => ?_,
      fun typed => run.preserved_of_typed _ (fun done => (continuityDone_facts done).2.2.1)
        (fun done => (continuityDone_facts done).2.2.2.2.1) (List.Subset.refl _) typed,
      fun strict reflexive => ?_⟩
    · obtain ⟨before, action, after, done, same, final⟩ :=
        run.at_event continuityDone_confined once member
      have count := (continuityDone_facts done).2.2.2.1
      rw [ownEntries, ownEntries, final, ← same]
      exact count
    · have current : ∀ event ∈ CONTINUITY_HOOK_EVENTS,
          ContinuityDone cli agentId flairUrl event result.newConfig .noop result.newConfig := by
        intro event member
        obtain ⟨before, action, after, done, -, final⟩ :=
          run.at_event continuityDone_confined once member
        exact (continuityDone_facts done).2.2.2.2.2 strict reflexive _ final
      rw [computeContinuityHookInstall, installContinuityEvents_settled current]
      rfl

end

-- The removal

def ContinuityRemoved : EventStep :=
  fun event settings action next => removeContinuityEvent event settings = (action, next)

theorem continuityRemoved_facts {next : Settings} {action : HookDeltaAction}
    (removed : ContinuityRemoved event settings action next)
    : (action = .noop → next = settings)
      ∧ (∀ other ≠ event, next.eventGroups other = settings.eventGroups other)
      ∧ next.ownEntries continuityKind event = (settings.ownEntries continuityKind event).tail
      ∧ (event ∈ CONTINUITY_HOOK_EVENTS →
        next.withoutFamily CONTINUITY_HOOK_EVENTS continuityKind
          = settings.withoutFamily CONTINUITY_HOOK_EVENTS continuityKind) := by
  unfold ContinuityRemoved removeContinuityEvent at removed
  obtain ⟨absent, none_own⟩ | ⟨groups, listed, first, present⟩ :=
    findContinuityEntry_cases settings event
  · simp only [absent, Prod.mk.injEq] at removed
    obtain ⟨rfl, rfl⟩ := removed
    exact ⟨fun _ => rfl, fun _ _ => rfl, by rw [none_own]; rfl, fun _ => rfl⟩
  · simp only [present, Prod.mk.injEq] at removed
    obtain ⟨rfl, rfl⟩ := removed
    obtain ⟨own, frame, left⟩ := @removeEntry_facts CONTINUITY_HOOK_EVENTS continuityKind settings
      event groups listed first
    exact ⟨by simp, frame, own, left⟩

theorem continuityRemoved_confined : ContinuityRemoved.Confined where
  frame removed := (continuityRemoved_facts removed).2.1
  kept removed := (continuityRemoved_facts removed).1 rfl

theorem computeContinuityHookRemoval_facts (settings : Settings)
    : let result := computeContinuityHookRemoval settings
      (anyChanged result.1 = false → result.2 = settings)
      ∧ (∀ event ∈ CONTINUITY_HOOK_EVENTS,
        result.2.ownEntries continuityKind event
          = (settings.ownEntries continuityKind event).tail)
      ∧ result.2.withoutFamily CONTINUITY_HOOK_EVENTS continuityKind
          = settings.withoutFamily CONTINUITY_HOOK_EVENTS continuityKind := by
  have run : EventRun ContinuityRemoved _ _ _ _ :=
    eventRun_mergeEvents removeContinuityEvent CONTINUITY_HOOK_EVENTS settings
  simp only [computeContinuityHookRemoval]
  generalize mergeEvents removeContinuityEvent CONTINUITY_HOOK_EVENTS settings = result at run ⊢
  have own : ∀ event ∈ CONTINUITY_HOOK_EVENTS, result.2.ownEntries continuityKind event
      = (settings.ownEntries continuityKind event).tail := by
    intro event member
    obtain ⟨before, action, after, removed, same, final⟩ :=
      run.at_event continuityRemoved_confined (by decide) member
    have tail := (continuityRemoved_facts removed).2.2.1
    rw [ownEntries, final, ← ownEntries, tail, ownEntries, ownEntries, same]
  have left := run.preserved _ (fun removed => (continuityRemoved_facts removed).2.2.2)
    (List.Subset.refl _)
  cases changed : anyChanged result.1 with
  | false =>
    refine ⟨fun _ => ?_, own, left⟩
    exact run.kept continuityRemoved_confined (anyChanged_eq_false.mp changed)
  | true =>
    refine ⟨by simp, fun event member => ?_, ?_⟩
    · exact ownEntries_dropEmptyHooks.trans (own event member)
    · exact remainder_dropEmptyHooks.trans left

end Flair.Hooks
