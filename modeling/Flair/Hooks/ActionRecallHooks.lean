import Flair.Hooks.SessionStartHooks

/-! The action-recall hooks: a PreToolUse entry of their own, and the refresh flag on the
SessionStart entry. Follows `src/hook-install.ts`.
-/

namespace Flair.Hooks

open Dynamic Settings

structure ActionRecallRuntime where
  bunPath : String
  artifactPath : String

/-- `hookArtifactForPackage`: an absolute directory joined with the file's place in it. -/
def hookArtifactForPackage (packageDir artifactFile : String) : String :=
  packageDir ++ "/dist/" ++ artifactFile

/-- A request with the runtime found and the directory it was provisioned to, or why it
could not be.
-/
structure RuntimeRequest extends InstallRequest where
  runtime : ActionRecallRuntime
  provisioned : Except String String

def RuntimeRequest.installed (request : RuntimeRequest) (packageDir artifactFile : String)
    : ActionRecallRuntime :=
  ⟨request.runtime.bunPath, hookArtifactForPackage packageDir artifactFile⟩

def isActionRecallHook (hook : Value) : Bool :=
  (hookCommand hook).any isFlairActionRecallCommand

/-- Take the family's entries out of groups they share with others; whether any were. -/
def clearShared (settings : Settings) : Bool × Settings :=
  match settings.eventGroups "PreToolUse" with
  | some groups => (hookGrouping.isMixed isActionRecallHook groups,
      settings.putGroups "PreToolUse" (hookGrouping.separate isActionRecallHook groups))
  | none => (false, settings)

/-- Bring the first entry left up to date, or push a group. -/
def renewPreToolUse (cleared : Settings) (mixed : Bool) (command : String)
    : HookDeltaAction × Settings :=
  let groups := (cleared.eventGroups "PreToolUse").getD []
  match hookGrouping.find isActionRecallHook groups with
  | some place =>
    let group := (groups[place.1]?).getD .null
    let hook := ((hookGrouping.held group)[place.2]?).getD .null
    if runsCommand hook command && matcherIs group "Bash" then
      (if mixed then .update else .noop, cleared)
    else
      (.update, cleared.putGroups "PreToolUse" (groups.modify place.1 fun group =>
        withProperty
          (hookGrouping.withEntries group
            ((hookGrouping.held group).set place.2 (withCommand hook command)))
          "matcher" (.str "Bash")))
  | none =>
    (if mixed then .update else .add, cleared.pushGroup "PreToolUse"
      (.obj [("matcher", .str "Bash"), ("hooks", .arr [hookEntry command])]))

def installPreToolUse (settings : Settings) (command : String) : HookDeltaAction × Settings :=
  renewPreToolUse (clearShared settings).2 (clearShared settings).1 command

/-- What becomes of the SessionStart entry; `none` is "skipped". -/
structure SessionStartDelta where
  action : Option HookDeltaAction
  before : Option String
  newConfig : Settings

def enableRefresh (cli : Cli) (settings : Settings) (agentId flairUrl : String)
    : Except String SessionStartDelta := do
  match findHookEntry settings with
  | some place =>
    let groups := (settings.eventGroups "SessionStart").getD []
    let hook := (((groups[place.1]?).map hookGrouping.held).bind fun hooks =>
      hooks[place.2]?).getD .null
    let current := (hookCommand hook).getD ""
    match parseInstallerHookForm current with
    | none => return ⟨none, some current, settings⟩
    | some _ =>
      let rebuilt ← buildSessionStartHookCommand cli agentId (some flairUrl) .claudeCode true
      if rebuilt = current ∧ property hook "type" = some (.str "command") then
        return ⟨some .noop, some current, settings⟩
      else
        return ⟨some .update, some current, settings.putGroups "SessionStart"
          (hookGrouping.put groups place (hookEntry rebuilt))⟩
  | none =>
    let rebuilt ← buildSessionStartHookCommand cli agentId (some flairUrl) .claudeCode true
    return ⟨some .add, none, settings.pushGroup "SessionStart" (makeHookGroup rebuilt)⟩

structure ActionRecallDelta where
  changed : Bool
  newConfig : Settings
  preToolUse : HookDeltaAction
  sessionStart : Option HookDeltaAction
  sessionStartBefore : Option String

def computeActionRecallInstall (cli : Cli) (settings : Settings) (runtime : ActionRecallRuntime)
    (agentId flairUrl : String)
    : Except String ActionRecallDelta := do
  let command ← buildActionRecallHookCommand runtime.bunPath runtime.artifactPath agentId
    (some flairUrl) none
  let (preToolUse, cleared) := installPreToolUse settings command
  let session ← enableRefresh cli cleared agentId flairUrl
  return {
    changed := decide (preToolUse ≠ .noop) || decide (session.action = some .update)
      || decide (session.action = some .add)
    newConfig := session.newConfig
    preToolUse := preToolUse
    sessionStart := session.action
    sessionStartBefore := session.before }

def actionRecallInstallRefusal (cli : Cli) (delta : ActionRecallDelta) (path : String)
    : Option String :=
  match delta.sessionStart with
  | none =>
    some ("SessionStart in " ++ path
      ++ " is not a compatible installer command — nothing written")
  | some .add | some .update =>
    match decidePinWrite cli FLAIR_MCP_PACKAGE (sessionStartEntryLabel path)
      (guardedPinSpan delta.sessionStartBefore) with
    | .write _ => none
    | .hold line | .refuse line => some line
  | some _ => none

/-- `installActionRecall`: refused as a whole unless the SessionStart entry may be written. -/
def installActionRecall (request : RuntimeRequest) (settings : Settings)
    : Except String Outcome := do
  if request.harness ≠ .claudeCode then
    throw "action recall is Claude Code only — codex has no PreToolUse Bash hook"
  refuseUnsafe request.agentId request.flairUrl ""
  let delta ← computeActionRecallInstall request.cli settings request.runtime request.agentId
    request.flairUrl
  match actionRecallInstallRefusal request.cli delta request.path with
  | some line => return .held line
  | none =>
    match request.provisioned with
    | .error failure => return .held (failure ++ " — nothing written")
    | .ok packageDir =>
      let durable ← computeActionRecallInstall request.cli settings
        (request.installed packageDir ACTION_RECALL_HOOK_MARKER) request.agentId
        request.flairUrl
      if durable.changed then return .write durable.newConfig
      else return .noop ("action-recall hook already current in " ++ request.path)

def withoutActionRecall (group : Value) : Option Value :=
  match hookGrouping.entries group with
  | none => some group
  | some hooks =>
    let retained := hooks.filter fun hook => !isActionRecallHook hook
    if retained.length = hooks.length then some group
    else if retained = [] then none
    else some (hookGrouping.withEntries group retained)

def removePreToolUse (settings : Settings) : HookDeltaAction × Settings :=
  let groups := (settings.eventGroups "PreToolUse").getD []
  let kept := groups.filterMap withoutActionRecall
  if !(hookGrouping.all groups).any isActionRecallHook then (.noop, settings)
  else if kept = [] then (.remove, (settings.putGroups "PreToolUse" kept).dropEvent "PreToolUse")
  else (.remove, settings.putGroups "PreToolUse" kept)

def disableRefresh (cli : Cli) (settings : Settings) : Except String SessionStartDelta := do
  match findHookEntry settings with
  | none => return ⟨none, none, settings⟩
  | some place =>
    let groups := (settings.eventGroups "SessionStart").getD []
    let hook := (((groups[place.1]?).map hookGrouping.held).bind fun hooks =>
      hooks[place.2]?).getD .null
    let current := (hookCommand hook).getD ""
    match parseInstallerHookForm current with
    | none => return ⟨some .noop, some current, settings⟩
    | some form =>
      if sessionStartEnablesActionRecall current then
        let rebuilt ← buildSessionStartHookCommand cli form.agentId form.flairUrl form.harness
          false
        return ⟨some .update, some current, settings.putGroups "SessionStart"
          (hookGrouping.put groups place (hookEntry rebuilt))⟩
      else return ⟨some .noop, some current, settings⟩

def computeActionRecallRemoval (cli : Cli) (settings : Settings)
    : Except String ActionRecallDelta := do
  let (preToolUse, cleared) := removePreToolUse settings
  let session ← disableRefresh cli cleared
  return {
    changed := decide (preToolUse = .remove) || decide (session.action = some .update)
    newConfig := session.newConfig
    preToolUse := preToolUse
    sessionStart := session.action
    sessionStartBefore := session.before }

def uninstallActionRecall (cli : Cli) (path : String) (settings : Settings)
    : Except String Outcome := do
  let delta ← computeActionRecallRemoval cli settings
  if delta.changed then return .write delta.newConfig
  else return .noop ("no action-recall hook found in " ++ path ++ " — nothing to remove")

-- The PreToolUse part

/-- The family's entries: by its command under PreToolUse, by the marker elsewhere. -/
def actionRecallKind : Kind := fun event =>
  if event = "PreToolUse" then isActionRecallHook else isSessionStartHook

@[simp] def actionRecallEvents : List String := ["PreToolUse", "SessionStart"]

@[simp] theorem actionRecallKind_preToolUse
    : actionRecallKind "PreToolUse" = isActionRecallHook := rfl

@[simp] theorem actionRecallKind_sessionStart
    : actionRecallKind "SessionStart" = isSessionStartHook := rfl

variable {command : String}

theorem isActionRecallHook_command {hook : Value}
    (recognised : isFlairActionRecallCommand command = true)
    (runs : hookCommand hook = some command)
    : isActionRecallHook hook = true := by
  simp [isActionRecallHook, runs, recognised]

def dedicatedEntries (settings : Settings) : Nat :=
  (hookGrouping.own isActionRecallHook (((settings.eventGroups "PreToolUse").getD []).filter
    (hookGrouping.onlyOurs isActionRecallHook))).length

theorem clearShared_facts (settings : Settings)
    : let cleared := (clearShared settings).2
      let groups := (cleared.eventGroups "PreToolUse").getD []
      ((clearShared settings).1 = false → cleared = settings)
      ∧ hookGrouping.isMixed isActionRecallHook groups = false
      ∧ (hookGrouping.own isActionRecallHook groups).length = dedicatedEntries settings
      ∧ (∀ other ≠ "PreToolUse", cleared.eventGroups other = settings.eventGroups other)
      ∧ (∀ other, settings.Typed other → cleared.Typed other)
      ∧ cleared.withoutFamily actionRecallEvents actionRecallKind
        = settings.withoutFamily actionRecallEvents actionRecallKind := by
  unfold clearShared
  cases listed : settings.eventGroups "PreToolUse" with
  | none =>
    simp only [listed, Option.getD_none]
    refine ⟨fun _ => trivial, rfl, ?_, fun _ _ => trivial, fun _ typed => typed, trivial⟩
    simp [dedicatedEntries, listed]
  | some groups =>
    simp only [eventGroups_putGroups, ↓reduceIte, Option.getD_some]
    refine ⟨?_, Grouping.isMixed_separate groups, ?_, fun other apart => by simp [apart],
      fun _ typed => typed_putGroups typed, ?_⟩
    · intro pure
      rw [Grouping.separate_of_not_mixed pure]
      exact putGroups_self listed
    · rw [Grouping.own_separate, dedicatedEntries, listed, Option.getD_some]
    · refine withoutFamily_putGroups (by simp)
        (typed_of_eventGroups listed) ?_
      rw [listed, Option.getD_some]
      exact Grouping.others_separate groups

variable {groups : List Value}

theorem dedicated_group (pure : hookGrouping.isMixed isActionRecallHook groups = false)
    (first : Grouping.First hookGrouping isActionRecallHook groups)
    : first.ahead = [] ∧ ∀ hook ∈ first.behind, isActionRecallHook hook = true := by
  simp only [Grouping.isMixed, List.any_eq_false, Bool.and_eq_true, Bool.not_eq_true',
    not_and] at pure
  have inside : first.group ∈ groups := List.mem_of_getElem? first.getElem?_place
  have ours : (hookGrouping.held first.group).any isActionRecallHook = true := by
    rw [first.held_group, List.any_eq_true]
    exact ⟨first.entry, by simp, first.isOurs⟩
  have only : hookGrouping.onlyOurs isActionRecallHook first.group = true := by
    by_contra mixed
    exact pure first.group inside (by simpa using mixed) ours
  have all_ours := ((Grouping.onlyOurs_iff first.listed).mp only).2
  constructor
  · cases ahead : first.ahead with
    | nil => rfl
    | cons hook rest =>
      have foreign := first.noneAhead hook (by simp [ahead])
      have own := all_ours hook (by simp [ahead])
      rw [foreign] at own
      cases own
  · exact fun hook member => all_ours hook (by simp [member])

def PreToolUseCurrent (groups : List Value) (command : String) : Prop :=
  hookGrouping.isMixed isActionRecallHook groups = false
  ∧ ∃ first : Grouping.First hookGrouping isActionRecallHook groups,
    runsCommand first.entry command = true ∧ matcherIs first.group "Bash" = true

variable {settings : Settings}

theorem installPreToolUse_current (listed : settings.eventGroups "PreToolUse" = some groups)
    (current : PreToolUseCurrent groups command)
    : installPreToolUse settings command = (.noop, settings) := by
  obtain ⟨pure, first, runs, matched⟩ := current
  have same : clearShared settings = (false, settings) := by
    simp only [clearShared, listed, pure, Grouping.separate_of_not_mixed pure,
      putGroups_self listed]
  have entry : ((hookGrouping.held first.group)[first.place.2]?).getD .null = first.entry := by
    rw [first.held_group]
    simp [Grouping.First.place]
  simp only [installPreToolUse, renewPreToolUse, same, listed, Option.getD_some, first.find_eq,
    first.getElem?_place, entry, runs, matched, Bool.and_self, ↓reduceIte, Bool.false_eq_true]

theorem renewPreToolUse_facts {cleared : Settings} (mixed : Bool)
    (recognised : isFlairActionRecallCommand command = true)
    (groups_eq : (cleared.eventGroups "PreToolUse").getD [] = groups)
    (pure : hookGrouping.isMixed isActionRecallHook groups = false)
    : let result := renewPreToolUse cleared mixed command
      (result.1 = .noop → mixed = false ∧ result.2 = cleared)
      ∧ (result.2.ownEntries actionRecallKind "PreToolUse").length
        = max 1 (hookGrouping.own isActionRecallHook groups).length
      ∧ (∀ other ≠ "PreToolUse", result.2.eventGroups other = cleared.eventGroups other)
      ∧ (∀ other, cleared.Typed other → result.2.Typed other)
      ∧ (cleared.Typed "PreToolUse" →
        result.2.withoutFamily actionRecallEvents actionRecallKind
          = cleared.withoutFamily actionRecallEvents actionRecallKind)
      ∧ ∃ groups, result.2.eventGroups "PreToolUse" = some groups
        ∧ PreToolUseCurrent groups command := by
  simp only [renewPreToolUse, groups_eq]
  cases found : hookGrouping.find isActionRecallHook groups with
  | none =>
    have none_own : hookGrouping.own isActionRecallHook groups = [] :=
      Grouping.find_eq_none.mp found
    have ours := isActionRecallHook_command recognised (hookCommand_hookEntry command)
    have entries : hookGrouping.entries
        (.obj [("matcher", .str "Bash"), ("hooks", .arr [hookEntry command])])
        = some [hookEntry command] := rfl
    have listed : (cleared.pushGroup "PreToolUse"
        (.obj [("matcher", .str "Bash"), ("hooks", .arr [hookEntry command])])).eventGroups
          "PreToolUse"
        = some (groups ++ [.obj [("matcher", .str "Bash"), ("hooks", .arr [hookEntry command])]])
        := by
      rw [pushGroup, eventGroups_putGroups, if_pos rfl, groups_eq]
    let first : Grouping.First hookGrouping isActionRecallHook
        (groups ++ [.obj [("matcher", .str "Bash"), ("hooks", .arr [hookEntry command])]]) :=
      ⟨groups, .obj [("matcher", .str "Bash"), ("hooks", .arr [hookEntry command])], [], [],
        hookEntry command, [], rfl, entries, ours, none_own, by simp⟩
    refine ⟨?_, ?_, ?_, fun other typed => typed_putGroups typed, fun typed => ?_, ?_⟩
    · cases mixed <;> simp
    · rw [ownEntries, listed, Option.getD_some, actionRecallKind_preToolUse, first.own_eq,
        none_own]
      simp [first]
    · intro other apart
      rw [pushGroup, eventGroups_putGroups, if_neg apart]
    · refine withoutFamily_putGroups (by simp) typed ?_
      have nothing : hookGrouping.residue isActionRecallHook
          (.obj [("matcher", .str "Bash"), ("hooks", .arr [hookEntry command])]) = none :=
        Grouping.residue_of_only entries (by simp) (by simpa using ours)
      simp [groups_eq, Grouping.others_cons, nothing]
    · refine ⟨_, listed, ?_, first, ?_, rfl⟩
      · simp only [Grouping.isMixed, List.any_append, List.any_cons, List.any_nil,
          Bool.or_false, Bool.or_eq_false_iff]
        refine ⟨pure, ?_⟩
        have only := (Grouping.onlyOurs_iff entries).mpr ⟨by simp, by simpa using ours⟩
        simp [only]
      · simp [first, runsCommand]
  | some place =>
    obtain ⟨first, rfl⟩ := Grouping.first_of_find found
    obtain ⟨noneAhead, behindOurs⟩ := dedicated_group pure first
    have listed : cleared.eventGroups "PreToolUse" = some groups := by
      cases held : cleared.eventGroups "PreToolUse" with
      | none =>
        have nonempty : groups ≠ [] := List.ne_nil_of_mem
          (List.mem_of_getElem? first.getElem?_place)
        exact absurd (by rw [← groups_eq, held]; rfl) nonempty
      | some kept =>
        rw [held, Option.getD_some] at groups_eq
        rw [groups_eq]
    have entry : ((hookGrouping.held first.group)[first.place.2]?).getD .null
        = first.entry := by
      rw [first.held_group]
      simp [Grouping.First.place]
    simp only [first.getElem?_place, Option.getD_some, entry]
    split
    · rename_i current
      rw [Bool.and_eq_true] at current
      refine ⟨?_, ?_, fun _ _ => rfl, fun _ typed => typed, fun _ => rfl, ?_⟩
      · cases mixed <;> simp
      · rw [ownEntries, listed, Option.getD_some, actionRecallKind_preToolUse]
        simp [first.own_eq]
      · exact ⟨groups, listed, pure, first, current.1, current.2⟩
    · have object : ∃ fields, first.entry = .obj fields := by
        cases old : hookCommand first.entry with
        | none =>
          have isOurs := first.isOurs
          simp [isActionRecallHook, old] at isOurs
        | some before => exact object_of_hookCommand old
      have facts := withCommand_facts object command
      have ours := isActionRecallHook_command recognised facts.1
      have place_two : (hookGrouping.held first.group).set first.place.2
          (withCommand first.entry command) = withCommand first.entry command :: first.behind := by
        rw [first.held_group]
        simp [Grouping.First.place, noneAhead]
      have entries : hookGrouping.entries (withProperty
            (hookGrouping.withEntries first.group
              (withCommand first.entry command :: first.behind)) "matcher" (.str "Bash"))
          = some (withCommand first.entry command :: first.behind) := by
        rw [entries_withProperty _ _ (by decide)]
        exact hookGrouping.entries_withEntries first.listed _
      have nothing : hookGrouping.residue isActionRecallHook first.group
          = none :=
        Grouping.residue_of_only first.listed (by simp) (by
          simpa [noneAhead, first.isOurs] using behindOurs)
      have onlyOurs : ∀ hook ∈ withCommand first.entry command :: first.behind,
          isActionRecallHook hook = true := List.forall_mem_cons.mpr ⟨ours, behindOurs⟩
      have nothing' := Grouping.residue_of_only entries (by simp) onlyOurs
      rw [first.modify_place, place_two]
      generalize renewed : withProperty (hookGrouping.withEntries first.group
        (withCommand first.entry command :: first.behind)) "matcher" (.str "Bash") = group
        at entries nothing' ⊢
      have matched : matcherIs group "Bash" = true := by
        have object : ∃ fields, hookGrouping.withEntries first.group
            (withCommand first.entry command :: first.behind) = .obj fields :=
          object_of_property (property_hooks_of_entries
            (hookGrouping.entries_withEntries first.listed _))
        rw [← renewed, matcherIs, property_withProperty object]
        simp
      have listed' : (cleared.putGroups "PreToolUse" (first.withGroup group)).eventGroups
          "PreToolUse" = some (first.withGroup group) := by
        rw [eventGroups_putGroups, if_pos rfl]
      let first' : Grouping.First hookGrouping isActionRecallHook (first.withGroup group) :=
        ⟨first.before, group, first.after, [], withCommand first.entry command, first.behind,
          rfl, entries, ours, first.noneBefore, by simp⟩
      refine ⟨by simp, ?_, ?_, fun other typed => typed_putGroups typed, fun typed => ?_, ?_⟩
      · rw [ownEntries, listed', Option.getD_some, actionRecallKind_preToolUse, first'.own_eq,
          first.own_eq]
        simp [first']
      · intro other apart
        rw [eventGroups_putGroups, if_neg apart]
      · refine withoutFamily_putGroups (by simp) typed ?_
        rw [listed, Option.getD_some]
        exact first.others_withGroup (nothing'.trans nothing.symm)
      · refine ⟨_, listed', ?_, first', ?_, matched⟩
        · have only := (Grouping.onlyOurs_iff entries).mpr ⟨by simp, onlyOurs⟩
          have parts : hookGrouping.isMixed isActionRecallHook (first.withGroup first.group)
              = false := (congrArg (hookGrouping.isMixed isActionRecallHook)
                first.split).symm.trans pure
          simp only [Grouping.isMixed, Grouping.First.withGroup, List.any_append,
            List.any_cons, Bool.or_eq_false_iff] at parts ⊢
          exact ⟨parts.1, by simp [only], parts.2.2⟩
        · simp [first', runsCommand, facts]

theorem installPreToolUse_facts {settings : Settings} {command : String}
    (recognised : isFlairActionRecallCommand command = true)
    : let result := installPreToolUse settings command
      (result.1 = .noop → result.2 = settings)
      ∧ (result.2.ownEntries actionRecallKind "PreToolUse").length
        = max 1 (dedicatedEntries settings)
      ∧ (∀ other ≠ "PreToolUse", result.2.eventGroups other = settings.eventGroups other)
      ∧ (∀ other, settings.Typed other → result.2.Typed other)
      ∧ (settings.Typed "PreToolUse" →
        result.2.withoutFamily actionRecallEvents actionRecallKind
          = settings.withoutFamily actionRecallEvents actionRecallKind)
      ∧ ∃ groups, result.2.eventGroups "PreToolUse" = some groups
        ∧ PreToolUseCurrent groups command := by
  obtain ⟨unmixed, pure, own, frame, typing, left⟩ := clearShared_facts settings
  obtain ⟨noop, count, frame', typing', left', again⟩ :=
    renewPreToolUse_facts (clearShared settings).1 recognised rfl pure
  refine ⟨fun same => ?_, ?_, fun other apart => ?_, fun other typed => typing' other
    (typing other typed), fun typed => (left' (typing _ typed)).trans left, again⟩
  · exact (noop same).2.trans (unmixed (noop same).1)
  · rw [← own]
    exact count
  · exact (frame' other apart).trans (frame other apart)

-- The SessionStart part

theorem sessionStart_hook (listed : settings.eventGroups "SessionStart" = some groups)
    (first : Grouping.First hookGrouping isSessionStartHook groups)
    : ((((settings.eventGroups "SessionStart").getD [])[first.place.1]?.map
        hookGrouping.held).bind fun hooks => hooks[first.place.2]?).getD .null = first.entry := by
  rw [listed, Option.getD_some, first.getElem?_place, Option.map_some, Option.bind_some,
    first.held_group]
  simp [Grouping.First.place]

theorem put_sessionStart (settings : Settings)
    (first : Grouping.First hookGrouping isSessionStartHook groups)
    (marked : includes command SESSION_START_HOOK_MARKER = true)
    : ∃ groups', (settings.putGroups "SessionStart"
          (hookGrouping.put groups first.place (hookEntry command))).eventGroups "SessionStart"
        = some groups'
      ∧ ∃ first' : Grouping.First hookGrouping isSessionStartHook groups',
        first'.place = first.place ∧ first'.entry = hookEntry command
        ∧ hookGrouping.own isSessionStartHook groups'
          = hookEntry command :: (hookGrouping.own isSessionStartHook groups).tail := by
  have isOurs := isSessionStartHook_entry marked
  refine ⟨hookGrouping.put groups first.place (hookEntry command), by simp, ?_⟩
  exact ⟨⟨first.before, first.groupOf (first.ahead ++ hookEntry command :: first.behind),
    first.after, first.ahead, hookEntry command, first.behind, first.put_place _,
    first.entries_groupOf _, isOurs, first.noneBefore, first.noneAhead⟩, rfl, rfl,
    first.own_put isOurs⟩

variable {cli : Cli} {agentId flairUrl : String}

theorem enableRefresh_current (listed : settings.eventGroups "SessionStart" = some groups)
    (first : Grouping.First hookGrouping isSessionStartHook groups)
    (built : buildSessionStartHookCommand cli agentId (some flairUrl) .claudeCode true
      = .ok command)
    (strict : cli.Strict) (same : first.entry = hookEntry command)
    : enableRefresh cli settings agentId flairUrl = .ok ⟨some .noop, some command, settings⟩ := by
  have found : findHookEntry settings = some first.place := by
    rw [findHookEntry, listed, Option.bind_some, first.find_eq]
  obtain ⟨form, parsed, -⟩ :=
    parseInstallerHookForm_built built strict.form (by simp)
  simp only [enableRefresh, found, sessionStart_hook listed first, same, hookCommand_hookEntry,
    Option.getD_some, parsed, built, bind, Except.bind, type_hookEntry, and_self, ↓reduceIte,
    pure, Except.pure]

variable {delta : SessionStartDelta}

theorem enableRefresh_facts (enabled : enableRefresh cli settings agentId flairUrl = .ok delta)
    (taken : delta.action ≠ none)
    : (delta.action = some .noop → delta.newConfig = settings)
      ∧ delta.action ≠ some .remove
      ∧ (∀ other ≠ "SessionStart", delta.newConfig.eventGroups other
        = settings.eventGroups other)
      ∧ (delta.newConfig.ownEntries sessionStartKind "SessionStart").length
        = max 1 (settings.ownEntries sessionStartKind "SessionStart").length
      ∧ (settings.Typed "SessionStart" →
        delta.newConfig.withoutFamily actionRecallEvents actionRecallKind
          = settings.withoutFamily actionRecallEvents actionRecallKind)
      ∧ (cli.Strict → ∃ command,
        enableRefresh cli delta.newConfig agentId flairUrl
          = .ok ⟨some .noop, some command, delta.newConfig⟩) := by
  rcases findHookEntry_cases settings with ⟨absent, none_own⟩ | ⟨groups, listed, first, found⟩
  · simp only [enableRefresh, absent] at enabled
    obtain ⟨command, built, enabled⟩ := bind_eq_ok.mp enabled
    cases enabled
    have isOurs := isSessionStartHook_entry (includes_sessionStart built)
    have own := @own_pushGroup sessionStartKind settings "SessionStart"
      (makeHookGroup command) (hookEntry command) rfl isOurs
    obtain ⟨pushed, -, -, entry, -⟩ := @first_pushGroup sessionStartKind settings
      "SessionStart" (makeHookGroup command) (hookEntry command) rfl isOurs none_own
    refine ⟨by simp, by simp, fun other apart => by simp [apart], by simp [own, none_own],
      fun typed => withoutFamily_pushGroup (by simp) typed rfl isOurs,
      fun strict => ⟨command, enableRefresh_current (by simp) pushed built strict entry⟩⟩
  · simp only [enableRefresh, found, sessionStart_hook listed first] at enabled
    cases parsed : parseInstallerHookForm ((hookCommand first.entry).getD "") with
    | none =>
      simp only [parsed, pure, Except.pure, Except.ok.injEq] at enabled
      subst enabled
      exact absurd rfl taken
    | some form =>
      cases built : buildSessionStartHookCommand cli agentId (some flairUrl) .claudeCode true with
      | error text => simp [parsed, built, bind, Except.bind] at enabled
      | ok command =>
        simp only [parsed, built, bind, Except.bind, pure, Except.pure] at enabled
        have marked := includes_sessionStart built
        split at enabled
        · rename_i current
          cases enabled
          refine ⟨fun _ => rfl, by simp, fun _ _ => rfl, ?_, fun _ => rfl, fun _ => ?_⟩
          · simp [ownEntries, listed, first.own_eq]
          · refine ⟨(hookCommand first.entry).getD "", ?_⟩
            simp only [enableRefresh, found, sessionStart_hook listed first, parsed, built,
              bind, Except.bind, current, and_self, ↓reduceIte, pure, Except.pure]
        · cases enabled
          obtain ⟨groups', listed', first', -, entry, own⟩ :=
            put_sessionStart settings first marked
          simp only [listed, Option.getD_some]
          refine ⟨by simp, by simp, fun other apart => by simp [apart], ?_,
            fun typed => ?_, fun strict => ⟨command, enableRefresh_current listed' first'
              built strict entry⟩⟩
          · simp [ownEntries, listed', own, listed, first.own_eq]
          · refine withoutFamily_putGroups (by simp) typed ?_
            rw [listed, Option.getD_some, actionRecallKind_sessionStart,
              first.others_put (isSessionStartHook_entry marked)]

-- The install as a whole

variable {runtime : ActionRecallRuntime}

theorem computeActionRecallInstall_facts {delta : ActionRecallDelta}
    (computed : computeActionRecallInstall cli settings runtime agentId flairUrl = .ok delta)
    (artifact : IsArtifact runtime.artifactPath ACTION_RECALL_HOOK_MARKER)
    (taken : delta.sessionStart ≠ none)
    : (delta.changed = false → delta.newConfig = settings)
      ∧ (delta.newConfig.ownEntries actionRecallKind "PreToolUse").length
        = max 1 (dedicatedEntries settings)
      ∧ (delta.newConfig.ownEntries actionRecallKind "SessionStart").length
        = max 1 (settings.ownEntries actionRecallKind "SessionStart").length
      ∧ (settings.Typed "PreToolUse" → settings.Typed "SessionStart" →
        delta.newConfig.withoutFamily actionRecallEvents actionRecallKind
          = settings.withoutFamily actionRecallEvents actionRecallKind)
      ∧ (cli.Strict → ∃ again,
        computeActionRecallInstall cli delta.newConfig runtime agentId flairUrl = .ok again
          ∧ again.changed = false ∧ again.sessionStart = some .noop) := by
  unfold computeActionRecallInstall at computed
  obtain ⟨command, built, computed⟩ := bind_eq_ok.mp computed
  have recognised := isFlairActionRecallCommand_built built artifact
  have facts := @installPreToolUse_facts settings command recognised
  simp only at facts
  generalize installPreToolUse settings command = result at computed facts
  obtain ⟨noop, count, frame, typing, left, groups, listed, current⟩ := facts
  obtain ⟨session, enabled, computed⟩ := bind_eq_ok.mp computed
  cases computed
  obtain ⟨kept, noRemove, frame', count', left', again⟩ :=
    enableRefresh_facts enabled taken
  refine ⟨fun unchanged => ?_, ?_, ?_, fun typed typed' => ?_, fun strict => ?_⟩
  · simp only [Bool.or_eq_false_iff, decide_eq_false_iff_not, not_not] at unchanged
    obtain ⟨⟨noPre, noUpdate⟩, noAdd⟩ := unchanged
    have noChange : session.action = some .noop := by
      cases action : session.action with
      | none => exact absurd action taken
      | some action' => cases action' <;> simp_all
    exact (kept noChange).trans (noop noPre)
  · rw [← count, ownEntries, frame' _ (by decide), ← ownEntries]
  · have before : settings.ownEntries actionRecallKind "SessionStart"
        = result.2.ownEntries sessionStartKind "SessionStart" := by
      rw [ownEntries, ownEntries, frame _ (by decide)]
      rfl
    rw [before]
    exact count'
  · exact (left' (typing _ typed')).trans (left typed)
  · -- the PreToolUse groups are as the first part left them
    obtain ⟨text, same⟩ := again strict
    have listed' : session.newConfig.eventGroups "PreToolUse" = some groups :=
      (frame' _ (by decide)).trans listed
    have noop' := installPreToolUse_current listed' current
    refine ⟨_, by
      simp only [computeActionRecallInstall, built, bind, Except.bind, noop', same, pure,
        Except.pure]
      rfl, ?_⟩
    simp

theorem isArtifact_package (packageDir : String) {marker : String} (plain : '/' ∉ marker.toList)
    : IsArtifact (hookArtifactForPackage packageDir marker) marker := by
  have spelled : (hookArtifactForPackage packageDir marker).toList
      = (packageDir.toList ++ "/dist".toList) ++ '/' :: marker.toList := by
    simp [hookArtifactForPackage]
  rw [IsArtifact, splitAtChar, spelled, List.splitOn_append_cons_of_beq _ _ (by simp),
    List.splitOn_eq_singleton plain, List.map_append, List.getLast?_append]
  simp

theorem enableRefresh_same {cli : Cli} {first second : Settings} {agentId flairUrl : String}
    (same : first.eventGroups "SessionStart" = second.eventGroups "SessionStart")
    : (enableRefresh cli first agentId flairUrl).map (fun delta => (delta.action, delta.before))
      = (enableRefresh cli second agentId flairUrl).map
          fun delta => (delta.action, delta.before) := by
  have found : findHookEntry first = findHookEntry second := by
    rw [findHookEntry, findHookEntry, same]
  simp only [enableRefresh, found, same]
  cases findHookEntry second with
  | none =>
    cases buildSessionStartHookCommand cli agentId (some flairUrl) .claudeCode true <;> rfl
  | some place =>
    simp only
    split
    · rfl
    cases buildSessionStartHookCommand cli agentId (some flairUrl) .claudeCode true with
    | error text => rfl
    | ok rebuilt =>
      simp only [bind, Except.bind]
      split <;> rfl

theorem installPreToolUse_frame (settings : Settings) (command : String) {other : String}
    (apart : other ≠ "PreToolUse")
    : (installPreToolUse settings command).2.eventGroups other = settings.eventGroups other := by
  have cleared := (clearShared_facts settings).2.2.2.1 other apart
  rw [← cleared]
  unfold installPreToolUse renewPreToolUse
  simp only
  split
  · split
    · rfl
    · rw [eventGroups_putGroups, if_neg apart]
  · rw [eventGroups_pushGroup, if_neg apart]

theorem computeActionRecallInstall_session {delta : ActionRecallDelta}
    (computed : computeActionRecallInstall cli settings runtime agentId flairUrl = .ok delta)
    : (enableRefresh cli settings agentId flairUrl).map (fun delta => (delta.action, delta.before))
        = .ok (delta.sessionStart, delta.sessionStartBefore)
      ∧ ∃ command, buildActionRecallHookCommand runtime.bunPath runtime.artifactPath agentId
        (some flairUrl) none = .ok command := by
  unfold computeActionRecallInstall at computed
  obtain ⟨command, built, computed⟩ := bind_eq_ok.mp computed
  have same := @enableRefresh_same cli settings (installPreToolUse settings command).2 agentId
    flairUrl (installPreToolUse_frame settings command (by decide)).symm
  generalize installPreToolUse settings command = result at same computed
  obtain ⟨session, enabled, computed⟩ := bind_eq_ok.mp computed
  cases computed
  rw [same, enabled]
  exact ⟨rfl, command, built⟩

theorem computeActionRecallInstall_of_session {action : Option HookDeltaAction}
    {before : Option String}
    (built : buildActionRecallHookCommand runtime.bunPath runtime.artifactPath agentId
      (some flairUrl) none = .ok command)
    (enabled : (enableRefresh cli settings agentId flairUrl).map
      (fun delta => (delta.action, delta.before)) = .ok (action, before))
    : ∃ delta, computeActionRecallInstall cli settings runtime agentId flairUrl = .ok delta
      ∧ delta.sessionStart = action := by
  rw [@enableRefresh_same cli settings (installPreToolUse settings command).2 agentId flairUrl
    (installPreToolUse_frame settings command (by decide)).symm] at enabled
  cases session : enableRefresh cli (installPreToolUse settings command).2 agentId flairUrl with
  | error text => simp [session, Except.map] at enabled
  | ok result =>
    simp only [session, Except.map, Except.ok.injEq, Prod.mk.injEq] at enabled
    simp only [computeActionRecallInstall, built, bind, Except.bind, session]
    exact ⟨_, rfl, enabled.1⟩

theorem taken_of_no_refusal {delta : ActionRecallDelta} {path : String}
    (allowed : actionRecallInstallRefusal cli delta path = none)
    : delta.sessionStart ≠ none := by
  intro skipped
  simp [actionRecallInstallRefusal, skipped] at allowed

variable {next : Settings} {outcome : Outcome}

theorem installActionRecall_ok {request : RuntimeRequest}
    (ran : installActionRecall request settings = .ok outcome)
    (settled : outcome.settled settings = some next)
    : request.harness = .claudeCode ∧ refuseUnsafe request.agentId request.flairUrl "" = .ok ()
      ∧ (∃ delta, computeActionRecallInstall request.cli settings request.runtime request.agentId
          request.flairUrl = .ok delta ∧ delta.sessionStart ≠ none)
      ∧ ∃ packageDir durable, request.provisioned = .ok packageDir
        ∧ computeActionRecallInstall request.cli settings
          (request.installed packageDir ACTION_RECALL_HOOK_MARKER) request.agentId
          request.flairUrl = .ok durable
        ∧ next = if durable.changed then durable.newConfig else settings := by
  unfold installActionRecall at ran
  by_cases claude : request.harness = .claudeCode
  swap
  · simp [claude, throw, throwThe, MonadExceptOf.throw, bind, Except.bind] at ran
  simp only [claude, ne_eq, not_true_eq_false, ↓reduceIte] at ran
  obtain ⟨⟨⟩, safe, ran⟩ := bind_eq_ok.mp ran
  obtain ⟨delta, computed, ran⟩ := bind_eq_ok.mp ran
  split at ran
  · cases ran
    cases settled
  rename_i allowed
  split at ran
  · cases ran
    cases settled
  rename_i packageDir provisioned
  obtain ⟨durable, computed', ran⟩ := bind_eq_ok.mp ran
  refine ⟨claude, safe, ⟨delta, computed, taken_of_no_refusal allowed⟩, packageDir, durable,
    provisioned, computed', ?_⟩
  split at ran
  · rename_i changed
    cases ran
    rw [if_pos changed, ← Option.some.inj settled]
  · rename_i unchanged
    cases ran
    rw [if_neg unchanged, ← Option.some.inj settled]

theorem installActionRecall_facts {request : RuntimeRequest}
    (ran : installActionRecall request settings = .ok outcome)
    (settled : outcome.settled settings = some next)
    : (next.ownEntries actionRecallKind "PreToolUse").length = max 1 (dedicatedEntries settings)
      ∧ (next.ownEntries actionRecallKind "SessionStart").length
        = max 1 (settings.ownEntries actionRecallKind "SessionStart").length
      ∧ (settings.Typed "PreToolUse" → settings.Typed "SessionStart" →
        next.withoutFamily actionRecallEvents actionRecallKind
          = settings.withoutFamily actionRecallEvents actionRecallKind)
      ∧ (request.cli.Strict → ∃ message,
        installActionRecall request next = .ok (.noop message)
        ∧ ∃ delta, enableRefresh request.cli next request.agentId request.flairUrl = .ok delta
          ∧ delta.action = some .noop) := by
  obtain ⟨claude, safe, ⟨delta, computed, taken⟩, packageDir, durable, provisioned, computed',
    rfl⟩ := installActionRecall_ok ran settled
  obtain ⟨session, command, built⟩ := computeActionRecallInstall_session computed
  obtain ⟨session', -⟩ := computeActionRecallInstall_session computed'
  have same : durable.sessionStart = delta.sessionStart := by
    rw [session] at session'
    exact (Prod.mk.inj (Except.ok.inj session')).1.symm
  obtain ⟨kept, count, count', left, again⟩ := computeActionRecallInstall_facts computed'
    (isArtifact_package packageDir (by decide)) (by rw [same]; exact taken)
  have result : (if durable.changed = true then durable.newConfig else settings)
      = durable.newConfig := by
    cases changed : durable.changed with
    | false => rw [kept changed]; rfl
    | true => rfl
  rw [result]
  refine ⟨count, count', left, fun strict => ?_⟩
  obtain ⟨later, computed_again, unchanged, noop⟩ := again strict
  have current : (enableRefresh request.cli durable.newConfig request.agentId
      request.flairUrl).map (fun delta => (delta.action, delta.before))
      = .ok (later.sessionStart, later.sessionStartBefore) :=
    (computeActionRecallInstall_session computed_again).1
  obtain ⟨first, computed_first, action⟩ := computeActionRecallInstall_of_session built current
  have allowed : actionRecallInstallRefusal request.cli first request.path = none := by
    simp [actionRecallInstallRefusal, action, noop]
  refine ⟨"action-recall hook already current in " ++ request.path, ?_, ?_⟩
  swap
  · cases enabled : enableRefresh request.cli durable.newConfig request.agentId
        request.flairUrl with
    | error text => simp [enabled, Except.map] at current
    | ok session =>
      simp only [enabled, Except.map, Except.ok.injEq, Prod.mk.injEq] at current
      exact ⟨session, rfl, current.1.trans noop⟩
  simp only [installActionRecall, claude, safe, computed_first, allowed, provisioned,
    computed_again, unchanged, bind, Except.bind, ne_eq, not_true_eq_false, ↓reduceIte,
    Bool.false_eq_true, pure, Except.pure]

-- The removal

theorem withoutActionRecall_eq (group : Value)
    : withoutActionRecall group = hookGrouping.residue isActionRecallHook group := by
  unfold withoutActionRecall
  split
  · rename_i unlisted
    exact (Grouping.residue_of_none (by simp [Grouping.held, unlisted])).symm
  rename_i hooks listed
  have stripped : hookGrouping.strip isActionRecallHook group
      = hookGrouping.withEntries group (hooks.filter fun hook => !isActionRecallHook hook) := by
    simp only [Grouping.strip, listed]
  simp only
  split
  · rename_i same
    have foreign : ∀ hook ∈ hooks, isActionRecallHook hook = false := by
      simpa using List.length_filter_eq_length_iff.mp same
    rw [Grouping.residue_of_none]
    rwa [Grouping.held_of_entries listed]
  · rename_i some_own
    split
    · rename_i nothing
      have only : ∀ hook ∈ hooks, isActionRecallHook hook = true := by
        simpa [List.filter_eq_nil_iff] using nothing
      refine (Grouping.residue_of_only listed ?_ only).symm
      rintro rfl
      simp at some_own
    · rename_i some_other
      have mixed : hookGrouping.onlyOurs isActionRecallHook group ≠ true := by
        intro only
        refine some_other ?_
        rw [List.filter_eq_nil_iff]
        simpa using ((Grouping.onlyOurs_iff listed).mp only).2
      rw [Grouping.residue, if_neg mixed, stripped]

theorem removePreToolUse_facts (settings : Settings)
    : let result := removePreToolUse settings
      (result.1 ≠ .remove → result.2 = settings)
      ∧ result.2.ownEntries actionRecallKind "PreToolUse" = []
      ∧ (∀ other ≠ "PreToolUse", result.2.eventGroups other = settings.eventGroups other)
      ∧ result.2.withoutFamily actionRecallEvents actionRecallKind
        = settings.withoutFamily actionRecallEvents actionRecallKind := by
  have kept_eq : ∀ groups : List Value, groups.filterMap withoutActionRecall
      = hookGrouping.others isActionRecallHook groups := fun groups => by
    rw [Grouping.others, funext withoutActionRecall_eq]
  unfold removePreToolUse
  simp only [kept_eq]
  split
  · rename_i absent
    refine ⟨fun _ => rfl, ?_, fun _ _ => rfl, rfl⟩
    rw [ownEntries, actionRecallKind_preToolUse, Grouping.own_eq_nil]
    simpa using absent
  · rename_i present
    have listed : ∃ groups, settings.eventGroups "PreToolUse" = some groups := by
      cases held : settings.eventGroups "PreToolUse" with
      | none => simp [held] at present
      | some groups => exact ⟨groups, rfl⟩
    obtain ⟨groups, listed⟩ := listed
    rw [listed, Option.getD_some]
    have put : (settings.putGroups "PreToolUse"
          (hookGrouping.others isActionRecallHook groups)).withoutFamily actionRecallEvents
            actionRecallKind
        = settings.withoutFamily actionRecallEvents actionRecallKind := by
      refine withoutFamily_putGroups (by simp) (typed_of_eventGroups listed) ?_
      rw [listed, Option.getD_some, actionRecallKind_preToolUse]
      exact Grouping.others_of_none (Grouping.own_others groups)
    split
    · rename_i nothing
      refine ⟨by simp, by simp, fun other apart => by simp [apart], ?_⟩
      refine (remainder_dropEvent (by simp) (eventGroups_putGroups.trans
        (if_pos rfl)) ?_).trans put
      rw [nothing]
      rfl
    · exact ⟨by simp, by simp [Grouping.own_others], fun other apart => by simp [apart], put⟩

theorem disableRefresh_facts (disabled : disableRefresh cli settings = .ok delta)
    : (delta.action ≠ some .update → delta.newConfig = settings)
      ∧ (∀ other ≠ "SessionStart", delta.newConfig.eventGroups other = settings.eventGroups other)
      ∧ (delta.newConfig.ownEntries sessionStartKind "SessionStart").length
        = (settings.ownEntries sessionStartKind "SessionStart").length
      ∧ delta.newConfig.withoutFamily actionRecallEvents actionRecallKind
        = settings.withoutFamily actionRecallEvents actionRecallKind := by
  rcases findHookEntry_cases settings with ⟨absent, -⟩ | ⟨groups, listed, first, found⟩
  · simp only [disableRefresh, absent] at disabled
    cases disabled
    exact ⟨fun _ => rfl, fun _ _ => rfl, rfl, rfl⟩
  · simp only [disableRefresh, found, sessionStart_hook listed first] at disabled
    split at disabled
    · cases disabled
      exact ⟨fun _ => rfl, fun _ _ => rfl, rfl, rfl⟩
    split at disabled
    · obtain ⟨rebuilt, built, disabled⟩ := bind_eq_ok.mp disabled
      cases disabled
      have isOurs := isSessionStartHook_entry (includes_sessionStart built)
      simp only [listed, Option.getD_some]
      refine ⟨by simp, fun other apart => by simp [apart], ?_, ?_⟩
      · rw [ownEntries_putGroups, if_pos rfl, sessionStartKind_apply, first.own_put isOurs,
          ownEntries, listed, Option.getD_some, sessionStartKind_apply, first.own_eq]
        rfl
      · refine withoutFamily_putGroups (by simp)
          (typed_of_eventGroups listed) ?_
        rw [listed, Option.getD_some, actionRecallKind_sessionStart, first.others_put isOurs]
    · cases disabled
      exact ⟨fun _ => rfl, fun _ _ => rfl, rfl, rfl⟩

theorem computeActionRecallRemoval_ok {delta : ActionRecallDelta}
    (computed : computeActionRecallRemoval cli settings = .ok delta)
    : ∃ session, disableRefresh cli (removePreToolUse settings).2 = .ok session
      ∧ delta.newConfig = session.newConfig
      ∧ delta.changed = (decide ((removePreToolUse settings).1 = .remove)
        || decide (session.action = some .update)) := by
  unfold computeActionRecallRemoval at computed
  generalize removePreToolUse settings = result at computed ⊢
  obtain ⟨session, disabled, computed⟩ := bind_eq_ok.mp computed
  cases computed
  exact ⟨session, disabled, rfl, rfl⟩

theorem uninstallActionRecall_facts {path : String}
    (ran : uninstallActionRecall cli path settings = .ok outcome)
    (settled : outcome.settled settings = some next)
    : next.ownEntries actionRecallKind "PreToolUse" = []
      ∧ (next.ownEntries actionRecallKind "SessionStart").length
        = (settings.ownEntries actionRecallKind "SessionStart").length
      ∧ next.withoutFamily actionRecallEvents actionRecallKind
        = settings.withoutFamily actionRecallEvents actionRecallKind := by
  obtain ⟨kept, own, frame, left⟩ := removePreToolUse_facts settings
  obtain ⟨delta, computed, ran⟩ := bind_eq_ok.mp ran
  obtain ⟨session, disabled, config, changed⟩ := computeActionRecallRemoval_ok computed
  obtain ⟨kept', frame', count, left'⟩ := disableRefresh_facts disabled
  have same : next = session.newConfig := by
    split at ran
    · cases ran
      rw [← Option.some.inj settled, config]
    rename_i unchanged
    cases ran
    simp only [changed, Bool.or_eq_true, decide_eq_true_eq, not_or] at unchanged
    rw [← Option.some.inj settled, kept' unchanged.2, kept unchanged.1]
  subst same
  have start : (removePreToolUse settings).2.ownEntries sessionStartKind "SessionStart"
      = settings.ownEntries actionRecallKind "SessionStart" := by
    rw [ownEntries, frame _ (by decide)]
    rfl
  refine ⟨?_, ?_, left'.trans left⟩
  · rw [← own, ownEntries, frame' _ (by decide), ← ownEntries]
  · rw [← start]
    exact count

theorem entry_of_enabled (enabled : enableRefresh cli settings agentId flairUrl = .ok delta)
    (noop : delta.action = some .noop)
    : ∃ groups, settings.eventGroups "SessionStart" = some groups
      ∧ ∃ first : Grouping.First hookGrouping isSessionStartHook groups,
        ∃ command, hookCommand first.entry = some command
          ∧ buildSessionStartHookCommand cli agentId (some flairUrl) .claudeCode true
            = .ok command := by
  rcases findHookEntry_cases settings with ⟨absent, -⟩ | ⟨groups, listed, first, found⟩
  · simp only [enableRefresh, absent] at enabled
    obtain ⟨rebuilt, built, enabled⟩ := bind_eq_ok.mp enabled
    cases enabled
    simp at noop
  · have runs : ∃ command, hookCommand first.entry = some command := by
      cases old : hookCommand first.entry with
      | none =>
        have isOurs := first.isOurs
        simp [isSessionStartHook, old] at isOurs
      | some command => exact ⟨command, rfl⟩
    obtain ⟨command, runs⟩ := runs
    simp only [enableRefresh, found, sessionStart_hook listed first, runs, Option.getD_some]
      at enabled
    split at enabled
    · cases enabled
      simp at noop
    obtain ⟨rebuilt, built, enabled⟩ := bind_eq_ok.mp enabled
    split at enabled
    · rename_i same
      exact ⟨groups, listed, first, command, runs, by rw [← same.1]; exact built⟩
    · cases enabled
      simp at noop

theorem uninstallActionRecall_returns (path : String) {url : String} {form : InstallerHookForm}
    (listed : settings.eventGroups "SessionStart" = some groups)
    (first : Grouping.First hookGrouping isSessionStartHook groups)
    (runs : hookCommand first.entry = some command)
    (parsed : parseInstallerHookForm command = some form) (agent : form.agentId = agentId)
    (address : form.flairUrl = some url) (checked : checkIdentity agentId (some url) = .ok ())
    : ∃ outcome next, uninstallActionRecall cli path settings = .ok outcome
      ∧ outcome.settled settings = some next := by
  have listed' : (removePreToolUse settings).2.eventGroups "SessionStart" = some groups :=
    ((removePreToolUse_facts settings).2.2.1 _ (by decide)).trans listed
  have found : findHookEntry (removePreToolUse settings).2 = some first.place := by
    rw [findHookEntry, listed', Option.bind_some, first.find_eq]
  obtain ⟨rebuilt, built⟩ : ∃ rebuilt,
      buildSessionStartHookCommand cli form.agentId form.flairUrl form.harness false
        = .ok rebuilt := by
    rw [agent, address, buildSessionStartHookCommand, checked]
    simp only [bind, Except.bind, pure, Except.pure]
    split <;> exact ⟨_, rfl⟩
  obtain ⟨session, disabled⟩ : ∃ session,
      disableRefresh cli (removePreToolUse settings).2 = .ok session := by
    simp only [disableRefresh, found, sessionStart_hook listed' first, runs, Option.getD_some,
      parsed, built, bind, Except.bind]
    split <;> exact ⟨_, rfl⟩
  obtain ⟨delta, computed⟩ : ∃ delta, computeActionRecallRemoval cli settings = .ok delta := by
    simp only [computeActionRecallRemoval, disabled, bind, Except.bind]
    exact ⟨_, rfl⟩
  simp only [uninstallActionRecall, computed, bind, Except.bind]
  split <;> exact ⟨_, _, rfl, rfl⟩

theorem uninstall_of_enabled (path : String)
    (enabled : enableRefresh cli settings agentId flairUrl = .ok delta)
    (noop : delta.action = some .noop) (strict : cli.Strict) (some_url : flairUrl ≠ "")
    : ∃ outcome next, uninstallActionRecall cli path settings = .ok outcome
      ∧ outcome.settled settings = some next := by
  obtain ⟨groups, listed, first, command, runs, built⟩ := entry_of_enabled enabled noop
  obtain ⟨form, parsed, agent, address, -⟩ :=
    parseInstallerHookForm_built built strict.form (by simp)
  exact uninstallActionRecall_returns path listed first runs parsed agent
    (address.trans (by simp [givenUrl, some_url])) (identity_of_built built)

-- A removal from settings of one entry an event

theorem removePreToolUse_alone {settings : Settings} {group hook : Value}
    (listed : settings.eventGroups "PreToolUse" = some [group])
    (entries : hookGrouping.entries group = some [hook]) (ours : isActionRecallHook hook = true)
    : removePreToolUse settings
        = (.remove, (settings.putGroups "PreToolUse" []).dropEvent "PreToolUse") := by
  have nothing : withoutActionRecall group = none := by simp [withoutActionRecall, entries, ours]
  have found : (hookGrouping.all [group]).any isActionRecallHook = true := by
    simp [Grouping.all, Grouping.held, entries, ours]
  simp only [removePreToolUse, listed, Option.getD_some, found, List.filterMap_cons, nothing,
    List.filterMap_nil, Bool.not_true, Bool.false_eq_true, ↓reduceIte]

theorem disableRefresh_enabled {rebuilt : String} {form : InstallerHookForm}
    (listed : settings.eventGroups "SessionStart" = some [makeHookGroup command])
    (found : findHookEntry settings = some (0, 0))
    (parsed : parseInstallerHookForm command = some form)
    (enables : sessionStartEnablesActionRecall command = true)
    (built : buildSessionStartHookCommand cli form.agentId form.flairUrl form.harness false
      = .ok rebuilt)
    : disableRefresh cli settings
        = .ok ⟨some .update, some command, settings.putGroups "SessionStart"
            [makeHookGroup rebuilt]⟩ := by
  have current : hookCommand (hookEntry command) = some command := rfl
  have held : hookGrouping.held (makeHookGroup command) = [hookEntry command] := rfl
  have put : hookGrouping.put [makeHookGroup command] (0, 0) (hookEntry rebuilt)
      = [makeHookGroup rebuilt] := by
    rw [Grouping.put, List.modify_zero_cons, held, List.set_cons_zero]
    rfl
  simp only [disableRefresh, found, listed, Option.getD_some, List.getElem?_cons_zero,
    Option.map_some, held, Option.bind_some, current, parsed, enables, ↓reduceIte, built, put,
    bind, Except.bind, pure, Except.pure]

theorem uninstallActionRecall_updated {cleared : Settings} {before : Option String} (path : String)
    (removed : removePreToolUse settings = (.remove, cleared))
    (disabled : disableRefresh cli cleared = .ok ⟨some .update, before, next⟩)
    : uninstallActionRecall cli path settings = .ok (.write next) := by
  simp [uninstallActionRecall, computeActionRecallRemoval, removed, disabled, bind, Except.bind,
    pure, Except.pure]

end Flair.Hooks
