import Flair.Hooks.EventRuns
import Flair.Hooks.Recognition

/-! The SessionStart hook: installing, removing and re-pinning it. Follows
`src/hook-install.ts`.
-/

namespace Flair.Hooks

open Dynamic Settings

inductive Outcome where
  | held (line : String)
  | noop (message : String)
  | write (settings : Settings)
deriving DecidableEq

def Outcome.settled (settings : Settings) : Outcome → Option Settings
  | .held _ => none
  | .noop _ => some settings
  | .write next => some next

def withCodexReapproval (harness : Harness) (message : String) : String :=
  if harness = .codex then
    message ++ " — Codex requires re-approval in /hooks before the change takes effect"
  else message

def isSessionStartHook (hook : Value) : Bool :=
  (hookCommand hook).any fun command => includes command SESSION_START_HOOK_MARKER

def makeHookGroup (command : String) : Value := .obj [("hooks", .arr [hookEntry command])]

def findHookEntry (settings : Settings) : Option (Nat × Nat) :=
  (settings.eventGroups "SessionStart").bind (hookGrouping.find isSessionStartHook)

structure InstallDelta where
  action : HookDeltaAction
  before : Option Value
  after : Value
  newConfig : Settings

def computeInstallDelta (settings : Settings) (command : String) : InstallDelta :=
  let after := makeHookGroup command
  match findHookEntry settings with
  | some place =>
    let groups := (settings.eventGroups "SessionStart").getD []
    let beforeGroup := (groups[place.1]?).getD .null
    let hooks := hookGrouping.held beforeGroup
    if (hooks[place.2]?).bind hookCommand = some command ∧ hooks.length = 1 then
      ⟨.noop, some beforeGroup, after, settings⟩
    else
      ⟨.update, some beforeGroup, after,
        settings.putGroups "SessionStart" (hookGrouping.put groups place (hookEntry command))⟩
  | none => ⟨.add, none, after, settings.pushGroup "SessionStart" after⟩

structure RemovalDelta where
  action : HookDeltaAction
  before : Option Value
  newConfig : Settings

def computeRemovalDelta (settings : Settings) : RemovalDelta :=
  match findHookEntry settings with
  | none => ⟨.noop, none, settings⟩
  | some place =>
    ⟨.remove, ((settings.eventGroups "SessionStart").getD [])[place.1]?,
      (settings.removeEntry "SessionStart" place).dropEmptyHooks⟩

/-- What a call of an installing writer is given, and the CLI it runs in. -/
structure InstallRequest where
  cli : Cli
  path : String
  agentId : String
  flairUrl : String
  harness : Harness

def refuseUnsafe (agentId flairUrl allowed : String) : Except String Unit :=
  let refusal (label value : String) :=
    label ++ " '" ++ value ++ "' contains characters that cannot be safely written into a shell "
      ++ "hook command" ++ allowed ++ " — refusing to write it"
  if !isHookCommandValueSafe agentId then .error (refusal "agent id" agentId)
  else if !isHookCommandValueSafe flairUrl then .error (refusal "Flair URL" flairUrl)
  else .ok ()

theorem refuseUnsafe_ok {agentId flairUrl allowed : String}
    (passed : refuseUnsafe agentId flairUrl allowed = .ok ())
    : isHookCommandValueSafe agentId = true ∧ isHookCommandValueSafe flairUrl = true := by
  unfold refuseUnsafe at passed
  simp only at passed
  split at passed
  · cases passed
  split at passed
  · cases passed
  rename_i agent url
  exact ⟨by simpa using agent, by simpa using url⟩

theorem nonempty_of_safe {value : String} (safe : isHookCommandValueSafe value = true)
    : value ≠ "" := by
  rintro rfl
  revert safe
  decide

def sessionStartEntryLabel (path : String) : String := "SessionStart hook in " ++ path

/-- `installHook`: the delta, and the guard over the span of the command it replaces. -/
def installHook (request : InstallRequest) (settings : Settings) : Except String Outcome := do
  refuseUnsafe request.agentId request.flairUrl " (allowed: letters, digits, . _ : / -)"
  let command ← buildSessionStartHookCommand request.cli request.agentId (some request.flairUrl)
    request.harness false
  let delta := computeInstallDelta settings command
  if delta.action = .noop then
    return .noop (withCodexReapproval request.harness
      ("SessionStart hook already correct in " ++ request.path))
  let existingCommand :=
    if delta.action = .update then
      (delta.before.bind fun group =>
        (hookGrouping.held group).find? isSessionStartHook).bind hookCommand
    else none
  match decidePinWrite request.cli FLAIR_MCP_PACKAGE (sessionStartEntryLabel request.path)
    (guardedPinSpan existingCommand) with
  | .write _ => return .write delta.newConfig
  | .hold line | .refuse line => return .held line

def uninstallHook (path : String) (settings : Settings) : Outcome :=
  let delta := computeRemovalDelta settings
  if delta.action = .noop then
    .noop ("no Flair SessionStart hook found in " ++ path ++ " — nothing to remove")
  else .write delta.newConfig

def findHookMatches (settings : Settings) : List (Nat × Nat) :=
  hookGrouping.findAll isSessionStartHook ((settings.eventGroups "SessionStart").getD [])

def sortedKeys (value : Value) : List String :=
  match value with
  | .obj fields => (fields.map Prod.fst).mergeSort
  | _ => []

/-- `repinSessionStartHook`: the one Flair entry, of an installer form and without other
fields, gets the running CLI's spec in its package span.
-/
def repinSessionStartHook (cli : Cli) (path : String) (settings : Settings) : Outcome :=
  let groups := (settings.eventGroups "SessionStart").getD []
  match findHookMatches settings with
  | [] => .held ("no Flair SessionStart hook in " ++ path ++ " — nothing to re-pin")
  | _ :: _ :: _ =>
    .held (toString (findHookMatches settings).length ++ " Flair SessionStart hooks in " ++ path
      ++ " match — re-pinning would change only one of them; left untouched")
  | [place] =>
    let group := (groups[place.1]?).getD .null
    let entry := ((hookGrouping.held group)[place.2]?).getD .null
    if sortedKeys group ≠ ["hooks"] ∨ sortedKeys entry ≠ ["command", "type"]
        ∨ property entry "type" ≠ some (.str "command") then
      .held ("SessionStart hook in " ++ path
        ++ " carries fields Flair did not write — left untouched")
    else
      let current := (hookCommand entry).getD ""
      match parseInstallerHookForm current with
      | none =>
        .held ("SessionStart hook in " ++ path
          ++ " is not one of the installer forms Flair writes — left untouched")
      | some form =>
        let next := form.before ++ mcpServerSpec cli ++ form.after
        if next = current then
          .noop ("SessionStart hook in " ++ path ++ " already pinned to " ++ mcpServerSpec cli)
        else
          match decidePinWrite cli FLAIR_MCP_PACKAGE (sessionStartEntryLabel path)
            (some form.pkgSpec) with
          | .write _ =>
            .write (settings.putGroups "SessionStart"
              (hookGrouping.put groups place (hookEntry next)))
          | .hold line | .refuse line => .held line

-- The delta

def sessionStartKind : Kind := fun _ => isSessionStartHook

@[simp] theorem sessionStartKind_apply (event : String)
    : sessionStartKind event = isSessionStartHook := rfl

def entryIsAlone (settings : Settings) : Bool :=
  (findHookEntry settings).all fun place =>
    (((settings.eventGroups "SessionStart").getD [])[place.1]?).all fun group =>
      (hookGrouping.held group).length = 1

theorem isSessionStartHook_entry {command : String}
    (marked : includes command SESSION_START_HOOK_MARKER = true)
    : isSessionStartHook (hookEntry command) = true := by
  simp [isSessionStartHook, marked]

theorem findHookEntry_cases (settings : Settings)
    : (findHookEntry settings = none ∧ settings.ownEntries sessionStartKind "SessionStart" = [])
      ∨ ∃ groups, settings.eventGroups "SessionStart" = some groups
        ∧ ∃ first : Grouping.First hookGrouping isSessionStartHook groups,
          findHookEntry settings = some first.place :=
  find_cases sessionStartKind settings "SessionStart"

theorem entryIsAlone_iff {settings : Settings} {groups : List Value}
    (listed : settings.eventGroups "SessionStart" = some groups)
    (first : Grouping.First hookGrouping isSessionStartHook groups)
    : entryIsAlone settings = true ↔ first.ahead = [] ∧ first.behind = [] := by
  have found : findHookEntry settings = some first.place := by
    rw [findHookEntry, listed, Option.bind_some, first.find_eq]
  simp only [entryIsAlone, found, listed, Option.all_some, Option.getD_some,
    first.getElem?_place, first.held_group, decide_eq_true_eq, List.length_append,
    List.length_cons]
  rw [← List.length_eq_zero_iff, ← @List.length_eq_zero_iff _ first.behind]
  omega

theorem computeInstallDelta_facts {settings : Settings} {command : String}
    (marked : includes command SESSION_START_HOOK_MARKER = true)
    : let delta := computeInstallDelta settings command
      (delta.action = .noop → delta.newConfig = settings)
      ∧ delta.newConfig.ownEntries sessionStartKind "SessionStart" ≠ []
      ∧ (delta.newConfig.ownEntries sessionStartKind "SessionStart").length
        = max 1 (settings.ownEntries sessionStartKind "SessionStart").length
      ∧ (settings.Typed "SessionStart" →
        delta.newConfig.withoutFamily ["SessionStart"] sessionStartKind
          = settings.withoutFamily ["SessionStart"] sessionStartKind)
      ∧ (entryIsAlone settings = true →
        (computeInstallDelta delta.newConfig command).action = .noop) := by
  rcases findHookEntry_cases settings with ⟨absent, none_own⟩ | ⟨groups, listed, first, found⟩
  · have isOurs := isSessionStartHook_entry marked
    have own := @own_pushGroup sessionStartKind settings "SessionStart" (makeHookGroup command)
      (hookEntry command) rfl isOurs
    simp only [computeInstallDelta, absent]
    refine ⟨by simp, by simp [own], by simp [own, none_own],
      fun typed => withoutFamily_pushGroup (by simp) typed rfl isOurs, fun _ => ?_⟩
    -- the pushed group holds the first entry, alone
    obtain ⟨pushed, -, ahead, entry, behind⟩ := @first_pushGroup sessionStartKind settings
      "SessionStart" (makeHookGroup command) (hookEntry command) rfl isOurs none_own
    have place : findHookEntry (settings.pushGroup "SessionStart" (makeHookGroup command))
        = some pushed.place := by
      rw [findHookEntry, eventGroups_pushGroup, if_pos rfl, Option.bind_some]
      exact pushed.find_eq
    simp only [place, eventGroups_pushGroup, ↓reduceIte, Option.getD_some,
      pushed.getElem?_place, pushed.held_group, ahead, entry, behind]
    rw [if_pos (by simp [Grouping.First.place, ahead])]
  · have group : ((settings.eventGroups "SessionStart").getD [])[first.place.1]?.getD .null
        = first.group := by
      rw [listed, Option.getD_some, first.getElem?_place, Option.getD_some]
    have own : settings.ownEntries sessionStartKind "SessionStart"
        = first.entry :: (first.behind.filter isSessionStartHook
          ++ hookGrouping.own isSessionStartHook first.after) := by
      rw [ownEntries, listed, Option.getD_some, sessionStartKind_apply, first.own_eq]
    simp only [computeInstallDelta, found, group, first.held_group]
    split
    · rename_i current
      refine ⟨by simp, by simp [own], by simp [own], by simp, fun _ => ?_⟩
      simp only [found, group, first.held_group]
      rw [if_pos current]
    · have isOurs := isSessionStartHook_entry marked
      have own_after : (settings.putGroups "SessionStart"
            (hookGrouping.put groups first.place (hookEntry command))).ownEntries
              sessionStartKind "SessionStart"
          = hookEntry command :: (settings.ownEntries sessionStartKind "SessionStart").tail := by
        rw [ownEntries_putGroups, if_pos rfl, sessionStartKind_apply, first.own_put isOurs,
          ownEntries, listed, Option.getD_some, sessionStartKind_apply]
      simp only [listed, Option.getD_some]
      refine ⟨by simp, by simp [own_after], by simp [own_after, own], fun typed => ?_,
        fun alone => ?_⟩
      · refine withoutFamily_putGroups (by simp) typed ?_
        rw [listed, Option.getD_some, sessionStartKind_apply, first.others_put isOurs]
      -- the entry stays in its place, the only one of its group
      obtain ⟨noneAhead, noneBehind⟩ := (entryIsAlone_iff listed first).mp alone
      let written : Grouping.First hookGrouping isSessionStartHook
          (hookGrouping.put groups first.place (hookEntry command)) :=
        ⟨first.before, first.groupOf (first.ahead ++ hookEntry command :: first.behind),
          first.after, first.ahead, hookEntry command, first.behind, first.put_place _,
          first.entries_groupOf _, isOurs, first.noneBefore, first.noneAhead⟩
      have groups_eq : (settings.putGroups "SessionStart"
            (hookGrouping.put groups first.place (hookEntry command))).eventGroups
              "SessionStart"
          = some (hookGrouping.put groups first.place (hookEntry command)) := by
        rw [eventGroups_putGroups, if_pos rfl]
      have place : findHookEntry (settings.putGroups "SessionStart"
            (hookGrouping.put groups first.place (hookEntry command)))
          = some written.place := by
        rw [findHookEntry, groups_eq, Option.bind_some, written.find_eq]
      simp only [place, groups_eq, Option.getD_some, written.getElem?_place,
        written.held_group]
      rw [if_pos (by simp [Grouping.First.place, written, noneAhead, noneBehind])]

theorem computeRemovalDelta_facts (settings : Settings)
    : let delta := computeRemovalDelta settings
      (delta.action = .noop → delta.newConfig = settings)
      ∧ delta.newConfig.ownEntries sessionStartKind "SessionStart"
        = (settings.ownEntries sessionStartKind "SessionStart").tail
      ∧ delta.newConfig.withoutFamily ["SessionStart"] sessionStartKind
        = settings.withoutFamily ["SessionStart"] sessionStartKind := by
  rcases findHookEntry_cases settings with ⟨absent, none_own⟩ | ⟨groups, listed, first, found⟩
  · simp only [computeRemovalDelta, absent, none_own]
    exact ⟨fun _ => trivial, rfl, trivial⟩
  obtain ⟨own, -, left⟩ := @removeEntry_facts ["SessionStart"] sessionStartKind settings
    "SessionStart" groups listed first
  simp only [computeRemovalDelta, found]
  refine ⟨by simp, ownEntries_dropEmptyHooks.trans own, ?_⟩
  exact (remainder_dropEmptyHooks).trans (left (by simp))

end Flair.Hooks
