import Flair.Hooks.ActionRecallHooks

/-! The capture hooks: one entry under each of three events, in a group of its own. Follows
`src/hook-install.ts`.
-/

namespace Flair.Hooks

open Dynamic Settings

def CAPTURE_HOOK_EVENTS : List String := ["PostToolUseFailure", "PostToolUse", "Stop"]

def CAPTURE_HOOK_MATCHERS (event : String) : Option String :=
  if event = "PostToolUseFailure" then some "Bash"
  else if event = "PostToolUse" then some "Write|Edit|NotebookEdit|Bash"
  else none

def isCaptureHook (hook : Value) : Bool := (hookCommand hook).any isFlairCaptureCommand

def findCaptureEntries (settings : Settings) (event : String) : List (Nat × Nat) :=
  hookGrouping.findAll isCaptureHook ((settings.eventGroups event).getD [])

def captureGroup (wantMatcher : Option String) (command : String) : Value :=
  .obj ([("hooks", .arr [hookEntry command])]
    ++ (wantMatcher.map fun matcher => ("matcher", Value.str matcher)).toList)

def matcherCurrent (group : Value) (wantMatcher : Option String) : Bool :=
  match wantMatcher with
  | some matcher => matcherIs group matcher
  | none => [none, some .null, some (.str "")].contains (property group "matcher")

def withMatcher (group : Value) (wantMatcher : Option String) : Value :=
  match wantMatcher with
  | some matcher => withProperty group "matcher" (.str matcher)
  | none => withoutProperty group "matcher"

def withoutDuplicates (groups : List Value) : List Value :=
  let entries := hookGrouping.findAll isCaptureHook groups
  if 1 < entries.length then
    (hookGrouping.spliceAll groups entries.tail).filter hookGrouping.inhabited
  else groups

def installCaptureEvent (command event : String) (settings : Settings)
    : HookDeltaAction × Settings :=
  let wantMatcher := CAPTURE_HOOK_MATCHERS event
  let duplicated := 1 < (findCaptureEntries settings event).length
  let groups := withoutDuplicates ((settings.eventGroups event).getD [])
  match hookGrouping.find isCaptureHook groups with
  | none => (.add, settings.pushGroup event (captureGroup wantMatcher command))
  | some place =>
    let group := (groups[place.1]?).getD .null
    let hook := ((hookGrouping.held group)[place.2]?).getD .null
    if hookGrouping.onlyOurs isCaptureHook group then
      if runsCommand hook command && matcherCurrent group wantMatcher then
        if duplicated then (.update, settings.putGroups event groups) else (.noop, settings)
      else
        (.update, settings.putGroups event (groups.modify place.1 fun group =>
          withMatcher (hookGrouping.withEntries group
            ((hookGrouping.held group).set place.2 (withCommand hook command))) wantMatcher))
    else
      (.update, settings.putGroups event
        (hookGrouping.splice groups place ++ [captureGroup wantMatcher command]))

def computeCaptureHookInstall (cli : Cli) (settings : Settings) (runtime : ActionRecallRuntime)
    (agentId flairUrl : String)
    : Except String (List (String × HookDeltaAction) × Settings) := do
  let command ← buildCaptureHookCommand runtime.bunPath runtime.artifactPath agentId
    (some flairUrl) (some (captureFlushSpec cli))
  return mergeEvents (installCaptureEvent command) CAPTURE_HOOK_EVENTS settings

def installCaptureHooks (request : RuntimeRequest) (settings : Settings)
    : Except String Outcome := do
  if request.harness ≠ .claudeCode then
    throw ("capture is Claude Code only — codex has no PostToolUseFailure/PostToolUse/Stop "
      ++ "matcher Flair can capture from")
  refuseUnsafe request.agentId request.flairUrl ""
  match request.provisioned with
  | .error failure => return .held (failure ++ " — nothing written")
  | .ok packageDir =>
    let (actions, installed) ← computeCaptureHookInstall request.cli settings
      (request.installed packageDir CAPTURE_HOOK_MARKER) request.agentId request.flairUrl
    if anyChanged actions then return .write installed
    else return .noop ("capture hooks already current in " ++ request.path)

def removeCaptureEvent (event : String) (settings : Settings) : HookDeltaAction × Settings :=
  match settings.eventGroups event with
  | none => (.noop, settings)
  | some groups =>
    let kept := hookGrouping.bare isCaptureHook groups
    if !(hookGrouping.all groups).any isCaptureHook then (.noop, settings)
    else if kept = [] then (.remove, settings.dropEvent event)
    else (.remove, settings.putGroups event kept)

/-- `computeCaptureHookRemoval`: `hooks` goes when it is an object or array of nothing. -/
def computeCaptureHookRemoval (settings : Settings) : List (String × HookDeltaAction) × Settings :=
  let (actions, removed) := mergeEvents removeCaptureEvent CAPTURE_HOOK_EVENTS settings
  (actions,
    if removed.fields.get "hooks" = some (.arr []) then removed.withoutHooks
    else removed.dropEmptyHooks)

def uninstallCaptureHooks (path : String) (settings : Settings) : Outcome :=
  let (actions, removed) := computeCaptureHookRemoval settings
  if anyChanged actions then .write removed
  else .noop ("no capture hooks found in " ++ path ++ " — nothing to remove")

-- Groups without duplicates

variable {groups : List Value}

theorem withoutDuplicates_of_few (few : (hookGrouping.own isCaptureHook groups).length ≤ 1)
    : withoutDuplicates groups = groups := by
  simp only [withoutDuplicates, Grouping.length_findAll]
  rw [if_neg (by omega)]

theorem withoutDuplicates_facts (groups : List Value)
    : hookGrouping.own isCaptureHook (withoutDuplicates groups)
        = (hookGrouping.own isCaptureHook groups).take 1
      ∧ hookGrouping.bare isCaptureHook (withoutDuplicates groups)
        = hookGrouping.bare isCaptureHook groups := by
  by_cases few : (hookGrouping.own isCaptureHook groups).length ≤ 1
  · rw [withoutDuplicates_of_few few, List.take_of_length_le few]
    exact ⟨rfl, rfl⟩
  have present : hookGrouping.find isCaptureHook groups ≠ none := by
    intro absent
    rw [Grouping.find_eq_none.mp absent] at few
    simp at few
  obtain ⟨place, found⟩ := Option.ne_none_iff_exists'.mp present
  obtain ⟨first, -⟩ := Grouping.first_of_find found
  simp only [withoutDuplicates, Grouping.length_findAll]
  rw [if_pos (by omega), Grouping.own_filter_inhabited, Grouping.bare_filter_inhabited,
    first.own_spliceAll_tail, first.bare_spliceAll_tail, first.own_eq]
  exact ⟨rfl, rfl⟩

-- One event

def captureKind : Kind := fun _ => isCaptureHook

@[simp] theorem captureKind_apply (event : String) : captureKind event = isCaptureHook := rfl

def CaptureCurrent (groups : List Value) (command : String) (wantMatcher : Option String) : Prop :=
  (hookGrouping.own isCaptureHook groups).length = 1
  ∧ ∃ first : Grouping.First hookGrouping isCaptureHook groups,
    hookGrouping.onlyOurs isCaptureHook first.group = true
    ∧ runsCommand first.entry command = true ∧ matcherCurrent first.group wantMatcher = true

variable {command : String}

theorem captureGroup_facts (wantMatcher : Option String)
    (isOurs : isCaptureHook (hookEntry command) = true)
    : hookGrouping.entries (captureGroup wantMatcher command) = some [hookEntry command]
      ∧ hookGrouping.bare isCaptureHook [captureGroup wantMatcher command] = []
      ∧ matcherCurrent (captureGroup wantMatcher command) wantMatcher = true := by
  have entries : hookGrouping.entries (captureGroup wantMatcher command)
      = some [hookEntry command] := by
    cases wantMatcher <;> rfl
  refine ⟨entries, Grouping.bare_of_only entries (by simpa using isOurs), ?_⟩
  cases wantMatcher with
  | none => rfl
  | some matcher => simp [matcherCurrent, matcherIs, captureGroup, property, InsertionMap.get]

variable {settings : Settings} {event : String}

theorem installCaptureEvent_current (listed : settings.eventGroups event = some groups)
    (current : CaptureCurrent groups command (CAPTURE_HOOK_MATCHERS event))
    : installCaptureEvent command event settings = (.noop, settings) := by
  obtain ⟨single, first, only, runs, matched⟩ := current
  have entry : (hookGrouping.held first.group)[first.place.2]? = some first.entry := by
    rw [first.held_group]
    simp [Grouping.First.place]
  simp only [installCaptureEvent, findCaptureEntries, listed, Option.getD_some,
    withoutDuplicates_of_few single.le, first.find_eq, first.getElem?_place, entry, only, runs,
    matched, Grouping.length_findAll, single]
  rfl

theorem captureCurrent_append (wantMatcher : Option String)
    (isOurs : isCaptureHook (hookEntry command) = true)
    (fresh : hookGrouping.own isCaptureHook groups = [])
    : CaptureCurrent (groups ++ [captureGroup wantMatcher command]) command wantMatcher := by
  obtain ⟨entries, -, matched⟩ := captureGroup_facts wantMatcher isOurs
  obtain ⟨first, group, -, entry, -⟩ := Grouping.first_append entries isOurs fresh
  refine ⟨?_, first, ?_, ?_, by rw [group]; exact matched⟩
  · simp [fresh, Grouping.held_of_entries entries, isOurs]
  · rw [group, Grouping.onlyOurs_iff entries]
    simpa using isOurs
  · simp [entry, runsCommand]

theorem withMatcher_facts {group : Value} {entries : List Value} (wantMatcher : Option String)
    (listed : hookGrouping.entries group = some entries)
    : hookGrouping.entries (withMatcher group wantMatcher) = some entries
      ∧ matcherCurrent (withMatcher group wantMatcher) wantMatcher = true := by
  have object := object_of_property (property_hooks_of_entries listed)
  cases wantMatcher with
  | none =>
    refine ⟨(entries_withoutProperty group (by decide)).trans listed, ?_⟩
    obtain ⟨fields, rfl⟩ := object
    simp [matcherCurrent, withMatcher, property, withoutProperty]
  | some matcher =>
    refine ⟨(entries_withProperty group _ (by decide)).trans listed, ?_⟩
    rw [matcherCurrent, withMatcher, matcherIs, property_withProperty object, if_pos rfl,
      decide_eq_true_eq]

theorem captureCurrent_renewed (wantMatcher : Option String)
    (recognised : isFlairCaptureCommand command = true)
    (first : Grouping.First hookGrouping isCaptureHook groups)
    (single : (hookGrouping.own isCaptureHook groups).length = 1)
    (only : hookGrouping.onlyOurs isCaptureHook first.group = true)
    : let renewed := groups.modify first.place.1 fun group =>
        withMatcher (hookGrouping.withEntries group
          ((hookGrouping.held group).set first.place.2 (withCommand first.entry command)))
          wantMatcher
      CaptureCurrent renewed command wantMatcher
      ∧ hookGrouping.bare isCaptureHook renewed = hookGrouping.bare isCaptureHook groups := by
  have all_ours := ((Grouping.onlyOurs_iff first.listed).mp only).2
  have noneAhead : first.ahead = [] := by
    cases ahead : first.ahead with
    | nil => rfl
    | cons hook rest =>
      have foreign := first.noneAhead hook (by simp [ahead])
      have own := all_ours hook (by simp [ahead])
      rw [foreign] at own
      cases own
  have noneBehind : first.behind = [] := by
    have own := single
    rw [first.own_eq, List.length_cons, List.length_append,
      List.filter_eq_self.mpr fun hook member => all_ours hook (by simp [member])] at own
    exact List.length_eq_zero_iff.mp (by omega)
  have object : ∃ fields, first.entry = .obj fields := by
    cases old : hookCommand first.entry with
    | none =>
      have isOurs := first.isOurs
      simp [isCaptureHook, old] at isOurs
    | some before => exact object_of_hookCommand old
  obtain ⟨runs, typed⟩ := withCommand_facts object command
  have isOurs : isCaptureHook (withCommand first.entry command) = true := by
    simp [isCaptureHook, runs, recognised]
  have entries : hookGrouping.entries (hookGrouping.withEntries first.group
        ((hookGrouping.held first.group).set first.place.2 (withCommand first.entry command)))
      = some (first.ahead ++ withCommand first.entry command :: first.behind) := by
    rw [hookGrouping.entries_withEntries first.listed, first.held_group]
    simp [Grouping.First.place]
  obtain ⟨listed, matched⟩ := withMatcher_facts wantMatcher entries
  simp only [first.modify_place]
  generalize withMatcher (hookGrouping.withEntries first.group
    ((hookGrouping.held first.group).set first.place.2 (withCommand first.entry command)))
    wantMatcher = group at listed matched ⊢
  have onlyOurs : ∀ hook ∈ first.ahead ++ withCommand first.entry command :: first.behind,
      isCaptureHook hook = true := by
    simpa [noneAhead, noneBehind] using isOurs
  refine ⟨⟨?_, first.replaced listed isOurs, ?_, ?_, matched⟩, ?_⟩
  · rw [first.own_replaced listed isOurs, List.length_cons, List.length_tail, single]
  · exact (Grouping.onlyOurs_iff listed).mpr ⟨by simp, onlyOurs⟩
  · simp [Grouping.First.replaced, runsCommand, runs, typed]
  · refine first.bare_withGroup ?_
    rw [Grouping.bare_of_only listed onlyOurs, Grouping.bare_of_only first.listed all_ours]

def CaptureDone (command : String) : EventStep :=
  fun event settings action next => installCaptureEvent command event settings = (action, next)

theorem installCaptureEvent_cases {command event : String} {settings : Settings}
    (recognised : isFlairCaptureCommand command = true)
    : (installCaptureEvent command event settings = (.noop, settings)
        ∧ ∃ groups, settings.eventGroups event = some groups
          ∧ CaptureCurrent groups command (CAPTURE_HOOK_MATCHERS event))
      ∨ ∃ action groups, action ≠ .noop
        ∧ installCaptureEvent command event settings = (action, settings.putGroups event groups)
        ∧ CaptureCurrent groups command (CAPTURE_HOOK_MATCHERS event)
        ∧ hookGrouping.bare isCaptureHook groups
          = hookGrouping.bare isCaptureHook ((settings.eventGroups event).getD []) := by
  have isOurs : isCaptureHook (hookEntry command) = true := by simp [isCaptureHook, recognised]
  obtain ⟨-, fresh, -⟩ := captureGroup_facts (CAPTURE_HOOK_MATCHERS event) isOurs
  obtain ⟨own, left⟩ := withoutDuplicates_facts ((settings.eventGroups event).getD [])
  cases found : hookGrouping.find isCaptureHook
      (withoutDuplicates ((settings.eventGroups event).getD [])) with
  | none =>
    -- no entry at all: a group is pushed
    rw [Grouping.find_eq_none.mp found] at own
    have none_own : hookGrouping.own isCaptureHook ((settings.eventGroups event).getD []) = [] := by
      cases entries : hookGrouping.own isCaptureHook ((settings.eventGroups event).getD []) with
      | nil => rfl
      | cons entry rest => simp [entries] at own
    refine Or.inr ⟨.add, _, by simp, ?_, captureCurrent_append _ isOurs none_own,
      by rw [Grouping.bare_append, fresh, List.append_nil]⟩
    simp only [installCaptureEvent, found, pushGroup]
  | some place =>
    obtain ⟨first, rfl⟩ := Grouping.first_of_find found
    have single : (hookGrouping.own isCaptureHook
        (withoutDuplicates ((settings.eventGroups event).getD []))).length = 1 := by
      have some_own := congrArg List.length first.own_eq
      rw [own, List.length_cons, List.length_take] at some_own
      rw [own, List.length_take]
      omega
    have entry : (hookGrouping.held first.group)[first.place.2]? = some first.entry := by
      rw [first.held_group]
      simp [Grouping.First.place]
    simp only [installCaptureEvent, found, first.getElem?_place, Option.getD_some, entry]
    split
    · rename_i only
      split
      · rename_i current
        rw [Bool.and_eq_true] at current
        have settled : CaptureCurrent
            (withoutDuplicates ((settings.eventGroups event).getD [])) command
            (CAPTURE_HOOK_MATCHERS event) := ⟨single, first, only, current.1, current.2⟩
        split
        · exact Or.inr ⟨.update, _, by simp, rfl, settled, left⟩
        -- there was one entry only, so the groups are as they were
        rename_i notDuplicated
        rw [findCaptureEntries, Grouping.length_findAll, not_lt] at notDuplicated
        have same := withoutDuplicates_of_few notDuplicated
        rw [same] at settled
        refine Or.inl ⟨rfl, ?_⟩
        cases listed : settings.eventGroups event with
        | none =>
          rw [listed] at settled
          simp [CaptureCurrent] at settled
        | some groups =>
          rw [listed] at settled
          exact ⟨groups, rfl, settled⟩
      · obtain ⟨current, same⟩ := captureCurrent_renewed (CAPTURE_HOOK_MATCHERS event)
          recognised first single only
        exact Or.inr ⟨.update, _, by simp, rfl, current, same.trans left⟩
    · have none_own : hookGrouping.own isCaptureHook (hookGrouping.splice
          (withoutDuplicates ((settings.eventGroups event).getD [])) first.place) = [] := by
        rw [first.own_splice_place]
        exact List.length_eq_zero_iff.mp (by rw [List.length_tail, single])
      refine Or.inr ⟨.update, _, by simp, rfl, captureCurrent_append _ isOurs none_own, ?_⟩
      rw [Grouping.bare_append, fresh, List.append_nil, first.bare_splice_place, left]

variable {next : Settings}

theorem captureDone_facts {action : HookDeltaAction}
    (recognised : isFlairCaptureCommand command = true)
    (done : CaptureDone command event settings action next)
    : (action = .noop → next = settings)
      ∧ (∀ other ≠ event, next.eventGroups other = settings.eventGroups other)
      ∧ (∀ other, settings.Typed other → next.Typed other)
      ∧ (∃ groups, next.eventGroups event = some groups
        ∧ CaptureCurrent groups command (CAPTURE_HOOK_MATCHERS event))
      ∧ (settings.Typed event → event ∈ CAPTURE_HOOK_EVENTS →
        next.bareOfFamily CAPTURE_HOOK_EVENTS captureKind
          = settings.bareOfFamily CAPTURE_HOOK_EVENTS captureKind) := by
  rcases @installCaptureEvent_cases command event settings recognised with
    ⟨same, groups, listed, current⟩ | ⟨taken, groups, changed, same, current, left⟩
  · rw [CaptureDone, same, Prod.mk.injEq] at done
    obtain ⟨rfl, rfl⟩ := done
    exact ⟨fun _ => rfl, fun _ _ => rfl, fun _ typed => typed, ⟨groups, listed, current⟩,
      fun _ _ => rfl⟩
  · rw [CaptureDone, same, Prod.mk.injEq] at done
    obtain ⟨rfl, rfl⟩ := done
    exact ⟨fun noop => absurd noop changed, fun other apart => by simp [apart],
      fun _ typed => typed_putGroups typed, ⟨groups, by simp, current⟩,
      fun typed among => remainder_putGroups among typed rfl left⟩

theorem captureDone_confined (recognised : isFlairCaptureCommand command = true)
    : (CaptureDone command).Confined where
  frame done := (captureDone_facts recognised done).2.1
  kept done := (captureDone_facts recognised done).1 rfl

-- All three events

theorem mergeEvents_capture_facts (settings : Settings)
    (recognised : isFlairCaptureCommand command = true)
    : let result := mergeEvents (installCaptureEvent command) CAPTURE_HOOK_EVENTS settings
      (anyChanged result.1 = false → result.2 = settings)
      ∧ (∀ event ∈ CAPTURE_HOOK_EVENTS, (result.2.ownEntries captureKind event).length = 1)
      ∧ ((∀ event ∈ CAPTURE_HOOK_EVENTS, settings.Typed event) →
        result.2.bareOfFamily CAPTURE_HOOK_EVENTS captureKind
          = settings.bareOfFamily CAPTURE_HOOK_EVENTS captureKind)
      ∧ mergeEvents (installCaptureEvent command) CAPTURE_HOOK_EVENTS result.2
        = (CAPTURE_HOOK_EVENTS.map fun event => (event, .noop), result.2) := by
  have run : EventRun (CaptureDone command) _ _ _ _ :=
    eventRun_mergeEvents (installCaptureEvent command) CAPTURE_HOOK_EVENTS settings
  have confined := captureDone_confined recognised
  generalize mergeEvents (installCaptureEvent command) CAPTURE_HOOK_EVENTS settings = result at *
  have current : ∀ event ∈ CAPTURE_HOOK_EVENTS, ∃ groups,
      result.2.eventGroups event = some groups
      ∧ CaptureCurrent groups command (CAPTURE_HOOK_MATCHERS event) := by
    intro event member
    obtain ⟨before, action, after, done, -, final⟩ := run.at_event confined (by decide) member
    rw [final]
    exact (captureDone_facts recognised done).2.2.2.1
  refine ⟨fun unchanged => run.kept confined (anyChanged_eq_false.mp unchanged), ?_, ?_, ?_⟩
  · intro event member
    obtain ⟨groups, listed, single, -⟩ := current event member
    rw [ownEntries, listed]
    exact single
  · exact run.preserved_of_typed _ (fun done => (captureDone_facts recognised done).2.2.1)
      (fun done among typed => (captureDone_facts recognised done).2.2.2.2 typed among)
      (List.Subset.refl _)
  · refine mergeEvents_settled fun event member => ?_
    obtain ⟨groups, listed, holds⟩ := current event member
    exact installCaptureEvent_current listed holds

-- The removal

def CaptureRemoved : EventStep :=
  fun event settings action next => removeCaptureEvent event settings = (action, next)

theorem captureRemoved_facts {action : HookDeltaAction}
    (removed : CaptureRemoved event settings action next)
    : (action = .noop → next = settings)
      ∧ (action ≠ .noop → ∃ hooks, next.fields.get "hooks" = some (.obj hooks))
      ∧ (∀ other ≠ event, next.eventGroups other = settings.eventGroups other)
      ∧ next.ownEntries captureKind event = []
      ∧ (event ∈ CAPTURE_HOOK_EVENTS →
        next.bareOfFamily CAPTURE_HOOK_EVENTS captureKind
          = settings.bareOfFamily CAPTURE_HOOK_EVENTS captureKind) := by
  unfold CaptureRemoved removeCaptureEvent at removed
  cases listed : settings.eventGroups event with
  | none =>
    simp only [listed, Prod.mk.injEq] at removed
    obtain ⟨rfl, rfl⟩ := removed
    exact ⟨fun _ => rfl, by simp, fun _ _ => rfl, by simp [ownEntries, listed], fun _ => rfl⟩
  | some groups =>
    simp only [listed] at removed
    split at removed
    · rename_i absent
      obtain ⟨rfl, rfl⟩ := Prod.mk.inj removed
      refine ⟨fun _ => rfl, by simp, fun _ _ => rfl, ?_, fun _ => rfl⟩
      rw [ownEntries, listed, Option.getD_some, captureKind_apply, Grouping.own_eq_nil]
      simpa using absent
    · split at removed
      · rename_i nothing
        obtain ⟨rfl, rfl⟩ := Prod.mk.inj removed
        exact ⟨by simp, fun _ => ⟨_, hooks_withHooks _⟩, fun other apart => by simp [apart],
          by simp, fun among => remainder_dropEvent among listed nothing⟩
      · obtain ⟨rfl, rfl⟩ := Prod.mk.inj removed
        refine ⟨by simp, fun _ => ⟨_, hooks_withHooks _⟩, fun other apart => by simp [apart],
          ?_, fun among => ?_⟩
        · simp [Grouping.own_bare]
        · refine remainder_putGroups among (typed_of_eventGroups listed) rfl ?_
          rw [listed, Option.getD_some, captureKind_apply]
          exact Grouping.bare_bare groups

theorem captureRemoved_confined : CaptureRemoved.Confined where
  frame removed := (captureRemoved_facts removed).2.2.1
  kept removed := (captureRemoved_facts removed).1 rfl

theorem hooks_of_removed {events : List String} {actions : List HookDeltaAction}
    (run : EventRun CaptureRemoved events settings actions next)
    (changed : (∃ hooks, settings.fields.get "hooks" = some (.obj hooks))
      ∨ ∃ action ∈ actions, action ≠ .noop)
    : ∃ hooks, next.fields.get "hooks" = some (.obj hooks) := by
  induction run with
  | nil => simpa using changed
  | @cons event events settings middle next action actions here later ih =>
    refine ih ?_
    by_cases noop : action = .noop
    · rw [(captureRemoved_facts here).1 noop]
      simpa [noop] using changed
    · exact Or.inl ((captureRemoved_facts here).2.1 noop)

theorem uninstallCaptureHooks_facts {path : String}
    (settled : (uninstallCaptureHooks path settings).settled settings = some next)
    : (∀ event ∈ CAPTURE_HOOK_EVENTS, next.ownEntries captureKind event = [])
      ∧ next.bareOfFamily CAPTURE_HOOK_EVENTS captureKind
        = settings.bareOfFamily CAPTURE_HOOK_EVENTS captureKind := by
  have run : EventRun CaptureRemoved _ _ _ _ :=
    eventRun_mergeEvents removeCaptureEvent CAPTURE_HOOK_EVENTS settings
  have own : ∀ event ∈ CAPTURE_HOOK_EVENTS,
      (mergeEvents removeCaptureEvent CAPTURE_HOOK_EVENTS settings).2.ownEntries captureKind event
        = [] := by
    intro event member
    obtain ⟨before, action, after, removed, -, final⟩ :=
      run.at_event captureRemoved_confined (by decide) member
    rw [ownEntries, final]
    exact (captureRemoved_facts removed).2.2.2.1
  have left := run.preserved _ (fun removed => (captureRemoved_facts removed).2.2.2.2)
    (List.Subset.refl _)
  cases changed : anyChanged (mergeEvents removeCaptureEvent CAPTURE_HOOK_EVENTS settings).1 with
  | false =>
    have same := run.kept captureRemoved_confined (anyChanged_eq_false.mp changed)
    obtain rfl : settings = next := by
      simpa [uninstallCaptureHooks, computeCaptureHookRemoval, changed, Outcome.settled]
        using settled
    rw [same] at own
    exact ⟨own, rfl⟩
  | true =>
    have some_change : ∃ action ∈ (mergeEvents removeCaptureEvent CAPTURE_HOOK_EVENTS
        settings).1.map Prod.snd, action ≠ .noop := by
      by_contra noops
      have unchanged := anyChanged_eq_false.mpr (by simpa using noops)
      simp [unchanged] at changed
    obtain ⟨hooks, held⟩ := hooks_of_removed run (Or.inr some_change)
    obtain rfl : (mergeEvents removeCaptureEvent CAPTURE_HOOK_EVENTS settings).2.dropEmptyHooks
        = next := by
      simpa [uninstallCaptureHooks, computeCaptureHookRemoval, changed, held, Outcome.settled]
        using settled
    exact ⟨fun event member => ownEntries_dropEmptyHooks.trans (own event member),
      remainder_dropEmptyHooks.trans left⟩

end Flair.Hooks
