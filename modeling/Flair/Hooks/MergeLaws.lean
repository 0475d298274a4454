import Flair.Hooks.CaptureHooks
import Flair.Hooks.ContinuityHooks

/-! The four hook families side by side: what an install and a removal do to the family's
entries, and to everything else in the settings.
-/

namespace Flair.Hooks

open Dynamic Settings

inductive HookFamily where
  | sessionStart
  | actionRecall
  | continuity
  | capture
deriving DecidableEq

namespace HookFamily

def events : HookFamily → List String
  | .sessionStart => ["SessionStart"]
  | .actionRecall => actionRecallEvents
  | .continuity => CONTINUITY_HOOK_EVENTS
  | .capture => CAPTURE_HOOK_EVENTS

def kind : HookFamily → Kind
  | .sessionStart => sessionStartKind
  | .actionRecall => actionRecallKind
  | .continuity => continuityKind
  | .capture => captureKind

def install : HookFamily → RuntimeRequest → Settings → Except String Outcome
  | .sessionStart, request => installHook request.toInstallRequest
  | .actionRecall, request => installActionRecall request
  | .continuity, request => installContinuityHooks request.toInstallRequest
  | .capture, request => installCaptureHooks request

def uninstall : HookFamily → RuntimeRequest → Settings → Except String Outcome
  | .sessionStart, request => fun settings => .ok (uninstallHook request.path settings)
  | .actionRecall, request => uninstallActionRecall request.cli request.path
  | .continuity, request => fun settings => .ok (uninstallContinuityHooks request.path settings)
  | .capture, request => fun settings => .ok (uninstallCaptureHooks request.path settings)

def rest (family : HookFamily) (settings : Settings) : InsertionMap String Value :=
  match family with
  | .capture => settings.bareOfFamily family.events family.kind
  | _ => settings.withoutFamily family.events family.kind

def inhabited (family : HookFamily) (settings : Settings) : InsertionMap String Value :=
  match family with
  | .capture => settings.inhabitedGroups family.events
  | _ => settings.pruned family.events

def entriesKept (family : HookFamily) (settings : Settings) (event : String) : Nat :=
  match family with
  | .capture => min 1 (settings.ownEntries captureKind event).length
  | .actionRecall =>
    if event = "PreToolUse" then dedicatedEntries settings
    else (settings.ownEntries actionRecallKind event).length
  | family => (settings.ownEntries family.kind event).length

/-- Where a second install finds nothing to do: the SessionStart entry shares its group with
no other hook, and the version that is written can be read back.
-/
def Repeatable (family : HookFamily) (request : RuntimeRequest) (settings : Settings) : Prop :=
  match family with
  | .sessionStart => entryIsAlone settings = true
  | .actionRecall | .continuity => request.cli.Strict
  | .capture => True

theorem rest_of_none {family : HookFamily} {settings : Settings}
    (fresh : ∀ event ∈ family.events, settings.ownEntries family.kind event = [])
    : family.rest settings = family.inhabited settings := by
  cases family
  case capture => exact bareOfFamily_of_none fresh
  all_goals exact withoutFamily_of_none fresh

end HookFamily

-- The writers

variable {settings next : Settings} {outcome : Outcome}

theorem installHook_facts {request : InstallRequest}
    (ran : installHook request settings = .ok outcome)
    (settled : outcome.settled settings = some next)
    : (next.ownEntries sessionStartKind "SessionStart").length
        = max 1 (settings.ownEntries sessionStartKind "SessionStart").length
      ∧ (settings.Typed "SessionStart" →
        next.withoutFamily ["SessionStart"] sessionStartKind
          = settings.withoutFamily ["SessionStart"] sessionStartKind)
      ∧ (entryIsAlone settings = true → ∃ message,
        installHook request next = .ok (.noop message)) := by
  obtain ⟨⟨⟩, safe, ran⟩ := bind_eq_ok.mp ran
  obtain ⟨command, built, ran⟩ := bind_eq_ok.mp ran
  have marked := includes_sessionStart built
  obtain ⟨kept, -, count, left, again⟩ := @computeInstallDelta_facts settings _ marked
  have same : next = (computeInstallDelta settings command).newConfig := by
    simp only at ran
    split at ran
    · rename_i noop
      obtain rfl := Except.ok.inj ran
      rw [← Option.some.inj settled, kept noop]
    · split at ran
      · obtain rfl := Except.ok.inj ran
        exact (Option.some.inj settled).symm
      all_goals
        obtain rfl := Except.ok.inj ran
        cases settled
  subst same
  refine ⟨count, left, fun alone => ?_⟩
  refine ⟨withCodexReapproval request.harness
    ("SessionStart hook already correct in " ++ request.path), ?_⟩
  simp only [installHook, safe, built, bind, Except.bind, again alone, ↓reduceIte]
  rfl

theorem uninstallHook_settles (path : String) (settings : Settings)
    : ∃ next, (uninstallHook path settings).settled settings = some next := by
  unfold uninstallHook
  simp only
  split <;> exact ⟨_, rfl⟩

theorem uninstallHook_facts {path : String}
    (settled : (uninstallHook path settings).settled settings = some next)
    : next.ownEntries sessionStartKind "SessionStart"
        = (settings.ownEntries sessionStartKind "SessionStart").tail
      ∧ next.withoutFamily ["SessionStart"] sessionStartKind
        = settings.withoutFamily ["SessionStart"] sessionStartKind := by
  obtain ⟨kept, own, left⟩ := computeRemovalDelta_facts settings
  have same : next = (computeRemovalDelta settings).newConfig := by
    simp only [uninstallHook] at settled
    split at settled
    · rename_i noop
      rw [kept noop, ← Option.some.inj settled]
    · exact (Option.some.inj settled).symm
  rw [same]
  exact ⟨own, left⟩

theorem installContinuityHooks_facts {request : InstallRequest}
    (ran : installContinuityHooks request settings = .ok outcome)
    (settled : outcome.settled settings = some next)
    : (∀ event ∈ CONTINUITY_HOOK_EVENTS, (next.ownEntries continuityKind event).length
        = max 1 (settings.ownEntries continuityKind event).length)
      ∧ ((∀ event ∈ CONTINUITY_HOOK_EVENTS, settings.Typed event) →
        next.withoutFamily CONTINUITY_HOOK_EVENTS continuityKind
          = settings.withoutFamily CONTINUITY_HOOK_EVENTS continuityKind)
      ∧ (request.cli.Strict → (∀ version, request.cli.compare version version = 0) →
        ∃ message, installContinuityHooks request next = .ok (.noop message)) := by
  unfold installContinuityHooks at ran
  by_cases claude : request.harness = .claudeCode
  swap
  · simp [claude, throw, throwThe, MonadExceptOf.throw, bind, Except.bind] at ran
  simp only [claude, ne_eq, not_true_eq_false, ↓reduceIte] at ran
  obtain ⟨⟨⟩, safe, ran⟩ := bind_eq_ok.mp ran
  obtain ⟨installed, computed, ran⟩ := bind_eq_ok.mp ran
  split at ran
  · obtain rfl := Except.ok.inj ran
    cases settled
  rename_i free
  obtain ⟨kept, count, left, again⟩ := computeContinuityHookInstall_facts computed free
  have same : next = installed.newConfig := by
    split at ran
    · obtain rfl := Except.ok.inj ran
      exact (Option.some.inj settled).symm
    · rename_i unchanged
      obtain rfl := Except.ok.inj ran
      rw [← Option.some.inj settled, kept (by simpa using unchanged)]
  subst same
  refine ⟨count, left, fun strict reflexive => ?_⟩
  refine ⟨"continuity capture hooks already current in " ++ request.path, ?_⟩
  simp only [installContinuityHooks, claude, safe, again strict reflexive, bind, Except.bind,
    ne_eq, not_true_eq_false, ↓reduceIte]
  rfl

theorem uninstallContinuityHooks_settles (path : String) (settings : Settings)
    : ∃ next, (uninstallContinuityHooks path settings).settled settings = some next := by
  unfold uninstallContinuityHooks
  simp only
  split <;> exact ⟨_, rfl⟩

theorem uninstallContinuityHooks_facts {path : String}
    (settled : (uninstallContinuityHooks path settings).settled settings = some next)
    : (∀ event ∈ CONTINUITY_HOOK_EVENTS, next.ownEntries continuityKind event
        = (settings.ownEntries continuityKind event).tail)
      ∧ next.withoutFamily CONTINUITY_HOOK_EVENTS continuityKind
        = settings.withoutFamily CONTINUITY_HOOK_EVENTS continuityKind := by
  obtain ⟨kept, own, left⟩ := computeContinuityHookRemoval_facts settings
  have same : next = (computeContinuityHookRemoval settings).2 := by
    simp only [uninstallContinuityHooks] at settled
    split at settled
    · exact (Option.some.inj settled).symm
    · rename_i unchanged
      rw [kept (by simpa using unchanged), ← Option.some.inj settled]
  rw [same]
  exact ⟨own, left⟩

theorem uninstallCaptureHooks_settles (path : String) (settings : Settings)
    : ∃ next, (uninstallCaptureHooks path settings).settled settings = some next := by
  unfold uninstallCaptureHooks
  simp only
  split <;> exact ⟨_, rfl⟩

variable {request : RuntimeRequest}

theorem installCaptureHooks_facts (ran : installCaptureHooks request settings = .ok outcome)
    (settled : outcome.settled settings = some next)
    : (∀ event ∈ CAPTURE_HOOK_EVENTS, (next.ownEntries captureKind event).length = 1)
      ∧ ((∀ event ∈ CAPTURE_HOOK_EVENTS, settings.Typed event) →
        next.bareOfFamily CAPTURE_HOOK_EVENTS captureKind
          = settings.bareOfFamily CAPTURE_HOOK_EVENTS captureKind)
      ∧ ∃ message, installCaptureHooks request next = .ok (.noop message) := by
  unfold installCaptureHooks at ran
  by_cases claude : request.harness = .claudeCode
  swap
  · simp [claude, throw, throwThe, MonadExceptOf.throw, bind, Except.bind] at ran
  simp only [claude, ne_eq, not_true_eq_false, ↓reduceIte] at ran
  obtain ⟨⟨⟩, safe, ran⟩ := bind_eq_ok.mp ran
  split at ran
  · obtain rfl := Except.ok.inj ran
    cases settled
  rename_i packageDir provisioned
  obtain ⟨result, computed, ran⟩ := bind_eq_ok.mp ran
  obtain ⟨command, built, computed⟩ := bind_eq_ok.mp computed
  obtain rfl := Except.ok.inj computed
  have recognised := isFlairCaptureCommand_built built (isArtifact_package packageDir (by decide))
  obtain ⟨kept, count, left, again⟩ := mergeEvents_capture_facts settings recognised
  have same : next = (mergeEvents (installCaptureEvent command) CAPTURE_HOOK_EVENTS settings).2 := by
    split at ran
    · obtain rfl := Except.ok.inj ran
      exact (Option.some.inj settled).symm
    · rename_i unchanged
      obtain rfl := Except.ok.inj ran
      rw [kept (by simpa using unchanged), ← Option.some.inj settled]
  rw [same]
  refine ⟨count, left, "capture hooks already current in " ++ request.path, ?_⟩
  simp only [installCaptureHooks, claude, safe, provisioned, computeCaptureHookInstall, built,
    again, bind, Except.bind, pure, Except.pure, ne_eq, not_true_eq_false, ↓reduceIte]
  rfl

-- The laws

variable {family : HookFamily}

theorem rest_of_uninstall {removed : Settings}
    (ran : family.uninstall request settings = .ok outcome)
    (settled : outcome.settled settings = some removed)
    : family.rest removed = family.rest settings := by
  cases family with
  | sessionStart =>
    obtain rfl := Except.ok.inj ran
    exact (uninstallHook_facts settled).2
  | actionRecall => exact (uninstallActionRecall_facts ran settled).2.2
  | continuity =>
    obtain rfl := Except.ok.inj ran
    exact (uninstallContinuityHooks_facts settled).2
  | capture =>
    obtain rfl := Except.ok.inj ran
    exact (uninstallCaptureHooks_facts settled).2

/-- An install repeated changes nothing, leaves an entry under each event, and touches
nothing but the family's entries.
-/
theorem facts_of_install {installed : Settings}
    (reflexive : ∀ version, request.cli.compare version version = 0)
    (ran : family.install request settings = .ok outcome)
    (settled : outcome.settled settings = some installed)
    : (family.Repeatable request settings → ∃ message,
        family.install request installed = .ok (.noop message))
      ∧ (∀ event ∈ family.events, (installed.ownEntries family.kind event).length
        = max 1 (family.entriesKept settings event))
      ∧ ((∀ event ∈ family.events, settings.Typed event) →
        family.rest installed = family.rest settings) := by
  cases family with
  | sessionStart =>
    obtain ⟨count, left, again⟩ := installHook_facts ran settled
    refine ⟨again, ?_, fun typed => left (typed _ (by simp [HookFamily.events]))⟩
    simpa [HookFamily.events, HookFamily.entriesKept, HookFamily.kind] using count
  | actionRecall =>
    obtain ⟨count, count', left, again⟩ := installActionRecall_facts ran settled
    refine ⟨fun strict => (again strict).imp fun _ repeated => repeated.1, ?_,
      fun typed => left (typed _ (by decide)) (typed _ (by decide))⟩
    intro event member
    rcases (by simpa [HookFamily.events, actionRecallEvents] using member
      : event = "PreToolUse" ∨ event = "SessionStart") with rfl | rfl
    · exact count
    · exact count'
  | continuity =>
    obtain ⟨count, left, again⟩ := installContinuityHooks_facts ran settled
    exact ⟨fun strict => again strict reflexive, count, left⟩
  | capture =>
    obtain ⟨count, left, again⟩ := installCaptureHooks_facts ran settled
    refine ⟨fun _ => again, fun event member => ?_, left⟩
    have one := count event member
    simp only [HookFamily.kind, HookFamily.entriesKept, one]
    omega

/-- Removal after an install where there was no entry gives the settings back; action recall
leaves its SessionStart entry.
-/
theorem uninstall_of_install {installed : Settings}
    (reflexive : ∀ version, request.cli.compare version version = 0)
    (ran : family.install request settings = .ok outcome)
    (settled : outcome.settled settings = some installed)
    (readable : family = .actionRecall → request.cli.Strict)
    (fresh : ∀ event ∈ family.events, settings.ownEntries family.kind event = [])
    (typed : ∀ event ∈ family.events, settings.Typed event)
    : ∃ removal removed, family.uninstall request installed = .ok removal
      ∧ removal.settled installed = some removed
      ∧ family.rest removed = family.inhabited settings
      ∧ ∀ event ∈ family.events, ¬ (family = .actionRecall ∧ event = "SessionStart") →
        removed.ownEntries family.kind event = [] := by
  obtain ⟨-, count, left⟩ := facts_of_install reflexive ran settled
  have back : ∀ removal removed, family.uninstall request installed = .ok removal →
      removal.settled installed = some removed →
      family.rest removed = family.inhabited settings := by
    intro removal removed uninstalled settled'
    rw [rest_of_uninstall uninstalled settled', left typed, HookFamily.rest_of_none fresh]
  have single : ∀ event ∈ family.events, family ≠ .actionRecall →
      (installed.ownEntries family.kind event).tail = [] := by
    intro event member other
    have one := count event member
    have kept : family.entriesKept settings event = 0 := by
      have none_own := fresh event member
      cases family <;> simp_all [HookFamily.entriesKept, HookFamily.kind]
    rw [kept] at one
    exact List.length_eq_zero_iff.mp (by rw [List.length_tail, one]; rfl)
  cases family with
  | sessionStart =>
    obtain ⟨removed, settled'⟩ := uninstallHook_settles request.path installed
    refine ⟨_, removed, rfl, settled', back _ removed rfl settled', fun event member _ => ?_⟩
    obtain rfl : event = "SessionStart" := by simpa [HookFamily.events] using member
    exact (uninstallHook_facts settled').1.trans (single _ member (by simp))
  | actionRecall =>
    obtain ⟨-, -, -, again⟩ := installActionRecall_facts ran settled
    obtain ⟨-, -, delta, enabled, noop⟩ := again (readable rfl)
    have some_url := nonempty_of_safe (refuseUnsafe_ok (installActionRecall_ok ran settled).2.1).2
    obtain ⟨removal, removed, uninstalled, settled'⟩ :=
      uninstall_of_enabled request.path enabled noop (readable rfl) some_url
    refine ⟨removal, removed, uninstalled, settled', back _ removed uninstalled settled',
      fun event member notStart => ?_⟩
    rcases (by simpa [HookFamily.events, actionRecallEvents] using member
      : event = "PreToolUse" ∨ event = "SessionStart") with rfl | rfl
    · exact (uninstallActionRecall_facts uninstalled settled').1
    · exact absurd ⟨rfl, rfl⟩ notStart
  | continuity =>
    obtain ⟨removed, settled'⟩ := uninstallContinuityHooks_settles request.path installed
    refine ⟨_, removed, rfl, settled', back _ removed rfl settled', fun event member _ => ?_⟩
    exact ((uninstallContinuityHooks_facts settled').1 event member).trans
      (single _ member (by simp))
  | capture =>
    obtain ⟨removed, settled'⟩ := uninstallCaptureHooks_settles request.path installed
    exact ⟨_, removed, rfl, settled', back _ removed rfl settled',
      fun event member _ => (uninstallCaptureHooks_facts settled').1 event member⟩

/-- The merges of the four families: an install repeated changes nothing, leaves one entry
under each event unless more were kept, leaves everything else as it was, as removal does,
and removal takes an install back.
-/
theorem hook_merges_keep_the_rest {family : HookFamily} {request : RuntimeRequest}
    {settings installed : Settings} {outcome : Outcome}
    (reflexive : ∀ version, request.cli.compare version version = 0)
    (ran : family.install request settings = .ok outcome)
    (settled : outcome.settled settings = some installed)
    : (family.Repeatable request settings → ∃ message,
        family.install request installed = .ok (.noop message))
      ∧ (∀ event ∈ family.events, (installed.ownEntries family.kind event).length
        = max 1 (family.entriesKept settings event))
      ∧ ((∀ event ∈ family.events, settings.Typed event) →
        family.rest installed = family.rest settings)
      ∧ (∀ before removal removed, family.uninstall request before = .ok removal →
        removal.settled before = some removed → family.rest removed = family.rest before)
      ∧ ((∀ event ∈ family.events, settings.ownEntries family.kind event = []) →
        (∀ event ∈ family.events, settings.Typed event) →
        (family = .actionRecall → request.cli.Strict) →
        ∃ removal removed, family.uninstall request installed = .ok removal
          ∧ removal.settled installed = some removed
          ∧ family.rest removed = family.inhabited settings
          ∧ (family ≠ .actionRecall → family.inhabited removed = family.inhabited settings)) := by
  obtain ⟨again, count, left⟩ := facts_of_install reflexive ran settled
  refine ⟨again, count, left, fun before removal removed uninstalled settled' =>
    rest_of_uninstall uninstalled settled', fun fresh typed readable => ?_⟩
  obtain ⟨removal, removed, uninstalled, settled', back, none_own⟩ :=
    uninstall_of_install reflexive ran settled readable fresh typed
  refine ⟨removal, removed, uninstalled, settled', back, fun other => ?_⟩
  rw [← back]
  exact (HookFamily.rest_of_none fun event member =>
    none_own event member fun both => other both.1).symm

-- Runs on fixed settings

def exampleRequest : RuntimeRequest where
  cli := ⟨"1.2.3", fun _ => false, fun first second => if first = second then 0 else 1⟩
  path := "settings.json"
  agentId := "alice"
  flairUrl := "http://localhost"
  harness := .claudeCode
  runtime := ⟨"/bin/bun", "/pkg/dist/capture-hook.js"⟩
  provisioned := .ok "/pkg"

/-- The settings whose only field is `hooks`. -/
def settingsOf (hooks : Value)
    (distinct : ∀ events, hooks = .obj events → InsertionMap.Distinct events)
    : Settings where
  fields := [("hooks", hooks)]
  distinct := by simp [InsertionMap.Distinct]
  hooksDistinct := by
    intro events held
    exact distinct events (by simpa [InsertionMap.get] using held)

def exampleCommand : String :=
  "sh -c 'out=$(FLAIR_AGENT_ID=alice FLAIR_URL=http://localhost npx -y -p "
    ++ "@tpsdev-ai/flair-mcp@1.2.3 flair-session-start 2>/dev/null) && printf %s \"$out\" || true'"

def noHooks : Settings := settingsOf (.obj []) (by
  rintro events ⟨⟩
  simp [InsertionMap.Distinct])

def startGroups (groups : List Value) : Settings :=
  settingsOf (.obj [("SessionStart", .arr groups)]) (by
    rintro events ⟨⟩
    simp [InsertionMap.Distinct])

def refreshCommand : String :=
  "sh -c 'out=$(FLAIR_ACTION_RECALL=1 FLAIR_AGENT_ID=alice FLAIR_URL=http://localhost npx -y -p "
    ++ "@tpsdev-ai/flair-mcp@1.2.3 flair-session-start 2>/dev/null) && printf %s \"$out\" || true'"

def recallCommand : String :=
  "sh -c 'out=$(FLAIR_AGENT_ID=alice FLAIR_URL=http://localhost /bin/bun "
    ++ "/pkg/dist/action-recall-hook.js 2>/dev/null) && [ -n \"$out\" ] && "
    ++ "[ \"$\x7b#out\x7d\" -le 4096 ] && printf %s \"$out\" || true'"

def recallGroup : Value :=
  .obj [("matcher", .str "Bash"), ("hooks", .arr [hookEntry recallCommand])]

def recallSettings : Settings :=
  settingsOf
    (.obj [("PreToolUse", .arr [recallGroup]),
      ("SessionStart", .arr [makeHookGroup refreshCommand])])
    (by
      rintro events ⟨⟩
      simp [InsertionMap.Distinct])

/-- What the builders and the merges make of the example request. -/
theorem exampleRequest_runs
    : buildActionRecallHookCommand "/bin/bun" "/pkg/dist/action-recall-hook.js" "alice"
        (some "http://localhost") none = .ok recallCommand
      ∧ buildSessionStartHookCommand exampleRequest.cli "alice" (some "http://localhost")
        .claudeCode true = .ok refreshCommand
      ∧ buildSessionStartHookCommand exampleRequest.cli "alice" (some "http://localhost")
        .claudeCode false = .ok exampleCommand
      ∧ (recallSettings.putGroups "PreToolUse" []).dropEvent "PreToolUse"
        = startGroups [makeHookGroup refreshCommand]
      ∧ HookFamily.sessionStart.install exampleRequest noHooks
        = .ok (.write (startGroups [makeHookGroup exampleCommand]))
      ∧ HookFamily.actionRecall.install exampleRequest noHooks = .ok (.write recallSettings)
      ∧ HookFamily.sessionStart.install exampleRequest
          (startGroups [makeHookGroup "flair-session-start", makeHookGroup "flair-session-start"])
        = .ok (.write (startGroups
          [makeHookGroup exampleCommand, makeHookGroup "flair-session-start"]))
      ∧ ((startGroups [makeHookGroup exampleCommand, makeHookGroup "flair-session-start"]).ownEntries
          sessionStartKind "SessionStart").length = 2
      ∧ HookFamily.sessionStart.install exampleRequest
          (settingsOf (.str "mine") (by rintro events ⟨⟩))
        = .ok (.write (startGroups [makeHookGroup exampleCommand])) := by
  refine ⟨?_, ?_, ?_, ?_, ?_, ?_, ?_, ?_, ?_⟩ <;> decide +kernel

/-- Witness: an install where there were no hooks. -/
theorem hook_merges_keep_the_rest_fresh
    : HookFamily.sessionStart.install exampleRequest noHooks
        = .ok (.write (startGroups [makeHookGroup exampleCommand]))
      ∧ ∃ message, HookFamily.sessionStart.install exampleRequest
        (startGroups [makeHookGroup exampleCommand]) = .ok (.noop message) := by
  have ran := exampleRequest_runs.2.2.2.2.1
  have alone : entryIsAlone noHooks = true := by decide
  exact ⟨ran, (hook_merges_keep_the_rest (by simp [exampleRequest]) ran rfl).1 alone⟩

theorem recallCommand_recognised : isFlairActionRecallCommand recallCommand = true :=
  isFlairActionRecallCommand_built exampleRequest_runs.1
    (show (splitAtChar '/' "/pkg/dist/action-recall-hook.js").getLast?
      = some ACTION_RECALL_HOOK_MARKER by decide)

theorem removePreToolUse_recallSettings
    : removePreToolUse recallSettings = (.remove, startGroups [makeHookGroup refreshCommand]) := by
  have ours : isActionRecallHook (hookEntry recallCommand) = true :=
    isActionRecallHook_command recallCommand_recognised rfl
  rw [@removePreToolUse_alone recallSettings recallGroup _ rfl rfl ours,
    exampleRequest_runs.2.2.2.1]

theorem refreshCommand_built
    : buildSessionStartHookCommand exampleRequest.cli "alice" (some "http://localhost")
        .claudeCode true = .ok refreshCommand :=
  exampleRequest_runs.2.1

theorem findHookEntry_refresh
    : findHookEntry (startGroups [makeHookGroup refreshCommand]) = some (0, 0) := by
  have listed : (startGroups [makeHookGroup refreshCommand]).eventGroups "SessionStart"
      = some [makeHookGroup refreshCommand] := rfl
  have held : hookGrouping.held (makeHookGroup refreshCommand) = [hookEntry refreshCommand] := rfl
  have ours := isSessionStartHook_entry (includes_sessionStart refreshCommand_built)
  rw [findHookEntry, listed, Option.bind_some, Grouping.find, held]
  simp [ours]

theorem uninstall_recallSettings
    : HookFamily.actionRecall.uninstall exampleRequest recallSettings
        = .ok (.write (startGroups [makeHookGroup exampleCommand])) := by
  have rebuilt := exampleRequest_runs.2.2.1
  obtain ⟨form, parsed, agent, address, harness, -⟩ :=
    parseInstallerHookForm_built refreshCommand_built (by decide) (by simp)
  have disabled := disableRefresh_enabled rfl findHookEntry_refresh parsed
    (enablesActionRecall_of_built refreshCommand_built)
    (by rw [agent, address, harness]; exact rebuilt)
  exact uninstallActionRecall_updated _ removePreToolUse_recallSettings disabled

theorem bind_eq_of_ok {first : Except String Outcome} (next : Outcome → Except String Outcome)
    (ran : first = .ok outcome)
    : (first >>= next) = next outcome := by
  rw [ran]
  rfl

/-- Two SessionStart entries stay two, a `hooks` value of another type gives way, and after
an action-recall install its removal leaves a SessionStart entry.
-/
theorem merges_not_exact
    : (∃ installed, HookFamily.sessionStart.install exampleRequest
          (startGroups [makeHookGroup "flair-session-start", makeHookGroup "flair-session-start"])
            = .ok (.write installed)
        ∧ (installed.ownEntries sessionStartKind "SessionStart").length = 2)
      ∧ HookFamily.sessionStart.install exampleRequest
          (settingsOf (.str "mine") (by rintro events ⟨⟩))
        = .ok (.write (startGroups [makeHookGroup exampleCommand]))
      ∧ (HookFamily.actionRecall.install exampleRequest noHooks >>= fun outcome =>
          HookFamily.actionRecall.uninstall exampleRequest ((outcome.settled noHooks).getD noHooks))
        = .ok (.write (startGroups [makeHookGroup exampleCommand])) := by
  obtain ⟨-, -, -, -, -, -, twice, two, mine⟩ := exampleRequest_runs
  refine ⟨⟨_, twice, two⟩, mine, ?_⟩
  have installed := exampleRequest_runs.2.2.2.2.2.1
  have settled : ((Outcome.write recallSettings).settled noHooks).getD noHooks
      = recallSettings := rfl
  rw [← uninstall_recallSettings, ← settled]
  exact bind_eq_of_ok _ installed

end Flair.Hooks
