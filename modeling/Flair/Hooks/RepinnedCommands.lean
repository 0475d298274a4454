import Flair.Hooks.SessionStartHooks

/-! Putting another version in the span of an installer command changes nothing else that is
read from it, and so does re-pinning a settings file; the recognisers invert the builders.
-/

namespace Flair.Hooks

open Dynamic Settings

-- The span of the pin

/-- What the expressions have in common: the version stands in one word, behind the package. -/
structure PinnedForm (form front back : List (FormWord FormGroup)) : Prop where
  words : form = front ++ .hole .version "@tpsdev-ai/flair-mcp@" "" :: back
  place : form.findIdx isVersionWord = front.length
  front_ne : front ≠ []
  back_ne : back ≠ []
  once : ∀ name ∈ FormWord.names (front ++ back), name ≠ .version
  names : FormWord.names form = [.agentId, .version]
    ∨ FormWord.names form = [.agentId, .flairUrl, .version]
  fixed : ∀ word ∈ form, word.Spaceless

theorem pinnedForm_of_mem {entry : Harness × List (FormWord FormGroup)}
    (member : entry ∈ installerForms)
    : ∃ front back, PinnedForm entry.2 front back := by
  have all : ∀ entry ∈ installerForms,
      let place := entry.2.findIdx isVersionWord
      entry.2 = entry.2.take place
          ++ .hole .version "@tpsdev-ai/flair-mcp@" "" :: entry.2.drop (place + 1)
        ∧ place = (entry.2.take place).length
        ∧ entry.2.take place ≠ [] ∧ entry.2.drop (place + 1) ≠ []
        ∧ (∀ name ∈ FormWord.names (entry.2.take place ++ entry.2.drop (place + 1)),
            name ≠ .version)
        ∧ (FormWord.names entry.2 = [.agentId, .version]
          ∨ FormWord.names entry.2 = [.agentId, .flairUrl, .version])
        ∧ ∀ word ∈ entry.2, word.Spaceless := by
    decide +kernel
  obtain ⟨words, place, front_ne, back_ne, once, names, fixed⟩ := all entry member
  exact ⟨_, _, words, place, front_ne, back_ne, once, names, fixed⟩

variable {form front back : List (FormWord FormGroup)} {fill other : FormGroup → String}

theorem joinWords_around {words more : List String} (word : String) (some_words : words ≠ [])
    (some_more : more ≠ [])
    : joinWords (words ++ word :: more)
      = joinWords words ++ " " ++ word ++ (" " ++ joinWords more) := by
  rw [joinWords, String.intercalate_append_of_ne_nil some_words (by simp),
    String.intercalate_cons_of_ne_nil some_more]
  simp [joinWords, String.append_assoc]

theorem PinnedForm.text (pinned : PinnedForm form front back)
    : joinWords (form.map (FormWord.render fill))
      = joinWords (front.map (FormWord.render fill)) ++ " "
        ++ (FLAIR_MCP_PACKAGE ++ "@" ++ fill .version)
        ++ (" " ++ joinWords (back.map (FormWord.render fill))) := by
  have word : FormWord.render fill (.hole .version "@tpsdev-ai/flair-mcp@" "")
      = FLAIR_MCP_PACKAGE ++ "@" ++ fill .version := by
    rw [FormWord.render, String.append_empty]
    rfl
  rw [pinned.words, List.map_append, List.map_cons,
    joinWords_around _ (by simpa using pinned.front_ne) (by simpa using pinned.back_ne), word]

theorem render_congr {words : List (FormWord FormGroup)}
    (same : ∀ name ∈ FormWord.names words, fill name = other name)
    : words.map (FormWord.render fill) = words.map (FormWord.render other) := by
  refine List.map_congr_left fun word member => ?_
  cases word with
  | literal word => rfl
  | hole name opening closing =>
    have here : name ∈ FormWord.names words := List.mem_filterMap.mpr ⟨_, member, rfl⟩
    rw [FormWord.render, FormWord.render, same name here]

theorem spaceless_of_allowed {group : FormGroup} {text : String}
    (allowed : formGroupAllows group text = true)
    : Spaceless text := by
  have env : text.toList.all isEnvChar = true → Spaceless text := fun letters member =>
    absurd (List.all_eq_true.mp letters ' ' member) (by decide)
  cases group with
  | agentId => exact env allowed
  | flairUrl => exact env allowed
  | version => exact spaceless_of_version allowed

def filledForm (harness : Harness) (form front back : List (FormWord FormGroup))
    (fill : FormGroup → String)
    : InstallerHookForm where
  harness := harness
  agentId := fill .agentId
  flairUrl := if FormGroup.flairUrl ∈ FormWord.names form then some (fill .flairUrl) else none
  pkgSpec := FLAIR_MCP_PACKAGE ++ "@" ++ fill .version
  before := joinWords (front.map (FormWord.render fill)) ++ " "
  after := " " ++ joinWords (back.map (FormWord.render fill))

theorem PinnedForm.groups (pinned : PinnedForm form front back)
    : let groups := (FormWord.names form).map fun name => (name, fill name)
      (groups.lookup .agentId).getD "" = fill .agentId
        ∧ groups.lookup .flairUrl
          = (if FormGroup.flairUrl ∈ FormWord.names form then some (fill .flairUrl) else none)
        ∧ (groups.lookup .version).getD "" = fill .version := by
  rcases pinned.names with names | names <;> rw [names] <;> exact ⟨rfl, rfl, rfl⟩

theorem PinnedForm.match (pinned : PinnedForm form front back) (harness : Harness)
    (fits : ∀ name ∈ FormWord.names form, fill name ≠ "" ∧ formGroupAllows name (fill name) = true)
    : formFromMatch harness form (joinWords (form.map (FormWord.render fill)))
      = some (filledForm harness form front back fill) := by
  have words := splitWords_joinWords (by simp [pinned.words])
    (FormWord.spaceless_render pinned.fixed fun name member =>
      spaceless_of_allowed (fits name member).2)
  have read := FormWord.readAll_render fits
  obtain ⟨agent, url, version⟩ := @PinnedForm.groups _ _ _ fill pinned
  have before : (form.map (FormWord.render fill)).take front.length
      = front.map (FormWord.render fill) := by
    rw [pinned.words, List.map_append, List.take_left' (by simp)]
  have after : (form.map (FormWord.render fill)).drop (front.length + 1)
      = back.map (FormWord.render fill) := by
    rw [pinned.words, List.map_append, List.map_cons, List.append_cons, List.drop_left' (by simp)]
  rw [formFromMatch, words, read, Option.map_some, agent, url, version, pinned.place, before,
    after]
  rfl

theorem PinnedForm.filled (pinned : PinnedForm form front back) {harness : Harness}
    {command : String} {read : InstallerHookForm}
    (matched : formFromMatch harness form command = some read)
    : ∃ fill : FormGroup → String, command = joinWords (form.map (FormWord.render fill))
      ∧ read = filledForm harness form front back fill
      ∧ ∀ name ∈ FormWord.names form,
          fill name ≠ "" ∧ formGroupAllows name (fill name) = true := by
  obtain ⟨groups, taken, -⟩ := Option.map_eq_some_iff.mp matched
  have distinct : (FormWord.names form).Nodup := by
    rcases pinned.names with names | names <;> rw [names] <;> decide
  obtain ⟨words, listed⟩ := FormWord.eq_render_of_readAll taken distinct
  have allowed := FormWord.allowed_of_readAll taken
  rw [listed, List.forall_mem_map] at allowed
  have command_eq := congrArg joinWords words
  rw [joinWords_splitWords] at command_eq
  refine ⟨_, command_eq, ?_, allowed⟩
  rw [command_eq, pinned.match harness allowed] at matched
  exact (Option.some.inj matched).symm

-- Another version

def repinned (form : InstallerHookForm) (version : String) : String :=
  form.before ++ (FLAIR_MCP_PACKAGE ++ "@" ++ version) ++ form.after

variable {command version : String} {read : InstallerHookForm}

theorem parseInstallerHookForm_repinned (parsed : parseInstallerHookForm command = some read)
    (strict : matchesFormVersion version.toList = true)
    : command = read.before ++ read.pkgSpec ++ read.after
      ∧ parseInstallerHookForm (repinned read version)
        = some { read with pkgSpec := FLAIR_MCP_PACKAGE ++ "@" ++ version } := by
  obtain ⟨⟨harness, form⟩, member, matched⟩ := List.exists_of_findSome?_eq_some parsed
  obtain ⟨front, back, pinned⟩ := pinnedForm_of_mem member
  obtain ⟨fill, rfl, rfl, fits⟩ := pinned.filled matched
  have apart : ∀ words : List (FormWord FormGroup),
      (∀ name ∈ FormWord.names words, name ≠ .version) →
      words.map (FormWord.render fill)
        = words.map (FormWord.render (Function.update fill .version version)) :=
    fun words other => render_congr fun name inside => (Function.update_of_ne (other name inside) ..).symm
  have once := pinned.once
  simp only [FormWord.names, List.filterMap_append, List.mem_append] at once
  have front_same := apart front fun name inside => once name (.inl inside)
  have back_same := apart back fun name inside => once name (.inr inside)
  have fits' : ∀ name ∈ FormWord.names form,
      Function.update fill .version version name ≠ ""
        ∧ formGroupAllows name (Function.update fill .version version name) = true := by
    intro name inside
    by_cases same : name = .version
    · subst same
      rw [Function.update_self]
      refine ⟨?_, strict⟩
      rintro rfl
      revert strict
      decide
    · rw [Function.update_of_ne same]
      exact fits name inside
  have again := pinned.match harness fits'
  rw [pinned.text, ← front_same, ← back_same, Function.update_self] at again
  refine ⟨pinned.text, ?_⟩
  refine (parseInstallerHookForm_of_match member again).trans ?_
  simp [filledForm, ← front_same, ← back_same]

-- What the recognisers take

/-- What a recogniser gives back of the arguments of a builder. -/
def partsOf (bunPath artifactPath agentId : String) (flairUrl flushSpec : Option String)
    : CaptureCommandParts :=
  ⟨bunPath, artifactPath, agentId, givenUrl flairUrl, flushSpec.filter fun spec => spec ≠ ""⟩

theorem parseCaptureCommand_iff (command : String) (parts : CaptureCommandParts)
    : parseCaptureCommand command = some parts
      ↔ ∃ bunPath artifactPath agentId flairUrl flushSpec,
          parts = partsOf bunPath artifactPath agentId flairUrl flushSpec
          ∧ IsArtifact artifactPath CAPTURE_HOOK_MARKER
          ∧ (buildCaptureHookCommand bunPath artifactPath agentId flairUrl flushSpec = .ok command
            ∨ buildLegacyCaptureHookCommand bunPath artifactPath agentId flairUrl flushSpec
              = .ok command) := by
  constructor
  · intro parsed
    have built : IsArtifact parts.artifactPath CAPTURE_HOOK_MARKER
        ∧ (buildCaptureHookCommand parts.bunPath parts.artifactPath parts.agentId parts.flairUrl
            parts.flushSpec = .ok command
          ∨ buildLegacyCaptureHookCommand parts.bunPath parts.artifactPath parts.agentId
            parts.flairUrl parts.flushSpec = .ok command) := by
      rcases Option.or_eq_some_iff.mp parsed with found | ⟨-, found⟩
      · exact ⟨(builder_of_recognised found).1, .inl (builder_of_recognised found).2⟩
      · exact ⟨(builder_of_recognised found).1, .inr (builder_of_recognised found).2⟩
    have again := parseCaptureCommand_built built.2 built.1
    rw [parsed, Option.some.injEq] at again
    exact ⟨_, _, _, _, _, again, built⟩
  · rintro ⟨bunPath, artifactPath, agentId, flairUrl, flushSpec, rfl, artifact, built⟩
    exact parseCaptureCommand_built built artifact

theorem parseActionRecallCommand_iff (command : String) (parts : CaptureCommandParts)
    : parseActionRecallCommand command = some parts
      ↔ ∃ bunPath artifactPath agentId flairUrl,
          parts = partsOf bunPath artifactPath agentId flairUrl none
          ∧ IsArtifact artifactPath ACTION_RECALL_HOOK_MARKER
          ∧ buildActionRecallHookCommand bunPath artifactPath agentId flairUrl none
            = .ok command := by
  constructor
  · intro parsed
    obtain ⟨artifact, built⟩ := builder_of_recognised parsed
    have again := spells_actionRecall.recognised built artifact
    rw [parseActionRecallCommand] at parsed
    rw [parsed, Option.some.injEq] at again
    exact ⟨_, _, _, _, again, artifact, built⟩
  · rintro ⟨bunPath, artifactPath, agentId, flairUrl, rfl, artifact, built⟩
    exact spells_actionRecall.recognised built artifact

theorem buildSessionStartHookCommand_ok (cli : Cli) {agentId : String} {flairUrl : Option String}
    (harness : Harness) (actionRecall : Bool) (safe : isHookCommandValueSafe agentId = true)
    (safe_url : ∀ url ∈ givenUrl flairUrl, isHookCommandValueSafe url = true)
    : ∃ command,
        buildSessionStartHookCommand cli agentId flairUrl harness actionRecall = .ok command := by
  unfold buildSessionStartHookCommand
  rw [checkIdentity_ok safe safe_url]
  cases harness <;> exact ⟨_, rfl⟩

/-- A new version in the span of a command of an installer form is all that changes; what the
builder makes of safe values is of such a form; the recognisers take what their builders, current
and legacy, make, and nothing else.
-/
theorem repinning_changes_the_pin (cli : Cli) (command : String)
    : (∀ form, parseInstallerHookForm command = some form →
        command = form.before ++ form.pkgSpec ++ form.after
          ∧ ∀ version, matchesStrictSemver version.toList = true →
              parseInstallerHookForm (repinned form version)
                = some { form with pkgSpec := FLAIR_MCP_PACKAGE ++ "@" ++ version })
      ∧ (∀ agentId flairUrl harness actionRecall,
          isHookCommandValueSafe agentId = true →
          (∀ url ∈ givenUrl flairUrl, isHookCommandValueSafe url = true) →
          matchesFormVersion cli.version.toList = true →
          (harness = .codex → actionRecall = false) →
          ∃ built form,
            buildSessionStartHookCommand cli agentId flairUrl harness actionRecall = .ok built
              ∧ parseInstallerHookForm built = some form ∧ form.agentId = agentId
              ∧ form.flairUrl = givenUrl flairUrl ∧ form.harness = harness
              ∧ form.pkgSpec = FLAIR_MCP_PACKAGE ++ "@" ++ cli.version)
      ∧ (∀ parts,
          parseCaptureCommand command = some parts
            ↔ ∃ bunPath artifactPath agentId flairUrl flushSpec,
                parts = partsOf bunPath artifactPath agentId flairUrl flushSpec
                ∧ IsArtifact artifactPath CAPTURE_HOOK_MARKER
                ∧ (buildCaptureHookCommand bunPath artifactPath agentId flairUrl flushSpec
                    = .ok command
                  ∨ buildLegacyCaptureHookCommand bunPath artifactPath agentId flairUrl flushSpec
                    = .ok command))
      ∧ ∀ parts,
          parseActionRecallCommand command = some parts
            ↔ ∃ bunPath artifactPath agentId flairUrl,
                parts = partsOf bunPath artifactPath agentId flairUrl none
                ∧ IsArtifact artifactPath ACTION_RECALL_HOOK_MARKER
                ∧ buildActionRecallHookCommand bunPath artifactPath agentId flairUrl none
                  = .ok command := by
  refine ⟨fun form parsed => ?_, ?_, parseCaptureCommand_iff command,
    parseActionRecallCommand_iff command⟩
  · have some_version : matchesFormVersion "1".toList = true := by decide
    exact ⟨(parseInstallerHookForm_repinned parsed some_version).1, fun version strict =>
      (parseInstallerHookForm_repinned parsed (matchesFormVersion_of_strict strict)).2⟩
  · intro agentId flairUrl harness actionRecall safe safe_url pin plain
    obtain ⟨built, made⟩ := buildSessionStartHookCommand_ok cli harness actionRecall safe safe_url
    obtain ⟨form, parsed, agent, url, same, spec⟩ := parseInstallerHookForm_built made pin plain
    rw [mcpServerSpec, if_pos (resolved_of_form pin)] at spec
    exact ⟨built, form, made, parsed, agent, url, same, spec⟩

def legacyCommand : String :=
  "sh -c 'FLAIR_AGENT_ID=flint /bun /capture-hook.js >/dev/null 2>/dev/null || true'"

def versionedCli : Cli := ⟨"0.55.0", fun _ => false, fun _ _ => 0⟩

/-- A command of the builder that discarded stderr too is taken though the builder makes it of no
arguments; and with the cache refresh the command the builder makes for codex is not taken.
-/
theorem legacy_command_is_taken
    : (parseCaptureCommand legacyCommand
          = some (partsOf "/bun" "/capture-hook.js" "flint" none none)
        ∧ ∀ bunPath artifactPath agentId flairUrl flushSpec,
            buildCaptureHookCommand bunPath artifactPath agentId flairUrl flushSpec
              ≠ .ok legacyCommand)
      ∧ ∃ built,
          buildSessionStartHookCommand versionedCli "flint" none .codex true = .ok built
          ∧ parseInstallerHookForm built = none := by
  have legacy : buildLegacyCaptureHookCommand "/bun" "/capture-hook.js" "flint" none none
      = .ok legacyCommand := by decide +kernel
  refine ⟨⟨parseCaptureCommand_built (.inr legacy) (by decide), ?_⟩, _, rfl,
    by decide +kernel⟩
  intro bunPath artifactPath agentId flairUrl flushSpec built
  obtain ⟨form, inside, read⟩ := spells_capture.read built
  obtain ⟨other, among, read'⟩ := spells_legacyCapture.read legacy
  have both := FormWord.comparable_of_readAll read read'
  rw [captureForms_apart form inside other among] at both
  cases both

-- Re-pinning the hook of a settings file

theorem repinned_marked (parsed : parseInstallerHookForm command = some read) (version : String)
    : includes (repinned read version) SESSION_START_HOOK_MARKER = true := by
  obtain ⟨⟨harness, form⟩, member, matched⟩ := List.exists_of_findSome?_eq_some parsed
  obtain ⟨front, back, pinned⟩ := pinnedForm_of_mem member
  obtain ⟨fill, -, rfl, -⟩ := pinned.filled matched
  let words := ["flair-session-start", "flair-session-start)"]
  have closes : ∀ entry ∈ installerForms,
      (entry.2.drop (entry.2.findIdx isVersionWord + 1)).head?
        ∈ words.map fun word => some (.literal word) := by
    decide +kernel
  have marked : ∀ word ∈ words, includes word SESSION_START_HOOK_MARKER = true := by decide
  have closing := closes _ member
  rw [pinned.place, pinned.words, List.append_cons, List.drop_left' (by simp)] at closing
  obtain ⟨word, inside, first⟩ := List.mem_map.mp closing
  obtain ⟨rest, rfl⟩ := List.head?_eq_some_iff.mp first.symm
  obtain ⟨more, text⟩ : ∃ more, joinWords (word :: rest.map (FormWord.render fill))
      = word ++ more := by
    cases rest.map (FormWord.render fill) with
    | nil => exact ⟨"", by simp [joinWords]⟩
    | cons next rest =>
      exact ⟨_, (String.intercalate_cons_of_ne_nil (by simp)).trans String.append_assoc⟩
  refine includes_trans word ?_ (marked word inside)
  simp only [repinned, filledForm, List.map_cons, FormWord.render, text]
  simp only [← String.append_assoc]
  exact includes_around ..

/-- What a re-pin that writes has read: one Flair entry, of an installer form, whose pin the
running version does not lower.
-/
structure Repinnable (cli : Cli) (settings : Settings) (command : String)
    (form : InstallerHookForm)
    : Prop where
  only : (settings.ownEntries sessionStartKind "SessionStart").map hookCommand = [some command]
  parsed : parseInstallerHookForm command = some form
  kept : ∀ spec, decodeWiringSpec cli form.pkgSpec FLAIR_MCP_PACKAGE = some spec →
    spec.token.kind = .none
    ∨ spec.token.kind = .version ∧ pinWriteWouldLowerOrIsUnknown cli
        ((wiringPinString (some spec)).getD "") cli.version = false

theorem repinSessionStartHook_write {cli : Cli} {path : String} {settings next : Settings}
    (written : repinSessionStartHook cli path settings = .write next)
    : ∃ command form, Repinnable cli settings command form
      ∧ repinned form cli.version ≠ command
      ∧ next.ownEntries sessionStartKind "SessionStart" = [hookEntry (repinned form cli.version)]
      ∧ next.withoutFamily ["SessionStart"] sessionStartKind
        = settings.withoutFamily ["SessionStart"] sessionStartKind := by
  unfold repinSessionStartHook at written
  simp only at written
  split at written
  · cases written
  · cases written
  rename_i place matched
  unfold findHookMatches at matched
  cases listed : settings.eventGroups "SessionStart" with
  | none =>
    rw [listed] at matched
    cases matched
  | some groups =>
    rw [listed, Option.getD_some] at matched
    obtain ⟨first, rfl, own, entry⟩ := Grouping.first_of_single matched
    obtain ⟨command, called, -⟩ := (Option.any_eq_true _ _).mp first.isOurs
    simp only [listed, Option.getD_some, first.getElem?_place, entry, called] at written
    split at written
    · cases written
    split at written
    · cases written
    rename_i form parsed
    split at written
    · cases written
    rename_i changed
    split at written
    · rename_i decided
      obtain ⟨resolved, -, kept⟩ := decidePinWrite_write decided
      rw [mcpServerSpec, if_pos resolved] at written changed
      obtain rfl := Outcome.write.inj written
      have isOurs := isSessionStartHook_entry (repinned_marked parsed cli.version)
      have mine : settings.ownEntries sessionStartKind "SessionStart" = [first.entry] := by
        rwa [ownEntries, listed]
      refine ⟨command, form, ⟨by rw [mine, ← called]; rfl, parsed, kept⟩, changed, ?_, ?_⟩
      · rw [ownEntries_putGroups, if_pos rfl, sessionStartKind_apply]
        exact (first.own_put isOurs).trans (by rw [own]; rfl)
      · refine withoutFamily_putGroups (by simp) (typed_of_eventGroups listed) ?_
        rw [listed, Option.getD_some, sessionStartKind_apply]
        exact first.others_put isOurs
    · cases written
    · cases written

/-- A re-pin changes the pin of the one Flair entry, never to an older one, and nothing else;
under a strict version the entry is read back with its other arguments and is not written again.
-/
theorem repin_changes_the_pin_only (cli : Cli) (path : String) (settings : Settings)
    : let after := ((repinSessionStartHook cli path settings).settled settings).getD settings
      after.withoutFamily ["SessionStart"] sessionStartKind
          = settings.withoutFamily ["SessionStart"] sessionStartKind
        ∧ (after = settings
          ∨ ∃ command form, Repinnable cli settings command form
              ∧ after.ownEntries sessionStartKind "SessionStart"
                = [hookEntry (repinned form cli.version)]
              ∧ (cli.Strict → parseInstallerHookForm (repinned form cli.version)
                = some { form with pkgSpec := FLAIR_MCP_PACKAGE ++ "@" ++ cli.version }))
        ∧ (cli.Strict → ∀ again, repinSessionStartHook cli path after ≠ .write again) := by
  intro after
  by_cases writes : ∃ next, repinSessionStartHook cli path settings = .write next
  · obtain ⟨next, written⟩ := writes
    have same : after = next := by simp [after, written, Outcome.settled]
    obtain ⟨command, form, read, -, own, left⟩ := repinSessionStartHook_write written
    have read_back := fun strict : cli.Strict =>
      (parseInstallerHookForm_repinned read.parsed strict.form).2
    rw [same]
    refine ⟨left, .inr ⟨command, form, read, own, read_back⟩, fun strict again rewritten => ?_⟩
    obtain ⟨command', form', read', changed, -⟩ := repinSessionStartHook_write rewritten
    have current := read'.only
    rw [own, List.map_singleton, List.singleton_inj, hookCommand_hookEntry,
      Option.some.injEq] at current
    have parsed := read'.parsed
    rw [← current, read_back strict, Option.some.injEq] at parsed
    exact changed (by rw [← parsed, ← current]; rfl)
  · have same : after = settings := by
      cases outcome : repinSessionStartHook cli path settings with
      | write next => exact absurd ⟨next, outcome⟩ writes
      | _ => simp [after, outcome, Outcome.settled]
    rw [same]
    exact ⟨rfl, .inl rfl, fun _ again written => writes ⟨again, written⟩⟩

end Flair.Hooks
