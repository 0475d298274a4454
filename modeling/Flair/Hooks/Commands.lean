import Flair.Foundations.WordForms
import Flair.Hooks.PinSpecs

/-! The hook commands the writers build and how they are told from others. A regular
expression whose groups take no space is given by the word forms it matches.
-/

namespace Flair.Hooks

open Dynamic

def SESSION_START_HOOK_MARKER : String := "flair-session-start"

def ACTION_RECALL_HOOK_MARKER : String := "action-recall-hook.js"

def CONTINUITY_CAPTURE_HOOK_MARKER : String := "flair-continuity-capture"

def CAPTURE_HOOK_MARKER : String := "capture-hook.js"

inductive Harness where
  | claudeCode
  | codex
deriving DecidableEq

-- Values of a command

/-- `HOOK_VALUE_SAFE_RE` -/
def isHookCommandValueSafe (value : String) : Bool :=
  decide (value ≠ "")
    && value.toList.all fun c => c.isAlphanum || ['.', '_', ':', '/', '-'].contains c

/-- As a safe value, with `@` allowed too. -/
def isArtefactPathSafe (value : String) : Bool :=
  decide (value ≠ "")
    && value.toList.all fun c => c.isAlphanum || ['.', '_', ':', '@', '/', '-'].contains c

/-- An `@`, the letters of a package, an `@` and the letters of a version: neither class has
an `@`.
-/
def isFlushSpecSafe (spec : String) : Bool :=
  match spec.toList.splitOn '@' with
  | [[], package, version] =>
    decide (package ≠ []) && decide (version ≠ [])
      && package.all (fun c => c.isAlphanum || ['.', '_', '/', '-'].contains c)
      && version.all fun c => c.isAlphanum || ['.', '_', '-'].contains c
  | _ => false

def unsafeText (label value allowed : String) : String :=
  label ++ " '" ++ value ++ "' contains characters that cannot be safely written into a shell "
    ++ "hook command (allowed: letters, digits, . _ : / -" ++ allowed ++ ")"

def givenUrl (flairUrl : Option String) : Option String := flairUrl.filter fun url => url ≠ ""

def checkIdentity (agentId : String) (flairUrl : Option String) : Except String Unit :=
  if !isHookCommandValueSafe agentId then .error (unsafeText "agent id" agentId "")
  else
    match givenUrl flairUrl with
    | some url =>
      if isHookCommandValueSafe url then .ok () else .error (unsafeText "Flair URL" url "")
    | none => .ok ()

def urlText : Option String → String
  | some url => " FLAIR_URL=" ++ url
  | none => ""

/-- `FLAIR_AGENT_ID=… FLAIR_URL=…` -/
def identityText (agentId : String) (flairUrl : Option String) : String :=
  "FLAIR_AGENT_ID=" ++ agentId ++ urlText (givenUrl flairUrl)

theorem identityText_eq (agentId : String) (flairUrl : Option String)
    : identityText agentId flairUrl
      = "FLAIR_AGENT_ID=" ++ agentId ++ urlText (givenUrl flairUrl) := by
  delta identityText
  rfl

-- The SessionStart command

def buildSessionStartHookCommand (cli : Cli) (agentId : String) (flairUrl : Option String)
    (harness : Harness) (actionRecall : Bool)
    : Except String String := do
  checkIdentity agentId flairUrl
  let env := (if harness = .codex then "FLAIR_HOOK_HARNESS=codex " else "")
    ++ (if actionRecall then "FLAIR_ACTION_RECALL=1 " else "") ++ identityText agentId flairUrl
  let invocation := env ++ " npx -y -p " ++ mcpServerSpec cli ++ " " ++ SESSION_START_HOOK_MARKER
  if harness = .codex then
    return "sh -c 'out=$(" ++ invocation ++ ") && printf %s \"$out\" || true'"
  else
    return "sh -c 'out=$(" ++ invocation ++ " 2>/dev/null) && printf %s \"$out\" || true'"

def sessionStartEnablesActionRecall (command : String) : Bool :=
  includes command "FLAIR_ACTION_RECALL=1"

inductive FormGroup where
  | agentId
  | flairUrl
  | version
deriving DecidableEq

/-- `[^\s'"$();|&<>]` -/
def isEnvChar (c : Char) : Bool :=
  !isSpace c && !(['\'', '"', '$', '(', ')', ';', '|', '&', '<', '>'].contains c)

def formGroupAllows (group : FormGroup) (text : String) : Bool :=
  match group with
  | .version => matchesFormVersion text.toList
  | _ => text.toList.all isEnvChar

/-- `(?: FLAIR_URL=(…))? npx -y -p (@tpsdev-ai/flair-mcp@…)` -/
def invocationForm (withUrl : Bool) : List (FormWord FormGroup) :=
  (if withUrl then [.hole .flairUrl "FLAIR_URL=" ""] else [])
    ++ [.literal "npx", .literal "-y", .literal "-p",
      .hole .version "@tpsdev-ai/flair-mcp@" ""]

/-- `HOOK_BARE_FORM_RE` -/
def bareForm (withUrl : Bool) : List (FormWord FormGroup) :=
  .hole .agentId "FLAIR_AGENT_ID=" "" :: invocationForm withUrl
    ++ [.literal "flair-session-start"]

/-- `HOOK_CLAUDE_FORM_RE` -/
def claudeForm (withRecall withUrl : Bool) : List (FormWord FormGroup) :=
  [.literal "sh", .literal "-c"]
    ++ (if withRecall then
        [.literal "'out=$(FLAIR_ACTION_RECALL=1", .hole .agentId "FLAIR_AGENT_ID=" ""]
      else [.hole .agentId "'out=$(FLAIR_AGENT_ID=" ""])
    ++ invocationForm withUrl
    ++ [.literal "flair-session-start", .literal "2>/dev/null)", .literal "&&",
      .literal "printf", .literal "%s", .literal "\"$out\"", .literal "||", .literal "true'"]

/-- `HOOK_CODEX_FORM_RE` -/
def codexForm (withUrl : Bool) : List (FormWord FormGroup) :=
  [.literal "sh", .literal "-c", .literal "'out=$(FLAIR_HOOK_HARNESS=codex",
      .hole .agentId "FLAIR_AGENT_ID=" ""]
    ++ invocationForm withUrl
    ++ [.literal "flair-session-start)", .literal "&&", .literal "printf", .literal "%s",
      .literal "\"$out\"", .literal "||", .literal "true'"]

/-- A command of an installer form; `before` and `after` stand around the package span. -/
structure InstallerHookForm where
  harness : Harness
  agentId : String
  flairUrl : Option String
  pkgSpec : String
  before : String
  after : String
deriving DecidableEq

def isVersionWord : FormWord FormGroup → Bool
  | .hole .version _ _ => true
  | _ => false

/-- `command.match(re)` for one form of an expression, with the span of group 3. -/
def formFromMatch (harness : Harness) (form : List (FormWord FormGroup)) (command : String)
    : Option InstallerHookForm :=
  let words := splitWords command
  let place := form.findIdx isVersionWord
  (FormWord.readAll formGroupAllows form words).map fun groups =>
    { harness := harness
      agentId := (groups.lookup .agentId).getD ""
      flairUrl := groups.lookup .flairUrl
      pkgSpec := FLAIR_MCP_PACKAGE ++ "@" ++ (groups.lookup .version).getD ""
      before := joinWords (words.take place) ++ " "
      after := " " ++ joinWords (words.drop (place + 1)) }

def installerForms : List (Harness × List (FormWord FormGroup)) :=
  [(.claudeCode, claudeForm true true), (.claudeCode, claudeForm true false),
    (.claudeCode, claudeForm false true), (.claudeCode, claudeForm false false),
    (.codex, codexForm true), (.codex, codexForm false),
    (.claudeCode, bareForm true), (.claudeCode, bareForm false)]

def parseInstallerHookForm (command : String) : Option InstallerHookForm :=
  installerForms.findSome? fun (harness, form) => formFromMatch harness form command

def guardedPinSpan (command : Option String) : Option String :=
  command.map fun command => ((parseInstallerHookForm command).map (·.pkgSpec)).getD command

-- The continuity command

def buildContinuityCaptureHookCommand (agentId : String) (flairUrl pin : Option String)
    : Except String String := do
  checkIdentity agentId flairUrl
  let spec := match pin.filter fun pin => pin ≠ "" with
    | some pin => "@tpsdev-ai/flair-mcp@" ++ pin
    | none => "@tpsdev-ai/flair-mcp"
  let invocation := identityText agentId flairUrl ++ " npx -y -p " ++ spec ++ " "
    ++ CONTINUITY_CAPTURE_HOOK_MARKER
  return "sh -c '" ++ invocation ++ " >/dev/null 2>/dev/null || true'"

inductive PackageGroup where
  | agentId
  | flairUrl
  | package
deriving DecidableEq

/-- `[^\s'"]` -/
def isUnquotedChar (c : Char) : Bool := !isSpace c && c != '\'' && c != '"'

/-- `[^\s'"]+`, and `@tpsdev-ai\/flair-mcp(?:@[^\s"']+)?` for the package. -/
def packageGroupAllows (group : PackageGroup) (text : String) : Bool :=
  text.toList.all isUnquotedChar
    && match group with
      | .package =>
        decide (text = FLAIR_MCP_PACKAGE)
          || ((between (FLAIR_MCP_PACKAGE ++ "@") "" text).any fun pin => pin ≠ "")
      | _ => true

/-- `CONTINUITY_PACKAGE_COMMAND_RE` -/
def continuityForm (withUrl withFlag : Bool) : List (FormWord PackageGroup) :=
  .hole .agentId "FLAIR_AGENT_ID=" ""
    :: (if withUrl then [.hole .flairUrl "FLAIR_URL=" ""] else [])
    ++ [.literal "npx", .literal "-y"] ++ (if withFlag then [.literal "-p"] else [])
    ++ [.hole .package "" "", .literal "flair-continuity-capture"]

def continuityForms : List (List (FormWord PackageGroup)) :=
  [continuityForm true true, continuityForm true false, continuityForm false true,
    continuityForm false false]

def continuityPackageArgument (command : Option String) : Option String :=
  match command with
  | none => none
  | some command =>
    if !includes command FLAIR_MCP_PACKAGE then none
    else
      let invocation := (between "sh -c '" " >/dev/null 2>/dev/null || true'" command).getD command
      match continuityForms.findSome? fun form =>
        FormWord.readAll packageGroupAllows form (splitWords invocation) with
      | none => some (FLAIR_MCP_PACKAGE ++ "@unknown")
      | some groups =>
        if isHookCommandValueSafe ((groups.lookup .agentId).getD "")
            && (groups.lookup .flairUrl).all isHookCommandValueSafe then
          groups.lookup .package
        else some (FLAIR_MCP_PACKAGE ++ "@unknown")

-- Commands of a provisioned runtime

abbrev CommandBuilder :=
  (bunPath artifactPath agentId : String) → (flairUrl flushSpec : Option String) →
    Except String String

def checkRuntime (bunPath artifactPath agentId : String) (flairUrl : Option String)
    : Except String Unit :=
  if !isHookCommandValueSafe agentId then
    .error (unsafeText "agent id" agentId "; artefact paths also allow @")
  else if !isHookCommandValueSafe bunPath then
    .error (unsafeText "bun path" bunPath "; artefact paths also allow @")
  else if !isArtefactPathSafe artifactPath then
    .error (unsafeText "artefact path" artifactPath "; artefact paths also allow @")
  else
    match givenUrl flairUrl with
    | some url =>
      if isHookCommandValueSafe url then .ok () else .error (unsafeText "Flair URL" url "")
    | none => .ok ()

def buildActionRecallHookCommand : CommandBuilder :=
  fun bunPath artifactPath agentId flairUrl _ => do
    checkRuntime bunPath artifactPath agentId flairUrl
    let invocation := identityText agentId flairUrl ++ " " ++ bunPath ++ " " ++ artifactPath
    return "sh -c 'out=$(" ++ invocation ++ " 2>/dev/null) && [ -n \"$out\" ] && "
      ++ "[ \"$\x7b#out\x7d\" -le 4096 ] && printf %s \"$out\" || true'"

def captureFlushSpec (cli : Cli) : String := FLAIR_MCP_PACKAGE ++ "@" ++ cli.version

def buildCaptureHookCommand : CommandBuilder :=
  fun bunPath artifactPath agentId flairUrl flushSpec => do
    checkRuntime bunPath artifactPath agentId flairUrl
    let given := flushSpec.filter fun spec => spec ≠ ""
    match given with
    | some spec =>
      if isFlushSpecSafe spec then pure ()
      else throw ("flush spec '" ++ spec ++ "' is not a safe pinned package spec")
    | none => pure ()
    let flush := match given with
      | some spec => " FLAIR_CAPTURE_FLUSH_SPEC=" ++ spec
      | none => ""
    return "sh -c '" ++ identityText agentId flairUrl ++ flush ++ " " ++ bunPath ++ " "
      ++ artifactPath ++ " >/dev/null || true'"

inductive CommandSlot where
  | bunPath
  | artifactPath
  | agentId
  | flairUrl
  | flushSpec
deriving DecidableEq

def commandSlots : List CommandSlot := [.bunPath, .artifactPath, .agentId, .flairUrl, .flushSpec]

def slotToken : CommandSlot → String
  | .bunPath => "MATCH_BUN_PATH"
  | .artifactPath => "MATCH_ARTIFACT_PATH"
  | .agentId => "MATCH_AGENT_ID"
  | .flairUrl => "MATCH_FLAIR_URL"
  | .flushSpec => "@MATCH_FLUSH_PACKAGE@MATCH_FLUSH_VERSION"

def splitFirst (part : List Char) : List Char → Option (List Char × List Char)
  | [] => if part = [] then some ([], []) else none
  | c :: rest =>
    if part.isPrefixOf (c :: rest) then some ([], (c :: rest).drop part.length)
    else (splitFirst part rest).map fun (before, after) => (c :: before, after)

def formWordOf (word : String) : FormWord CommandSlot :=
  (commandSlots.findSome? fun slot =>
    (splitFirst (slotToken slot).toList word.toList).map fun (opening, closing) =>
      .hole slot (String.ofList opening) (String.ofList closing)).getD (.literal word)

def formsOf (builder : CommandBuilder) (withFlushSpec : Bool)
    : List (List (FormWord CommandSlot)) :=
  [none, some (slotToken .flairUrl)].flatMap fun url =>
    (if withFlushSpec then [none, some (slotToken .flushSpec)] else [none]).filterMap fun spec =>
      (builder (slotToken .bunPath) (slotToken .artifactPath) (slotToken .agentId) url
        spec).toOption.map fun text => (splitWords text).map formWordOf

structure CaptureCommandParts where
  bunPath : String
  artifactPath : String
  agentId : String
  flairUrl : Option String
  flushSpec : Option String
deriving DecidableEq

def installerCommandRecognizer (builder : CommandBuilder) (marker : String)
    (withFlushSpec : Bool) (command : String)
    : Option CaptureCommandParts :=
  (formsOf builder withFlushSpec).findSome? fun form => do
    let parts ← FormWord.readAll (fun _ _ => true) form (splitWords command)
    let bunPath ← parts.lookup .bunPath
    let artifactPath ← parts.lookup .artifactPath
    let agentId ← parts.lookup .agentId
    if (splitAtChar '/' artifactPath).getLast? = some marker
        ∧ builder bunPath artifactPath agentId (parts.lookup .flairUrl)
            (parts.lookup .flushSpec) = .ok command then
      some ⟨bunPath, artifactPath, agentId, parts.lookup .flairUrl, parts.lookup .flushSpec⟩
    else none

def parseActionRecallCommand (command : String) : Option CaptureCommandParts :=
  installerCommandRecognizer buildActionRecallHookCommand ACTION_RECALL_HOOK_MARKER false command

def isFlairActionRecallCommand (command : String) : Bool :=
  (parseActionRecallCommand command).isSome

/-- `text.replace(old, new)` -/
def replaceFirst (text old new : String) : String :=
  match splitFirst old.toList text.toList with
  | some (before, after) => String.ofList (before ++ new.toList ++ after)
  | none => text

def buildLegacyCaptureHookCommand : CommandBuilder :=
  fun bunPath artifactPath agentId flairUrl flushSpec =>
    (buildCaptureHookCommand bunPath artifactPath agentId flairUrl flushSpec).map fun text =>
      replaceFirst text " >/dev/null || true'" " >/dev/null 2>/dev/null || true'"

def parseCaptureCommand (command : String) : Option CaptureCommandParts :=
  (installerCommandRecognizer buildCaptureHookCommand CAPTURE_HOOK_MARKER true command).or
    (installerCommandRecognizer buildLegacyCaptureHookCommand CAPTURE_HOOK_MARKER true command)

def isFlairCaptureCommand (command : String) : Bool := (parseCaptureCommand command).isSome

end Flair.Hooks
