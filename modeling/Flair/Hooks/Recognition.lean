import Flair.Foundations.Values
import Flair.Hooks.Commands

/-! The commands the writers build are recognised as theirs: each is the filling of one of
the forms it is read by.
-/

namespace Flair.Hooks

open Dynamic

-- Safe values

theorem safeChar_facts {c : Char}
    (safe : (c.isAlphanum || ['.', '_', ':', '@', '/', '-'].contains c) = true)
    : c ≠ ' ' ∧ isEnvChar c = true ∧ isUnquotedChar c = true := by
  have ascii : ∀ code < 128,
      ((Char.ofNat code).isAlphanum || ['.', '_', ':', '@', '/', '-'].contains (Char.ofNat code))
        = true →
      Char.ofNat code ≠ ' ' ∧ isEnvChar (Char.ofNat code) = true
        ∧ isUnquotedChar (Char.ofNat code) = true := by decide
  have small : c.toNat < 128 := by
    simp only [Char.isAlphanum, Char.isAlpha, Char.isUpper, Char.isLower, Char.isDigit,
      Bool.or_eq_true, Bool.and_eq_true, decide_eq_true_eq, UInt32.le_iff_toNat_le,
      List.contains_iff_mem, List.mem_cons, List.not_mem_nil, or_false, ge_iff_le] at safe
    have code : c.toNat = c.val.toNat := rfl
    have upper : 'Z'.val.toNat = 90 := rfl
    have lower : 'z'.val.toNat = 122 := rfl
    have digit : '9'.val.toNat = 57 := rfl
    rcases safe with ((⟨-, h⟩ | ⟨-, h⟩) | ⟨-, h⟩) | rfl | rfl | rfl | rfl | rfl | rfl
    · omega
    · omega
    · omega
    all_goals decide
  have same := ascii c.toNat small
  rw [Char.ofNat_toNat] at same
  exact same safe

structure SafeText (text : String) : Prop where
  nonempty : text ≠ ""
  spaceless : Spaceless text
  env : text.toList.all isEnvChar = true
  unquoted : text.toList.all isUnquotedChar = true

variable {text : String}

theorem SafeText.of_letters (nonempty : text ≠ "")
    (letters : ∀ c ∈ text.toList,
      (c.isAlphanum || ['.', '_', ':', '@', '/', '-'].contains c) = true)
    : SafeText text where
  nonempty := nonempty
  spaceless := fun member => (safeChar_facts (letters ' ' member)).1 rfl
  env := by
    rw [List.all_eq_true]
    exact fun c member => (safeChar_facts (letters c member)).2.1
  unquoted := by
    rw [List.all_eq_true]
    exact fun c member => (safeChar_facts (letters c member)).2.2

theorem safeText_of_value {value : String} (safe : isHookCommandValueSafe value = true)
    : SafeText value := by
  simp only [isHookCommandValueSafe, Bool.and_eq_true, decide_eq_true_eq,
    List.all_eq_true] at safe
  refine SafeText.of_letters safe.1 fun c member => ?_
  have letter := safe.2 c member
  simp only [List.contains_iff_mem, Bool.or_eq_true, List.mem_cons, List.not_mem_nil,
    or_false] at letter ⊢
  tauto

theorem safeText_of_artefact {value : String} (safe : isArtefactPathSafe value = true)
    : SafeText value := by
  simp only [isArtefactPathSafe, Bool.and_eq_true, decide_eq_true_eq, List.all_eq_true] at safe
  exact SafeText.of_letters safe.1 safe.2

variable {spec : String}

theorem safeText_of_flushSpec (safe : isFlushSpecSafe spec = true)
    : SafeText spec := by
  unfold isFlushSpecSafe at safe
  split at safe
  · rename_i package version parts
    simp only [Bool.and_eq_true, List.all_eq_true] at safe
    obtain ⟨⟨-, package_letters⟩, version_letters⟩ := safe
    refine SafeText.of_letters ?_ fun c member => ?_
    · rintro rfl
      simp at parts
    rcases @mem_of_mem_splitOn '@' _ _ member with rfl | ⟨part, among, inside⟩
    · decide
    simp only [List.contains_iff_mem, Bool.or_eq_true, List.mem_cons, List.not_mem_nil, or_false]
      at package_letters version_letters ⊢
    rw [parts] at among
    rcases List.mem_cons.mp among with rfl | among
    · cases inside
    rcases List.mem_cons.mp among with rfl | among
    · have letter := package_letters c inside
      tauto
    obtain rfl := List.mem_singleton.mp among
    have letter := version_letters c inside
    tauto
  · cases safe

theorem spaceless_of_version {version : String} (form : matchesFormVersion version.toList = true)
    : Spaceless version :=
  fun member => absurd (versionChar_of_form form ' ' member) (by decide)

variable {agentId : String} {flairUrl : Option String}

theorem safe_of_checkIdentity (checked : checkIdentity agentId flairUrl = .ok ())
    : isHookCommandValueSafe agentId = true
      ∧ ∀ url ∈ givenUrl flairUrl, isHookCommandValueSafe url = true := by
  unfold checkIdentity at checked
  split at checked
  · cases checked
  rename_i safe
  refine ⟨by simpa using safe, ?_⟩
  split at checked
  · rename_i url given
    split at checked
    · rename_i safe_url
      intro other same
      rw [given] at same
      cases same
      exact safe_url
    · cases checked
  · rename_i absent
    simp [absent]

theorem givenUrl_safe (checked : checkIdentity agentId flairUrl = .ok ())
    : SafeText agentId ∧ ∀ url ∈ givenUrl flairUrl, SafeText url := by
  obtain ⟨safe, safe_url⟩ := safe_of_checkIdentity checked
  exact ⟨safeText_of_value safe, fun url given => safeText_of_value (safe_url url given)⟩

theorem checkIdentity_ok (safe : isHookCommandValueSafe agentId = true)
    (safe_url : ∀ url ∈ givenUrl flairUrl, isHookCommandValueSafe url = true)
    : checkIdentity agentId flairUrl = .ok () := by
  unfold checkIdentity
  simp only [safe, Bool.not_true, Bool.false_eq_true, ↓reduceIte]
  split
  · rename_i url given
    simp [safe_url url given]
  · rfl

-- The SessionStart command

def sessionStartForm (harness : Harness) (actionRecall withUrl : Bool)
    : List (FormWord FormGroup) :=
  match harness with
  | .claudeCode => claudeForm actionRecall withUrl
  | .codex => codexForm withUrl

def formFill (agentId : String) (flairUrl : Option String) (version : String)
    : FormGroup → String
  | .agentId => agentId
  | .flairUrl => flairUrl.getD ""
  | .version => version

private theorem claude_text (agentId version : String) (url : Option String) (refresh : Bool)
    : "sh -c 'out=$(" ++ ((("" ++ if refresh then "FLAIR_ACTION_RECALL=1 " else "")
          ++ ("FLAIR_AGENT_ID=" ++ agentId ++ urlText url)) ++ " npx -y -p "
          ++ (FLAIR_MCP_PACKAGE ++ "@" ++ version) ++ " " ++ SESSION_START_HOOK_MARKER)
        ++ " 2>/dev/null) && printf %s \"$out\" || true'"
      = joinWords ((claudeForm refresh url.isSome).map
          (FormWord.render (formFill agentId url version))) := by
  rw [← String.toList_inj, joinWords, String.toList_intercalate]
  cases url <;> cases refresh <;>
    simp only [claudeForm, urlText, invocationForm, FormWord.render, formFill, ↓reduceIte,
      List.map_cons, List.map_nil, List.cons_append, List.nil_append, String.toList_append,
      List.intercalate, List.intersperse, List.flatten_cons, List.flatten_nil,
      List.append_assoc, List.append_nil, Option.isSome_none, Option.isSome_some,
      Option.getD_some, Bool.false_eq_true] <;>
    simp [FLAIR_MCP_PACKAGE, SESSION_START_HOOK_MARKER]

set_option maxRecDepth 2000 in
private theorem codex_text (agentId version : String) (url : Option String)
    : "sh -c 'out=$(" ++ ((("FLAIR_HOOK_HARNESS=codex " ++ "")
          ++ ("FLAIR_AGENT_ID=" ++ agentId ++ urlText url)) ++ " npx -y -p "
          ++ (FLAIR_MCP_PACKAGE ++ "@" ++ version) ++ " " ++ SESSION_START_HOOK_MARKER)
        ++ ") && printf %s \"$out\" || true'"
      = joinWords ((codexForm url.isSome).map
          (FormWord.render (formFill agentId url version))) := by
  rw [← String.toList_inj, joinWords, String.toList_intercalate]
  cases url <;>
    simp only [codexForm, urlText, invocationForm, FormWord.render, formFill, ↓reduceIte,
      List.map_cons, List.map_nil, List.cons_append, List.nil_append, String.toList_append,
      List.intercalate, List.intersperse, List.flatten_cons, List.flatten_nil,
      List.append_assoc, List.append_nil, Option.isSome_none, Option.isSome_some,
      Option.getD_some, Bool.false_eq_true] <;>
    simp [FLAIR_MCP_PACKAGE, SESSION_START_HOOK_MARKER]

variable {harness : Harness} {actionRecall : Bool} {command : String}

theorem sessionStart_words {cli : Cli}
    (built : buildSessionStartHookCommand cli agentId flairUrl harness actionRecall = .ok command)
    (resolved : isResolvedVersion cli.version = true)
    (plain : harness = .codex → actionRecall = false)
    : command = joinWords
        ((sessionStartForm harness actionRecall (givenUrl flairUrl).isSome).map
          (FormWord.render (formFill agentId (givenUrl flairUrl) cli.version))) := by
  unfold buildSessionStartHookCommand at built
  cases checked : checkIdentity agentId flairUrl with
  | error text => simp [checked, bind, Except.bind] at built
  | ok =>
    simp only [checked, bind, Except.bind, pure, Except.pure, identityText_eq, mcpServerSpec,
      resolved, ↓reduceIte] at built
    cases harness with
    | claudeCode =>
      simp only [reduceCtorEq, ↓reduceIte, Except.ok.injEq] at built
      rw [← built]
      exact claude_text ..
    | codex =>
      simp only [plain rfl, Bool.false_eq_true, ↓reduceIte, Except.ok.injEq] at built
      rw [← built]
      exact codex_text ..

theorem names_sessionStartForm (harness : Harness) (actionRecall withUrl : Bool)
    : FormWord.names (sessionStartForm harness actionRecall withUrl)
      = .agentId :: (if withUrl then [.flairUrl] else []) ++ [.version] := by
  cases harness <;> cases actionRecall <;> cases withUrl <;> rfl

theorem spaceless_sessionStartForm (harness : Harness) (actionRecall withUrl : Bool)
    : ∀ word ∈ sessionStartForm harness actionRecall withUrl, word.Spaceless := by
  cases harness <;> cases actionRecall <;> cases withUrl <;> decide

theorem sessionStartForm_mem (withUrl : Bool) (plain : harness = .codex → actionRecall = false)
    : (harness, sessionStartForm harness actionRecall withUrl) ∈ installerForms := by
  cases harness with
  | claudeCode => cases actionRecall <;> cases withUrl <;> decide
  | codex =>
    obtain rfl := plain rfl
    cases withUrl <;> decide

section

variable {cli : Cli} {agentId : String} {flairUrl : Option String} {harness : Harness}
  {actionRecall : Bool} {command : String}

theorem identity_of_built
    (built : buildSessionStartHookCommand cli agentId flairUrl harness actionRecall = .ok command)
    : checkIdentity agentId flairUrl = .ok () := by
  obtain ⟨⟨⟩, checked, -⟩ := bind_eq_ok.mp built
  exact checked

theorem formFill_fits {version : String} (harness : Harness) (actionRecall : Bool)
    (checked : checkIdentity agentId flairUrl = .ok ())
    (form : matchesFormVersion version.toList = true)
    : ∀ name ∈ FormWord.names (sessionStartForm harness actionRecall (givenUrl flairUrl).isSome),
        formFill agentId (givenUrl flairUrl) version name ≠ ""
        ∧ formGroupAllows name (formFill agentId (givenUrl flairUrl) version name) = true
        ∧ Spaceless (formFill agentId (givenUrl flairUrl) version name) := by
  obtain ⟨agent, url⟩ := givenUrl_safe checked
  intro name member
  rw [names_sessionStartForm] at member
  have version_nonempty : version ≠ "" := by
    rintro rfl
    revert form
    decide
  cases given : givenUrl flairUrl with
  | none =>
    rcases (by simpa [given] using member : name = .agentId ∨ name = .version) with rfl | rfl
    · exact ⟨agent.nonempty, agent.env, agent.spaceless⟩
    · exact ⟨version_nonempty, form, spaceless_of_version form⟩
  | some text =>
    have safe := url text (by simp [given])
    rcases (by simpa [given] using member : name = .agentId ∨ name = .flairUrl ∨ name = .version)
      with rfl | rfl | rfl
    · exact ⟨agent.nonempty, agent.env, agent.spaceless⟩
    · exact ⟨safe.nonempty, safe.env, safe.spaceless⟩
    · exact ⟨version_nonempty, form, spaceless_of_version form⟩

theorem splitWords_sessionStart
    (built : buildSessionStartHookCommand cli agentId flairUrl harness actionRecall = .ok command)
    (form : matchesFormVersion cli.version.toList = true)
    (plain : harness = .codex → actionRecall = false)
    : splitWords command = (sessionStartForm harness actionRecall (givenUrl flairUrl).isSome).map
        (FormWord.render (formFill agentId (givenUrl flairUrl) cli.version)) := by
  have fits := formFill_fits harness actionRecall (identity_of_built built) form
  rw [sessionStart_words built (resolved_of_form form) plain, splitWords_joinWords]
  · cases harness <;> cases actionRecall <;> simp [sessionStartForm, claudeForm, codexForm]
  · exact FormWord.spaceless_render (spaceless_sessionStartForm _ _ _)
      fun name member => (fits name member).2.2

theorem installerForms_apart
    : ∀ entry ∈ installerForms, ∀ other ∈ installerForms,
        FormWord.comparable other.2 entry.2 = true → other = entry := by decide +kernel

theorem findSome?_of_only {α β : Type} {list : List α} {f : α → Option β} {x : α} {value : β}
    (member : x ∈ list) (here : f x = some value)
    (only : ∀ y ∈ list, (f y).isSome = true → y = x)
    : list.findSome? f = some value := by
  cases found : list.findSome? f with
  | none => simp [List.findSome?_eq_none_iff.mp found x member] at here
  | some other =>
    obtain ⟨y, inside, same⟩ := List.exists_of_findSome?_eq_some found
    rw [only y inside (by simp [same]), here] at same
    exact same.symm

theorem parseInstallerHookForm_of_match {entry : Harness × List (FormWord FormGroup)}
    {form : InstallerHookForm} (inside : entry ∈ installerForms)
    (matched : formFromMatch entry.1 entry.2 command = some form)
    : parseInstallerHookForm command = some form := by
  obtain ⟨groups, read, -⟩ := Option.map_eq_some_iff.mp matched
  refine findSome?_of_only inside matched fun other among found => ?_
  change (formFromMatch other.1 other.2 command).isSome = true at found
  rw [formFromMatch, Option.isSome_map] at found
  obtain ⟨more, read'⟩ := Option.isSome_iff_exists.mp found
  exact installerForms_apart _ inside _ among (FormWord.comparable_of_readAll read' read)

theorem parseInstallerHookForm_built
    (built : buildSessionStartHookCommand cli agentId flairUrl harness actionRecall = .ok command)
    (version : matchesFormVersion cli.version.toList = true)
    (plain : harness = .codex → actionRecall = false)
    : ∃ form, parseInstallerHookForm command = some form ∧ form.agentId = agentId
      ∧ form.flairUrl = givenUrl flairUrl ∧ form.harness = harness
      ∧ form.pkgSpec = mcpServerSpec cli := by
  have fits := formFill_fits harness actionRecall (identity_of_built built) version
  have read := FormWord.readAll_render fun name member =>
    ⟨(fits name member).1, (fits name member).2.1⟩
  rw [← splitWords_sessionStart built version plain, names_sessionStartForm] at read
  have inside := sessionStartForm_mem (givenUrl flairUrl).isSome plain
  rw [mcpServerSpec, if_pos (resolved_of_form version)]
  refine ⟨_, parseInstallerHookForm_of_match inside (Option.map_eq_some_iff.mpr ⟨_, read, rfl⟩), ?_⟩
  cases givenUrl flairUrl <;> exact ⟨rfl, rfl, rfl, rfl⟩

end

theorem includes_around (front part rest : String) : includes (front ++ part ++ rest) part = true := by
  rw [includes, decide_eq_true_eq, String.toList_append, String.toList_append]
  exact List.infix_append ..

theorem includes_sessionStart {cli : Cli}
    (built : buildSessionStartHookCommand cli agentId flairUrl harness actionRecall = .ok command)
    : includes command SESSION_START_HOOK_MARKER = true := by
  obtain ⟨⟨⟩, -, built⟩ := bind_eq_ok.mp built
  split at built
  · cases built
    rw [← String.append_assoc]
    exact includes_around ..
  · cases built
    rw [← String.append_assoc]
    exact includes_around ..

theorem enablesActionRecall_of_built {cli : Cli}
    (built : buildSessionStartHookCommand cli agentId flairUrl .claudeCode true = .ok command)
    : sessionStartEnablesActionRecall command = true := by
  obtain ⟨⟨⟩, -, built⟩ := bind_eq_ok.mp built
  rw [if_neg (by decide)] at built
  obtain rfl := Except.ok.inj built
  have flag : "FLAIR_ACTION_RECALL=1 ".toList = "FLAIR_ACTION_RECALL=1".toList ++ [' '] := by
    decide
  rw [sessionStartEnablesActionRecall, includes, decide_eq_true_eq, if_pos rfl]
  simp only [String.toList_append, flag, List.append_assoc]
  rw [← List.append_assoc]
  exact List.infix_append' ..

-- The continuity command

def pinnedSpec (pin : Option String) : String :=
  match pin.filter fun pin => pin ≠ "" with
  | some pin => "@tpsdev-ai/flair-mcp@" ++ pin
  | none => "@tpsdev-ai/flair-mcp"

def packageFill (agentId : String) (flairUrl : Option String) (package : String)
    : PackageGroup → String
  | .agentId => agentId
  | .flairUrl => flairUrl.getD ""
  | .package => package

private theorem invocation_text (agentId package : String) (url : Option String)
    : "FLAIR_AGENT_ID=" ++ agentId ++ urlText url ++ " npx -y -p " ++ package ++ " "
        ++ CONTINUITY_CAPTURE_HOOK_MARKER
      = joinWords ((continuityForm url.isSome true).map
          (FormWord.render (packageFill agentId url package))) := by
  rw [← String.toList_inj, joinWords, String.toList_intercalate]
  cases url <;>
    simp only [continuityForm, urlText, FormWord.render, packageFill, ↓reduceIte,
      List.map_cons, List.map_nil, List.cons_append, List.nil_append, String.toList_append,
      List.intercalate, List.intersperse, List.flatten_cons, List.flatten_nil,
      List.append_assoc, List.append_nil, Option.isSome_none, Option.isSome_some,
      Option.getD_some, Bool.false_eq_true] <;>
    simp [CONTINUITY_CAPTURE_HOOK_MARKER]

variable {pin : Option String}

theorem continuity_text
    (built : buildContinuityCaptureHookCommand agentId flairUrl pin = .ok command)
    : checkIdentity agentId flairUrl = .ok ()
      ∧ command = "sh -c '"
          ++ joinWords ((continuityForm (givenUrl flairUrl).isSome true).map
            (FormWord.render (packageFill agentId (givenUrl flairUrl) (pinnedSpec pin))))
          ++ " >/dev/null 2>/dev/null || true'" := by
  obtain ⟨⟨⟩, checked, made⟩ := bind_eq_ok.mp built
  refine ⟨checked, ?_⟩
  rw [← invocation_text, ← Except.ok.inj made]
  rfl

theorem includes_continuity
    (built : buildContinuityCaptureHookCommand agentId flairUrl pin = .ok command)
    : includes command CONTINUITY_CAPTURE_HOOK_MARKER = true := by
  rw [(continuity_text built).2, ← invocation_text, ← String.append_assoc]
  exact includes_around ..

theorem package_allowed (unquoted : ∀ text ∈ pin, text.toList.all isUnquotedChar = true)
    : packageGroupAllows .package (pinnedSpec pin) = true := by
  unfold pinnedSpec
  cases kept : pin.filter fun pin => pin ≠ "" with
  | none => decide
  | some text =>
    obtain ⟨rfl, nonempty⟩ := Option.filter_eq_some_iff.mp kept
    have some_text : text ≠ "" := by simpa using nonempty
    have letters := unquoted text rfl
    have prefix_letters : "@tpsdev-ai/flair-mcp@".toList.all isUnquotedChar = true := by decide
    have cut : between (FLAIR_MCP_PACKAGE ++ "@") "" ("@tpsdev-ai/flair-mcp@" ++ text)
        = some text := by
      have filled := between_fill (FLAIR_MCP_PACKAGE ++ "@") "" text
      rw [String.append_empty] at filled
      exact filled
    have all_letters : ("@tpsdev-ai/flair-mcp@" ++ text).toList.all isUnquotedChar = true := by
      rw [String.toList_append, List.all_append, prefix_letters, letters]
      rfl
    rw [packageGroupAllows, all_letters, cut, Option.any_some]
    simp [some_text]

theorem spaceless_pinnedSpec (spaceless : ∀ text ∈ pin, Spaceless text)
    : Spaceless (pinnedSpec pin) := by
  unfold pinnedSpec
  cases kept : pin.filter fun pin => pin ≠ "" with
  | none => decide
  | some text =>
    obtain ⟨rfl, -⟩ := Option.filter_eq_some_iff.mp kept
    exact (by decide : Spaceless "@tpsdev-ai/flair-mcp@").append (spaceless text rfl)

theorem includes_pinnedSpec (pin : Option String)
    : includes (pinnedSpec pin) FLAIR_MCP_PACKAGE = true := by
  unfold pinnedSpec
  split
  · rename_i text _
    have spelled : "@tpsdev-ai/flair-mcp@" ++ text = "" ++ FLAIR_MCP_PACKAGE ++ ("@" ++ text) := by
      rw [← String.append_assoc]
      rfl
    rw [spelled]
    exact includes_around ..
  · decide

theorem includes_trans {piece : String} (part : String) (outer : includes text part = true)
    (inner : includes part piece = true)
    : includes text piece = true := by
  rw [includes, decide_eq_true_eq] at outer inner ⊢
  exact inner.trans outer

theorem pinnedSpec_nonempty (pin : Option String) : pinnedSpec pin ≠ "" := by
  intro empty
  have included := includes_pinnedSpec pin
  rw [empty] at included
  revert included
  decide

theorem names_continuityForm (withUrl : Bool)
    : FormWord.names (continuityForm withUrl true)
      = .agentId :: (if withUrl then [.flairUrl] else []) ++ [.package] := by
  cases withUrl <;> rfl

theorem packageFill_fits {url : Option String} (agent : SafeText agentId)
    (address : ∀ text ∈ url, SafeText text) (spaceless : ∀ text ∈ pin, Spaceless text)
    (unquoted : ∀ text ∈ pin, text.toList.all isUnquotedChar = true) {name : PackageGroup}
    (member : name ∈ FormWord.names (continuityForm url.isSome true))
    : (packageFill agentId url (pinnedSpec pin) name ≠ ""
        ∧ packageGroupAllows name (packageFill agentId url (pinnedSpec pin) name) = true)
      ∧ Spaceless (packageFill agentId url (pinnedSpec pin) name) := by
  rw [names_continuityForm] at member
  have agent_allowed : packageGroupAllows .agentId agentId = true := by
    simp [packageGroupAllows, agent.unquoted]
  cases url with
  | none =>
    rcases (by simpa using member : name = .agentId ∨ name = .package) with rfl | rfl
    · exact ⟨⟨agent.nonempty, agent_allowed⟩, agent.spaceless⟩
    · exact ⟨⟨pinnedSpec_nonempty pin, package_allowed unquoted⟩,
        spaceless_pinnedSpec spaceless⟩
  | some text =>
    have safe_text := address text rfl
    have url_allowed : packageGroupAllows .flairUrl text = true := by
      simp [packageGroupAllows, safe_text.unquoted]
    rcases (by simpa using member
      : name = .agentId ∨ name = .flairUrl ∨ name = .package) with rfl | rfl | rfl
    · exact ⟨⟨agent.nonempty, agent_allowed⟩, agent.spaceless⟩
    · exact ⟨⟨safe_text.nonempty, url_allowed⟩, safe_text.spaceless⟩
    · exact ⟨⟨pinnedSpec_nonempty pin, package_allowed unquoted⟩,
        spaceless_pinnedSpec spaceless⟩

theorem urlForm_reads_nothing (withFlag : Bool) (fill : PackageGroup → String)
    : FormWord.readAll packageGroupAllows (continuityForm true withFlag)
        ((continuityForm false true).map (FormWord.render fill))
      = none := by
  have mismatch : FormWord.read packageGroupAllows (.hole .flairUrl "FLAIR_URL=" "") "npx"
      = none := by
    rw [FormWord.read, show between "FLAIR_URL=" "" "npx" = none by decide, Option.bind_none]
  exact FormWord.readAll_of_second_none mismatch

theorem continuityForms_read {fill : PackageGroup → String} (withUrl : Bool)
    (fits : ∀ name ∈ FormWord.names (continuityForm withUrl true),
      fill name ≠ "" ∧ packageGroupAllows name (fill name) = true)
    : continuityForms.findSome? (fun form => FormWord.readAll packageGroupAllows form
        ((continuityForm withUrl true).map (FormWord.render fill)))
      = some ((FormWord.names (continuityForm withUrl true)).map fun name =>
          (name, fill name)) := by
  have read := FormWord.readAll_render fits
  cases withUrl with
  | true => rw [continuityForms, List.findSome?_cons, read]
  | false =>
    rw [continuityForms, List.findSome?_cons, urlForm_reads_nothing, List.findSome?_cons,
      urlForm_reads_nothing, List.findSome?_cons, read]

theorem continuityPackageArgument_built
    (built : buildContinuityCaptureHookCommand agentId flairUrl pin = .ok command)
    (spaceless : ∀ text ∈ pin, Spaceless text)
    (unquoted : ∀ text ∈ pin, text.toList.all isUnquotedChar = true)
    : continuityPackageArgument (some command) = some (pinnedSpec pin) := by
  obtain ⟨checked, text⟩ := continuity_text built
  obtain ⟨safe, safe_url⟩ := safe_of_checkIdentity checked
  obtain ⟨agent, url⟩ := givenUrl_safe checked
  have packaged : includes command FLAIR_MCP_PACKAGE = true := by
    refine includes_trans (pinnedSpec pin) ?_ (includes_pinnedSpec pin)
    rw [text, ← invocation_text]
    simp only [String.append_assoc]
    rw [← String.append_assoc, ← String.append_assoc, ← String.append_assoc,
      ← String.append_assoc, ← String.append_assoc]
    exact includes_around ..
  have fits := fun name => @packageFill_fits _ _ _ agent url spaceless unquoted name
  have fixed : ∀ word ∈ continuityForm (givenUrl flairUrl).isSome true, word.Spaceless := by
    cases (givenUrl flairUrl).isSome <;> decide
  have words := splitWords_joinWords (by simp [continuityForm])
    (FormWord.spaceless_render fixed fun name member => (fits name member).2)
  have found := continuityForms_read _ fun name member => (fits name member).1
  have invocation : between "sh -c '" " >/dev/null 2>/dev/null || true'" command
      = some (joinWords ((continuityForm (givenUrl flairUrl).isSome true).map
          (FormWord.render (packageFill agentId (givenUrl flairUrl) (pinnedSpec pin))))) := by
    rw [text, between_fill]
  simp only [continuityPackageArgument, packaged, Bool.not_true, Bool.false_eq_true, ↓reduceIte,
    invocation, Option.getD_some, words, found, names_continuityForm]
  cases given : givenUrl flairUrl with
  | none =>
    change (if (isHookCommandValueSafe agentId && true) = true then some (pinnedSpec pin)
      else _) = _
    rw [safe, Bool.and_true, if_pos rfl]
  | some address =>
    have safe_text := safe_url address (by simp [given])
    change (if (isHookCommandValueSafe agentId && isHookCommandValueSafe address) = true then
      some (pinnedSpec pin) else _) = _
    rw [safe, safe_text, Bool.and_true, if_pos rfl]

-- Commands of a provisioned runtime

def slotFill (bunPath artifactPath agentId : String) (flairUrl flushSpec : Option String)
    : CommandSlot → String
  | .bunPath => bunPath
  | .artifactPath => artifactPath
  | .agentId => agentId
  | .flairUrl => flairUrl.getD ""
  | .flushSpec => flushSpec.getD ""

def IsArtifact (artifactPath marker : String) : Prop :=
  (splitAtChar '/' artifactPath).getLast? = some marker

instance (artifactPath marker : String) : Decidable (IsArtifact artifactPath marker) :=
  inferInstanceAs (Decidable ((splitAtChar '/' artifactPath).getLast? = some marker))

variable {bunPath artifactPath : String}

theorem checkRuntime_ok (checked : checkRuntime bunPath artifactPath agentId flairUrl = .ok ())
    : SafeText bunPath ∧ SafeText artifactPath ∧ SafeText agentId
      ∧ ∀ url ∈ givenUrl flairUrl, SafeText url := by
  unfold checkRuntime at checked
  split at checked
  · cases checked
  rename_i agent
  split at checked
  · cases checked
  rename_i bun
  split at checked
  · cases checked
  rename_i artifact
  refine ⟨safeText_of_value (by simpa using bun), safeText_of_artefact (by simpa using artifact),
    safeText_of_value (by simpa using agent), ?_⟩
  split at checked
  · rename_i url given
    split at checked
    · rename_i safe
      intro other same
      rw [given] at same
      cases same
      exact safeText_of_value safe
    · cases checked
  · rename_i absent
    simp [absent]

def runtimeForm (opening : String) (ending : List String) (withUrl withSpec : Bool)
    : List (FormWord CommandSlot) :=
  [.literal "sh", .literal "-c", .hole .agentId opening ""]
    ++ (if withUrl then [.hole .flairUrl "FLAIR_URL=" ""] else [])
    ++ (if withSpec then [.hole .flushSpec "FLAIR_CAPTURE_FLUSH_SPEC=" ""] else [])
    ++ [.hole .bunPath "" "", .hole .artifactPath "" ""] ++ ending.map .literal

def runtimeForms (opening : String) (ending : List String) (withFlushSpec : Bool)
    : List (List (FormWord CommandSlot)) :=
  [false, true].flatMap fun withUrl =>
    (if withFlushSpec then [false, true] else [false]).map (runtimeForm opening ending withUrl)

def flushText (spec : Option String) : String :=
  (spec.map fun spec => " FLAIR_CAPTURE_FLUSH_SPEC=" ++ spec).getD ""

def keptSpec (withFlushSpec : Bool) (flushSpec : Option String) : Option String :=
  if withFlushSpec then flushSpec.filter fun spec => spec ≠ "" else none

variable {opening : String} {ending : List String} {builder : CommandBuilder}
  {withFlushSpec : Bool}

theorem runtime_text (some_words : ending ≠ []) (bunPath artifactPath agentId : String)
    (url spec : Option String)
    : "sh -c " ++ opening ++ agentId ++ urlText url ++ flushText spec ++ " " ++ bunPath ++ " "
        ++ artifactPath ++ " " ++ joinWords ending
      = joinWords ((runtimeForm opening ending url.isSome spec.isSome).map
          (FormWord.render (slotFill bunPath artifactPath agentId url spec))) := by
  have fixed : (ending.map FormWord.literal).map
      (FormWord.render (slotFill bunPath artifactPath agentId url spec)) = ending := by
    simp [Function.comp_def, FormWord.render]
  rw [runtimeForm, List.map_append, fixed, joinWords, joinWords,
    String.intercalate_append_of_ne_nil (by simp) some_words, ← String.toList_inj]
  generalize " ".intercalate ending = rest
  cases url <;> cases spec <;>
    simp [urlText, flushText, FormWord.render, slotFill]

theorem splitFirst_append {m : Char} {part front : List Char} (text : List Char) (plain : m ∉ front)
    : splitFirst (m :: part) (front ++ text)
      = (splitFirst (m :: part) text).map fun (before, after) => (front ++ before, after) := by
  induction front with
  | nil => simp
  | cons c rest ih =>
    have apart : (m :: part).isPrefixOf (c :: (rest ++ text)) = false := by
      have other : m ≠ c := fun same => plain (by simp [same])
      simp [List.isPrefixOf, other]
    rw [List.cons_append, splitFirst, apart, if_neg (by simp),
      ih fun member => plain (by simp [member]), Option.map_map]
    rfl

def Tokenless (word : String) : Prop := 'M' ∉ word.toList ∧ '@' ∉ word.toList

instance (word : String) : Decidable (Tokenless word) :=
  inferInstanceAs (Decidable ('M' ∉ word.toList ∧ '@' ∉ word.toList))

def TokenFree : FormWord CommandSlot → Prop
  | .literal word => Tokenless word
  | .hole _ opening closing => Tokenless opening ∧ closing = ""

instance (word : FormWord CommandSlot) : Decidable (TokenFree word) := by
  cases word <;> unfold TokenFree <;> infer_instance

theorem findToken_append {word : String} (plain : Tokenless word) (text : List Char)
    (slot : CommandSlot)
    : splitFirst (slotToken slot).toList (word.toList ++ text)
      = (splitFirst (slotToken slot).toList text).map fun (before, after) =>
          (word.toList ++ before, after) := by
  have starts : ∃ m part, (slotToken slot).toList = m :: part ∧ (m = 'M' ∨ m = '@') := by
    cases slot <;> simp [slotToken]
  obtain ⟨m, part, letters, rfl | rfl⟩ := starts
  · rw [letters, splitFirst_append text plain.1]
  · rw [letters, splitFirst_append text plain.2]

theorem findToken_token (slot other : CommandSlot)
    : splitFirst (slotToken other).toList (slotToken slot).toList
      = if other = slot then some ([], []) else none := by
  cases slot <;> cases other <;> rfl

theorem formWordOf_hole {opening : String} (plain : Tokenless opening) (slot : CommandSlot)
    : formWordOf (opening ++ slotToken slot ++ "") = .hole slot opening "" := by
  have found : ∀ other, splitFirst (slotToken other).toList (opening ++ slotToken slot ++ "").toList
      = if other = slot then some (opening.toList, []) else none := by
    intro other
    rw [String.append_empty, String.toList_append, findToken_append plain, findToken_token]
    split <;> simp
  unfold formWordOf
  simp only [found]
  cases slot <;> simp [commandSlots, List.findSome?]

theorem formWordOf_literal {word : String} (plain : Tokenless word)
    : formWordOf word = .literal word := by
  have absent : ∀ other, splitFirst (slotToken other).toList word.toList = none := by
    intro other
    have found := findToken_append plain [] other
    rw [List.append_nil] at found
    rw [found]
    cases other <;> simp [slotToken, splitFirst]
  unfold formWordOf
  simp [absent, commandSlots]

/-- What a builder makes is a form of its family filled with what it was given. -/
structure Spells (builder : CommandBuilder) (opening : String) (ending : List String)
    (withFlushSpec : Bool)
    : Prop where
  some_words : ending ≠ []
  plain : ∀ form ∈ runtimeForms opening ending withFlushSpec, ∀ word ∈ form, TokenFree word
  fixed : ∀ form ∈ runtimeForms opening ending withFlushSpec, ∀ word ∈ form, word.Spaceless
  apart :
    ∀ form ∈ runtimeForms opening ending withFlushSpec,
      ∀ other ∈ runtimeForms opening ending withFlushSpec,
        FormWord.comparable other form = true → other = form
  total :
    ∀ {bunPath artifactPath agentId flairUrl flushSpec},
      checkRuntime bunPath artifactPath agentId flairUrl = .ok ()
      → (∀ spec ∈ keptSpec withFlushSpec flushSpec, isFlushSpecSafe spec = true)
      → ∃ command, builder bunPath artifactPath agentId flairUrl flushSpec = .ok command
  built :
    ∀ {bunPath artifactPath agentId flairUrl flushSpec command},
      builder bunPath artifactPath agentId flairUrl flushSpec = .ok command
      → builder bunPath artifactPath agentId (givenUrl flairUrl)
          (keptSpec withFlushSpec flushSpec) = .ok command
        ∧ checkRuntime bunPath artifactPath agentId flairUrl = .ok ()
        ∧ (∀ spec ∈ keptSpec withFlushSpec flushSpec, SafeText spec)
        ∧ command = "sh -c " ++ opening ++ agentId ++ urlText (givenUrl flairUrl)
          ++ flushText (keptSpec withFlushSpec flushSpec) ++ " " ++ bunPath ++ " " ++ artifactPath
          ++ " " ++ joinWords ending

variable {flushSpec : Option String}

theorem names_runtimeForm (withUrl withSpec : Bool)
    : FormWord.names (runtimeForm opening ending withUrl withSpec)
      = .agentId :: (if withUrl then [.flairUrl] else [])
        ++ (if withSpec then [.flushSpec] else []) ++ [.bunPath, .artifactPath] := by
  have fixed : FormWord.names (ending.map (@FormWord.literal CommandSlot)) = [] := by
    simp [FormWord.names]
  rw [FormWord.names] at fixed
  cases withUrl <;> cases withSpec <;> simp [runtimeForm, FormWord.names, fixed]

theorem Spells.words (spells : Spells builder opening ending withFlushSpec)
    (built : builder bunPath artifactPath agentId flairUrl flushSpec = .ok command)
    : let url := givenUrl flairUrl
      let spec := keptSpec withFlushSpec flushSpec
      let form := runtimeForm opening ending url.isSome spec.isSome
      let fill := slotFill bunPath artifactPath agentId url spec
      form ∈ runtimeForms opening ending withFlushSpec
        ∧ (∀ name ∈ FormWord.names form, SafeText (fill name))
        ∧ splitWords command = form.map (FormWord.render fill) := by
  obtain ⟨-, checked, safe_spec, text⟩ := spells.built built
  obtain ⟨bun, path, agent, safe_url⟩ := checkRuntime_ok checked
  generalize kept : keptSpec withFlushSpec flushSpec = spec at safe_spec text
  generalize givenUrl flairUrl = url at safe_url text
  have inside : runtimeForm opening ending url.isSome spec.isSome
      ∈ runtimeForms opening ending withFlushSpec := by
    cases withFlushSpec with
    | true => cases url <;> cases spec <;> simp [runtimeForms]
    | false =>
      cases kept
      cases url <;> simp [runtimeForms, keptSpec]
  have fits : ∀ name ∈ FormWord.names (runtimeForm opening ending url.isSome spec.isSome),
      SafeText (slotFill bunPath artifactPath agentId url spec name) := by
    intro name member
    rw [names_runtimeForm] at member
    cases name with
    | bunPath => exact bun
    | artifactPath => exact path
    | agentId => exact agent
    | flairUrl => cases url <;> cases spec <;> simp_all [slotFill]
    | flushSpec => cases url <;> cases spec <;> simp_all [slotFill]
  refine ⟨inside, fits, ?_⟩
  rw [text, runtime_text spells.some_words]
  exact splitWords_joinWords (by simp [runtimeForm]) (FormWord.spaceless_render
    (spells.fixed _ inside) fun name member => (fits name member).spaceless)

theorem Spells.read (spells : Spells builder opening ending withFlushSpec)
    (built : builder bunPath artifactPath agentId flairUrl flushSpec = .ok command)
    : ∃ form ∈ runtimeForms opening ending withFlushSpec,
        FormWord.readAll (fun _ _ => true) form (splitWords command)
          = some ([(.agentId, agentId)]
            ++ ((givenUrl flairUrl).map (Prod.mk CommandSlot.flairUrl)).toList
            ++ ((keptSpec withFlushSpec flushSpec).map (Prod.mk CommandSlot.flushSpec)).toList
            ++ [(.bunPath, bunPath), (.artifactPath, artifactPath)]) := by
  obtain ⟨inside, fits, words⟩ := spells.words built
  refine ⟨_, inside, ?_⟩
  rw [words, FormWord.readAll_render fun name member => ⟨(fits name member).nonempty, rfl⟩,
    names_runtimeForm]
  cases givenUrl flairUrl <;> cases keptSpec withFlushSpec flushSpec <;> rfl

theorem checkRuntime_tokens (url : Option String) (token : ∀ text ∈ url, text = slotToken .flairUrl)
    : checkRuntime (slotToken .bunPath) (slotToken .artifactPath) (slotToken .agentId) url
      = .ok () := by
  have given : url = none ∨ url = some (slotToken .flairUrl) := by
    cases url with
    | none => exact .inl rfl
    | some text => exact .inr (congrArg some (token text rfl))
  rcases given with rfl | rfl <;> decide

theorem Spells.form_tokens (spells : Spells builder opening ending withFlushSpec)
    {url spec : Option String} (url_token : ∀ text ∈ url, text = slotToken .flairUrl)
    (spec_token : ∀ text ∈ spec, text = slotToken .flushSpec ∧ withFlushSpec = true)
    : (builder (slotToken .bunPath) (slotToken .artifactPath) (slotToken .agentId) url
          spec).toOption.map (fun text => (splitWords text).map formWordOf)
        = some (runtimeForm opening ending url.isSome spec.isSome) := by
  have given : givenUrl url = url := by
    cases url with
    | none => rfl
    | some text => simp [givenUrl, url_token text rfl, slotToken]
  have kept : keptSpec withFlushSpec spec = spec := by
    cases spec with
    | none => simp [keptSpec]
    | some text => simp [keptSpec, spec_token text rfl, slotToken]
  have safe_spec : ∀ text ∈ keptSpec withFlushSpec spec, isFlushSpecSafe text = true := by
    intro text member
    rw [kept] at member
    rw [(spec_token text member).1]
    decide
  obtain ⟨command, made⟩ := spells.total (checkRuntime_tokens url url_token) safe_spec
  obtain ⟨inside, -, words⟩ := spells.words made
  rw [given, kept] at inside words
  have back : ∀ word ∈ runtimeForm opening ending url.isSome spec.isSome,
      formWordOf (word.render (slotFill (slotToken .bunPath) (slotToken .artifactPath)
        (slotToken .agentId) url spec)) = word := by
    have fill : ∀ slot ∈ FormWord.names (runtimeForm opening ending url.isSome spec.isSome),
        slotFill (slotToken .bunPath) (slotToken .artifactPath) (slotToken .agentId) url spec slot
          = slotToken slot := by
      intro slot member
      rw [names_runtimeForm] at member
      cases slot <;> cases url <;> cases spec <;> simp_all [slotFill]
    intro word member
    have fixed := spells.plain _ inside word member
    cases word with
    | literal text => exact formWordOf_literal fixed
    | hole name before after =>
      obtain ⟨plain, rfl⟩ := fixed
      rw [FormWord.render, fill name (List.mem_filterMap.mpr ⟨_, member, rfl⟩)]
      exact formWordOf_hole plain name
  rw [made, Except.toOption, Option.map_some, words, List.map_map]
  exact congrArg some ((List.map_congr_left back).trans (List.map_id' _))

theorem Spells.forms (spells : Spells builder opening ending withFlushSpec)
    : formsOf builder withFlushSpec = runtimeForms opening ending withFlushSpec := by
  have bare := @Spells.form_tokens _ _ _ _ spells none none nofun nofun
  have url := @Spells.form_tokens _ _ _ _ spells (some (slotToken .flairUrl)) none (by simp) nofun
  cases withFlushSpec with
  | false => simp [formsOf, runtimeForms, bare, url]
  | true =>
    have spec := @Spells.form_tokens _ _ _ _ spells none (some (slotToken .flushSpec)) nofun
      (by simp)
    have both := @Spells.form_tokens _ _ _ _ spells (some (slotToken .flairUrl))
      (some (slotToken .flushSpec)) (by simp) (by simp)
    simp [formsOf, runtimeForms, bare, url, spec, both]

theorem Spells.recognised (spells : Spells builder opening ending withFlushSpec) {marker : String}
    (built : builder bunPath artifactPath agentId flairUrl flushSpec = .ok command)
    (artifact : IsArtifact artifactPath marker)
    : installerCommandRecognizer builder marker withFlushSpec command
      = some ⟨bunPath, artifactPath, agentId, givenUrl flairUrl,
          keptSpec withFlushSpec flushSpec⟩ := by
  have again := (spells.built built).1
  obtain ⟨form, inside, read⟩ := spells.read built
  rw [installerCommandRecognizer, spells.forms]
  refine findSome?_of_only inside ?_ fun other among taken => ?_
  · rw [read]
    generalize keptSpec withFlushSpec flushSpec = spec at again
    generalize givenUrl flairUrl = url at again
    have both := And.intro artifact again
    unfold IsArtifact at both
    cases url <;> cases spec <;> exact if_pos both
  · obtain ⟨parts, taken⟩ := Option.isSome_iff_exists.mp taken
    obtain ⟨more, read', -⟩ := Option.bind_eq_some_iff.mp taken
    exact spells.apart _ inside _ among (FormWord.comparable_of_readAll read' read)

theorem builder_of_recognised {marker : String} {parts : CaptureCommandParts}
    (found : installerCommandRecognizer builder marker withFlushSpec command = some parts)
    : IsArtifact parts.artifactPath marker
      ∧ builder parts.bunPath parts.artifactPath parts.agentId parts.flairUrl parts.flushSpec
        = .ok command := by
  obtain ⟨form, -, taken⟩ := List.exists_of_findSome?_eq_some found
  obtain ⟨fillings, -, taken⟩ := Option.bind_eq_some_iff.mp taken
  obtain ⟨bun, -, taken⟩ := Option.bind_eq_some_iff.mp taken
  obtain ⟨path, -, taken⟩ := Option.bind_eq_some_iff.mp taken
  obtain ⟨agent, -, taken⟩ := Option.bind_eq_some_iff.mp taken
  split at taken
  · rename_i fits
    cases taken
    exact fits
  · cases taken

-- The families of a runtime

theorem givenUrl_givenUrl (url : Option String) : givenUrl (givenUrl url) = givenUrl url := by
  simp [givenUrl, Option.filter_filter]

theorem checkRuntime_givenUrl (bunPath artifactPath agentId : String) (url : Option String)
    : checkRuntime bunPath artifactPath agentId (givenUrl url)
      = checkRuntime bunPath artifactPath agentId url := by
  rw [checkRuntime, checkRuntime, givenUrl_givenUrl]

def actionRecallEnding : List String :=
  ["2>/dev/null)", "&&", "[", "-n", "\"$out\"", "]", "&&", "[", "\"$\x7b#out\x7d\"", "-le", "4096", "]",
    "&&", "printf", "%s", "\"$out\"", "||", "true'"]

/-- Of the forms of each family, every word is token-free and spaceless, and no two fit one text. -/
theorem runtimeForms_spelled
    : ∀ family ∈ [("'out=$(FLAIR_AGENT_ID=", actionRecallEnding, false),
        ("'FLAIR_AGENT_ID=", [">/dev/null", "||", "true'"], true),
        ("'FLAIR_AGENT_ID=", [">/dev/null", "2>/dev/null", "||", "true'"], true)],
      let forms := runtimeForms family.1 family.2.1 family.2.2
      (∀ form ∈ forms, ∀ word ∈ form, TokenFree word)
        ∧ (∀ form ∈ forms, ∀ word ∈ form, word.Spaceless)
        ∧ ∀ form ∈ forms, ∀ other ∈ forms,
          FormWord.comparable other form = true → other = form := by
  decide +kernel

theorem spells_actionRecall
    : Spells buildActionRecallHookCommand "'out=$(FLAIR_AGENT_ID=" actionRecallEnding false where
  some_words := by decide
  plain := (runtimeForms_spelled _ (.head _)).1
  fixed := (runtimeForms_spelled _ (.head _)).2.1
  apart := (runtimeForms_spelled _ (.head _)).2.2
  total := by
    intro bunPath artifactPath agentId flairUrl flushSpec checked _
    rw [buildActionRecallHookCommand, checked]
    exact ⟨_, rfl⟩
  built := by
    intro bunPath artifactPath agentId flairUrl flushSpec command made
    simp only [buildActionRecallHookCommand, identityText_eq, checkRuntime_givenUrl,
      givenUrl_givenUrl] at made ⊢
    obtain ⟨⟨⟩, checked, made⟩ := bind_eq_ok.mp made
    refine ⟨by rw [checked]; exact made, checked, nofun, ?_⟩
    obtain rfl := Except.ok.inj made
    simp [keptSpec, flushText, actionRecallEnding, joinWords, ← String.toList_inj]

theorem buildCaptureHookCommand_given (bunPath artifactPath agentId : String)
    (flairUrl flushSpec : Option String)
    : buildCaptureHookCommand bunPath artifactPath agentId (givenUrl flairUrl)
        (keptSpec true flushSpec)
      = buildCaptureHookCommand bunPath artifactPath agentId flairUrl flushSpec := by
  have same : identityText agentId (givenUrl flairUrl) = identityText agentId flairUrl := by
    rw [identityText_eq, identityText_eq, givenUrl_givenUrl]
  have kept : (keptSpec true flushSpec).filter (fun spec => spec ≠ "")
      = flushSpec.filter fun spec => spec ≠ "" := by
    simp [keptSpec, Option.filter_filter]
  unfold buildCaptureHookCommand
  rw [checkRuntime_givenUrl, same, kept]

theorem buildCaptureHookCommand_ok
    (built : buildCaptureHookCommand bunPath artifactPath agentId flairUrl flushSpec = .ok command)
    : checkRuntime bunPath artifactPath agentId flairUrl = .ok ()
      ∧ (∀ spec ∈ keptSpec true flushSpec, SafeText spec)
      ∧ command = "sh -c '" ++ identityText agentId flairUrl ++ flushText (keptSpec true flushSpec)
        ++ " " ++ bunPath ++ " " ++ artifactPath ++ " >/dev/null || true'" := by
  unfold buildCaptureHookCommand at built
  obtain ⟨⟨⟩, checked, built⟩ := bind_eq_ok.mp built
  refine ⟨checked, ?_⟩
  rw [keptSpec, if_pos rfl]
  cases kept : flushSpec.filter fun spec => spec ≠ "" with
  | none =>
    rw [kept] at built
    cases built
    exact ⟨nofun, by simp [flushText]⟩
  | some spec =>
    simp only [kept] at built
    split at built
    · rename_i spelled
      cases built
      refine ⟨?_, by simp [flushText]⟩
      rintro _ ⟨⟩
      exact safeText_of_flushSpec spelled
    · cases built

theorem buildCaptureHookCommand_total
    (checked : checkRuntime bunPath artifactPath agentId flairUrl = .ok ())
    (safe_spec : ∀ spec ∈ keptSpec true flushSpec, isFlushSpecSafe spec = true)
    : ∃ command,
        buildCaptureHookCommand bunPath artifactPath agentId flairUrl flushSpec = .ok command := by
  rw [keptSpec, if_pos rfl] at safe_spec
  rw [buildCaptureHookCommand, checked]
  cases kept : flushSpec.filter fun spec => spec ≠ "" with
  | none => exact ⟨_, rfl⟩
  | some spec =>
    simp only [safe_spec spec kept, ↓reduceIte]
    exact ⟨_, rfl⟩

theorem spells_capture
    : Spells buildCaptureHookCommand "'FLAIR_AGENT_ID=" [">/dev/null", "||", "true'"] true where
  some_words := by decide
  plain := (runtimeForms_spelled _ (.tail _ (.head _))).1
  fixed := (runtimeForms_spelled _ (.tail _ (.head _))).2.1
  apart := (runtimeForms_spelled _ (.tail _ (.head _))).2.2
  total := buildCaptureHookCommand_total
  built := by
    intro bunPath artifactPath agentId flairUrl flushSpec command made
    obtain ⟨checked, safe_spec, text⟩ := buildCaptureHookCommand_ok made
    refine ⟨by rw [buildCaptureHookCommand_given, made], checked, safe_spec, text.trans ?_⟩
    simp [identityText_eq, joinWords, ← String.toList_inj]

/-- A text that starts with a space and a `>` is found behind a text without a `>`. -/
theorem splitFirst_behind {front rest : List Char} (plain : '>' ∉ front)
    : splitFirst (' ' :: '>' :: rest) (front ++ ' ' :: '>' :: rest) = some (front, []) := by
  induction front with
  | nil => simp [splitFirst]
  | cons c more ih =>
    have apart : (' ' :: '>' :: rest).isPrefixOf (c :: (more ++ ' ' :: '>' :: rest)) = false := by
      rw [Bool.eq_false_iff, ne_eq, List.isPrefixOf_iff_prefix]
      cases more with
      | nil => simp
      | cons d more =>
        have other : '>' ≠ d := by
          rintro rfl
          exact plain (by simp)
        simp [other]
    rw [List.cons_append, splitFirst, apart, if_neg (by simp), ih fun member => plain (by simp [member])]
    rfl

theorem SafeText.plain (safe : SafeText text) : '>' ∉ text.toList := fun member =>
  absurd (List.all_eq_true.mp safe.env '>' member) (by decide)

theorem replaceFirst_behind {front : String} (new : String) (plain : '>' ∉ front.toList)
    : replaceFirst (front ++ " >/dev/null || true'") " >/dev/null || true'" new = front ++ new := by
  have found := @splitFirst_behind front.toList "/dev/null || true'".toList plain
  have ending : " >/dev/null || true'".toList = ' ' :: '>' :: "/dev/null || true'".toList := rfl
  rw [replaceFirst, String.toList_append, ending, found]
  simp

theorem spells_legacyCapture
    : Spells buildLegacyCaptureHookCommand "'FLAIR_AGENT_ID="
        [">/dev/null", "2>/dev/null", "||", "true'"] true where
  some_words := by decide
  plain := (runtimeForms_spelled _ (.tail _ (.tail _ (.head _)))).1
  fixed := (runtimeForms_spelled _ (.tail _ (.tail _ (.head _)))).2.1
  apart := (runtimeForms_spelled _ (.tail _ (.tail _ (.head _)))).2.2
  total := by
    intro bunPath artifactPath agentId flairUrl flushSpec checked safe_spec
    obtain ⟨command, made⟩ := buildCaptureHookCommand_total checked safe_spec
    rw [buildLegacyCaptureHookCommand, made]
    exact ⟨_, rfl⟩
  built := by
    intro bunPath artifactPath agentId flairUrl flushSpec command made
    unfold buildLegacyCaptureHookCommand at made ⊢
    cases current : buildCaptureHookCommand bunPath artifactPath agentId flairUrl flushSpec with
    | error error => simp [current, Except.map] at made
    | ok text =>
      obtain ⟨checked, safe_spec, rfl⟩ := buildCaptureHookCommand_ok current
      obtain ⟨bun, path, agent, safe_url⟩ := checkRuntime_ok checked
      refine ⟨by rw [buildCaptureHookCommand_given, made], checked, safe_spec, ?_⟩
      rw [current] at made
      obtain rfl := Except.ok.inj made
      dsimp only
      rw [replaceFirst_behind]
      · simp [identityText_eq, joinWords, ← String.toList_inj]
      have plain_url : '>' ∉ (urlText (givenUrl flairUrl)).toList := by
        cases given : givenUrl flairUrl with
        | none => simp [urlText]
        | some url => simpa [urlText] using (safe_url url given).plain
      have plain_spec : '>' ∉ (flushText (keptSpec true flushSpec)).toList := by
        cases kept : keptSpec true flushSpec with
        | none => simp [flushText]
        | some spec => simpa [flushText] using (safe_spec spec kept).plain
      simp [identityText_eq, plain_url, plain_spec, bun.plain, path.plain, agent.plain]

theorem captureForms_apart
    : ∀ form ∈ runtimeForms "'FLAIR_AGENT_ID=" [">/dev/null", "||", "true'"] true,
        ∀ other ∈ runtimeForms "'FLAIR_AGENT_ID=" [">/dev/null", "2>/dev/null", "||", "true'"] true,
          FormWord.comparable form other = false := by decide +kernel

theorem parseCaptureCommand_built
    (built : buildCaptureHookCommand bunPath artifactPath agentId flairUrl flushSpec = .ok command
      ∨ buildLegacyCaptureHookCommand bunPath artifactPath agentId flairUrl flushSpec = .ok command)
    (artifact : IsArtifact artifactPath CAPTURE_HOOK_MARKER)
    : parseCaptureCommand command = some ⟨bunPath, artifactPath, agentId, givenUrl flairUrl,
        keptSpec true flushSpec⟩ := by
  rcases built with current | legacy
  · rw [parseCaptureCommand, spells_capture.recognised current artifact, Option.some_or]
  rw [parseCaptureCommand, spells_legacyCapture.recognised legacy artifact]
  cases found : installerCommandRecognizer buildCaptureHookCommand CAPTURE_HOOK_MARKER true
      command with
  | none => rfl
  | some parts =>
    obtain ⟨form, inside, read⟩ := spells_capture.read (builder_of_recognised found).2
    obtain ⟨other, among, read'⟩ := spells_legacyCapture.read legacy
    have both := FormWord.comparable_of_readAll read read'
    rw [captureForms_apart form inside other among] at both
    cases both

theorem isFlairCaptureCommand_built
    (built : buildCaptureHookCommand bunPath artifactPath agentId flairUrl flushSpec = .ok command)
    (artifact : IsArtifact artifactPath CAPTURE_HOOK_MARKER)
    : isFlairCaptureCommand command = true := by
  rw [isFlairCaptureCommand, parseCaptureCommand_built (.inl built) artifact]
  rfl

theorem isFlairActionRecallCommand_built
    (built : buildActionRecallHookCommand bunPath artifactPath agentId flairUrl none = .ok command)
    (artifact : IsArtifact artifactPath ACTION_RECALL_HOOK_MARKER)
    : isFlairActionRecallCommand command = true := by
  rw [isFlairActionRecallCommand, parseActionRecallCommand,
    spells_actionRecall.recognised built artifact]
  rfl

end Flair.Hooks
