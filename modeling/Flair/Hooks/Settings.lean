import Flair.Foundations.GroupedEntries
import Flair.Foundations.MapViews
import Flair.Foundations.Values

/-! A settings object and the hook groups its events list. The groups of one event are
written back as a whole; what the settings hold besides a family's entries is their
remainder.
-/

namespace Flair.Hooks

open Dynamic

/-- A parsed settings object: no key comes twice, in it or in its `hooks`. -/
structure Settings where
  fields : InsertionMap String Value
  distinct : fields.Distinct
  hooksDistinct : ∀ {hooks : InsertionMap String Value},
    fields.get "hooks" = some (.obj hooks) → hooks.Distinct

namespace Settings

@[ext] theorem ext {first second : Settings} (same : first.fields = second.fields)
    : first = second := by
  obtain ⟨fields, _, _⟩ := first
  obtain ⟨_, _, _⟩ := second
  obtain rfl := same
  rfl

instance : DecidableEq Settings := fun first second =>
  decidable_of_iff (first.fields = second.fields) ⟨ext, congrArg fields⟩

/-- The events of a `hooks` value that is an object, else none. -/
def hookEvents (settings : Settings) : InsertionMap String Value :=
  match settings.fields.get "hooks" with
  | some (.obj hooks) => hooks
  | _ => []

theorem distinct_hookEvents (settings : Settings) : settings.hookEvents.Distinct := by
  unfold hookEvents
  split
  · rename_i hooks held
    exact settings.hooksDistinct held
  · exact List.nodup_nil

/-- `settings.hooks?.[event]` when it is an array. -/
def eventGroups (settings : Settings) (event : String) : Option (List Value) :=
  match settings.hookEvents.get event with
  | some (.arr groups) => some groups
  | _ => none

/-- `settings.hooks = hooks` -/
def withHooks (settings : Settings) (hooks : InsertionMap String Value)
    (distinct : hooks.Distinct)
    : Settings where
  fields := settings.fields.set "hooks" (.obj hooks)
  distinct := settings.distinct.modify _
  hooksDistinct := by
    intro held same
    rw [InsertionMap.get_set, if_pos rfl] at same
    cases same
    exact distinct

/-- `delete settings.hooks` -/
def withoutHooks (settings : Settings) : Settings where
  fields := settings.fields.delete "hooks"
  distinct := settings.distinct.delete
  hooksDistinct := by
    intro held same
    simp at same

/-- Write an event's groups; a `hooks` value that is no object gives way to one. -/
def putGroups (settings : Settings) (event : String) (groups : List Value) : Settings :=
  settings.withHooks (settings.hookEvents.set event (.arr groups))
    (settings.distinct_hookEvents.modify _)

def pushGroup (settings : Settings) (event : String) (group : Value) : Settings :=
  settings.putGroups event ((settings.eventGroups event).getD [] ++ [group])

/-- `delete settings.hooks[event]` -/
def dropEvent (settings : Settings) (event : String) : Settings :=
  settings.withHooks (settings.hookEvents.delete event) settings.distinct_hookEvents.delete

/-- Delete `hooks` when it is an object without keys. -/
def dropEmptyHooks (settings : Settings) : Settings :=
  if settings.fields.get "hooks" = some (.obj []) then settings.withoutHooks else settings

variable {settings : Settings} {event other : String} {groups : List Value}

theorem hooks_withHooks {hooks : InsertionMap String Value} (distinct : hooks.Distinct)
    : (settings.withHooks hooks distinct).fields.get "hooks" = some (.obj hooks) := by
  simp [withHooks]

@[simp] theorem hookEvents_withHooks {hooks : InsertionMap String Value}
    (distinct : hooks.Distinct)
    : (settings.withHooks hooks distinct).hookEvents = hooks := by
  simp [hookEvents, withHooks]

@[simp] theorem hookEvents_putGroups
    : (settings.putGroups event groups).hookEvents = settings.hookEvents.set event (.arr groups) :=
  hookEvents_withHooks _

@[simp] theorem hookEvents_dropEvent
    : (settings.dropEvent event).hookEvents = settings.hookEvents.delete event :=
  hookEvents_withHooks _

@[simp] theorem hookEvents_withoutHooks : settings.withoutHooks.hookEvents = [] := by
  simp [hookEvents, withoutHooks]

@[simp] theorem hookEvents_dropEmptyHooks
    : settings.dropEmptyHooks.hookEvents = settings.hookEvents := by
  unfold dropEmptyHooks
  split
  · rename_i empty
    rw [hookEvents_withoutHooks]
    simp [hookEvents, empty]
  · rfl

@[simp] theorem eventGroups_putGroups
    : (settings.putGroups event groups).eventGroups other
      = if other = event then some groups else settings.eventGroups other := by
  by_cases same : other = event
  · simp [eventGroups, same]
  · simp [eventGroups, same]

@[simp] theorem eventGroups_dropEvent
    : (settings.dropEvent event).eventGroups other
      = if other = event then none else settings.eventGroups other := by
  by_cases same : other = event
  · simp [eventGroups, same]
  · simp [eventGroups, same]

@[simp] theorem eventGroups_dropEmptyHooks
    : settings.dropEmptyHooks.eventGroups event = settings.eventGroups event := by
  simp [eventGroups]

theorem hooks_of_eventGroups (listed : settings.eventGroups event = some groups)
    : settings.fields.get "hooks" = some (.obj settings.hookEvents) := by
  unfold eventGroups hookEvents at *
  split at listed
  · rename_i held
    split at held
    · rename_i hooks here
      simp [here]
    · simp at held
  · cases listed

theorem putGroups_self (listed : settings.eventGroups event = some groups)
    : settings.putGroups event groups = settings := by
  have hooks := hooks_of_eventGroups listed
  have kept : settings.hookEvents.set event (.arr groups) = settings.hookEvents := by
    refine InsertionMap.set_self ?_
    unfold eventGroups at listed
    split at listed
    · rename_i held
      rw [held, Option.some.inj listed]
    · cases listed
  refine ext ?_
  change settings.fields.set "hooks" (.obj (settings.hookEvents.set event (.arr groups)))
    = settings.fields
  rw [kept]
  exact InsertionMap.set_self hooks

-- What is left without a family

/-- The `hooks` value is absent or an object, and the event absent or an array. -/
def Typed (settings : Settings) (event : String) : Prop :=
  (∀ value, settings.fields.get "hooks" = some value → ∃ hooks, value = .obj hooks)
  ∧ ∀ value, settings.hookEvents.get event = some value → ∃ groups, value = .arr groups

def eventImage (events : List String) (left : String → List Value → List Value)
    (event : String)
    : Value → Option Value
  | .arr groups =>
    if event ∈ events then
      if left event groups = [] then none else some (.arr (left event groups))
    else some (.arr groups)
  | value => some value

/-- What a top-level value leaves; a `hooks` object that leaves nothing is left out. -/
def fieldImage (events : List String) (left : String → List Value → List Value)
    (name : String)
    : Value → Option Value
  | .obj fields =>
    if name = "hooks" then
      if InsertionMap.view (eventImage events left) fields = [] then none
      else some (.obj (InsertionMap.view (eventImage events left) fields))
    else some (.obj fields)
  | value => some value

/-- The settings with the groups of some events cut down, in their order, without the
containers that this empties.
-/
def remainder (events : List String) (left : String → List Value → List Value)
    (settings : Settings)
    : InsertionMap String Value :=
  settings.fields.view (fieldImage events left)

section

variable {events : List String} {left : String → List Value → List Value}

theorem remainder_withHooks {hooks : InsertionMap String Value} (distinct : hooks.Distinct)
    (typed : ∀ value, settings.fields.get "hooks" = some value → ∃ hooks, value = .obj hooks)
    (same : InsertionMap.view (eventImage events left) hooks
      = InsertionMap.view (eventImage events left) settings.hookEvents)
    : (settings.withHooks hooks distinct).remainder events left
      = settings.remainder events left := by
  unfold remainder withHooks
  refine InsertionMap.view_set ?_
  cases held : settings.fields.get "hooks" with
  | none =>
    have empty : settings.hookEvents = [] := by simp [hookEvents, held]
    rw [empty] at same
    have nothing : InsertionMap.view (eventImage events left) hooks = [] := same
    simp [fieldImage, nothing]
  | some value =>
    obtain ⟨before, rfl⟩ := typed value held
    have events_eq : settings.hookEvents = before := by simp [hookEvents, held]
    rw [events_eq] at same
    simp [fieldImage, same]

theorem remainder_putGroups (among : event ∈ events) (typed : settings.Typed event)
    (nothing : left event [] = [])
    (same : left event groups = left event ((settings.eventGroups event).getD []))
    : (settings.putGroups event groups).remainder events left
      = settings.remainder events left := by
  refine remainder_withHooks _ typed.1 (InsertionMap.view_set ?_)
  cases held : settings.hookEvents.get event with
  | none =>
    have absent : settings.eventGroups event = none := by simp [eventGroups, held]
    rw [absent, Option.getD_none, nothing] at same
    simp [eventImage, among, same]
  | some value =>
    obtain ⟨before, rfl⟩ := typed.2 value held
    have listed : settings.eventGroups event = some before := by simp [eventGroups, held]
    rw [listed, Option.getD_some] at same
    simp [eventImage, among, same]

theorem typed_of_eventGroups (listed : settings.eventGroups event = some groups)
    : settings.Typed event := by
  have hooks := hooks_of_eventGroups listed
  refine ⟨fun value held => ⟨settings.hookEvents, by simpa [hooks] using held.symm⟩, ?_⟩
  intro value held
  unfold eventGroups at listed
  rw [held] at listed
  split at listed
  · rename_i here
    exact ⟨_, by simpa using here⟩
  · cases listed

theorem remainder_dropEvent (among : event ∈ events)
    (listed : settings.eventGroups event = some groups) (nothing : left event groups = [])
    : (settings.dropEvent event).remainder events left = settings.remainder events left := by
  refine remainder_withHooks _ (typed_of_eventGroups listed).1
    (InsertionMap.view_delete settings.distinct_hookEvents ?_)
  unfold eventGroups at listed
  split at listed
  · rename_i held
    cases listed
    simp [held, eventImage, among, nothing]
  · cases listed

theorem remainder_dropEmptyHooks
    : settings.dropEmptyHooks.remainder events left = settings.remainder events left := by
  unfold dropEmptyHooks
  split
  · rename_i empty
    refine InsertionMap.view_delete settings.distinct ?_
    simp [empty, fieldImage, InsertionMap.view]
  · rfl

theorem typed_putGroups (typed : settings.Typed other)
    : (settings.putGroups event groups).Typed other := by
  refine ⟨fun value held => ⟨_, by simpa [putGroups, withHooks] using held.symm⟩,
    fun value held => ?_⟩
  rw [hookEvents_putGroups, InsertionMap.get_set] at held
  split at held
  · exact ⟨groups, (Option.some.inj held).symm⟩
  · exact typed.2 value held

end

end Settings

-- Groups and hook entries

/-- `value?.[name]` -/
def property (value : Value) (name : String) : Option Value :=
  match value with
  | .obj fields => InsertionMap.get fields name
  | _ => none

/-- `value[name] = next` of an object. -/
def withProperty (value : Value) (name : String) (next : Value) : Value :=
  match value with
  | .obj fields => .obj (InsertionMap.set fields name next)
  | other => other

/-- `delete value[name]` of an object. -/
def withoutProperty (value : Value) (name : String) : Value :=
  match value with
  | .obj fields => .obj (InsertionMap.delete fields name)
  | other => other

@[simp] theorem withProperty_withProperty (value : Value) (name : String) (first next : Value)
    : withProperty (withProperty value name first) name next = withProperty value name next := by
  cases value <;> simp [withProperty]

variable {value : Value} {name : String}

theorem property_withProperty {other : String} {next : Value}
    (object : ∃ fields, value = .obj fields)
    : property (withProperty value name next) other
      = if other = name then some next else property value other := by
  obtain ⟨fields, rfl⟩ := object
  simp [property, withProperty]

theorem property_withoutProperty {other : String} (apart : other ≠ name)
    : property (withoutProperty value name) other = property value other := by
  cases value <;> simp [property, withoutProperty, apart]

theorem withProperty_self {held : Value} (same : property value name = some held)
    : withProperty value name held = value := by
  cases value with
  | obj fields => exact congrArg Value.obj (InsertionMap.set_self same)
  | _ => rfl

theorem object_of_property {held : Value} (same : property value name = some held)
    : ∃ fields, value = .obj fields := by
  cases value with
  | obj fields => exact ⟨fields, rfl⟩
  | _ => cases same

/-- Hook groups: the entries are the `hooks` array of a group. -/
def hookGrouping : Grouping Value Value where
  entries group :=
    match property group "hooks" with
    | some (.arr hooks) => some hooks
    | _ => none
  withEntries group hooks := withProperty group "hooks" (.arr hooks)
  entries_withEntries := by
    intro group held listed next
    have object : ∃ fields, group = .obj fields := by
      split at listed
      · rename_i hooks here
        exact object_of_property here
      · cases listed
    rw [property_withProperty object, if_pos rfl]
  withEntries_withEntries := by simp
  withEntries_entries := by
    intro group held listed
    split at listed
    · rename_i hooks here
      cases listed
      exact withProperty_self here
    · cases listed

theorem property_hooks_of_entries {group : Value} {entries : List Value}
    (listed : hookGrouping.entries group = some entries)
    : property group "hooks" = some (.arr entries) := by
  simp only [hookGrouping] at listed
  split at listed
  · rename_i hooks here
    rw [here, Option.some.inj listed]
  · cases listed

/-- `hook?.command` when it is a string. -/
def hookCommand (hook : Value) : Option String := asString (property hook "command")

/-- `{ type: "command", command }` -/
def hookEntry (command : String) : Value :=
  .obj [("type", .str "command"), ("command", .str command)]

/-- `hook.command = command; hook.type = "command"` -/
def withCommand (hook : Value) (command : String) : Value :=
  withProperty (withProperty hook "command" (.str command)) "type" (.str "command")

@[simp] theorem hookCommand_hookEntry (command : String)
    : hookCommand (hookEntry command) = some command := rfl

@[simp] theorem type_hookEntry (command : String)
    : property (hookEntry command) "type" = some (.str "command") := rfl

theorem object_of_hookCommand {hook : Value} {command : String}
    (same : hookCommand hook = some command)
    : ∃ fields, hook = .obj fields := by
  unfold hookCommand at same
  cases held : property hook "command" with
  | none => simp [held, asString] at same
  | some value => exact object_of_property held

theorem withCommand_facts {hook : Value} (object : ∃ fields, hook = .obj fields)
    (command : String)
    : hookCommand (withCommand hook command) = some command
      ∧ property (withCommand hook command) "type" = some (.str "command") := by
  obtain ⟨fields, rfl⟩ := object
  constructor
  · simp [withCommand, withProperty, hookCommand, property, asString]
  · simp [withCommand, withProperty, property]

theorem entries_withProperty (group value : Value) (apart : name ≠ "hooks")
    : hookGrouping.entries (withProperty group name value) = hookGrouping.entries group := by
  have same : property (withProperty group name value) "hooks" = property group "hooks" := by
    cases group with
    | obj fields => simp [property, withProperty, apart.symm]
    | _ => rfl
  simp only [hookGrouping, same]

theorem entries_withoutProperty (group : Value) (apart : name ≠ "hooks")
    : hookGrouping.entries (withoutProperty group name) = hookGrouping.entries group := by
  simp only [hookGrouping, property_withoutProperty apart.symm]

def matcherIs (group : Value) (matcher : String) : Bool :=
  property group "matcher" = some (.str matcher)

def runsCommand (hook : Value) (command : String) : Bool :=
  property hook "type" = some (.str "command") && hookCommand hook = some command

-- The entries of a family

/-- What tells a family's entries among the hooks of an event. -/
abbrev Kind := String → Value → Bool

namespace Settings

def ownEntries (kind : Kind) (settings : Settings) (event : String) : List Value :=
  hookGrouping.own (kind event) ((settings.eventGroups event).getD [])

def withoutFamily (events : List String) (kind : Kind) (settings : Settings)
    : InsertionMap String Value :=
  settings.remainder events fun event => hookGrouping.others (kind event)

def bareOfFamily (events : List String) (kind : Kind) (settings : Settings)
    : InsertionMap String Value :=
  settings.remainder events fun event => hookGrouping.bare (kind event)

def inhabitedGroups (events : List String) (settings : Settings) : InsertionMap String Value :=
  settings.remainder events fun _ groups => groups.filter hookGrouping.inhabited

/-- The settings without events and `hooks` that hold nothing. -/
def pruned (events : List String) (settings : Settings) : InsertionMap String Value :=
  settings.remainder events fun _ groups => groups

variable {events : List String} {kind : Kind} {settings : Settings} {event other : String}
  {groups : List Value}

@[simp] theorem ownEntries_putGroups
    : (settings.putGroups event groups).ownEntries kind other
      = if other = event then hookGrouping.own (kind other) groups
        else settings.ownEntries kind other := by
  unfold ownEntries
  by_cases same : other = event <;> simp [same]

@[simp] theorem ownEntries_dropEvent
    : (settings.dropEvent event).ownEntries kind other
      = if other = event then [] else settings.ownEntries kind other := by
  unfold ownEntries
  by_cases same : other = event <;> simp [same]

@[simp] theorem ownEntries_dropEmptyHooks
    : settings.dropEmptyHooks.ownEntries kind event = settings.ownEntries kind event := by
  simp [ownEntries]

theorem view_congr {image image' : String → Value → Option Value}
    {map : InsertionMap String Value}
    (same : ∀ entry ∈ map, image entry.1 entry.2 = image' entry.1 entry.2)
    : InsertionMap.view image map = InsertionMap.view image' map :=
  List.filterMap_congr fun entry member => by rw [same entry member]

theorem remainder_congr {left left' : String → List Value → List Value}
    (same : ∀ event ∈ events, ∀ groups, settings.eventGroups event = some groups →
      left event groups = left' event groups)
    : settings.remainder events left = settings.remainder events left' := by
  have same_events : ∀ hooks, settings.fields.get "hooks" = some (.obj hooks) →
      InsertionMap.view (eventImage events left) hooks
        = InsertionMap.view (eventImage events left') hooks := by
    intro hooks held
    refine view_congr fun entry member => ?_
    obtain ⟨event, value⟩ := entry
    cases value with
    | arr groups =>
      by_cases among : event ∈ events
      · have found := (settings.hooksDistinct held).get_of_mem member
        have listed : settings.eventGroups event = some groups := by
          simp [eventGroups, hookEvents, held, found]
        simp only [eventImage, same event among groups listed]
      · simp [eventImage, among]
    | _ => rfl
  refine view_congr fun entry member => ?_
  obtain ⟨name, value⟩ := entry
  cases value with
  | obj fields =>
    by_cases here : name = "hooks"
    · subst here
      have held := settings.distinct.get_of_mem member
      simp only [fieldImage, same_events fields held]
    · simp [fieldImage, here]
  | _ => rfl

theorem withoutFamily_of_none (none_own : ∀ event ∈ events, settings.ownEntries kind event = [])
    : settings.withoutFamily events kind = settings.pruned events := by
  refine remainder_congr fun event among groups listed => Grouping.others_of_none ?_
  have nothing := none_own event among
  rwa [ownEntries, listed, Option.getD_some] at nothing

theorem bareOfFamily_of_none (none_own : ∀ event ∈ events, settings.ownEntries kind event = [])
    : settings.bareOfFamily events kind = settings.inhabitedGroups events := by
  refine remainder_congr fun event among groups listed => Grouping.bare_of_none ?_
  have nothing := none_own event among
  rwa [ownEntries, listed, Option.getD_some] at nothing

theorem withoutFamily_putGroups (among : event ∈ events) (typed : settings.Typed event)
    (same : hookGrouping.others (kind event) groups
      = hookGrouping.others (kind event) ((settings.eventGroups event).getD []))
    : (settings.putGroups event groups).withoutFamily events kind
      = settings.withoutFamily events kind :=
  remainder_putGroups among typed rfl same

-- A group of the family's own

variable {group entry : Value}

@[simp] theorem eventGroups_pushGroup
    : (settings.pushGroup event group).eventGroups other
      = if other = event then some ((settings.eventGroups event).getD [] ++ [group])
        else settings.eventGroups other :=
  eventGroups_putGroups

theorem own_pushGroup (listed : hookGrouping.entries group = some [entry])
    (isOurs : kind event entry = true)
    : (settings.pushGroup event group).ownEntries kind event
      = settings.ownEntries kind event ++ [entry] := by
  simp [ownEntries, Grouping.held_of_entries listed, isOurs]

theorem withoutFamily_pushGroup (among : event ∈ events) (typed : settings.Typed event)
    (listed : hookGrouping.entries group = some [entry]) (isOurs : kind event entry = true)
    : (settings.pushGroup event group).withoutFamily events kind
      = settings.withoutFamily events kind := by
  refine withoutFamily_putGroups among typed ?_
  have nothing : hookGrouping.residue (kind event) group = none :=
    Grouping.residue_of_only listed (by simp) (by simpa using isOurs)
  simp [Grouping.others_cons, nothing]

theorem first_pushGroup (listed : hookGrouping.entries group = some [entry])
    (isOurs : kind event entry = true) (fresh : settings.ownEntries kind event = [])
    : ∃ first : Grouping.First hookGrouping (kind event)
        ((settings.eventGroups event).getD [] ++ [group]),
      first.group = group ∧ first.ahead = [] ∧ first.entry = entry ∧ first.behind = [] :=
  Grouping.first_append listed isOurs fresh

theorem find_cases (kind : Kind) (settings : Settings) (event : String)
    : ((settings.eventGroups event).bind (hookGrouping.find (kind event)) = none
        ∧ settings.ownEntries kind event = [])
      ∨ ∃ groups, settings.eventGroups event = some groups
        ∧ ∃ first : Grouping.First hookGrouping (kind event) groups,
          (settings.eventGroups event).bind (hookGrouping.find (kind event))
            = some first.place := by
  unfold ownEntries
  cases listed : settings.eventGroups event with
  | none => exact Or.inl ⟨rfl, rfl⟩
  | some groups =>
    cases found : hookGrouping.find (kind event) groups with
    | none => exact Or.inl ⟨found, Grouping.find_eq_none.mp found⟩
    | some place =>
      obtain ⟨first, rfl⟩ := Grouping.first_of_find found
      exact Or.inr ⟨groups, rfl, first, found⟩

-- Taking one entry out

def removeEntry (settings : Settings) (event : String) (place : Nat × Nat) : Settings :=
  let groups := hookGrouping.takeOut ((settings.eventGroups event).getD []) place
  if groups = [] then (settings.putGroups event groups).dropEvent event
  else settings.putGroups event groups

theorem removeEntry_facts (listed : settings.eventGroups event = some groups)
    (first : Grouping.First hookGrouping (kind event) groups)
    : (settings.removeEntry event first.place).ownEntries kind event
        = (settings.ownEntries kind event).tail
      ∧ (∀ other ≠ event, (settings.removeEntry event first.place).eventGroups other
        = settings.eventGroups other)
      ∧ (event ∈ events → (settings.removeEntry event first.place).withoutFamily events kind
        = settings.withoutFamily events kind) := by
  have own := first.own_takeOut
  have others := first.others_takeOut
  have put : event ∈ events →
      (settings.putGroups event (hookGrouping.takeOut groups first.place)).withoutFamily events kind
        = settings.withoutFamily events kind := fun among =>
    withoutFamily_putGroups among (typed_of_eventGroups listed)
      (by rw [listed, Option.getD_some]; exact others)
  unfold removeEntry
  simp only [listed, Option.getD_some]
  split
  · rename_i empty
    refine ⟨?_, fun other apart => by simp [apart], fun among => ?_⟩
    · rw [ownEntries_dropEvent, if_pos rfl, ownEntries, listed, Option.getD_some, ← own, empty]
      rfl
    have nothing : hookGrouping.others (kind event) (hookGrouping.takeOut groups first.place)
        = [] := by
      rw [empty]
      rfl
    exact (remainder_dropEvent among (by simp) nothing).trans (put among)
  · refine ⟨?_, fun other apart => by simp [apart], put⟩
    rw [ownEntries_putGroups, if_pos rfl, own, ownEntries, listed, Option.getD_some]

end Settings

end Flair.Hooks
