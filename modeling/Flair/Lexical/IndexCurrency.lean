import Flair.Lexical.IndexFeed

/-! What is still to come for the index: the rows the feed and the hooks carry, and what
commits, deliveries and late hooks do to them.
-/

namespace Flair.Lexical

open Dynamic Transition ChangeLog

-- What is still to come

def HookCall.effect (call : HookCall) (id : String) : Option (Option IndexRecord) :=
  call.event.bind fun event => event.effect id

/-- A hook that has not been called carries the row's current value. -/
def Owed (table : MemoryTable) (hooks : List HookCall) (id : String) : Prop :=
  ∃ call ∈ hooks, call.effect id = some (table.target id)

def Clean (queue : List FeedEvent) : Prop := ∀ event ∈ queue, event.usable ≠ none

def changes (queue : List FeedEvent) : List PendingEvent := queue.filterMap FeedEvent.usable

/-- Whatever the feed still delivers with no marker after it leaves the table's current rows
as they are.
-/
def FeedCurrent (table : MemoryTable) (queue : List FeedEvent) : Prop :=
  ∀ rest, rest <:+ queue → Clean rest
    → ∀ id, settle PendingEvent.effect id (table.target id) (changes rest) = table.target id

/-- With the buffer and the feed applied to them, these contents hold the table's rows but
for those that a hook still carries.
-/
def FollowsFrom (table : MemoryTable) (queue : List FeedEvent) (hooks : List HookCall)
    (contents : IndexContents) (buffered : List PendingEvent) : Prop :=
  Clean queue → ∀ id,
    settle PendingEvent.effect id (contents id) (buffered ++ changes queue) = table.target id
    ∨ Owed table hooks id

section

variable {table after : MemoryTable} {queue : List FeedEvent} {hooks : List HookCall}
variable {contents : IndexContents} {buffered : List PendingEvent} {event : FeedEvent}

theorem clean_nil : Clean [] := by
  intro event member
  cases member

theorem Clean.of_append (h : Clean (queue ++ [event]))
    : Clean queue ∧ ∃ usable, event.usable = some usable := by
  refine ⟨fun other member => h other (List.mem_append_left _ member), ?_⟩
  exact Option.ne_none_iff_exists'.mp (h event (by simp))

variable {usable : PendingEvent}

theorem changes_append (read : event.usable = some usable)
    : changes (queue ++ [event]) = changes queue ++ [usable] := by
  simp [changes, read]

theorem changes_cons (read : event.usable = some usable)
    : changes (event :: queue) = usable :: changes queue := by
  simp [changes, read]

def Announces (after : MemoryTable) (id : String) (event : PendingEvent) : Prop :=
  ∀ other, event.effect other = if other = id then some (after.target id) else none

theorem announces_upsert {id : MemoryId} {row : Record}
    (held : after.rows id.val = some row) {record : IndexRecord}
    (read : project row = some record)
    : Announces after id.val (.upsert record) := by
  intro other
  obtain ⟨named, carried⟩ := after.keyed id.val row held
  have same : record.id = id.val := by
    rw [project_id carried] at read
    exact (Option.some.inj read) ▸ rfl
  have target : after.target id.val = some record := by
    rw [MemoryTable.target, held, Option.bind_some, read]
  by_cases equal : other = id.val
  · simp [PendingEvent.effect, same, equal, named, target]
  · have apart : id.val ≠ other := fun h => equal h.symm
    simp [PendingEvent.effect, same, equal, apart]

theorem announces_delete {id : String} (gone : after.rows id = none)
    : Announces after id (.delete id) := by
  intro other
  by_cases equal : other = id
  · simp [PendingEvent.effect, equal, MemoryTable.target, gone]
  · have apart : id ≠ other := fun h => equal h.symm
    simp [PendingEvent.effect, equal, apart]

-- Commits

@[simp] theorem MemoryTable.write_rows (table : MemoryTable) (id : MemoryId)
    (row : Option Record)
    : (table.write id row).rows id.val = keyedRow id row := by
  simp [MemoryTable.write]

theorem MemoryTable.write_target_ne (table : MemoryTable) (id : MemoryId)
    (row : Option Record) {other : String} (apart : other ≠ id.val)
    : (table.write id row).target other = table.target other := by
  simp [MemoryTable.target, MemoryTable.write, apart]

theorem announces_commitEvent (table : MemoryTable) {id : MemoryId} {row : Option Record}
    {carried : Bool} (read : (IndexingState.commitEvent id row carried).usable = some usable)
    : Announces (table.write id row) id.val usable := by
  have held := table.write_rows id row
  unfold IndexingState.commitEvent at read
  split at read
  · rename_i stored keyed
    cases carried with
    | false => simp [FeedEvent.usable] at read
    | true =>
      obtain ⟨record, projected, rfl⟩ := Option.map_eq_some_iff.mp read
      exact announces_upsert (held.trans keyed) projected
  · rename_i gone
    cases read
    exact announces_delete (held.trans gone)

theorem effect_commitHook (table : MemoryTable) (id : MemoryId) (row : Option Record)
    : (IndexingState.commitHook id row).effect id.val
      = some ((table.write id row).target id.val) := by
  have held := table.write_rows id row
  unfold IndexingState.commitHook HookCall.effect
  split
  · rename_i stored keyed
    rw [keyed] at held
    obtain ⟨-, carried⟩ := MemoryTable.keyed _ _ _ held
    have projected := project_id carried
    rw [HookCall.event, projected, Option.map_some, Option.bind_some]
    exact (announces_upsert held projected id.val).trans (if_pos rfl)
  · rename_i gone
    have long : id.val.length > 0 :=
      Nat.pos_of_ne_zero fun empty => id.property (String.length_eq_zero_iff.mp empty)
    rw [HookCall.event, if_pos long, Option.bind_some]
    exact (announces_delete (held.trans gone) id.val).trans (if_pos rfl)

theorem FeedCurrent.of_deliver (h : FeedCurrent table (event :: queue))
    : FeedCurrent table queue :=
  fun rest suffix => h rest (suffix.trans (List.suffix_cons event queue))

theorem feedCurrent_nil (table : MemoryTable) : FeedCurrent table [] := by
  intro rest suffix _ id
  rw [List.suffix_nil.mp suffix]
  rfl

theorem FeedCurrent.marked (h : ∀ usable, FeedEvent.usable event ≠ some usable)
    : FeedCurrent table (queue ++ [event]) := by
  intro rest suffix clean id
  rcases List.suffix_concat_iff.mp suffix with rfl | ⟨earlier, rfl, -⟩
  · rfl
  · obtain ⟨-, usable, read⟩ := clean.of_append
    exact absurd read (h usable)

theorem FeedCurrent.commit (h : FeedCurrent table queue) (id : MemoryId)
    (row : Option Record) (carried : Bool)
    : FeedCurrent (table.write id row)
        (queue ++ [IndexingState.commitEvent id row carried]) := by
  intro rest suffix clean other
  rcases List.suffix_concat_iff.mp suffix with rfl | ⟨earlier, rfl, before⟩
  · rfl
  obtain ⟨cleanBefore, usable, read⟩ := clean.of_append
  have announced := announces_commitEvent table read other
  rw [changes_append read, settle_append, settle_cons, settle_nil, announced]
  by_cases same : other = id.val
  · simp [same]
  · rw [if_neg same, Option.getD_none, table.write_target_ne id row same]
    exact h earlier before cleanBefore other

theorem FollowsFrom.commit (h : FollowsFrom table queue hooks contents buffered)
    (id : MemoryId) (row : Option Record) (carried : Bool) {more : List HookCall}
    {now : IndexContents} (same : ∀ other, other ≠ id.val → now other = contents other)
    (kept : ∀ call ∈ hooks, call ∈ more)
    : FollowsFrom (table.write id row)
        (queue ++ [IndexingState.commitEvent id row carried]) more now buffered := by
  intro clean other
  obtain ⟨cleanBefore, usable, read⟩ := clean.of_append
  have announced := announces_commitEvent table read other
  rw [changes_append read, ← List.append_assoc, settle_append, settle_cons, settle_nil,
    announced]
  by_cases equal : other = id.val
  · left
    simp [equal]
  rw [if_neg equal, Option.getD_none, same other equal]
  unfold Owed
  rw [table.write_target_ne id row equal]
  rcases h cleanBefore other with settled | ⟨call, member, carries⟩
  · exact Or.inl settled
  · exact Or.inr ⟨call, kept call member, carries⟩

theorem FollowsFrom.marked (unusable : ∀ usable, FeedEvent.usable event ≠ some usable)
    : FollowsFrom table (queue ++ [event]) hooks contents buffered := by
  intro clean
  obtain ⟨-, usable, read⟩ := clean.of_append
  exact absurd read (unusable usable)

/-- A commit that the feed does not see: the buffer must hold no event of the row, or the
commit's hook is still to be called.
-/
theorem FollowsFrom.unseen (h : FollowsFrom table [] hooks table.target buffered)
    (id : MemoryId) (row : Option Record) {more : List HookCall}
    (kept : ∀ call ∈ hooks, call ∈ more)
    (fits : Owed (table.write id row) more id.val
      ∨ ¬ Touched PendingEvent.effect id.val buffered)
    : FollowsFrom (table.write id row) [] more (table.write id row).target buffered := by
  intro clean other
  by_cases equal : other = id.val
  · subst equal
    rcases fits with owed | untouched
    · exact Or.inr owed
    · left
      simpa [changes] using settle_of_untouched untouched
  · unfold Owed
    rw [table.write_target_ne id row equal]
    rcases h clean other with settled | ⟨call, member, carries⟩
    · exact Or.inl settled
    · exact Or.inr ⟨call, kept call member, carries⟩

-- Late hooks

/-- An event from a hook may land when it carries the row's current value, or when that
value is still to come: by the feed, by a rebuild, or by another hook.
-/
def Fits (table : MemoryTable) (queue : List FeedEvent) (others : List HookCall)
    (late : PendingEvent) : Prop :=
  ∀ id value, late.effect id = some value
    → value = table.target id ∨ Touched PendingEvent.effect id (changes queue)
      ∨ ¬ Clean queue ∨ Owed table others id

variable {call : HookCall} {position : Nat}

theorem Owed.erase {id : String} (h : Owed table hooks id) (called : hooks[position]? = some call)
    (silent : call.effect id = none)
    : Owed table (hooks.eraseIdx position) id := by
  obtain ⟨other, member, carries⟩ := h
  refine ⟨other, List.mem_eraseIdx_iff_getElem?.mpr ?_, carries⟩
  obtain ⟨place, found⟩ := List.mem_iff_getElem?.mp member
  refine ⟨place, ?_, found⟩
  rintro rfl
  rw [called] at found
  cases found
  rw [silent] at carries
  cases carries

theorem FollowsFrom.unheard (h : FollowsFrom table queue hooks contents buffered)
    (called : hooks[position]? = some call) (silent : call.event = none)
    : FollowsFrom table queue (hooks.eraseIdx position) contents buffered := by
  intro clean id
  have unset : call.effect id = none := by simp [HookCall.effect, silent]
  exact (h clean id).imp_right fun owed => owed.erase called unset

theorem FollowsFrom.called (h : FollowsFrom table queue hooks contents buffered)
    (current : FeedCurrent table queue) {late : PendingEvent}
    (called : hooks[position]? = some call) (read : call.event = some late)
    (fits : Fits table queue (hooks.eraseIdx position) late)
    : FollowsFrom table queue (hooks.eraseIdx position) contents (buffered ++ [late]) := by
  intro clean id
  have known := current queue List.suffix_rfl clean id
  rw [List.append_assoc, List.singleton_append, settle_append, settle_cons]
  cases effect : late.effect id with
  | none =>
    have unset : call.effect id = none := by simp [HookCall.effect, read, effect]
    rw [Option.getD_none, ← settle_append]
    exact (h clean id).imp_right fun owed => owed.erase called unset
  | some value =>
    rw [Option.getD_some]
    rcases fits id value effect with rfl | touched | marked | owed
    · exact Or.inl known
    · exact Or.inl ((settle_of_touched touched value _).trans known)
    · exact absurd clean marked
    · exact Or.inr owed

theorem followsFrom_apply {event : PendingEvent}
    : FollowsFrom table queue hooks (apply contents event) buffered
      ↔ FollowsFrom table queue hooks contents (event :: buffered) := by
  simp [FollowsFrom]

theorem FollowsFrom.delivered (h : FollowsFrom table (event :: queue) hooks contents buffered)
    (read : event.usable = some usable)
    : FollowsFrom table queue hooks contents (buffered ++ [usable]) := by
  intro clean id
  have before : Clean (event :: queue) := by
    intro other member
    rcases List.mem_cons.mp member with rfl | later
    · simp [read]
    · exact clean other later
  have settled := h before id
  rwa [changes_cons read, List.append_cons] at settled

theorem FollowsFrom.collect {now : IndexContents}
    (h : FollowsFrom table queue hooks contents buffered) (admitted : String)
    (same : ∀ id, id ≠ admitted → now id = contents id)
    (row : now admitted = contents admitted ∨ now admitted = table.target admitted)
    : FollowsFrom table queue hooks now buffered := by
  intro clean id
  rcases h clean id with settled | owed
  · left
    by_cases equal : id = admitted
    · subst equal
      rcases row with kept | fresh
      · rw [kept, settled]
      · rw [fresh]
        exact settle_again settled
    · rw [same id equal, settled]
  · exact Or.inr owed

end

end Flair.Lexical
