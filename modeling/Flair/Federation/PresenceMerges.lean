import Mathlib.Data.Prod.Lex
import Mathlib.Tactic.Linarith
import Flair.Federation.PresenceReceipts

/-! Merges of any validated Presence receipts of one agent, in any order and with any
repetitions: what they always keep, and when their order does not matter.
-/

namespace Flair.Federation

open Dynamic

-- Receipts

structure PresenceReceipt (agentId : String) where
  data : Record
  receivedAt : Rat
  sender : String
  row : Record
  valid : validatePresenceReceipt agentId data receivedAt sender = .ok row

/-- The fields of a stored Presence row that a merge decides. -/
structure Shown where
  heartbeat : Rat
  task : Value
  activity : String
  stamp : Option Rat
  flairVersion : Value
  harperVersion : Value
  originator : Value
deriving DecidableEq

def Shown.row (shown : Shown) (agentId : String) (receivedAt : Rat) : Record :=
  Record.ofFields [
    ("agentId", .str agentId),
    ("lastHeartbeatAt", .num shown.heartbeat),
    ("currentTask", shown.task),
    ("activity", .str shown.activity),
    ("activityUpdatedAt", numOrNull shown.stamp),
    ("flairVersion", shown.flairVersion),
    ("harperVersion", shown.harperVersion),
    ("originatorInstanceId", shown.originator),
    ("receivedAt", .num receivedAt)
  ]

/-- The order of activity stamps: an absent one comes before every other. -/
def stampRank (stamp : Option Rat) : WithBot Rat := stamp

namespace PresenceReceipt

variable {agentId : String} (receipt : PresenceReceipt agentId)

def heartbeat : Rat := (finiteNumber (receipt.row.get "lastHeartbeatAt")).getD 0

def stamp : Option Rat := presenceMs (receipt.row.get "activityUpdatedAt")

def activity : Option String := asString (receipt.row.get "activity")

@[simp] def task : Value := (receipt.row.get "currentTask").getD .null

def shown : Shown where
  heartbeat := receipt.heartbeat
  task := receipt.task
  activity := receipt.activity.getD "idle"
  stamp := receipt.stamp
  flairVersion := (receipt.row.get "flairVersion").getD .null
  harperVersion := (receipt.row.get "harperVersion").getD .null
  originator := (receipt.row.get "originatorInstanceId").getD .null

def place : Rat ×ₗ WithBot Rat := toLex (receipt.heartbeat, stampRank receipt.stamp)

def merge (stored : Option Record) : Option Record :=
  match mergePresenceReceipt stored receipt.row receipt.receivedAt with
  | .ok row => some row
  | .error _ => stored

theorem row_eq : ∃ heartbeat stamp,
    receipt.row
      = receiptRow agentId receipt.data heartbeat stamp receipt.sender receipt.receivedAt := by
  have valid := receipt.valid
  unfold validatePresenceReceipt at valid
  split at valid
  · cases valid
  split at valid
  · cases valid
  rename_i heartbeat _
  split at valid
  · cases valid
  split at valid
  · cases valid
  cases stamped : receiptActivityStamp receipt.data receipt.receivedAt with
  | error reason => simp [stamped, Except.map] at valid
  | ok stamp =>
    simp only [stamped, Except.map, Except.ok.injEq] at valid
    exact ⟨heartbeat, stamp, valid.symm⟩

theorem get_agentId : receipt.row.get "agentId" = some (.str agentId) := by
  obtain ⟨heartbeat, stamp, same⟩ := receipt.row_eq
  rw [same, receiptRow]
  split <;> simp [Record.ofFields]

end PresenceReceipt

@[simp] theorem presenceMs_numOrNull (stamp : Option Rat)
    : presenceMs (some (numOrNull stamp)) = stamp := by
  cases stamp <;> rfl

-- One merge

variable {agentId : String}

def isStale (shown : Shown) (receipt : PresenceReceipt agentId) : Prop :=
  receipt.heartbeat < shown.heartbeat
  ∨ receipt.heartbeat = shown.heartbeat ∧ receipt.stamp ≠ none
    ∧ stampRank receipt.stamp < stampRank shown.stamp

/-- A tie keeps the stored activity unless the receipt's stamp is strictly newer. -/
def keepsActivity (shown : Shown) (receipt : PresenceReceipt agentId) : Prop :=
  receipt.heartbeat = shown.heartbeat ∧ stampRank receipt.stamp ≤ stampRank shown.stamp

def Shown.take (shown : Shown) (receipt : PresenceReceipt agentId) : Shown :=
  { receipt.shown with
    task := shown.task
    activity := shown.activity
    stamp := shown.stamp }

/-- An accepted receipt in full: its label falls back to the stored one, and the stamp is not
lowered.
-/
def Shown.replace (shown : Shown) (receipt : PresenceReceipt agentId) : Shown :=
  { receipt.shown with
    activity := receipt.activity.getD shown.activity
    stamp := if stampRank receipt.stamp ≤ stampRank shown.stamp then shown.stamp
      else receipt.stamp }

namespace Shown

variable (shown : Shown) (agentId : String) (receivedAt : Rat)

@[simp] theorem get_heartbeat
    : presenceMs ((shown.row agentId receivedAt).get "lastHeartbeatAt")
      = some shown.heartbeat := by
  simp [row, Record.ofFields, presenceMs]

@[simp] theorem get_stamp
    : presenceMs ((shown.row agentId receivedAt).get "activityUpdatedAt") = shown.stamp := by
  simp [row, Record.ofFields]

@[simp] theorem get_activity
    : asString ((shown.row agentId receivedAt).get "activity") = some shown.activity := by
  simp [row, Record.ofFields, asString]

@[simp] theorem get_task
    : (shown.row agentId receivedAt).get "currentTask" = some shown.task := by
  simp [row, Record.ofFields]

end Shown

@[simp] theorem stampRank_none : stampRank none = ⊥ := rfl

@[simp] theorem stampRank_some (stamp : Rat) : stampRank (some stamp) = (stamp : WithBot Rat) :=
  rfl

theorem stampRank_inj {stamp other : Option Rat} (same : stampRank stamp = stampRank other)
    : stamp = other :=
  same

theorem merge_none (receipt : PresenceReceipt agentId)
    : receipt.merge none = some (receipt.shown.row agentId receipt.receivedAt) := by
  have id := receipt.get_agentId
  have nothing : presenceMs none = none := rfl
  have unnamed : asString none = none := rfl
  unfold PresenceReceipt.merge mergePresenceReceipt
  simp only [Option.bind_none, nothing, unnamed]
  cases stamp : presenceMs (receipt.row.get "activityUpdatedAt") <;>
    simp [Shown.row, PresenceReceipt.shown, id, PresenceReceipt.heartbeat, PresenceReceipt.stamp,
      PresenceReceipt.activity, stamp]

section

variable {shown : Shown} {receivedAt : Rat} {receipt : PresenceReceipt agentId}

theorem merged_reads (receipt : PresenceReceipt agentId)
    : (finiteNumber (receipt.row.get "lastHeartbeatAt")).getD 0 = receipt.heartbeat
      ∧ presenceMs (receipt.row.get "activityUpdatedAt") = receipt.stamp :=
  ⟨rfl, rfl⟩

theorem merge_stale (stale : isStale shown receipt)
    : receipt.merge (some (shown.row agentId receivedAt))
      = some (shown.row agentId receivedAt) := by
  obtain ⟨beats, stamps⟩ := merged_reads receipt
  unfold PresenceReceipt.merge mergePresenceReceipt
  simp only [Option.bind_some, Shown.get_heartbeat, Shown.get_stamp, beats, stamps]
  rcases stale with older | ⟨tied, stamped, lower⟩
  · simp [older]
  obtain ⟨offered, isOffered⟩ := Option.ne_none_iff_exists'.mp stamped
  rw [isOffered] at lower ⊢
  cases stored : shown.stamp with
  | none => simp [stored] at lower
  | some held =>
    rw [stored, stampRank_some, stampRank_some, WithBot.coe_lt_coe] at lower
    simp [tied, lower]

theorem merge_kept (fresh : ¬ isStale shown receipt) (kept : keepsActivity shown receipt)
    : receipt.merge (some (shown.row agentId receivedAt))
      = some ((shown.take receipt).row agentId receipt.receivedAt) := by
  obtain ⟨beats, stamps⟩ := merged_reads receipt
  have id := receipt.get_agentId
  obtain ⟨tied, notNewer⟩ := kept
  unfold PresenceReceipt.merge mergePresenceReceipt
  simp only [Option.bind_some, Shown.get_heartbeat, Shown.get_stamp, Shown.get_activity,
    Shown.get_task, beats, stamps]
  cases offered : receipt.stamp with
  | none =>
    cases stored : shown.stamp <;>
      simp [tied, Shown.take, Shown.row, PresenceReceipt.shown, id, stored]
  | some given =>
    cases stored : shown.stamp with
    | none => simp [offered, stored] at notNewer
    | some held =>
      rw [offered, stored, stampRank_some, stampRank_some, WithBot.coe_le_coe] at notNewer
      have notOlder : ¬ given < held := by
        intro lower
        apply fresh
        refine Or.inr ⟨tied, by simp [offered], ?_⟩
        rwa [offered, stored, stampRank_some, stampRank_some, WithBot.coe_lt_coe]
      obtain rfl : given = held := le_antisymm notNewer (not_lt.mp notOlder)
      simp [tied, Shown.take, Shown.row, PresenceReceipt.shown, id, stored]

theorem merge_replaced (fresh : ¬ isStale shown receipt) (replaced : ¬ keepsActivity shown receipt)
    : receipt.merge (some (shown.row agentId receivedAt))
      = some ((shown.replace receipt).row agentId receipt.receivedAt) := by
  obtain ⟨beats, stamps⟩ := merged_reads receipt
  have id := receipt.get_agentId
  have notOlder : ¬ receipt.heartbeat < shown.heartbeat := fun older => fresh (Or.inl older)
  have newer (tied : receipt.heartbeat = shown.heartbeat)
      : stampRank shown.stamp < stampRank receipt.stamp :=
    not_le.mp fun notNewer => replaced ⟨tied, notNewer⟩
  unfold PresenceReceipt.merge mergePresenceReceipt
  simp only [Option.bind_some, Shown.get_heartbeat, Shown.get_stamp, Shown.get_activity,
    Shown.get_task, beats, stamps]
  by_cases tied : receipt.heartbeat = shown.heartbeat
  · have later := newer tied
    cases offered : receipt.stamp with
    | none => simp [offered] at later
    | some given =>
      cases stored : shown.stamp with
      | none =>
        simp [tied, Shown.replace, Shown.row, PresenceReceipt.shown, id, stored, offered,
          PresenceReceipt.activity]
      | some held =>
        rw [offered, stored, stampRank_some, stampRank_some, WithBot.coe_lt_coe] at later
        simp [tied, Shown.replace, Shown.row, PresenceReceipt.shown, id, stored, offered,
          PresenceReceipt.activity, later, later.not_gt, not_le.mpr later]
  · have apart : shown.heartbeat ≠ receipt.heartbeat := fun same => tied same.symm
    cases offered : receipt.stamp with
    | none =>
      cases stored : shown.stamp <;>
        simp [notOlder, apart, Shown.replace, Shown.row, PresenceReceipt.shown, id, stored, offered,
          PresenceReceipt.activity]
    | some given =>
      cases stored : shown.stamp with
      | none =>
        simp [notOlder, apart, Shown.replace, Shown.row, PresenceReceipt.shown, id, stored, offered,
          PresenceReceipt.activity]
      | some held =>
        by_cases lower : given ≤ held <;>
          simp [notOlder, apart, Shown.replace, Shown.row, PresenceReceipt.shown, id, stored,
            offered, PresenceReceipt.activity, lower]

end

inductive Merges (shown : Shown) (receipt : PresenceReceipt agentId) : Shown → Prop where
  | stale (stale : isStale shown receipt) : Merges shown receipt shown
  | kept (fresh : ¬ isStale shown receipt) (kept : keepsActivity shown receipt)
      : Merges shown receipt (shown.take receipt)
  | replaced (fresh : ¬ isStale shown receipt) (replaced : ¬ keepsActivity shown receipt)
      : Merges shown receipt (shown.replace receipt)

theorem merge_cases (shown : Shown) (receivedAt : Rat) (receipt : PresenceReceipt agentId)
    : ∃ after later, receipt.merge (some (shown.row agentId receivedAt))
        = some (after.row agentId later)
      ∧ Merges shown receipt after := by
  by_cases stale : isStale shown receipt
  · exact ⟨shown, receivedAt, merge_stale stale, .stale stale⟩
  · by_cases kept : keepsActivity shown receipt
    · exact ⟨_, _, merge_kept stale kept, .kept stale kept⟩
    · exact ⟨_, _, merge_replaced stale kept, .replaced stale kept⟩

-- Any merges

/-- The row after the receipts are merged in turn, from nothing stored. -/
def mergeAll (receipts : List (PresenceReceipt agentId)) : Option Record :=
  receipts.foldl (fun stored receipt => receipt.merge stored) none

theorem mergeAll_concat (receipts : List (PresenceReceipt agentId))
    (next : PresenceReceipt agentId)
    : mergeAll (receipts ++ [next]) = next.merge (mergeAll receipts) := by
  simp [mergeAll]

/-- The receipt a stored row has its activity from: it has the row's heartbeat, and a stamp
that is not after the row's.
-/
structure ActivityFrom (shown : Shown) (receipt : PresenceReceipt agentId) : Prop where
  heartbeat : receipt.heartbeat = shown.heartbeat
  task : receipt.task = shown.task
  activity : ∀ label, receipt.activity = some label → label = shown.activity
  stamp : stampRank receipt.stamp ≤ stampRank shown.stamp

/-- Where the fields of a stored row come from. -/
structure ShownOf (receipts : List (PresenceReceipt agentId)) (shown : Shown) : Prop where
  latest : ∀ receipt ∈ receipts, receipt.heartbeat ≤ shown.heartbeat
  activity : ∃ receipt ∈ receipts, ActivityFrom shown receipt
  stamp : ∃ receipt ∈ receipts, receipt.stamp = shown.stamp

theorem accounted_first (receipt : PresenceReceipt agentId)
    : ShownOf [receipt] receipt.shown where
  latest other member := by
    obtain rfl := List.mem_singleton.mp member
    exact le_rfl
  activity := by
    refine ⟨receipt, List.mem_singleton_self receipt, rfl, rfl, ?_, le_rfl⟩
    intro label named
    simp [PresenceReceipt.shown, named]
  stamp := ⟨receipt, List.mem_singleton_self receipt, rfl⟩

variable {receipts : List (PresenceReceipt agentId)} {receipt : PresenceReceipt agentId}

theorem ShownOf.next {shown after : Shown} (h : ShownOf receipts shown)
    (merges : Merges shown receipt after)
    : ShownOf (receipts ++ [receipt]) after := by
  have last : receipt ∈ receipts ++ [receipt] := by simp
  have earlier {other : PresenceReceipt agentId} (member : other ∈ receipts)
      : other ∈ receipts ++ [receipt] :=
    List.mem_append_left _ member
  have latest {heartbeat : Rat} (own : receipt.heartbeat ≤ heartbeat)
      (grows : shown.heartbeat ≤ heartbeat)
      : ∀ other ∈ receipts ++ [receipt], other.heartbeat ≤ heartbeat := by
    intro other member
    rcases List.mem_append.mp member with inside | added
    · exact (h.latest other inside).trans grows
    · obtain rfl := List.mem_singleton.mp added
      exact own
  obtain ⟨source, member, from_source⟩ := h.activity
  obtain ⟨stamped, inside, same⟩ := h.stamp
  cases merges with
  | stale stale =>
    have older : receipt.heartbeat ≤ shown.heartbeat := by
      rcases stale with less | ⟨tied, -, -⟩
      · exact less.le
      · exact tied.le
    exact ⟨latest older le_rfl, ⟨source, earlier member, from_source⟩,
      ⟨stamped, earlier inside, same⟩⟩
  | kept fresh kept =>
    refine ⟨latest le_rfl kept.1.ge, ⟨source, earlier member, ?_⟩,
      ⟨stamped, earlier inside, same⟩⟩
    exact ⟨from_source.heartbeat.trans kept.1.symm, from_source.task, from_source.activity,
      from_source.stamp⟩
  | replaced fresh replaced =>
    have notOlder : shown.heartbeat ≤ receipt.heartbeat :=
      not_lt.mp fun older => fresh (Or.inl older)
    refine ⟨latest le_rfl notOlder, ⟨receipt, last, rfl, rfl, ?_, ?_⟩, ?_⟩
    · intro label named
      simp [Shown.replace, named]
    · dsimp only [Shown.replace]
      split
      · assumption
      · exact le_rfl
    · dsimp only [Shown.replace]
      split
      · exact ⟨stamped, earlier inside, same⟩
      · exact ⟨receipt, last, rfl⟩

theorem mergeAll_accounted (some_offered : receipts ≠ [])
    : ∃ shown receivedAt, mergeAll receipts = some (shown.row agentId receivedAt)
      ∧ ShownOf receipts shown := by
  induction receipts using List.reverseRecOn with
  | nil => exact absurd rfl some_offered
  | append_singleton receipts next ih =>
    rw [mergeAll_concat]
    by_cases first : receipts = []
    · subst first
      exact ⟨_, _, merge_none next, accounted_first next⟩
    · obtain ⟨shown, receivedAt, merged, accounted⟩ := ih first
      obtain ⟨after, later, becomes, merges⟩ := merge_cases shown receivedAt next
      exact ⟨after, later, by rw [merged, becomes], accounted.next merges⟩

-- Receipts whose order does not matter

/-- Receipts whose stamps rise with their heartbeats, that name their activity and agree
where their heartbeats, or their stamps too, are the same.
-/
structure Coherent (receipts : List (PresenceReceipt agentId)) : Prop where
  named : ∀ receipt ∈ receipts, receipt.activity ≠ none
  rises : ∀ receipt ∈ receipts, ∀ other ∈ receipts, receipt.heartbeat < other.heartbeat
    → stampRank receipt.stamp ≤ stampRank other.stamp
  tied : ∀ receipt ∈ receipts, ∀ other ∈ receipts, receipt.heartbeat = other.heartbeat
    → receipt.shown.flairVersion = other.shown.flairVersion
      ∧ receipt.shown.harperVersion = other.shown.harperVersion
      ∧ receipt.shown.originator = other.shown.originator
  same : ∀ receipt ∈ receipts, ∀ other ∈ receipts, receipt.heartbeat = other.heartbeat
    → receipt.stamp = other.stamp
    → receipt.task = other.task ∧ receipt.activity = other.activity

theorem Coherent.subset {others : List (PresenceReceipt agentId)} (h : Coherent receipts)
    (inside : others ⊆ receipts)
    : Coherent others where
  named receipt member := h.named receipt (inside member)
  rises receipt member other among := h.rises receipt (inside member) other (inside among)
  tied receipt member other among := h.tied receipt (inside member) other (inside among)
  same receipt member other among := h.same receipt (inside member) other (inside among)

theorem PresenceReceipt.place_le {other : PresenceReceipt agentId}
    : receipt.place ≤ other.place
      ↔ receipt.heartbeat < other.heartbeat
        ∨ receipt.heartbeat = other.heartbeat
          ∧ stampRank receipt.stamp ≤ stampRank other.stamp :=
  Prod.Lex.toLex_le_toLex

structure Newest (receipts : List (PresenceReceipt agentId)) (receipt : PresenceReceipt agentId)
    : Prop where
  member : receipt ∈ receipts
  last : ∀ other ∈ receipts, other.place ≤ receipt.place

theorem Newest.shown_eq {others : List (PresenceReceipt agentId)} {other : PresenceReceipt agentId}
    (h : Newest receipts receipt) (again : Newest others other) (coherent : Coherent receipts)
    (members : ∀ receipt, receipt ∈ receipts ↔ receipt ∈ others)
    : receipt.shown = other.shown := by
  have inside := (members other).mpr again.member
  have places : receipt.place = other.place :=
    le_antisymm (again.last receipt ((members receipt).mp h.member)) (h.last other inside)
  obtain ⟨heartbeats, stamps⟩ := Prod.mk.inj (toLex_inj.mp places)
  have stamps : receipt.stamp = other.stamp := stamps
  obtain ⟨flair, harper, originator⟩ := coherent.tied receipt h.member other inside heartbeats
  obtain ⟨task, activity⟩ := coherent.same receipt h.member other inside heartbeats stamps
  unfold PresenceReceipt.shown at flair harper originator ⊢
  simp only at flair harper originator
  rw [heartbeats, stamps, task, activity, flair, harper, originator]

theorem Newest.next {next : PresenceReceipt agentId} {after : Shown} (h : Newest receipts receipt)
    (coherent : Coherent (receipts ++ [next])) (merges : Merges receipt.shown next after)
    : ∃ newest, Newest (receipts ++ [next]) newest ∧ after = newest.shown := by
  have last : next ∈ receipts ++ [next] := by simp
  have member := List.mem_append_left [next] h.member
  have stays (before : next.place ≤ receipt.place) : Newest (receipts ++ [next]) receipt := by
    refine ⟨member, ?_⟩
    intro other among
    rcases List.mem_append.mp among with inside | added
    · exact h.last other inside
    · obtain rfl := List.mem_singleton.mp added
      exact before
  cases merges with
  | stale stale =>
    refine ⟨receipt, stays (PresenceReceipt.place_le.mpr ?_), rfl⟩
    exact stale.imp_right fun tie => ⟨tie.1, tie.2.2.le⟩
  | kept fresh kept =>
    refine ⟨receipt, stays (PresenceReceipt.place_le.mpr (Or.inr kept)), ?_⟩
    obtain ⟨flair, harper, originator⟩ := coherent.tied next last receipt member kept.1
    have heartbeat : next.heartbeat = receipt.heartbeat := kept.1
    unfold PresenceReceipt.shown at flair harper originator
    simp only at flair harper originator
    simp [Shown.take, PresenceReceipt.shown, heartbeat, flair, harper, originator]
  | replaced fresh replaced =>
    have after : receipt.heartbeat < next.heartbeat
        ∨ receipt.heartbeat = next.heartbeat
          ∧ stampRank receipt.stamp ≤ stampRank next.stamp := by
      rcases lt_trichotomy next.heartbeat receipt.heartbeat with older | tied | newer
      · exact absurd (Or.inl older) fresh
      · exact Or.inr ⟨tied.symm, (not_le.mp fun notNewer => replaced ⟨tied, notNewer⟩).le⟩
      · exact Or.inl newer
    refine ⟨next, ⟨last, ?_⟩, ?_⟩
    · intro other among
      rcases List.mem_append.mp among with inside | added
      · exact (h.last other inside).trans (PresenceReceipt.place_le.mpr after)
      · obtain rfl := List.mem_singleton.mp added
        exact le_rfl
    · obtain ⟨label, named⟩ := Option.ne_none_iff_exists'.mp (coherent.named next last)
      have rises : stampRank receipt.stamp ≤ stampRank next.stamp := by
        rcases after with newer | ⟨-, notOlder⟩
        · exact coherent.rises receipt member next last newer
        · exact notOlder
      have stamp : (receipt.shown.replace next).stamp = next.shown.stamp := by
        dsimp only [Shown.replace]
        split
        · rename_i notNewer
          exact stampRank_inj (le_antisymm rises notNewer)
        · rfl
      have activity : (receipt.shown.replace next).activity = next.shown.activity := by
        simp [Shown.replace, PresenceReceipt.shown, named]
      calc receipt.shown.replace next
          = { next.shown with
              activity := (receipt.shown.replace next).activity
              stamp := (receipt.shown.replace next).stamp } := rfl
        _ = next.shown := by rw [activity, stamp]

theorem mergeAll_newest (some_offered : receipts ≠ []) (coherent : Coherent receipts)
    : ∃ receipt receivedAt, Newest receipts receipt
      ∧ mergeAll receipts = some (receipt.shown.row agentId receivedAt) := by
  induction receipts using List.reverseRecOn with
  | nil => exact absurd rfl some_offered
  | append_singleton receipts next ih =>
    rw [mergeAll_concat]
    by_cases first : receipts = []
    · subst first
      refine ⟨next, _, ⟨by simp, ?_⟩, merge_none next⟩
      intro other member
      obtain rfl := List.mem_singleton.mp member
      exact le_rfl
    · obtain ⟨receipt, receivedAt, newest, merged⟩ :=
        ih first (coherent.subset (List.subset_append_left _ _))
      obtain ⟨after, later, becomes, merges⟩ := merge_cases receipt.shown receivedAt next
      obtain ⟨newest', isNewest, rfl⟩ := newest.next coherent merges
      exact ⟨newest', later, isNewest, by rw [merged, becomes]⟩

-- Merges of one agent's receipts

def storedStamp (stored : Option Record) : WithBot Rat :=
  stampRank (stored.bind fun row => presenceMs (row.get "activityUpdatedAt"))

theorem ok_of_ite {condition : Prop} [Decidable condition] {reason : SkipReason}
    {made row : Record} (h : (if condition then .error reason else .ok made) = Except.ok row)
    : made = row := by
  split at h
  · cases h
  · exact Except.ok.inj h

theorem storedStamp_le (stored : Option Record) (receipt : PresenceReceipt agentId)
    : storedStamp stored ≤ storedStamp (receipt.merge stored) := by
  unfold PresenceReceipt.merge
  cases merged : mergePresenceReceipt stored receipt.row receipt.receivedAt with
  | error reason => exact le_rfl
  | ok row =>
    have held : (stored.bind fun row => presenceMs (row.get "activityUpdatedAt"))
        = presenceMs (stored.bind fun row => row.get "activityUpdatedAt") := by
      cases stored <;> rfl
    unfold mergePresenceReceipt at merged
    simp only at merged
    obtain rfl := ok_of_ite merged
    unfold storedStamp
    rw [held]
    simp only [Option.bind_some, Record.ofFields, List.foldl_cons, List.foldl_nil,
      Record.get_set, String.reduceEq, ↓reduceIte, presenceMs_numOrNull]
    generalize presenceMs (stored.bind fun row => row.get "activityUpdatedAt") = held
    generalize presenceMs (receipt.row.get "activityUpdatedAt") = offered
    split_ifs
    · exact le_rfl
    cases offered with
    | none => exact le_rfl
    | some offered =>
      cases held with
      | none => exact bot_le
      | some held =>
        dsimp only
        split
        · exact le_rfl
        · rename_i above
          exact WithBot.coe_le_coe.mpr (not_le.mp above).le

structure MergedFrom (receipts : List (PresenceReceipt agentId)) (row : Record) : Prop where
  latest : ∃ receipt ∈ receipts, presenceMs (row.get "lastHeartbeatAt") = some receipt.heartbeat
    ∧ ∀ other ∈ receipts, other.heartbeat ≤ receipt.heartbeat
  activity : ∃ receipt ∈ receipts,
    presenceMs (row.get "lastHeartbeatAt") = some receipt.heartbeat
      ∧ row.get "currentTask" = some receipt.task
      ∧ (∀ label, receipt.activity = some label → row.get "activity" = some (.str label))
      ∧ stampRank receipt.stamp ≤ storedStamp (some row)
  stamp : ∃ receipt ∈ receipts, storedStamp (some row) = stampRank receipt.stamp

theorem ShownOf.mergedFrom {shown : Shown} (h : ShownOf receipts shown) (receivedAt : Rat)
    : MergedFrom receipts (shown.row agentId receivedAt) := by
  have stamp : storedStamp (some (shown.row agentId receivedAt)) = stampRank shown.stamp := by
    simp [storedStamp]
  obtain ⟨source, member, from_source⟩ := h.activity
  obtain ⟨stamped, inside, same⟩ := h.stamp
  refine ⟨⟨source, member, ?_, ?_⟩, ⟨source, member, ?_, ?_, ?_, ?_⟩, ⟨stamped, inside, ?_⟩⟩
  · rw [Shown.get_heartbeat, from_source.heartbeat]
  · intro other among
    rw [from_source.heartbeat]
    exact h.latest other among
  · rw [Shown.get_heartbeat, from_source.heartbeat]
  · rw [Shown.get_task, from_source.task]
  · intro label named
    rw [from_source.activity label named]
    simp [Shown.row, Record.ofFields]
  · rw [stamp]
    exact from_source.stamp
  · rw [stamp, same]

theorem Shown.delete_receivedAt (shown : Shown) (receivedAt later : Rat)
    : (shown.row agentId receivedAt).delete "receivedAt"
      = (shown.row agentId later).delete "receivedAt" := by
  apply Record.ext_get
  intro field
  by_cases time : field = "receivedAt"
  · simp [time]
  · simp [Shown.row, Record.ofFields, time]

/-- Receipts of one agent merged in any order: the last heartbeat offered is stored, no merge
lowers the activity stamp, and the activity and task are those of one receipt with the stored
heartbeat and a stamp no later than the stored one. Coherent receipts leave the same row in
every order and with any repetitions, but for the time of its last receipt.
-/
theorem presence_merges_latest (agentId : String)
    : (∀ receipts : List (PresenceReceipt agentId), receipts ≠ []
        → ∃ row, mergeAll receipts = some row ∧ MergedFrom receipts row)
      ∧ (∀ (stored : Option Record) (receipt : PresenceReceipt agentId),
        storedStamp stored ≤ storedStamp (receipt.merge stored))
      ∧ ∀ receipts others : List (PresenceReceipt agentId), Coherent receipts
        → (∀ receipt, receipt ∈ receipts ↔ receipt ∈ others)
        → (mergeAll receipts).map (fun row => row.delete "receivedAt")
          = (mergeAll others).map fun row => row.delete "receivedAt" := by
  refine ⟨?_, storedStamp_le, ?_⟩
  · intro receipts some_offered
    obtain ⟨shown, receivedAt, merged, accounted⟩ := mergeAll_accounted some_offered
    exact ⟨_, merged, accounted.mergedFrom receivedAt⟩
  · intro receipts others coherent members
    by_cases empty : receipts = []
    · subst empty
      obtain rfl : others = [] := by
        apply List.eq_nil_iff_forall_not_mem.mpr
        intro receipt among
        cases (members receipt).mpr among
      rfl
    · have offered : others ≠ [] := by
        rintro rfl
        obtain ⟨receipt, member⟩ := List.exists_mem_of_ne_nil receipts empty
        cases (members receipt).mp member
      have again : Coherent others :=
        coherent.subset fun receipt among => (members receipt).mpr among
      obtain ⟨receipt, receivedAt, newest, merged⟩ := mergeAll_newest empty coherent
      obtain ⟨other, later, newest', merged'⟩ := mergeAll_newest offered again
      rw [merged, merged', newest.shown_eq newest' coherent members]
      simp only [Option.map_some]
      rw [other.shown.delete_receivedAt receivedAt later]

-- Receipts whose order matters

def beat (heartbeat stamp : Rat) (activity : String) : Record :=
  Record.ofFields [
    ("agentId", .str "ada"),
    ("lastHeartbeatAt", .num heartbeat),
    ("activity", .str activity),
    ("activityUpdatedAt", .num stamp)
  ]

theorem beat_valid {heartbeat stamp : Rat} {activity : String} (early : heartbeat ≤ 1000)
    (stamped : stamp ≤ 1000) (known : activity ∈ presenceActivities)
    : validatePresenceReceipt "ada" (beat heartbeat stamp activity) 1000 "spoke-1"
      = .ok (receiptRow "ada" (beat heartbeat stamp activity) heartbeat (some stamp) "spoke-1"
        1000) := by
  have allowed : ¬ (1000 : Rat) + presenceFutureAllowance < heartbeat := by
    unfold presenceFutureAllowance
    linarith
  have allowed' : ¬ (1000 : Rat) + presenceFutureAllowance < stamp := by
    unfold presenceFutureAllowance
    linarith
  have active : validActivity (some (.str activity)) = true := by
    simp [validActivity, asString, known]
  simp [validatePresenceReceipt, beat, Record.ofFields, finiteNumber, receiptActivityStamp,
    isNullish, allowed, allowed', active, Except.map]

def receiptOfBeat (heartbeat stamp : Rat) (activity : String) (early : heartbeat ≤ 1000)
    (stamped : stamp ≤ 1000) (known : activity ∈ presenceActivities)
    : PresenceReceipt "ada" where
  data := beat heartbeat stamp activity
  receivedAt := 1000
  sender := "spoke-1"
  row := receiptRow "ada" (beat heartbeat stamp activity) heartbeat (some stamp) "spoke-1" 1000
  valid := beat_valid early stamped known

section

variable {heartbeat stamp : Rat} {activity : String} (early : heartbeat ≤ 1000)
  (stamped : stamp ≤ 1000) (known : activity ∈ presenceActivities)

@[simp] theorem receiptOfBeat_heartbeat
    : (receiptOfBeat heartbeat stamp activity early stamped known).heartbeat = heartbeat := by
  simp [receiptOfBeat, PresenceReceipt.heartbeat, finiteNumber, receiptRow, beat,
    Record.ofFields, asString]

@[simp] theorem receiptOfBeat_stamp
    : (receiptOfBeat heartbeat stamp activity early stamped known).stamp = some stamp := by
  simp [receiptOfBeat, PresenceReceipt.stamp, receiptRow, beat, Record.ofFields, asString]

@[simp] theorem receiptOfBeat_activity
    : (receiptOfBeat heartbeat stamp activity early stamped known).activity
      = some activity := by
  simp [receiptOfBeat, PresenceReceipt.activity, receiptRow, beat, Record.ofFields, asString]

@[simp] theorem receiptOfBeat_shown
    : (receiptOfBeat heartbeat stamp activity early stamped known).shown = {
        heartbeat
        task := .null
        activity
        stamp := some stamp
        flairVersion := .null
        harperVersion := .null
        originator := .str "spoke-1" } := by
  simp [PresenceReceipt.shown]
  simp [receiptOfBeat, receiptRow, beat, Record.ofFields, asString, sanitizePresenceCurrentTask,
    presenceVersion]

end

/-- An early heartbeat with a late activity stamp. -/
def coding : PresenceReceipt "ada" :=
  receiptOfBeat 1 10 "coding" (by norm_num) (by norm_num) (by decide)

/-- A later heartbeat with an earlier activity stamp. -/
def idle : PresenceReceipt "ada" :=
  receiptOfBeat 2 5 "idle" (by norm_num) (by norm_num) (by decide)

def reviewing : PresenceReceipt "ada" :=
  receiptOfBeat 2 20 "reviewing" (by norm_num) (by norm_num) (by decide)

/-- Two receipts whose stamps fall while their heartbeats rise: the stored activity is not
that of the stored stamp's receipt, and the other order leaves another stamp.
-/
theorem presence_merges_ordered
    : coding.heartbeat = 1 ∧ coding.stamp = some 10 ∧ coding.activity = some "coding"
      ∧ idle.heartbeat = 2 ∧ idle.stamp = some 5 ∧ idle.activity = some "idle"
      ∧ (mergeAll [coding, idle]).bind (fun row => row.get "activity") = some (.str "idle")
      ∧ storedStamp (mergeAll [coding, idle]) = stampRank (some 10)
      ∧ storedStamp (mergeAll [idle, coding]) = stampRank (some 5) := by
  have replaced : mergeAll [coding, idle]
      = some ((coding.shown.replace idle).row "ada" idle.receivedAt) := by
    have first : mergeAll [coding, idle] = idle.merge (coding.merge none) := rfl
    rw [first, merge_none, merge_replaced]
    · simp [isStale, coding, idle]
    · simp [keepsActivity, coding, idle]
  have refused : mergeAll [idle, coding] = some (idle.shown.row "ada" idle.receivedAt) := by
    have first : mergeAll [idle, coding] = coding.merge (idle.merge none) := rfl
    rw [first, merge_none, merge_stale]
    exact Or.inl (by simp [coding, idle])
  have lower : stampRank (some 5) ≤ stampRank (some 10) :=
    WithBot.coe_le_coe.mpr (by norm_num)
  rw [replaced, refused]
  refine ⟨by simp [coding], by simp [coding], by simp [coding], by simp [idle], by simp [idle],
    by simp [idle], ?_, ?_, ?_⟩
  · simp [Shown.replace, Shown.row, Record.ofFields, idle]
  · have below : stampRank idle.stamp ≤ stampRank coding.shown.stamp := by
      rw [idle, coding, receiptOfBeat_stamp, receiptOfBeat_shown]
      exact lower
    have kept : (coding.shown.replace idle).stamp = some 10 := by
      simp only [Shown.replace, if_pos below]
      simp [coding]
    simp [storedStamp, kept]
  · simp [storedStamp, idle]

/-- Witness: two receipts whose stamps rise with their heartbeats, in either order. -/
theorem presence_merges_latest_rising
    : (mergeAll [coding, reviewing]).map (fun row => row.delete "receivedAt")
        = (mergeAll [reviewing, coding, reviewing]).map (fun row => row.delete "receivedAt")
      ∧ ∃ row, mergeAll [coding, reviewing] = some row
        ∧ MergedFrom [coding, reviewing] row := by
  have laws := presence_merges_latest "ada"
  have coherent : Coherent [coding, reviewing] := by
    have lower : stampRank (some 10) ≤ stampRank (some 20) :=
      WithBot.coe_le_coe.mpr (by norm_num)
    constructor <;> simp [coding, reviewing]
    exact lower
  refine ⟨laws.2.2 _ _ coherent ?_, laws.1 _ (by simp)⟩
  intro receipt
  simp only [List.mem_cons, List.not_mem_nil, or_false]
  tauto

end Flair.Federation
