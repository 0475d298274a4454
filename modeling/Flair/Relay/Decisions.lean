import Flair.Relay.Sending

/-! What the decision of a send establishes about the table it was made on, and why a row of
another sender, recipient and id does not change it.
-/

namespace Flair.Relay

open Dynamic

-- Tables

namespace MessageTable

variable {table : MessageTable} {id : String} {row : Record}

theorem rows_insert (fresh : table.lookup id = none)
    : MessageTable.rows (table.insert id row) = row :: table.rows := by
  rw [AList.lookup_eq_none] at fresh
  rw [MessageTable.rows, AList.entries_insert_of_notMem fresh]
  rfl

theorem mem_rows : row ∈ table.rows ↔ ∃ id, table.lookup id = some row := by
  constructor
  · intro member
    obtain ⟨entry, stored, rfl⟩ := List.mem_map.mp member
    exact ⟨entry.1, AList.mem_lookup_iff.mpr stored⟩
  · rintro ⟨id, stored⟩
    exact List.mem_map.mpr ⟨⟨id, row⟩, AList.mem_lookup_iff.mp stored, rfl⟩

theorem lookup_insert_of_stored {other : String} {stored : Record}
    (fresh : table.lookup id = none) (h : table.lookup other = some stored)
    : (table.insert id row).lookup other = some stored := by
  have different : other ≠ id := by
    rintro rfl
    rw [fresh] at h
    cases h
  rw [AList.lookup_insert_ne different]
  exact h

theorem lookup_insert_cases {other : String} {stored : Record}
    (h : (table.insert id row).lookup other = some stored)
    : (other = id ∧ stored = row) ∨ (other ≠ id ∧ table.lookup other = some stored) := by
  by_cases same : other = id
  · subst same
    rw [AList.lookup_insert] at h
    exact Or.inl ⟨rfl, (Option.some.inj h).symm⟩
  · rw [AList.lookup_insert_ne same] at h
    exact Or.inr ⟨same, h⟩

end MessageTable

-- The last sequence number of a thread

theorem le_maxSeq (last : Rat) (row : Record) : last ≤ maxSeq last row := by
  unfold maxSeq
  split
  · split
    · rename_i above
      exact le_of_lt above
    · exact le_refl last
  · exact le_refl last

variable {row : Record}

theorem seq_le_maxSeq (last : Rat) {seq : Rat} (h : row.get "seq" = some (.num seq))
    : seq ≤ maxSeq last row := by
  simp only [maxSeq, h]
  split
  · exact le_refl seq
  · rename_i below
    exact not_lt.mp below

theorem le_foldl_maxSeq (rows : List Record) (last : Rat) : last ≤ rows.foldl maxSeq last := by
  induction rows generalizing last with
  | nil => exact le_refl last
  | cons row rest ih => exact (le_maxSeq last row).trans (ih (maxSeq last row))

theorem seq_le_foldl_maxSeq {rows : List Record} {seq : Rat} (member : row ∈ rows)
    (h : row.get "seq" = some (.num seq)) (last : Rat)
    : seq ≤ rows.foldl maxSeq last := by
  induction rows generalizing last with
  | nil => cases member
  | cons head rest ih =>
    rcases List.mem_cons.mp member with rfl | later
    · exact (seq_le_maxSeq last h).trans (le_foldl_maxSeq rest _)
    · exact ih later _

-- A decision to store

def countRows (kind : Record → Bool) (table : MessageTable) : Nat :=
  (table.rows.filter kind).length

def fromSender (recipient sender : Option Value) (row : Record) : Bool :=
  inInbox recipient row && decide (row.get "from" = sender)

structure Acceptable (caps : Caps) (content : MessageEnvelope) (table : MessageTable)
    (row : Record)
    : Prop where
  fresh : table.lookup (content.text "id") = none
  delivers : ∃ now, row = deliveredRow content.fields now
  new : ∀ stored ∈ table.rows, isDuplicate content.fields stored = false
  ahead : ∃ seq, content.fields.get "seq" = some (.num seq)
    ∧ ∀ stored ∈ table.rows,
        inThread (content.fields.get "from") (content.fields.get "threadId") stored = true
        → ∀ earlier, stored.get "seq" = some (.num earlier) → earlier < seq
  inbox : countRows (inInbox (content.fields.get "to")) table < caps.inbox
  sender
    : countRows (fromSender (content.fields.get "to") (content.fields.get "from")) table
      < caps.perSender

variable {caps : Caps}

theorem capDecision_eq_none {recipientUnconsumed senderUnconsumed : Nat}
    : capDecision recipientUnconsumed senderUnconsumed caps = none
      ↔ senderUnconsumed < caps.perSender ∧ recipientUnconsumed < caps.inbox := by
  unfold capDecision
  split
  · simp only [reduceCtorEq, false_iff]
    omega
  split
  · simp only [reduceCtorEq, false_iff]
    omega
  · simp only [true_iff]
    omega

theorem filter_recipient_inbox (rows : List Record) (recipient : Option Value)
    : (rows.filter fun row => row.get "to" = recipient).filter (inInbox recipient)
      = rows.filter (inInbox recipient) := by
  rw [List.filter_filter]
  refine List.filter_congr ?_
  intro row _
  simp only [inInbox]
  cases decide (row.get "to" = recipient) <;> simp

theorem acceptable_of_store {content : MessageEnvelope} {snapshot : MessageTable} {now : String}
    {searchable : Bool} (h : decideSend caps content snapshot now searchable = .store row)
    : Acceptable caps content snapshot row := by
  unfold decideSend at h
  split at h
  · split at h <;> cases h
  rename_i fresh
  split at h
  · unfold decideNew at h
    dsimp only at h
    split at h
    · cases h
    rename_i none_found
    split at h
    · rename_i seq numbered
      split at h
      · cases h
      rename_i after
      split at h
      · cases h
      rename_i room
      cases h
      rw [capDecision_eq_none, filter_recipient_inbox] at room
      refine ⟨fresh, ⟨now, rfl⟩, ?_, ⟨seq, numbered, ?_⟩, room.2, ?_⟩
      · intro stored member
        by_contra duplicate
        rw [List.find?_eq_none] at none_found
        have same : isDuplicate content.fields stored = true := by simpa using duplicate
        have toRecipient : stored.get "to" = content.fields.get "to" := by
          simp only [isDuplicate, decide_eq_true_eq] at same
          exact same.2.1
        refine none_found stored ?_ same
        exact List.mem_filter.mpr ⟨member, by simpa using toRecipient⟩
      · intro stored member inside earlier number
        have below := seq_le_foldl_maxSeq
          (List.mem_filter.mpr ⟨member, inside⟩) number (-1)
        exact lt_of_le_of_lt below (not_le.mp after)
      · have own := room.1
        rw [List.filter_filter] at own
        refine lt_of_le_of_lt (le_of_eq ?_) own
        unfold countRows
        congr 1
        refine List.filter_congr ?_
        intro stored _
        simp only [fromSender]
        rw [Bool.and_comm]
    · cases h
  · cases h

-- Rows of other sends

structure Apart (content : MessageEnvelope) (row : Record) : Prop where
  recipient : row.get "to" ≠ content.fields.get "to"
  sender : row.get "from" ≠ content.fields.get "from"

theorem decideSend_insert {content : MessageEnvelope} {table : MessageTable} {id : String}
    (fresh : table.lookup id = none) (other : id ≠ content.text "id") (apart : Apart content row)
    (now : String) (searchable : Bool)
    : decideSend caps content (table.insert id row) now searchable
      = decideSend caps content table now searchable := by
  have recipients : (MessageTable.rows (table.insert id row)).filter
        (fun row => row.get "to" = content.fields.get "to")
      = table.rows.filter fun row => row.get "to" = content.fields.get "to" := by
    rw [MessageTable.rows_insert fresh]
    exact List.filter_cons_of_neg (by simpa using apart.recipient)
  have threads : (MessageTable.rows (table.insert id row)).filter
        (inThread (content.fields.get "from") (content.fields.get "threadId"))
      = table.rows.filter
          (inThread (content.fields.get "from") (content.fields.get "threadId")) := by
    rw [MessageTable.rows_insert fresh]
    refine List.filter_cons_of_neg ?_
    simp [inThread, apart.sender]
  unfold decideSend decideNew
  rw [AList.lookup_insert_ne (Ne.symm other), recipients, threads]

end Flair.Relay
