import Flair.Federation.PresenceSends

/-! Where the Presence watermark stands, in every run of the sender, against the rows the hub
has left open.
-/

namespace Flair.Federation

open Dynamic Transition

-- Times

variable {amount : Rat}

theorem truncate_lt {bound : Rat} (below : amount < bound) (positive : 0 < bound)
    : (truncate amount : Rat) < bound := by
  unfold truncate
  split
  · exact lt_of_le_of_lt (Int.floor_le amount) below
  rename_i negative
  have turned : (0 : Int) ≤ (-amount).floor :=
    Int.floor_nonneg.mpr (neg_nonneg.mpr (not_le.mp negative).le)
  have nonpositive : -(-amount).floor ≤ 0 := by omega
  exact lt_of_le_of_lt (by exact_mod_cast nonpositive) positive

theorem truncate_le (positive : 0 ≤ amount) : (truncate amount : Rat) ≤ amount := by
  rw [truncate, if_pos positive]
  exact Int.floor_le amount

theorem truncate_within {bound : Int} (lower : -(bound : Rat) ≤ amount) (upper : amount ≤ bound)
    : -bound ≤ truncate amount ∧ truncate amount ≤ bound := by
  unfold truncate
  split
  · rename_i positive
    have floor : (0 : Int) ≤ amount.floor := Int.floor_nonneg.mpr positive
    have below : ((amount.floor : Int) : Rat) ≤ bound := (Int.floor_le amount).trans upper
    have below : amount.floor ≤ bound := by exact_mod_cast below
    omega
  · rename_i negative
    have floor : (0 : Int) ≤ (-amount).floor :=
      Int.floor_nonneg.mpr (neg_nonneg.mpr (not_le.mp negative).le)
    have below : (((-amount).floor : Int) : Rat) ≤ bound :=
      (Int.floor_le (-amount)).trans (by linarith)
    have below : (-amount).floor ≤ bound := by exact_mod_cast below
    omega

theorem mem_dropWhile {chars : List Char} {drops : Char → Bool} {c : Char} (member : c ∈ chars)
    (stays : drops c = false)
    : c ∈ chars.dropWhile drops := by
  induction chars with
  | nil => cases member
  | cons first rest ih =>
    rw [List.dropWhile_cons]
    split
    · rename_i dropped
      rcases List.mem_cons.mp member with rfl | later
      · rw [stays] at dropped
        cases dropped
      · exact ih later
    · exact member

theorem trim_ne_empty {text : String} {c : Char} (member : c ∈ text.toList)
    (visible : isSpace c = false)
    : trim text ≠ "" := by
  intro blank
  have kept : c ∈ ((text.toList.dropWhile isSpace).reverse.dropWhile isSpace).reverse :=
    List.mem_reverse.mpr
      (mem_dropWhile (List.mem_reverse.mpr (mem_dropWhile member visible)) visible)
  have empty := congrArg String.toList blank
  rw [trim, String.toList_ofList] at empty
  rw [empty] at kept
  cases kept

namespace PresenceSite

variable {site : PresenceSite}

theorem dateParse_toISOString {millis : Int} {text : String}
    (h : IsoTime.toISOString millis = some text)
    : site.dateParse text = some millis := by
  rw [dateParse, IsoTime.parseIso_toISOString h]

theorem presenceWatermarkMs_toISOString {millis : Int} {text : String}
    (h : IsoTime.toISOString millis = some text)
    : site.presenceWatermarkMs (some (.str text)) = millis := by
  have visible : trim text ≠ "" := trim_ne_empty (IsoTime.zone_mem_toISOString h) (by decide)
  rw [presenceWatermarkMs, if_neg visible, dateParse_toISOString h, Option.getD_some]

-- Offers

variable {row : Record} {cursor : Rat}

theorem dateParse_cursor (stamped : site.presenceCursorMs row = some cursor)
    : (IsoTime.toISOString (truncate cursor)).bind site.dateParse = some (truncate cursor) := by
  obtain ⟨-, valid⟩ := Option.filter_eq_some_iff.mp stamped
  have valid := of_decide_eq_true valid
  have within : -IsoTime.maxMillis ≤ truncate cursor ∧ truncate cursor ≤ IsoTime.maxMillis :=
    truncate_within (by exact_mod_cast valid.1) (by exact_mod_cast valid.2)
  cases text : IsoTime.toISOString (truncate cursor) with
  | none =>
    unfold IsoTime.toISOString at text
    rw [if_neg (by omega)] at text
    cases text
  | some text => exact dateParse_toISOString ‹_›

structure Offers (site : PresenceSite) (scanAt : Int) (row : Record) (cursor : Rat)
    (record : SyncRecord)
    : Prop where
  table : record.table = "Presence"
  agent : row.get "agentId" = some (.str record.id)
  stamped : site.presenceCursorMs row = some cursor
  dated : record.updatedAt.bind site.dateParse = some (truncate cursor)

theorem presenceWireRecord_spec {payload : SyncRecord}
    (h : site.presenceWireRecord row = some payload)
    : payload.table = "Presence" ∧ row.get "agentId" = some (.str payload.id)
      ∧ ∃ cursor, site.presenceCursorMs row = some cursor
        ∧ payload.updatedAt = IsoTime.toISOString (truncate cursor) := by
  unfold presenceWireRecord at h
  split at h
  · rename_i agentId cursor named stamped
    obtain ⟨data, -, rfl⟩ := Option.map_eq_some_iff.mp h
    obtain ⟨text, -⟩ := Option.filter_eq_some_iff.mp named
    exact ⟨rfl, asString_eq_some.mp text, cursor, stamped, rfl⟩
  · cases h

variable {scanAt : Int} {record : SyncRecord}

theorem offers_of_offer (h : site.offer scanAt row = some (cursor, record))
    : site.Offers scanAt row cursor record := by
  unfold offer at h
  split at h
  · rename_i stamp payload stamped wire
    split at h
    · cases h
    obtain ⟨rfl, rfl⟩ := Prod.mk.inj (Option.some.inj h)
    obtain ⟨table, agent, other, same, dated⟩ := presenceWireRecord_spec wire
    obtain rfl := Option.some.inj (stamped.symm.trans same)
    exact ⟨table, agent, stamped, dated ▸ dateParse_cursor stamped⟩
  · cases h

theorem offer_or_future (stamped : site.presenceCursorMs row = some cursor)
    (sendable : (site.presenceWireRecord row).isSome) (scanAt : Int)
    : (∃ record, site.offer scanAt row = some (cursor, record))
      ∨ scanAt + presenceSendFutureAllowance < cursor := by
  obtain ⟨payload, wire⟩ := Option.isSome_iff_exists.mp sendable
  unfold offer
  rw [stamped, wire]
  by_cases future : scanAt + presenceSendFutureAllowance < cursor
  · exact Or.inr future
  · exact Or.inl ⟨_, if_neg future⟩

-- The cap

def CapsBelow (cap : Option Int) (instant : Int) : Prop := ∃ held, cap = some held ∧ held < instant

variable {cap : Option Int} {instant : Int}

theorem CapsBelow.capBelow (h : CapsBelow cap instant) (cursor : Int)
    : CapsBelow (Federation.capBelow cap cursor) instant := by
  obtain ⟨held, rfl, below⟩ := h
  exact ⟨_, rfl, lt_of_le_of_lt (min_le_left _ _) below⟩

theorem capsBelow_capBelow (cap : Option Int) (cursor : Int)
    : CapsBelow (capBelow cap cursor) cursor := by
  cases cap with
  | none => exact ⟨_, rfl, by omega⟩
  | some held => exact ⟨_, rfl, by omega⟩

theorem CapsBelow.capAt (h : CapsBelow cap instant) (batch : List SyncRecord) (key : RecordKey)
    : CapsBelow (site.capAt batch cap key) instant := by
  unfold PresenceSite.capAt
  split
  · exact h
  split
  · exact h
  · split
    · exact h
    · exact h.capBelow _

theorem CapsBelow.capRefused (h : CapsBelow cap instant) (batch : List SyncRecord)
    (refusal : RefusedEntry)
    : CapsBelow (site.capRefused batch cap refusal) instant := by
  unfold PresenceSite.capRefused
  split
  · exact h.capAt batch refusal.key
  · exact h

/-- A fold of changes that never raise the cap keeps it below, and one entry that brings it
below is enough, by induction on the entries.
-/
theorem capsBelow_foldl {ε : Type} {lower : Option Int → ε → Option Int}
    (keeps : ∀ cap entry, CapsBelow cap instant → CapsBelow (lower cap entry) instant)
    (entries : List ε) (cap : Option Int)
    (h : CapsBelow cap instant ∨ ∃ entry ∈ entries, ∀ cap, CapsBelow (lower cap entry) instant)
    : CapsBelow (entries.foldl lower cap) instant := by
  induction entries generalizing cap with
  | nil =>
    rcases h with below | ⟨entry, member, -⟩
    · exact below
    · cases member
  | cons first rest ih =>
    rw [List.foldl_cons]
    apply ih
    rcases h with below | ⟨entry, member, lowers⟩
    · exact Or.inl (keeps cap first below)
    · rcases List.mem_cons.mp member with rfl | later
      · exact Or.inl (lowers cap)
      · exact Or.inr ⟨entry, later, lowers⟩

variable {batch : List SyncRecord}

theorem find_record (distinct : (batch.map SyncRecord.id).Nodup) (member : record ∈ batch)
    : batch.find? (fun other => other.id = record.id) = some record := by
  cases found : batch.find? (fun other => other.id = record.id) with
  | none => exact absurd (List.find?_eq_none.mp found record member) (by simp)
  | some other =>
    have same : other.id = record.id := by simpa using List.find?_some found
    rw [List.inj_on_of_nodup_map distinct (List.mem_of_find?_eq_some found) member same]

theorem capsBelow_capAt (distinct : (batch.map SyncRecord.id).Nodup) (member : record ∈ batch)
    (dated : record.updatedAt.bind site.dateParse = some instant) (cap : Option Int)
    : CapsBelow (site.capAt batch cap { table := "Presence", id := record.id }) instant := by
  unfold PresenceSite.capAt
  simp only [ne_eq, not_true_eq_false, if_false, find_record distinct member, dated]
  exact capsBelow_capBelow cap instant

theorem capsBelow_flush (distinct : (batch.map SyncRecord.id).Nodup) (member : record ∈ batch)
    (dated : record.updatedAt.bind site.dateParse = some instant) {result : BatchResult}
    (left : result.leavesOpen { table := "Presence", id := record.id } = true) (cap : Option Int)
    : CapsBelow
        (result.indeterminate.foldl (site.capAt batch)
          (result.refused.foldl (site.capRefused batch) cap)) instant := by
  refine capsBelow_foldl (fun cap key below => below.capAt batch key) _ _ ?_
  rcases Bool.or_eq_true_iff.mp left with refused | undecided
  · obtain ⟨refusal, listed, names⟩ := List.any_eq_true.mp refused
    obtain ⟨same, reoffered⟩ := Bool.and_eq_true_iff.mp names
    refine Or.inl (capsBelow_foldl (fun cap refusal below => below.capRefused batch refusal) _ _
      (Or.inr ⟨refusal, listed, fun cap => ?_⟩))
    rw [capRefused, if_pos reoffered, of_decide_eq_true same]
    exact capsBelow_capAt distinct member dated cap
  · exact Or.inr ⟨_, of_decide_eq_true undecided, capsBelow_capAt distinct member dated⟩

-- The loop over the rows

def Taken (pass : PresencePass) (record : SyncRecord) : Prop :=
  record ∈ pass.batch ∨ ∃ entry ∈ pass.answered, record ∈ entry.1

structure PassSound (site : PresenceSite) (scanAt : Int) (rows : List Record)
    (pass : PresencePass)
    : Prop where
  bounded : pass.advance ≤ scanAt
  distinct : (pass.batch.map SyncRecord.id).Nodup
  offered
    : ∀ record, Taken pass record
      → ∃ row ∈ rows, ∃ cursor, site.offer scanAt row = some (cursor, record)
  taken
    : ∀ row ∈ rows, ∀ cursor record, site.offer scanAt row = some (cursor, record)
      → Taken pass record
  capped
    : ∀ entry ∈ pass.answered, ∀ record ∈ entry.1, ∀ instant,
      record.updatedAt.bind site.dateParse = some instant
      → entry.2.leavesOpen { table := "Presence", id := record.id } = true
      → CapsBelow pass.cap instant

variable {rows : List Record} {pass : PresencePass}

theorem PassSound.flush {link : HubLink} {next : PresencePass} (h : site.PassSound scanAt rows pass)
    (flushed : site.flushPresence link pass = (next, none))
    : site.PassSound scanAt rows next ∧ next.batch = [] := by
  unfold flushPresence at flushed
  split at flushed
  · cases flushed
  rename_i send result sent
  obtain ⟨rfl, -⟩ := Prod.mk.inj flushed
  have same : ∀ record, Taken pass record ↔ Taken
      { pass with
        batch := []
        answered := pass.answered ++ [(pass.batch, result)] } record := by
    intro record
    simp only [Taken, List.not_mem_nil, false_or, List.mem_append, List.mem_singleton]
    constructor
    · rintro (member | ⟨entry, listed, member⟩)
      · exact ⟨_, Or.inr rfl, member⟩
      · exact ⟨entry, Or.inl listed, member⟩
    · rintro ⟨entry, listed | rfl, member⟩
      · exact Or.inr ⟨entry, listed, member⟩
      · exact Or.inl member
  refine ⟨⟨h.bounded, List.nodup_nil, ?_, ?_, ?_⟩, rfl⟩
  · intro record taken
    exact h.offered record ((same record).mpr taken)
  · intro row member cursor record offered
    exact (same record).mp (h.taken row member cursor record offered)
  intro entry listed record member instant dated left
  rcases List.mem_append.mp listed with earlier | last
  · have below := h.capped entry earlier record member instant dated left
    refine capsBelow_foldl (fun cap key below => below.capAt pass.batch key) _ _ (Or.inl ?_)
    exact capsBelow_foldl (fun cap refusal below => below.capRefused pass.batch refusal) _ _
      (Or.inl below)
  · obtain rfl := List.mem_singleton.mp last
    exact capsBelow_flush h.distinct member dated left pass.cap

theorem PassSound.skip (h : site.PassSound scanAt rows pass)
    (unoffered : site.offer scanAt row = none)
    : site.PassSound scanAt (rows ++ [row]) pass := by
  refine ⟨h.bounded, h.distinct, ?_, ?_, h.capped⟩
  · intro record taken
    obtain ⟨earlier, member, offered⟩ := h.offered record taken
    exact ⟨earlier, List.mem_append_left _ member, offered⟩
  · intro other member cursor record offered
    rcases List.mem_append.mp member with earlier | last
    · exact h.taken other earlier cursor record offered
    · rw [List.mem_singleton.mp last, unoffered] at offered
      cases offered

theorem PassSound.push (h : site.PassSound scanAt rows pass)
    (offered : site.offer scanAt row = some (cursor, record))
    (apart : ∀ other ∈ rows, other.get "agentId" ≠ row.get "agentId")
    : site.PassSound scanAt (rows ++ [row]) (site.push scanAt pass cursor record) := by
  have taken : ∀ other, Taken (site.push scanAt pass cursor record) other
      ↔ Taken pass other ∨ other = record := by
    intro other
    simp only [Taken, PresenceSite.push, List.mem_append, List.mem_singleton]
    exact or_right_comm
  refine ⟨max_le h.bounded (min_le_right _ _), ?_, ?_, ?_, h.capped⟩
  · rw [PresenceSite.push, List.map_append, List.map_singleton]
    refine List.Nodup.append h.distinct (List.nodup_singleton _) ?_
    rintro id earlier last
    obtain ⟨other, member, rfl⟩ := List.mem_map.mp earlier
    obtain ⟨source, listed, stamp, from_source⟩ := h.offered other (Or.inl member)
    refine apart source listed ?_
    rw [(offers_of_offer from_source).agent, (offers_of_offer offered).agent,
      List.mem_singleton.mp last]
  · intro other member
    rcases (taken other).mp member with earlier | rfl
    · obtain ⟨source, listed, offered⟩ := h.offered other earlier
      exact ⟨source, List.mem_append_left _ listed, offered⟩
    · exact ⟨row, by simp, cursor, offered⟩
  · intro source member stamp other named
    rcases List.mem_append.mp member with earlier | last
    · exact (taken other).mpr (Or.inl (h.taken source earlier stamp other named))
    · rw [List.mem_singleton.mp last, offered] at named
      obtain ⟨-, rfl⟩ := Prod.mk.inj (Option.some.inj named)
      exact (taken _).mpr (Or.inr rfl)

theorem PassSound.sendRows {link : HubLink} {rest : List Record} {next : PresencePass}
    (h : site.PassSound scanAt rows pass)
    (apart : (rows ++ rest).Pairwise fun left right => left.get "agentId" ≠ right.get "agentId")
    (sent : site.sendRows link scanAt rest pass = (next, none))
    : site.PassSound scanAt (rows ++ rest) next ∧ next.batch = [] := by
  induction rest generalizing rows pass with
  | nil =>
    rw [List.append_nil]
    unfold PresenceSite.sendRows at sent
    split at sent
    · rename_i empty
      obtain ⟨rfl, -⟩ := Prod.mk.inj sent
      exact ⟨h, List.isEmpty_iff.mp empty⟩
    · exact h.flush sent
  | cons row rest ih =>
    have step : rows ++ row :: rest = (rows ++ [row]) ++ rest := by simp
    have others : ∀ other ∈ rows, other.get "agentId" ≠ row.get "agentId" := fun other member =>
      (List.pairwise_append.mp apart).2.2 other member row List.mem_cons_self
    rw [step] at apart ⊢
    unfold PresenceSite.sendRows at sent
    split at sent
    · rename_i unoffered
      exact ih (h.skip unoffered) apart sent
    rename_i cursor record offered
    split at sent
    · cases sent
    rename_i flushed flush
    have sound : site.PassSound scanAt rows flushed := by
      split at flush
      · exact (h.flush flush).1
      · rw [← (Prod.mk.inj flush).1]
        exact h
    exact ih (sound.push offered others) apart sent

end PresenceSite
end Flair.Federation
