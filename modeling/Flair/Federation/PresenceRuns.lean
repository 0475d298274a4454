import Flair.Federation.PresenceReoffers

/-! The Presence watermark over whole runs of the sender: what a run must have answered before
it stores one, and which rows every later scan selects again.
-/

namespace Flair.Federation

open Dynamic Transition

-- One run

def Scan.records (scan : Scan) : List Record := scan.rows.map fun entry => entry.2.row

/-- Each row once, under its `agentId`. -/
structure Keyed (rows : InsertionMap Value StoredPresence) : Prop where
  distinct : rows.Distinct
  agent : ∀ entry ∈ rows, entry.2.row.get "agentId" = some entry.1

def PresenceSite.Selects (site : PresenceSite) (floor : Int) (row : Record) (cursor : Rat) : Prop :=
  site.isHome row = true ∧ site.presenceCursorMs row = some cursor ∧ (floor : Rat) < cursor

namespace PresenceSite

variable {site : PresenceSite}

variable {rows : List Record}

theorem mem_selectPresenceRowsToSend {floor : Int} {row : Record}
    : row ∈ site.selectPresenceRowsToSend rows floor
      ↔ row ∈ rows ∧ ∃ cursor, site.Selects floor row cursor := by
  simp only [selectPresenceRowsToSend, List.mem_filter, Bool.and_eq_true, Option.any_eq_true,
    decide_eq_true_eq, Selects]
  constructor
  · rintro ⟨member, home, cursor, stamped, past⟩
    exact ⟨member, cursor, home, stamped, past⟩
  · rintro ⟨member, cursor, home, stamped, past⟩
    exact ⟨member, home, cursor, stamped, past⟩

/-- What a run with a watermark to store has done: the hub has answered every row it offered,
and the watermark is no later than the scan and below each row left open.
-/
structure SentSound (site : PresenceSite) (scanAt : Int) (floor : Int) (rows : List Record)
    (pass : PresencePass) (advance : Rat)
    : Prop where
  bounded : advance ≤ scanAt
  taken
    : ∀ row ∈ rows, ∀ cursor record, site.Selects floor row cursor
      → site.offer scanAt row = some (cursor, record)
      → ∃ entry ∈ pass.answered, record ∈ entry.1
  offered
    : ∀ entry ∈ pass.answered, ∀ record ∈ entry.1,
      ∃ row ∈ rows, ∃ cursor, site.offer scanAt row = some (cursor, record)
  capped
    : ∀ entry ∈ pass.answered, ∀ record ∈ entry.1, ∀ instant : Int,
      record.updatedAt.bind site.dateParse = some instant
      → entry.2.leavesOpen { table := "Presence", id := record.id } = true → advance < instant

variable {pass : PresencePass}

theorem SentSound.below {scanAt floor : Int} {advance : Rat}
    (h : site.SentSound scanAt floor rows pass advance) {entry : List SyncRecord × BatchResult}
    (listed : entry ∈ pass.answered) {row : Record} {cursor : Rat} {record : SyncRecord}
    (member : record ∈ entry.1) (offered : site.offer scanAt row = some (cursor, record))
    (positive : 0 ≤ cursor)
    (left : entry.2.leavesOpen { table := "Presence", id := record.id } = true)
    : advance < cursor := by
  have below := h.capped entry listed record member _ (offers_of_offer offered).dated left
  exact lt_of_lt_of_le below (truncate_le positive)

theorem candidate_le (pass : PresencePass) : pass.candidate ≤ pass.advance := by
  unfold PresencePass.candidate
  split
  · exact le_refl _
  · exact min_le_left _ _

theorem candidate_lt {instant : Int} (below : CapsBelow pass.cap instant)
    : pass.candidate < instant := by
  obtain ⟨held, set, below⟩ := below
  rw [PresencePass.candidate, set]
  exact lt_of_le_of_lt (min_le_right _ _) (by exact_mod_cast below)

theorem sentSound_of_sendPresence {link : HubLink} {scanAt : Int} {stored : Option Value}
    {send : SendState} {batches : Nat} {advance : Rat}
    (apart : rows.Pairwise fun left right => left.get "agentId" ≠ right.get "agentId")
    (sent : site.sendPresence link scanAt stored rows (.start send batches)
      = (pass, .ok (some advance)))
    : site.SentSound scanAt (site.scanFloor scanAt stored) rows pass advance := by
  have effective : ((site.effectiveWatermark scanAt stored : Int) : Rat) ≤ scanAt := by
    exact_mod_cast min_le_right _ _
  unfold sendPresence at sent
  dsimp only at sent
  split at sent
  · rename_i none_selected
    obtain ⟨rfl, outcome⟩ := Prod.mk.inj sent
    have outcome := Except.ok.inj outcome
    split at outcome
    · obtain rfl := Option.some.inj outcome
      refine ⟨effective, ?_, ?_, ?_⟩
      · intro row member cursor record selects _
        have selected := mem_selectPresenceRowsToSend.mpr ⟨member, cursor, selects⟩
        rw [List.isEmpty_iff.mp none_selected] at selected
        cases selected
      · intro entry listed
        cases listed
      · intro entry listed
        cases listed
    · cases outcome
  · split at sent
    · obtain ⟨-, outcome⟩ := Prod.mk.inj sent
      cases outcome
    rename_i loaded loads
    split at sent
    · obtain ⟨-, outcome⟩ := Prod.mk.inj sent
      cases outcome
    rename_i after ends
    obtain ⟨rfl, outcome⟩ := Prod.mk.inj sent
    obtain rfl := Option.some.inj (Except.ok.inj outcome)
    have fresh : site.PassSound scanAt []
        { PresencePass.start send batches with
          send := loaded
          advance := (site.effectiveWatermark scanAt stored : Int) } := by
      refine ⟨effective, List.nodup_nil, ?_, ?_, ?_⟩
      · rintro record (member | ⟨entry, listed, -⟩)
        · cases member
        · cases listed
      · intro row member
        cases member
      · intro entry listed
        cases listed
    have selected_apart := apart.sublist
      (List.filter_sublist : (site.selectPresenceRowsToSend rows
        (site.scanFloor scanAt stored)).Sublist rows)
    obtain ⟨sound, emptied⟩ := fresh.sendRows selected_apart ends
    rw [List.nil_append] at sound
    refine ⟨(candidate_le _).trans sound.bounded, ?_, ?_, ?_⟩
    · intro row member cursor record selects offered
      have selected := mem_selectPresenceRowsToSend.mpr ⟨member, cursor, selects⟩
      rcases sound.taken row selected cursor record offered with waiting | answered
      · rw [emptied] at waiting
        cases waiting
      · exact answered
    · intro entry listed record member
      obtain ⟨row, selected, cursor, offered⟩ :=
        sound.offered record (Or.inr ⟨entry, listed, member⟩)
      exact ⟨row, (mem_selectPresenceRowsToSend.mp selected).1, cursor, offered⟩
    · intro entry listed record member instant dated left
      exact candidate_lt (sound.capped entry listed record member instant dated left)

end PresenceSite

-- The state

variable {rows : InsertionMap Value StoredPresence}

theorem Keyed.apart (h : Keyed rows)
    : (rows.map fun entry => entry.2.row).Pairwise fun left right =>
        left.get "agentId" ≠ right.get "agentId" := by
  rw [List.pairwise_map]
  have keys : rows.Pairwise fun left right => left.1 ≠ right.1 := List.pairwise_map.mp h.distinct
  refine keys.imp_of_mem ?_
  intro left right leftMember rightMember apart same
  rw [h.agent left leftMember, h.agent right rightMember] at same
  exact apart (Option.some.inj same)

theorem Keyed.set (h : Keyed rows) {key : Value} {stored : StoredPresence}
    (agent : stored.row.get "agentId" = some key)
    : Keyed (rows.set key stored) where
  distinct := h.distinct.modify _
  agent := by
    intro entry member
    rcases InsertionMap.mem_of_mem_modify member with kept | ⟨-, rfl⟩
    · exact h.agent entry kept
    · exact agent

theorem Keyed.delete (h : Keyed rows) (key : Value)
    : Keyed (rows.delete key) where
  distinct := h.distinct.delete
  agent := fun entry member => h.agent entry (List.mem_of_mem_filter member)

theorem Keyed.perm {other : InsertionMap Value StoredPresence} (h : Keyed rows)
    (same : other.Perm rows)
    : Keyed other where
  distinct := ((same.map Prod.fst).nodup_iff).mpr h.distinct
  agent := fun entry member => h.agent entry (same.mem_iff.mp member)

theorem SenderState.get_record (state : SenderState) (scan : Scan)
    (answered : List (List SyncRecord × BatchResult)) (key : Value)
    : (state.record scan answered).table.get key
      = (state.table.get key).map fun stored =>
          { stored with standing := standingAfter scan answered key stored } := by
  exact InsertionMap.get_map_entries (fun key (stored : StoredPresence) =>
    ({ stored with standing := standingAfter scan answered key stored } : StoredPresence))

theorem Keyed.record {state : SenderState} (h : Keyed state.table) (scan : Scan)
    (answered : List (List SyncRecord × BatchResult))
    : Keyed (state.record scan answered).table where
  distinct := by
    rw [InsertionMap.Distinct, SenderState.record, List.map_map]
    exact h.distinct
  agent := by
    intro entry member
    obtain ⟨source, listed, rfl⟩ := List.mem_map.mp member
    exact h.agent source listed

structure SenderState.Sound (site : PresenceSite) (state : SenderState) : Prop where
  keyed : Keyed state.table
  scanned : ∀ scan, state.stage = .scanned scan → Keyed scan.rows
  sent
    : ∀ scan pass advance, state.stage = .sent scan pass advance
      → Keyed scan.rows
        ∧ site.SentSound scan.scanAt (site.scanFloor scan.scanAt state.watermark) scan.records pass
          advance

variable {site : PresenceSite} {state : SenderState}

theorem SenderState.Sound.of_idle (keyed : Keyed state.table) (idle : state.stage = .idle)
    : state.Sound site where
  keyed := keyed
  scanned scan at_scan := by
    rw [idle] at at_scan
    cases at_scan
  sent scan pass advance at_sent := by
    rw [idle] at at_sent
    cases at_sent

theorem SenderState.Sound.of_table (h : state.Sound site)
    {table : InsertionMap Value StoredPresence} (keyed : Keyed table) (versions : Nat)
    : SenderState.Sound site { state with table, versions } where
  keyed := keyed
  scanned := h.scanned
  sent := h.sent

theorem SenderState.Sound.step {site : PresenceSite} {state next : SenderState}
    {label : SenderLabel} (h : state.Sound site) (taken : senderStep site state label = some next)
    : next.Sound site := by
  cases label with
  | commit key row =>
    simp only [senderStep] at taken
    split at taken
    · rename_i agent
      obtain rfl := Option.some.inj taken
      exact h.of_table (h.keyed.set agent) _
    · cases taken
  | delete key =>
    obtain rfl := Option.some.inj taken
    exact h.of_table (h.keyed.delete key) _
  | scan scanAt rows =>
    simp only [senderStep] at taken
    split at taken
    · split at taken
      · rename_i same
        obtain rfl := Option.some.inj taken
        refine ⟨h.keyed, ?_, ?_⟩
        · rintro scan at_scan
          obtain rfl := SendStage.scanned.inj at_scan
          exact h.keyed.perm same
        · rintro scan pass advance at_sent
          cases at_sent
      · cases taken
    · cases taken
  | send link start batches =>
    simp only [senderStep] at taken
    split at taken
    · rename_i scan at_scan
      have keyed := h.scanned scan at_scan
      obtain rfl := Option.some.inj taken
      generalize outcome : site.sendPresence link scan.scanAt state.watermark
        (scan.rows.map fun entry => entry.2.row) (.start start batches) = sends
      obtain ⟨pass, result⟩ := sends
      have table := h.keyed.record scan pass.answered
      cases result with
      | error message => exact .of_idle table rfl
      | ok candidate =>
        cases candidate with
        | none => exact .of_idle table rfl
        | some advance =>
          refine ⟨table, ?_, ?_⟩
          · rintro other at_other
            cases at_other
          · rintro other after last at_sent
            obtain ⟨rfl, rfl, rfl⟩ := SendStage.sent.inj at_sent
            exact ⟨keyed, PresenceSite.sentSound_of_sendPresence keyed.apart outcome⟩
    · cases taken
  | store pinged landed =>
    simp only [senderStep] at taken
    split at taken
    · obtain rfl := Option.some.inj taken
      split
      · exact .of_idle h.keyed rfl
      · exact .of_idle h.keyed rfl
    · cases taken

theorem sender_sound (h : (presenceSends site).Reachable state)
    : state.Sound site := by
  refine System.Reachable.invariant ?_ ?_ h
  · intro start fresh
    exact .of_idle ⟨fresh.distinct, fresh.keyed⟩ fresh.idle
  · intro before label after sound taken
    have taken : senderStep site before label = some after := taken
    exact sound.step taken

-- Rows that stay ahead of the watermark

/-- A run under way cannot take the watermark past the row and the slack: its scan shows the
row's version or is recent, and so is the watermark it is to store.
-/
def SenderState.RunBehind (state : SenderState) (slack : Rat) (key : Value) (row : Record)
    (version : Nat) (cursor : Rat)
    : Prop :=
  match state.stage with
  | .idle => True
  | .scanned scan =>
    (∃ standing, scan.rows.get key = some { row, version, standing })
    ∨ (scan.scanAt : Rat) - slack < cursor
  | .sent _ _ advance => advance - slack < cursor

/-- A home row that can be sent, and is past the stored watermark less the slack. -/
structure Ahead (site : PresenceSite) (slack : Rat) (state : SenderState) (key : Value)
    (row : Record) (version : Nat) (cursor : Rat)
    : Prop where
  held : ∃ standing, state.table.get key = some { row, version, standing }
  home : site.isHome row = true
  sendable : (site.presenceWireRecord row).isSome
  stamped : site.presenceCursorMs row = some cursor
  positive : 0 < cursor
  recent : (site.presenceWatermarkMs state.watermark : Rat) - slack < cursor
  inRun : state.RunBehind slack key row version cursor

def StaysOpen (site : PresenceSite) (key : Value) (row : Record) (version : Nat)
    : Guard SenderState SenderLabel :=
  fun before label => ∀ after, senderStep site before label = some after
    → ∃ standing, after.table.get key = some { row, version, standing } ∧ standing ≠ .settled

section Steps

variable {site : PresenceSite} {slack : Rat} {state : SenderState} {key : Value} {row : Record}
  {version : Nat} {cursor : Rat}

theorem Ahead.selects (h : Ahead site slack state key row version cursor)
    (within : slack ≤ presenceSendOverlap) (scanAt : Int)
    : site.Selects (site.scanFloor scanAt state.watermark) row cursor := by
  refine ⟨h.home, h.stamped, ?_⟩
  have effective : ((site.effectiveWatermark scanAt state.watermark : Int) : Rat)
      ≤ site.presenceWatermarkMs state.watermark := by
    exact_mod_cast min_le_left _ _
  have recent := h.recent
  have floor : ((site.scanFloor scanAt state.watermark : Int) : Rat)
      = max 0 ((site.effectiveWatermark scanAt state.watermark : Rat) - presenceSendOverlap) := by
    simp [PresenceSite.scanFloor]
  rw [floor]
  exact max_lt h.positive (by linarith)

theorem Keyed.row_eq {scan : Scan} (keyed : Keyed scan.rows)
    {stored : StoredPresence} (seen : scan.rows.get key = some stored)
    (member : row ∈ scan.records) (agent : row.get "agentId" = some key)
    : row = stored.row := by
  obtain ⟨entry, listed, rfl⟩ := List.mem_map.mp member
  have same := (keyed.agent entry listed).symm.trans agent
  obtain rfl := Option.some.inj same
  rw [keyed.distinct.get_of_mem listed] at seen
  rw [Option.some.inj seen]

theorem advance_lt_of_open {scan : Scan} {pass : PresencePass} {advance : Rat} {floor : Int}
    (keyed : Keyed scan.rows)
    (sound : site.SentSound scan.scanAt floor scan.records pass advance)
    {earlier : Standing} (seen : ∃ standing, scan.rows.get key = some { row, version, standing })
    (selects : site.Selects floor row cursor) (positive : 0 < cursor) {record : SyncRecord}
    (offered : site.offer scan.scanAt row = some (cursor, record))
    (left : standingAfter scan pass.answered key { row, version, standing := earlier } ≠ .settled)
    : advance < cursor := by
  obtain ⟨standing, seen⟩ := seen
  have member := InsertionMap.mem_of_get seen
  have named : key = .str record.id := by
    have agent := keyed.agent _ member
    rw [(PresenceSite.offers_of_offer offered).agent] at agent
    exact (Option.some.inj agent).symm
  subst named
  obtain ⟨entry, listed, inside⟩ := sound.taken row (List.mem_map_of_mem member) cursor record
    selects offered
  simp only [standingAfter, seen, asString, if_true] at left
  cases found : pass.answered.findSome? fun entry => standingIn entry.1 entry.2 record.id with
  | none =>
    have absent := List.findSome?_eq_none_iff.mp found entry listed
    rw [standingIn, if_pos (List.any_eq_true.mpr ⟨record, inside, by simp⟩)] at absent
    cases absent
  | some answer =>
    rw [found, Option.getD_some] at left
    obtain ⟨other, otherListed, answers⟩ := List.exists_of_findSome?_eq_some found
    unfold standingIn at answers
    split at answers
    · rename_i holds
      obtain ⟨copy, copyInside, same⟩ := List.any_eq_true.mp holds
      have same : copy.id = record.id := of_decide_eq_true same
      have isOpen : other.2.leavesOpen { table := "Presence", id := copy.id } = true := by
        by_contra closed
        rw [same] at closed
        rw [if_neg closed] at answers
        exact left (Option.some.inj answers).symm
      obtain ⟨source, sourceListed, stamp, sourceOffered⟩ :=
        sound.offered other otherListed copy copyInside
      have agent := (PresenceSite.offers_of_offer sourceOffered).agent
      rw [same] at agent
      obtain rfl := keyed.row_eq seen sourceListed agent
      rw [offered] at sourceOffered
      obtain ⟨rfl, rfl⟩ := Prod.mk.inj (Option.some.inj sourceOffered)
      exact sound.below otherListed copyInside offered positive.le isOpen
    · cases answers

theorem Ahead.of_table (h : Ahead site slack state key row version cursor)
    {table : InsertionMap Value StoredPresence} {versions : Nat}
    (held : ∃ standing, table.get key = some { row, version, standing })
    : Ahead site slack { state with table, versions } key row version cursor where
  held := held
  home := h.home
  sendable := h.sendable
  stamped := h.stamped
  positive := h.positive
  recent := h.recent
  inRun := h.inRun

theorem Ahead.scan (h : Ahead site slack state key row version cursor)
    (keyed : Keyed state.table) {rows : InsertionMap Value StoredPresence}
    (same : rows.Perm state.table) (scanAt : Int)
    : Ahead site slack (state.goto (.scanned { scanAt, rows })) key row version cursor where
  held := h.held
  home := h.home
  sendable := h.sendable
  stamped := h.stamped
  positive := h.positive
  recent := h.recent
  inRun := by
    obtain ⟨standing, held⟩ := h.held
    have member := same.mem_iff.mpr (InsertionMap.mem_of_get held)
    exact Or.inl ⟨standing, (keyed.perm same).distinct.get_of_mem member⟩

theorem Ahead.sent (h : Ahead site slack state key row version cursor) {scan : Scan}
    (at_scan : state.stage = .scanned scan) (keyed : Keyed scan.rows) {pass : PresencePass}
    {advance : Rat}
    (sound : site.SentSound scan.scanAt (site.scanFloor scan.scanAt state.watermark) scan.records
      pass advance)
    {earlier : Standing}
    (left : standingAfter scan pass.answered key { row, version, standing := earlier } ≠ .settled)
    (some_slack : 0 ≤ slack) (within : slack ≤ presenceSendOverlap)
    : advance - slack < cursor := by
  have run := h.inRun
  simp only [SenderState.RunBehind, at_scan] at run
  rcases run with seen | recent
  · rcases PresenceSite.offer_or_future h.stamped h.sendable scan.scanAt with offered | future
    · obtain ⟨record, offered⟩ := offered
      have below := advance_lt_of_open keyed sound seen (h.selects within scan.scanAt)
        h.positive offered left
      linarith
    · have allowance : (0 : Rat) < presenceSendFutureAllowance := by
        norm_num [presenceSendFutureAllowance]
      have bounded := sound.bounded
      linarith
  · have bounded := sound.bounded
    linarith

variable {next : SenderState}

theorem store_watermark {pinged landed : Bool}
    (taken : senderStep site state (.store pinged landed) = some next)
    : ∃ scan pass advance, state.stage = .sent scan pass advance
      ∧ next = { state with watermark := next.watermark, stage := .idle }
      ∧ (next.watermark = state.watermark
        ∨ site.presenceWatermarkMs next.watermark = truncate advance) := by
  simp only [senderStep] at taken
  split at taken
  · rename_i scan pass advance at_sent
    refine ⟨scan, pass, advance, at_sent, ?_⟩
    obtain rfl := Option.some.inj taken
    split
    · rename_i text written
      refine ⟨rfl, ?_⟩
      dsimp only
      split
      · exact Or.inr (PresenceSite.presenceWatermarkMs_toISOString written)
      · exact Or.inl rfl
    · exact ⟨rfl, Or.inl rfl⟩
  · cases taken

theorem Ahead.step (h : Ahead site slack state key row version cursor)
    (some_slack : 0 ≤ slack) (within : slack ≤ presenceSendOverlap) (sound : state.Sound site)
    {label : SenderLabel} {next : SenderState}
    (opens : StaysOpen site key row version state label)
    (taken : senderStep site state label = some next)
    : Ahead site slack next key row version cursor := by
  obtain ⟨standing, held, isOpen⟩ := opens next taken
  cases label with
  | commit written content =>
    simp only [senderStep] at taken
    split at taken
    · obtain rfl := Option.some.inj taken
      exact h.of_table ⟨standing, held⟩
    · cases taken
  | delete gone =>
    obtain rfl := Option.some.inj taken
    exact h.of_table ⟨standing, held⟩
  | scan scanAt rows =>
    simp only [senderStep] at taken
    split at taken
    · split at taken
      · rename_i same
        obtain rfl := Option.some.inj taken
        exact h.scan sound.keyed same scanAt
      · cases taken
    · cases taken
  | send link start batches =>
    have after := sound.step taken
    simp only [senderStep] at taken
    split at taken
    · rename_i scan at_scan
      generalize site.sendPresence link scan.scanAt state.watermark
        (scan.rows.map fun entry => entry.2.row) (.start start batches) = sends at taken
      obtain ⟨pass, result⟩ := sends
      obtain rfl := Option.some.inj taken
      refine { h with held := ⟨standing, held⟩, recent := h.recent, inRun := ?_ }
      cases result with
      | error message => trivial
      | ok candidate =>
        cases candidate with
        | none => trivial
        | some advance =>
          obtain ⟨keyed, sent⟩ := after.sent scan pass advance rfl
          obtain ⟨earlier, before⟩ := h.held
          have recorded : (state.record scan pass.answered).table.get key
              = some { row, version, standing } :=
            held
          rw [SenderState.get_record, before, Option.map_some] at recorded
          have answer : standingAfter scan pass.answered key
              { row, version, standing := earlier } = standing :=
            congrArg StoredPresence.standing (Option.some.inj recorded)
          rw [← answer] at isOpen
          exact h.sent at_scan keyed sent isOpen some_slack within
    · cases taken
  | store pinged landed =>
    obtain ⟨scan, pass, advance, at_sent, rebuilt, watermark⟩ := store_watermark taken
    have behind := h.inRun
    simp only [SenderState.RunBehind, at_sent] at behind
    have recent : (site.presenceWatermarkMs next.watermark : Rat) - slack < cursor := by
      rcases watermark with same | stored
      · rw [same]
        exact h.recent
      have below := truncate_lt (show advance < cursor + slack by linarith)
        (by linarith [h.positive])
      rw [stored]
      linarith
    rw [rebuilt] at held ⊢
    exact { h with held := ⟨standing, held⟩, recent, inRun := trivial }

theorem Ahead.run {later : SenderState} (h : Ahead site slack state key row version cursor)
    (some_slack : 0 ≤ slack) (within : slack ≤ presenceSendOverlap) (sound : state.Sound site)
    (run : (presenceSends site).ReachesUnder (StaysOpen site key row version) state later)
    : later.Sound site ∧ Ahead site slack later key row version cursor := by
  induction run with
  | refl => exact ⟨sound, h⟩
  | @tail before after _ last ih =>
    obtain ⟨label, opens, taken⟩ := last
    have taken : senderStep site before label = some after := taken
    exact ⟨ih.1.step taken, ih.2.step some_slack within ih.1 opens taken⟩

theorem ahead_of_commit (taken : senderStep site state (.commit key row) = some next)
    (home : site.isHome row = true) (sendable : (site.presenceWireRecord row).isSome)
    (stamped : site.presenceCursorMs row = some cursor) (positive : 0 < cursor)
    (recent : (site.presenceWatermarkMs state.watermark : Rat) - slack < cursor)
    (inRun : state.RunBehind slack key row state.versions cursor)
    : Ahead site slack next key row state.versions cursor := by
  simp only [senderStep] at taken
  split at taken
  · obtain rfl := Option.some.inj taken
    exact {
      held := ⟨.unanswered, by simp⟩
      home
      sendable
      stamped
      positive
      recent
      inRun }
  · cases taken

theorem Ahead.offered (h : Ahead site slack state key row version cursor)
    (within : slack ≤ presenceSendOverlap) {scanAt : Int} {rows : InsertionMap Value StoredPresence}
    (taken : senderStep site state (.scan scanAt rows) = some next)
    : row ∈ site.selectPresenceRowsToSend (Scan.records { scanAt, rows })
        (site.scanFloor scanAt state.watermark)
      ∧ ((∃ record, site.offer scanAt row = some (cursor, record))
        ∨ scanAt + presenceSendFutureAllowance < cursor) := by
  refine ⟨?_, PresenceSite.offer_or_future h.stamped h.sendable scanAt⟩
  simp only [senderStep] at taken
  split at taken
  · split at taken
    · rename_i same
      obtain ⟨standing, held⟩ := h.held
      have member := same.mem_iff.mpr (InsertionMap.mem_of_get held)
      exact PresenceSite.mem_selectPresenceRowsToSend.mpr
        ⟨List.mem_map.mpr ⟨_, member, rfl⟩, cursor, h.selects within scanAt⟩
    · cases taken
  · cases taken

theorem stored_below_open_rows (sound : state.Sound site) {label : SenderLabel}
    (taken : senderStep site state label = some next) (stored : next.watermark ≠ state.watermark)
    : ∃ scan pass advance, state.stage = .sent scan pass advance
      ∧ ∀ row ∈ scan.records, ∀ cursor record,
        site.Selects (site.scanFloor scan.scanAt state.watermark) row cursor
        → site.offer scan.scanAt row = some (cursor, record)
        → ∃ entry ∈ pass.answered, record ∈ entry.1
          ∧ (entry.2.leavesOpen { table := "Presence", id := record.id } = true
            → (site.presenceWatermarkMs next.watermark : Rat) < cursor) := by
  cases label with
  | commit written content =>
    simp only [senderStep] at taken
    split at taken
    · obtain rfl := Option.some.inj taken
      exact absurd rfl stored
    · cases taken
  | delete gone =>
    obtain rfl := Option.some.inj taken
    exact absurd rfl stored
  | scan scanAt rows =>
    simp only [senderStep] at taken
    split at taken
    · split at taken
      · obtain rfl := Option.some.inj taken
        exact absurd rfl stored
      · cases taken
    · cases taken
  | send link start batches =>
    simp only [senderStep] at taken
    split at taken
    · obtain rfl := Option.some.inj taken
      exact absurd rfl stored
    · cases taken
  | store pinged landed =>
    obtain ⟨scan, pass, advance, at_sent, -, watermark⟩ := store_watermark taken
    refine ⟨scan, pass, advance, at_sent, ?_⟩
    intro row member cursor record selects offered
    obtain ⟨-, sent⟩ := sound.sent scan pass advance at_sent
    obtain ⟨entry, listed, inside⟩ := sent.taken row member cursor record selects offered
    refine ⟨entry, listed, inside, ?_⟩
    intro left
    have positive : 0 < cursor := by
      have floor : (0 : Rat) ≤ site.scanFloor scan.scanAt state.watermark := by
        exact_mod_cast le_max_left _ _
      exact lt_of_le_of_lt floor selects.2.2
    rw [watermark.resolve_left stored]
    exact truncate_lt (sent.below listed inside offered positive.le left) positive

end Steps

-- Every run

/-- In every sequence of runs: a run stores a watermark only when the hub has answered every
row it offered, and below each row it left open. A sendable home row past the stored watermark
stays past it, over any runs, until a final answer to its version, and one at most the overlap
behind stays at most the overlap behind, so that every scan selects it again. A version
written while that holds of it is such a row.
-/
theorem presence_rows_offered_until_final {site : PresenceSite} {state : SenderState}
    (h : (presenceSends site).Reachable state)
    : (∀ label next, (presenceSends site).step state label = some next
        → next.watermark ≠ state.watermark
        → ∃ scan pass advance, state.stage = .sent scan pass advance
          ∧ ∀ row ∈ scan.records, ∀ cursor record,
            site.Selects (site.scanFloor scan.scanAt state.watermark) row cursor
            → site.offer scan.scanAt row = some (cursor, record)
            → ∃ entry ∈ pass.answered, record ∈ entry.1
              ∧ (entry.2.leavesOpen { table := "Presence", id := record.id } = true
                → (site.presenceWatermarkMs next.watermark : Rat) < cursor))
      ∧ (∀ (slack : Rat) key row version cursor, 0 ≤ slack → slack ≤ presenceSendOverlap
        → Ahead site slack state key row version cursor
        → ∀ later, (presenceSends site).ReachesUnder (StaysOpen site key row version) state later
          → Ahead site slack later key row version cursor
            ∧ ∀ scanAt rows next,
              (presenceSends site).step later (.scan scanAt rows) = some next
              → row ∈ site.selectPresenceRowsToSend (Scan.records { scanAt, rows })
                  (site.scanFloor scanAt later.watermark)
                ∧ ((∃ record, site.offer scanAt row = some (cursor, record))
                  ∨ scanAt + presenceSendFutureAllowance < cursor))
      ∧ ∀ (slack : Rat) key row cursor next,
        (presenceSends site).step state (.commit key row) = some next
        → site.isHome row = true → (site.presenceWireRecord row).isSome
        → site.presenceCursorMs row = some cursor → 0 < cursor
        → (site.presenceWatermarkMs state.watermark : Rat) - slack < cursor
        → state.RunBehind slack key row state.versions cursor
        → Ahead site slack next key row state.versions cursor := by
  have sound := sender_sound h
  refine ⟨?_, ?_, ?_⟩
  · intro label next taken stored
    exact stored_below_open_rows sound taken stored
  · intro slack key row version cursor some_slack within ahead later run
    have kept := ahead.run some_slack within sound run
    refine ⟨kept.2, ?_⟩
    intro scanAt rows next taken
    exact kept.2.offered within taken
  · intro slack key row cursor next taken home sendable stamped positive recent inRun
    exact ahead_of_commit taken home sendable stamped positive recent inRun

-- A row refused for now, and a row written late

def spokeSite : PresenceSite where
  instanceId := "spoke"
  number _ := none
  otherDate _ := none
  sign _ := "signed"
  size _ := 100

def heartbeatRow (agent : String) (stamp : Nat) : Record := Record.ofFields [
  ("agentId", .str agent),
  ("originatorInstanceId", .str "spoke"),
  ("lastHeartbeatAt", .num stamp)
]

def noPresence : SenderState where
  table := []
  versions := 0
  watermark := none
  stage := .idle

theorem noPresence_fresh : (presenceSends spokeSite).initial noPresence where
  idle := rfl
  distinct := List.nodup_nil
  keyed := by
    intro entry member
    cases member
  numbered := by
    intro entry member
    cases member

def commitHeartbeat (agent : String) (stamp : Nat) : SenderLabel :=
  .commit (.str agent) (heartbeatRow agent stamp)

/-- The run of a sync that finds one new row, with the body of the hub's answer. -/
def syncOne (agent : String) (stamp : Nat) (body : List (String × Value)) : List SenderLabel := [
  .scan stamp
    [(.str agent, { row := heartbeatRow agent stamp, version := 0, standing := .unanswered })],
  .send { keyError := none, answer := fun _ _ => .responded 200 (some (.obj body)) }
    { keyLoaded := true, posts := [] } 0,
  .store true true
]

def heldOpen (key : Value) (row : Record) (version : Nat) (state : SenderState) : Bool :=
  match state.table.get key with
  | some stored =>
    decide (stored.row = row ∧ stored.version = version ∧ stored.standing ≠ .settled)
  | none => false

def keepsOpen (key : Value) (row : Record) (version : Nat) (state : SenderState)
    (label : SenderLabel)
    : Bool :=
  (senderStep spokeSite state label).all (heldOpen key row version)

theorem staysOpen_of_check {key : Value} {row : Record} {version : Nat} {label : SenderLabel}
    (check : keepsOpen key row version state label = true)
    : StaysOpen spokeSite key row version state label := by
  intro after taken
  rw [keepsOpen, taken, Option.all_some, heldOpen] at check
  split at check
  · rename_i stored held
    obtain ⟨rfl, rfl, isOpen⟩ := of_decide_eq_true check
    exact ⟨stored.standing, held, isOpen⟩
  · cases check

/-- A row that the hub refuses as busy stays past the stored watermark. -/
theorem presence_rows_offered_until_final_busy
    : ∃ state later,
        (presenceSends spokeSite).Reachable state
        ∧ (presenceSends spokeSite).ReachesUnder
          (StaysOpen spokeSite (.str "a") (heartbeatRow "a" 100000) 0) state later
        ∧ spokeSite.presenceWatermarkMs later.watermark = 99999
        ∧ Ahead spokeSite 0 later (.str "a") (heartbeatRow "a" 100000) 0 100000 := by
  have runs : (((presenceSends spokeSite).run noPresence [commitHeartbeat "a" 100000]).bind
      fun state => ((presenceSends spokeSite).runUnder
        (keepsOpen (.str "a") (heartbeatRow "a" 100000) 0) state
        (syncOne "a" 100000 [
          ("merged", .num 0),
          ("skipped", .num 1),
          ("refused", .arr [.obj [("table", .str "Presence"), ("id", .str "a"),
            ("reason", .str "merge_target_busy")]])])).map
        fun later => spokeSite.presenceWatermarkMs later.watermark)
      = some 99999 := by
    decide +kernel
  obtain ⟨state, committed, synced⟩ := Option.bind_eq_some_iff.mp runs
  obtain ⟨later, run, watermark⟩ := Option.map_eq_some_iff.mp synced
  have start : (presenceSends spokeSite).Reachable noPresence :=
    ⟨noPresence, noPresence_fresh, .refl⟩
  obtain ⟨next, taken, ends⟩ := Option.bind_eq_some_iff.mp committed
  obtain rfl := Option.some.inj ends
  have reached := start.next _ taken
  have ahead : Ahead spokeSite 0 next (.str "a") (heartbeatRow "a" 100000) 0 100000 :=
    (presence_rows_offered_until_final start).2.2 0 _ _ _ _ taken (by decide)
      (by decide +kernel) (by decide +kernel) (by decide) (by decide +kernel) trivial
  have open_run := (System.reachesUnder_of_runUnder run).mono
    fun _ _ check => staysOpen_of_check check
  refine ⟨next, later, reached, open_run, watermark, ?_⟩
  exact ((presence_rows_offered_until_final reached).2.1 0 _ _ _ _ (le_refl 0) (by decide)
    ahead later open_run).1

/-- A heartbeat written more than the overlap behind a watermark that another row has moved:
the hub has never answered it, and no later scan selects it.
-/
theorem late_row_never_offered
    : ∃ state stored,
        (presenceSends spokeSite).Reachable state
        ∧ state.table.get (.str "b") = some stored ∧ stored.standing = .unanswered
        ∧ spokeSite.isHome stored.row = true ∧ (spokeSite.presenceWireRecord stored.row).isSome
        ∧ spokeSite.presenceCursorMs stored.row = some 60000
        ∧ spokeSite.presenceWatermarkMs state.watermark = 100000
        ∧ spokeSite.selectPresenceRowsToSend [stored.row]
            (spokeSite.scanFloor 130000 state.watermark) = [] := by
  have runs : ((presenceSends spokeSite).run noPresence
      ([commitHeartbeat "a" 100000]
        ++ syncOne "a" 100000 [("merged", .num 1), ("skipped", .num 0)]
        ++ [commitHeartbeat "b" 60000])).map
        (fun state => (state.table.get (.str "b"), state.watermark))
      = some (some { row := heartbeatRow "b" 60000, version := 1, standing := .unanswered },
        some (.str "1970-01-01T00:01:40.000Z")) := by
    decide +kernel
  obtain ⟨state, run, seen⟩ := Option.map_eq_some_iff.mp runs
  obtain ⟨held, watermark⟩ := Prod.mk.inj seen
  refine ⟨state, _, System.reachable_of_run noPresence_fresh run, held, rfl, ?_⟩
  rw [watermark]
  decide

end Flair.Federation
