import Flair.Foundations.CanonicalJson

/-! The comparison of the Memory id sets that several nodes report, each node against the union
of the other usable readings. Follows `src/memory-node-compare.ts`.
-/

namespace Flair.Integrity

open Dynamic

-- Readings

/-- One row's id and stored timestamp text. -/
structure NodeRowTime where
  id : String
  writeTime : Option String

inductive NodeReading where
  | read (node : String) (rows : List NodeRowTime)
  | failed (node reason : String)

/-- `Date.parse`, where none is `NaN`, and `toISOString`. -/
structure DateText where
  parse : String → Option Int
  iso : Int → String

/-- What the comparison uses of a usable reading. -/
structure NodeTimes where
  idSet : Finset String
  timeById : String → Option Int
  newestMs : Option Int

/-- A reading with its usable content, or why it has none; no row count is "UNAVAILABLE". -/
structure Prepared where
  node : String
  rowCount : Option Nat
  times : Except String NodeTimes

def parseWriteTime (dates : DateText) (value : Option String) : Option Int :=
  value.bind fun text => if text = "" then none else dates.parse text

def later (latest : Option Int) (ms : Int) : Option Int :=
  some (latest.elim ms fun held => max held ms)

def addRow (dates : DateText) (times : NodeTimes) (row : NodeRowTime) : Except String NodeTimes :=
  match parseWriteTime dates row.writeTime with
  | none => .error ("row " ++ row.id ++ " has no usable stored timestamp")
  | some ms => .ok {
      idSet := insert row.id times.idSet
      timeById := Function.update times.timeById row.id (some ms)
      newestMs := later times.newestMs ms }

def noTimes : NodeTimes := ⟨∅, fun _ => none, none⟩

def prepare (dates : DateText) : NodeReading → Prepared
  | .failed node reason => ⟨node, none, .error reason⟩
  | .read node rows => ⟨node, some rows.length, rows.foldlM (addRow dates) noTimes⟩

-- Verdicts

inductive NodeClass where
  | inSync | lagging | divergent | unknown
deriving DecidableEq

inductive CompareNodesVerdict where
  | healthy | lagging | divergent | unknown
deriving DecidableEq

structure NodeIdSample where
  count : Nat
  sample : List String

/-- `NODE_ID_SAMPLE_LIMIT` is 10. -/
def sample (ids : Finset String) : NodeIdSample := ⟨ids.card, (ids.sort textLe).take 10⟩

/-- No sample is "UNAVAILABLE"; of the newest write, the inner none is null. -/
structure NodeVerdict where
  node : String
  verdict : NodeClass
  reason : Option String
  rowCount : Option Nat
  newestWrite : Option (Option String)
  missing : Option NodeIdSample
  extra : Option NodeIdSample

def union (peers : List NodeTimes) : Finset String :=
  peers.foldl (fun ids peer => ids ∪ peer.idSet) ∅

def latestOf (peers : List NodeTimes) (id : String) : Option Int :=
  (peers.filterMap fun peer => if id ∈ peer.idSet then peer.timeById id else none).max?

def classify (own : NodeTimes) (peers : List NodeTimes) : NodeClass × Option String :=
  let missing := union peers \ own.idSet
  if peers.isEmpty then (.unknown, some "no usable peer to compare against")
  else if own.idSet \ union peers ≠ ∅ then (.divergent, none)
  else if missing = ∅ then (.inSync, none)
  else
    match own.newestMs with
    | none => (.unknown, some ("missing " ++ toString missing.card
        ++ " id(s) but reports no stored timestamp to compare against"))
    | some newest =>
      if missing.filter (fun id => (latestOf peers id).any fun latest => latest ≤ newest) ≠ ∅ then
        (.divergent, none)
      else (.lagging, none)

def nodeVerdict (dates : DateText) (reading : Prepared) (peers : List NodeTimes) : NodeVerdict :=
  match reading.times with
  | .error reason => ⟨reading.node, .unknown, some reason, reading.rowCount, none, none, none⟩
  | .ok own =>
    let found := classify own peers
    let shown (ids : Finset String) := if peers.isEmpty then none else some (sample ids)
    ⟨reading.node, found.1, found.2, reading.rowCount, some (own.newestMs.map dates.iso),
      shown (union peers \ own.idSet), shown (own.idSet \ union peers)⟩

def peersAt (prepared : List Prepared) (place : Nat) : List NodeTimes :=
  (prepared.eraseIdx place).filterMap fun other => other.times.toOption

structure CompareNodesResult where
  verdict : CompareNodesVerdict
  nodes : List NodeVerdict
  detail : String

def overall (classes : List NodeClass) : CompareNodesVerdict :=
  if .unknown ∈ classes then .unknown
  else if .divergent ∈ classes then .divergent
  else if .lagging ∈ classes then .lagging
  else .healthy

def NodeClass.text : NodeClass → String
  | inSync => "in-sync"
  | lagging => "lagging"
  | divergent => "divergent"
  | unknown => "unknown"

def detail (classes : List NodeClass) : String :=
  let counted := [.inSync, .lagging, .divergent, .unknown].filter fun one : NodeClass =>
    one ∈ classes
  let counts := ", ".intercalate (counted.map fun one =>
    toString (classes.count one) ++ " " ++ one.text)
  match overall classes with
  | .healthy => "healthy — all " ++ toString classes.length
      ++ " node(s) have the same observed Memory ids"
  | .lagging => "lagging — " ++ counts
  | .divergent => "divergent — " ++ counts
  | .unknown => "unknown — " ++ counts

def classifyNodeSets (dates : DateText) (readings : List NodeReading)
    : Except String CompareNodesResult :=
  if readings.length < 2 then .error "compare-nodes needs at least two nodes to compare"
  else
    let prepared := readings.map (prepare dates)
    let nodes := prepared.mapIdx fun place reading =>
      nodeVerdict dates reading (peersAt prepared place)
    let classes := nodes.map NodeVerdict.verdict
    .ok ⟨overall classes, nodes, detail classes⟩

-- What a reading holds

theorem mem_union {peers : List NodeTimes} {id : String}
    : id ∈ union peers ↔ ∃ peer ∈ peers, id ∈ peer.idSet := by
  have step (start : Finset String)
      : id ∈ peers.foldl (fun ids peer => ids ∪ peer.idSet) start
        ↔ id ∈ start ∨ ∃ peer ∈ peers, id ∈ peer.idSet := by
    induction peers generalizing start with
    | nil => simp
    | cons peer rest ih => simp [ih, or_assoc]
  simpa [union] using step ∅

theorem later_comm (latest : Option Int) (first second : Int)
    : later (later latest first) second = later (later latest second) first := by
  cases latest with
  | none => simp [later, max_comm]
  | some held => simp [later, max_right_comm]

theorem mem_heldTimes {peers : List NodeTimes} {id : String} {ms : Int}
    : (ms ∈ peers.filterMap fun peer => if id ∈ peer.idSet then peer.timeById id else none)
      ↔ ∃ peer ∈ peers, id ∈ peer.idSet ∧ peer.timeById id = some ms := by
  simp only [List.mem_filterMap, Option.ite_none_right_eq_some]

def Consistent (dates : DateText) (rows : List NodeRowTime) : Prop :=
  ∀ row ∈ rows, ∀ other ∈ rows, row.id = other.id
    → parseWriteTime dates row.writeTime = parseWriteTime dates other.writeTime

theorem addRow_comm {dates : DateText} {first second : NodeRowTime}
    (same : first.id = second.id
      → parseWriteTime dates first.writeTime = parseWriteTime dates second.writeTime)
    (times : NodeTimes)
    : (addRow dates times first >>= fun next => addRow dates next second).toOption
      = (addRow dates times second >>= fun next => addRow dates next first).toOption := by
  unfold addRow
  cases firstTime : parseWriteTime dates first.writeTime with
  | none => cases parseWriteTime dates second.writeTime <;> rfl
  | some ms =>
    cases secondTime : parseWriteTime dates second.writeTime with
    | none => rfl
    | some other =>
      change some (NodeTimes.mk _ _ _) = some (NodeTimes.mk _ _ _)
      rw [Finset.insert_comm, later_comm]
      by_cases one : first.id = second.id
      · rw [firstTime, secondTime] at same
        rw [one, Option.some.inj (same one)]
      · rw [Function.update_comm one]

theorem toOption_bind {α β ε : Type} (first : Except ε α) (next : α → Except ε β)
    : (first >>= next).toOption = first.toOption.bind fun value => (next value).toOption := by
  cases first <;> rfl

theorem foldlM_addRow_perm {dates : DateText} {rows reordered : List NodeRowTime}
    (h : rows.Perm reordered) (consistent : Consistent dates rows) (start : NodeTimes)
    : (rows.foldlM (addRow dates) start).toOption
      = (reordered.foldlM (addRow dates) start).toOption := by
  induction h generalizing start with
  | nil => rfl
  | cons row perm ih =>
    rw [List.foldlM_cons, List.foldlM_cons]
    cases added : addRow dates start row with
    | error => rfl
    | ok next =>
      exact ih (fun row member other also => consistent row (List.mem_cons_of_mem _ member)
        other (List.mem_cons_of_mem _ also)) next
  | swap first second rest =>
    have both := addRow_comm (consistent second (by simp) first (by simp)) start
    simp only [List.foldlM_cons, ← bind_assoc]
    rw [toOption_bind, both, ← toOption_bind]
  | trans perm _ ih more =>
    refine (ih consistent start).trans (more ?_ start)
    intro row member other also
    exact consistent row (perm.mem_iff.mpr member) other (perm.mem_iff.mpr also)

def Usable (dates : DateText) : NodeReading → Prop
  | .read _ rows => ∀ row ∈ rows, (parseWriteTime dates row.writeTime).isSome
  | .failed _ _ => False

def NodeReading.ids : NodeReading → Finset String
  | .read _ rows => (rows.map NodeRowTime.id).toFinset
  | .failed _ _ => ∅

def contentOf (dates : DateText) (reading : NodeReading) : Option NodeTimes :=
  (prepare dates reading).times.toOption

def NodeTimes.Timed (times : NodeTimes) : Prop := ∀ id ∈ times.idSet, (times.timeById id).isSome

theorem foldlM_addRow_eq_some {dates : DateText} {rows : List NodeRowTime} {start times : NodeTimes}
    (h : (rows.foldlM (addRow dates) start).toOption = some times) (timed : start.Timed)
    : (∀ row ∈ rows, (parseWriteTime dates row.writeTime).isSome) ∧ times.Timed
      ∧ times.idSet = start.idSet ∪ (rows.map NodeRowTime.id).toFinset := by
  induction rows generalizing start with
  | nil =>
    cases Option.some.inj h
    exact ⟨nofun, timed, by simp⟩
  | cons row rest ih =>
    rw [List.foldlM_cons, toOption_bind, addRow] at h
    cases time : parseWriteTime dates row.writeTime with
    | none =>
      rw [time] at h
      cases h
    | some ms =>
      rw [time] at h
      obtain ⟨parsed, known, ids⟩ := ih h (by
        intro id held
        by_cases same : id = row.id
        · simp [same]
        · simpa [same] using timed id (by simpa [same] using held))
      refine ⟨List.forall_mem_cons.mpr ⟨by simp [time], parsed⟩, known, ?_⟩
      simp [ids, Finset.insert_union, Finset.union_insert]

theorem isSome_foldlM_addRow {dates : DateText} {rows : List NodeRowTime}
    (parsed : ∀ row ∈ rows, (parseWriteTime dates row.writeTime).isSome) (start : NodeTimes)
    : (rows.foldlM (addRow dates) start).toOption.isSome := by
  induction rows generalizing start with
  | nil => rfl
  | cons row rest ih =>
    obtain ⟨first, others⟩ := List.forall_mem_cons.mp parsed
    obtain ⟨ms, time⟩ := Option.isSome_iff_exists.mp first
    rw [List.foldlM_cons, toOption_bind, addRow, time]
    exact ih others _

theorem contentOf_eq_some {dates : DateText} {reading : NodeReading} {times : NodeTimes}
    (h : contentOf dates reading = some times)
    : Usable dates reading ∧ times.Timed ∧ times.idSet = reading.ids := by
  cases reading with
  | failed node reason => cases h
  | read node rows =>
    obtain ⟨parsed, timed, ids⟩ := foldlM_addRow_eq_some h (by simp [NodeTimes.Timed, noTimes])
    exact ⟨parsed, timed, by simpa [noTimes, NodeReading.ids] using ids⟩

theorem isSome_contentOf {dates : DateText} {reading : NodeReading}
    : (contentOf dates reading).isSome ↔ Usable dates reading := by
  constructor
  · intro held
    obtain ⟨times, content⟩ := Option.isSome_iff_exists.mp held
    exact (contentOf_eq_some content).1
  · cases reading with
    | failed node reason => exact False.elim
    | read node rows => exact fun parsed => isSome_foldlM_addRow parsed noTimes

-- The classes of all nodes

theorem classify_perm {peers reordered : List NodeTimes} (h : peers.Perm reordered)
    (own : NodeTimes)
    : classify own peers = classify own reordered := by
  have ids : union peers = union reordered := by
    ext id
    rw [mem_union, mem_union]
    exact exists_congr fun peer => and_congr_left' h.mem_iff
  have latest : latestOf peers = latestOf reordered := by
    funext id
    refine Option.ext fun ms => ?_
    rw [latestOf, latestOf, List.max?_eq_some_iff, List.max?_eq_some_iff]
    simp only [(h.filterMap _).mem_iff]
  simp only [classify, ids, latest, h.isEmpty_eq]

theorem classify_eq_inSync {own : NodeTimes} {peers : List NodeTimes}
    : (classify own peers).1 = .inSync ↔ peers ≠ [] ∧ own.idSet = union peers := by
  have sets : own.idSet = union peers
      ↔ own.idSet \ union peers = ∅ ∧ union peers \ own.idSet = ∅ := by
    rw [Finset.sdiff_eq_empty_iff_subset, Finset.sdiff_eq_empty_iff_subset,
      Finset.Subset.antisymm_iff]
  have nonempty : peers ≠ [] ↔ ¬ peers.isEmpty = true := by simp
  rw [sets, nonempty, classify]
  split
  · simp_all
  split
  · simp_all
  split
  · simp_all
  split
  · simp_all
  · split <;> simp_all

def classOf (content : Option NodeTimes) (peers : List NodeTimes) : NodeClass :=
  content.elim .unknown fun own => (classify own peers).1

def peersOf (contents : List (Option NodeTimes)) (place : Nat) : List NodeTimes :=
  (contents.eraseIdx place).filterMap id

def classesOf (contents : List (Option NodeTimes)) : List NodeClass :=
  contents.mapIdx fun place content => classOf content (peersOf contents place)

theorem classesOf_readings (dates : DateText) (readings : List NodeReading)
    : ((readings.map (prepare dates)).mapIdx fun place reading =>
        nodeVerdict dates reading (peersAt (readings.map (prepare dates)) place)).map
          NodeVerdict.verdict
      = classesOf (readings.map (contentOf dates)) := by
  have peers (place : Nat) : peersAt (readings.map (prepare dates)) place
      = peersOf (readings.map (contentOf dates)) place := by
    simp only [peersAt, peersOf, List.eraseIdx_map, List.filterMap_map]
    rfl
  refine List.ext_getElem? fun place => ?_
  simp only [classesOf, List.getElem?_map, List.getElem?_mapIdx, Option.map_map, peers]
  cases readings[place]? with
  | none => rfl
  | some reading =>
    refine congrArg some ?_
    simp only [Function.comp_apply, nodeVerdict, contentOf, classOf]
    cases (prepare dates reading).times <;> rfl

theorem exists_classIn (all : List (Option NodeTimes))
    : ∃ classIn : Option NodeTimes → NodeClass, ∀ contents : List (Option NodeTimes),
      contents.Perm all → classesOf contents = contents.map classIn := by
  classical
  refine ⟨fun content => if others : ∃ rest, (content :: rest).Perm all
    then classOf content (others.choose.filterMap id) else .unknown, fun contents perm => ?_⟩
  refine List.ext_getElem (by simp [classesOf]) fun place inside _ => ?_
  have held : place < contents.length := by simpa [classesOf] using inside
  have others : ∃ rest, (contents[place] :: rest).Perm all :=
    ⟨_, (List.getElem_cons_eraseIdx_perm held).trans perm⟩
  have rest : (contents.eraseIdx place).Perm others.choose :=
    ((List.getElem_cons_eraseIdx_perm held).trans
      (perm.trans others.choose_spec.symm)).cons_inv
  rw [List.getElem_map, dif_pos others]
  simp only [classesOf, List.getElem_mapIdx, peersOf]
  have same (content : Option NodeTimes) : classOf content ((contents.eraseIdx place).filterMap id)
      = classOf content (others.choose.filterMap id) := by
    cases content with
    | none => rfl
    | some own => exact congrArg Prod.fst (classify_perm (rest.filterMap id) own)
  exact same _

theorem overall_eq_healthy {classes : List NodeClass}
    : overall classes = .healthy ↔ ∀ one ∈ classes, one = .inSync := by
  constructor
  · intro healthy one member
    unfold overall at healthy
    split_ifs at healthy with unknown divergent lagging
    cases one with
    | inSync => rfl
    | lagging => exact absurd member lagging
    | divergent => exact absurd member divergent
    | unknown => exact absurd member unknown
  · intro all
    have absent (other : NodeClass) (apart : other ≠ .inSync) : other ∉ classes :=
      fun member => apart (all other member)
    rw [overall, if_neg (absent .unknown nofun), if_neg (absent .divergent nofun),
      if_neg (absent .lagging nofun)]

theorem mem_peersOf {contents : List (Option NodeTimes)} {place : Nat} {peer : NodeTimes}
    : peer ∈ peersOf contents place ↔ ∃ other ≠ place, contents[other]? = some (some peer) := by
  simp [peersOf, List.mem_filterMap, List.mem_eraseIdx_iff_getElem?]

theorem getElem?_classesOf {contents : List (Option NodeTimes)} {place : Nat}
    : (classesOf contents)[place]?
      = contents[place]?.map fun content => classOf content (peersOf contents place) := by
  rw [classesOf, List.getElem?_mapIdx]

/-- All nodes are in sync exactly when all contents are usable and hold the same ids: each set is
the union of the others, so any two contain each other.
-/
theorem classesOf_inSync {contents : List (Option NodeTimes)} (two : 2 ≤ contents.length)
    : (∀ one ∈ classesOf contents, one = .inSync)
      ↔ ∃ ids, ∀ content ∈ contents, ∃ own, content = some own ∧ own.idSet = ids := by
  constructor
  · intro all
    have each {place : Nat} {content : Option NodeTimes} (held : contents[place]? = some content)
        : ∃ own, content = some own ∧ own.idSet = union (peersOf contents place) := by
      have one := all _ (List.mem_of_getElem? (by rw [getElem?_classesOf, held]; rfl))
      cases content with
      | none => cases one
      | some own => exact ⟨own, rfl, (classify_eq_inSync.mp one).2⟩
    have inside {first second : Nat} {own other : NodeTimes}
        (ownHeld : contents[first]? = some (some own))
        (otherHeld : contents[second]? = some (some other))
        : other.idSet ⊆ own.idSet := by
      by_cases same : second = first
      · rw [same, ownHeld] at otherHeld
        cases otherHeld
        exact Finset.Subset.refl _
      · obtain ⟨_, ⟨⟩, union_eq⟩ := each ownHeld
        rw [union_eq]
        exact fun id member =>
          mem_union.mpr ⟨other, mem_peersOf.mpr ⟨second, same, otherHeld⟩, member⟩
    have head : contents[0]? = some contents[0] := List.getElem?_eq_getElem (by omega)
    obtain ⟨own, ownHead, -⟩ := each head
    rw [ownHead] at head
    refine ⟨own.idSet, fun content member => ?_⟩
    obtain ⟨place, held⟩ := List.mem_iff_getElem?.mp member
    obtain ⟨other, rfl, -⟩ := each held
    exact ⟨other, rfl, Finset.Subset.antisymm (inside head held) (inside held head)⟩
  · rintro ⟨ids, all⟩ one member
    obtain ⟨place, held⟩ := List.mem_iff_getElem?.mp member
    rw [getElem?_classesOf] at held
    obtain ⟨content, found, rfl⟩ := Option.map_eq_some_iff.mp held
    obtain ⟨own, rfl, own_ids⟩ := all content (List.mem_of_getElem? found)
    have peers_ids : ∀ peer ∈ peersOf contents place, peer.idSet = ids := by
      intro peer listed
      obtain ⟨other, -, there⟩ := mem_peersOf.mp listed
      obtain ⟨_, same, peer_ids⟩ := all _ (List.mem_of_getElem? there)
      exact Option.some.inj same ▸ peer_ids
    obtain ⟨peer, listed⟩ : ∃ peer, peer ∈ peersOf contents place := by
      obtain ⟨other, apart, small⟩ : ∃ other ≠ place, other < contents.length :=
        ⟨if place = 0 then 1 else 0, by split <;> omega, by split <;> omega⟩
      obtain ⟨peer, usable, -⟩ := all _ (List.getElem_mem small)
      exact ⟨peer, mem_peersOf.mpr ⟨other, apart, by rw [List.getElem?_eq_getElem small, usable]⟩⟩
    refine classify_eq_inSync.mpr ⟨List.ne_nil_of_mem listed, ?_⟩
    ext id
    rw [mem_union, own_ids]
    exact ⟨fun here => ⟨peer, listed, (peers_ids peer listed).symm ▸ here⟩,
      fun ⟨other, also, here⟩ => peers_ids other also ▸ here⟩

theorem later_of_classify {own : NodeTimes} {peers : List NodeTimes}
    (timed : ∀ peer ∈ peers, peer.Timed)
    (h : (classify own peers).1 = .inSync ∨ (classify own peers).1 = .lagging) {id : String}
    (lacked : id ∉ own.idSet) (held : ∃ peer ∈ peers, id ∈ peer.idSet)
    : ∃ newest, own.newestMs = some newest
      ∧ ∃ peer ∈ peers, id ∈ peer.idSet ∧ ∃ ms, peer.timeById id = some ms ∧ newest < ms := by
  have missing : id ∈ union peers \ own.idSet := Finset.mem_sdiff.mpr ⟨mem_union.mpr held, lacked⟩
  rcases h with synced | lagging
  · obtain ⟨-, same⟩ := classify_eq_inSync.mp synced
    exact absurd (same ▸ mem_union.mpr held) lacked
  dsimp only [classify] at lagging
  split at lagging
  · cases lagging
  split at lagging
  · cases lagging
  split at lagging
  · cases lagging
  split at lagging
  · cases lagging
  rename_i newest newestHeld
  split at lagging
  · cases lagging
  rename_i older
  obtain ⟨peer, listed, holds⟩ := held
  obtain ⟨ms, time⟩ := Option.isSome_iff_exists.mp (timed peer listed id holds)
  have some_time := List.ne_nil_of_mem (mem_heldTimes.mpr ⟨peer, listed, holds, time⟩)
  obtain ⟨latest, found⟩ := Option.isSome_iff_exists.mp (List.isSome_max?_iff.mpr some_time)
  obtain ⟨last, also, holdsLast, timeLast⟩ := mem_heldTimes.mp (List.max?_mem found)
  refine ⟨newest, newestHeld, last, also, holdsLast, latest, timeLast, ?_⟩
  by_contra early
  refine older (Finset.ne_empty_of_mem (Finset.mem_filter.mpr ⟨missing, ?_⟩))
  rw [latestOf, found]
  simpa using early

-- The result

inductive RowsReordered (dates : DateText) : NodeReading → NodeReading → Prop where
  | failed (node reason : String) : RowsReordered dates (.failed node reason) (.failed node reason)
  | read (node : String) {rows reordered : List NodeRowTime} (consistent : Consistent dates rows)
      (perm : rows.Perm reordered)
      : RowsReordered dates (.read node rows) (.read node reordered)

theorem contentOf_reordered {dates : DateText} {reading other : NodeReading}
    (h : RowsReordered dates reading other)
    : contentOf dates other = contentOf dates reading := by
  cases h with
  | failed => rfl
  | read node consistent perm => exact (foldlM_addRow_perm perm consistent noTimes).symm

theorem map_contentOf_reordered {dates : DateText} {readings reordered : List NodeReading}
    (h : List.Forall₂ (RowsReordered dates) readings reordered)
    : reordered.map (contentOf dates) = readings.map (contentOf dates) := by
  induction h with
  | nil => rfl
  | cons first rest ih => rw [List.map_cons, List.map_cons, contentOf_reordered first, ih]

def CompareNodesResult.classes (result : CompareNodesResult) : List NodeClass :=
  result.nodes.map NodeVerdict.verdict

theorem classifyNodeSets_eq {dates : DateText} {readings : List NodeReading}
    (two : 2 ≤ readings.length)
    : ∃ result, classifyNodeSets dates readings = .ok result
      ∧ result.classes = classesOf (readings.map (contentOf dates))
      ∧ result.verdict = overall result.classes := by
  rw [classifyNodeSets, if_neg (by omega)]
  exact ⟨_, rfl, classesOf_readings dates readings, rfl⟩

theorem overall_perm {classes reordered : List NodeClass} (h : classes.Perm reordered)
    : overall classes = overall reordered := by
  simp only [overall, h.mem_iff]

/-- Healthy is answered exactly for usable readings of one id set; a node is in sync or lagging
only if each id it lacks is newer in some usable peer than all the node holds; and the order of
the readings, and of rows with one time for each id, changes no class.
-/
theorem node_comparison_exact (dates : DateText) {readings : List NodeReading}
    (two : 2 ≤ readings.length)
    : ∃ result, classifyNodeSets dates readings = .ok result
      ∧ (result.verdict = .healthy ↔ (∀ reading ∈ readings, Usable dates reading)
        ∧ ∀ reading ∈ readings, ∀ other ∈ readings, reading.ids = other.ids)
      ∧ (∀ place own one, (readings.map (contentOf dates))[place]? = some (some own)
        → result.classes[place]? = some one → one = .inSync ∨ one = .lagging
        → ∀ id ∉ own.idSet,
          (∃ peer ∈ peersOf (readings.map (contentOf dates)) place, id ∈ peer.idSet)
          → ∃ newest, own.newestMs = some newest
            ∧ ∃ peer ∈ peersOf (readings.map (contentOf dates)) place,
              id ∈ peer.idSet ∧ ∃ ms, peer.timeById id = some ms ∧ newest < ms)
      ∧ (∀ reordered, readings.Perm reordered
        → ∃ other, classifyNodeSets dates reordered = .ok other ∧ other.verdict = result.verdict
          ∧ (reordered.zip other.classes).Perm (readings.zip result.classes))
      ∧ ∀ reordered, List.Forall₂ (RowsReordered dates) readings reordered
        → ∃ other, classifyNodeSets dates reordered = .ok other ∧ other.verdict = result.verdict
          ∧ other.classes = result.classes := by
  obtain ⟨result, ran, classes, verdict⟩ := @classifyNodeSets_eq dates _ two
  refine ⟨result, ran, ?_, ?_, ?_, ?_⟩
  · rw [verdict, classes, overall_eq_healthy, classesOf_inSync (by simpa using two)]
    constructor
    · rintro ⟨ids, all⟩
      have each : ∀ reading ∈ readings, Usable dates reading ∧ reading.ids = ids := by
        intro reading listed
        obtain ⟨own, content, own_ids⟩ := all _ (List.mem_map_of_mem listed)
        obtain ⟨usable, -, same⟩ := contentOf_eq_some content
        exact ⟨usable, same.symm.trans own_ids⟩
      exact ⟨fun reading listed => (each reading listed).1, fun reading listed other also =>
        (each reading listed).2.trans (each other also).2.symm⟩
    · rintro ⟨usable, same⟩
      have first : readings[0] ∈ readings := List.getElem_mem (by omega)
      refine ⟨readings[0].ids, fun content member => ?_⟩
      obtain ⟨reading, listed, rfl⟩ := List.mem_map.mp member
      obtain ⟨own, content⟩ := Option.isSome_iff_exists.mp (isSome_contentOf.mpr (usable _ listed))
      exact ⟨own, content, (contentOf_eq_some content).2.2.trans (same _ listed _ first)⟩
  · intro place own one held found fine id lacked holds
    rw [classes, getElem?_classesOf, held] at found
    cases found
    refine later_of_classify ?_ fine lacked holds
    intro peer listed
    obtain ⟨other, -, there⟩ := mem_peersOf.mp listed
    obtain ⟨reading, -, content⟩ := List.mem_map.mp (List.mem_of_getElem? there)
    exact (contentOf_eq_some content).2.1
  · intro reordered perm
    obtain ⟨other, ranOther, classesOther, verdictOther⟩ :=
      @classifyNodeSets_eq dates _ (perm.length_eq ▸ two)
    obtain ⟨classIn, each⟩ := exists_classIn (readings.map (contentOf dates))
    have left := each _ (.refl _)
    have right := each _ (perm.symm.map (contentOf dates))
    rw [← classes] at left
    rw [← classesOther] at right
    refine ⟨other, ranOther, ?_, ?_⟩
    · rw [verdict, verdictOther, left, right]
      exact overall_perm ((perm.symm.map _).map _)
    · rw [left, right, List.map_map, List.map_map, ← List.map_prod_left_eq_zip,
        ← List.map_prod_left_eq_zip]
      exact perm.symm.map _
  · intro reordered same
    obtain ⟨other, ranOther, classesOther, verdictOther⟩ :=
      @classifyNodeSets_eq dates _ (same.length_eq ▸ two)
    have equal : other.classes = result.classes := by
      rw [classesOther, map_contentOf_reordered same, classes]
    exact ⟨other, ranOther, by rw [verdictOther, verdict, equal], equal⟩

-- Three nodes

def january : DateText where
  parse text := [("2026-01-01T00:00:00.000Z", 1767225600000),
    ("2026-01-02T00:00:00.000Z", 1767312000000),
    ("2026-01-03T00:00:00.000Z", 1767398400000)].lookup text
  iso _ := "2026-01-01T00:00:00.000Z"

def early : NodeRowTime := ⟨"note", some "2026-01-01T00:00:00.000Z"⟩

def late : NodeRowTime := ⟨"note", some "2026-01-03T00:00:00.000Z"⟩

def shared : NodeRowTime := ⟨"plan", some "2026-01-02T00:00:00.000Z"⟩

def threeNodes : List NodeReading :=
  [.read "a" [shared], .read "b" [shared, early], .read "c" [shared, late]]

theorem threeNodes_compared
    : 2 ≤ threeNodes.length ∧ ∃ result, classifyNodeSets january threeNodes = .ok result :=
  ⟨by decide, (node_comparison_exact january (by decide)).imp fun _ compared => compared.1⟩

/-- A node that lacks an id is lagging though one peer holds the id at an earlier time, and rows of
one id in another order change a class.
-/
theorem comparison_not_exact
    : (¬ ∀ dates readings result place own one, classifyNodeSets dates readings = .ok result
        → (readings.map (contentOf dates))[place]? = some (some own)
        → result.classes[place]? = some one → one = .inSync ∨ one = .lagging
        → ∀ id ∉ own.idSet, ∀ peer ∈ peersOf (readings.map (contentOf dates)) place,
          ∀ ms newest, peer.timeById id = some ms → own.newestMs = some newest → newest < ms)
      ∧ ¬ ∀ dates node first (rows reordered : List NodeRowTime) result other,
        rows.Perm reordered → classifyNodeSets dates [first, .read node rows] = .ok result
        → classifyNodeSets dates [first, .read node reordered] = .ok other
        → other.classes = result.classes := by
  constructor
  · intro all
    obtain ⟨result, ran, classes, -⟩ := @classifyNodeSets_eq january threeNodes (by decide)
    have lagging : result.classes[0]? = some .lagging := by
      rw [classes]
      decide
    obtain ⟨peer, held⟩ : ∃ peer, contentOf january (.read "b" [shared, early]) = some peer :=
      ⟨_, rfl⟩
    have time : peer.timeById "note" = some 1767225600000 ∧ "note" ∈ peer.idSet := by
      cases held
      decide
    have listed : peer ∈ peersOf (threeNodes.map (contentOf january)) 0 :=
      mem_peersOf.mpr ⟨1, by decide, congrArg some held⟩
    have later := all january threeNodes result 0 _ .lagging ran rfl lagging (Or.inr rfl) "note"
      (by decide) peer listed _ 1767312000000 time.1 rfl
    exact absurd later (by decide)
  · intro all
    obtain ⟨result, ran, classes, -⟩ := @classifyNodeSets_eq january
      [.read "a" [shared], .read "b" [shared, early, late]] (by decide)
    obtain ⟨other, ranOther, classesOther, -⟩ := @classifyNodeSets_eq january
      [.read "a" [shared], .read "b" [shared, late, early]] (by decide)
    have same := all january "b" _ _ _ result other ((List.Perm.swap late early []).cons shared)
      ran ranOther
    rw [classes, classesOther] at same
    revert same
    decide

end Flair.Integrity
