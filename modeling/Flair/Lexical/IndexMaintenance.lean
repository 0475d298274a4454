import Flair.Lexical.IndexStructure

/-! Upserts, removals and sweeps keep the index holding exactly its contents, and no
document past the sweep is still counted.
-/

namespace Flair.Lexical

open Dynamic InsertionMap

variable {engine : Engine} {index : Bm25Index} {contents : IndexContents}

/-- Every document the aggregates count has a bound that has not been swept past. -/
def UpToDate (index : Bm25Index) : Prop :=
  ∀ slot entry expiry, activeAt index.slots index.retired slot = some entry
    → entry.expiry = some expiry → index.sweptTo ≤ expiry

-- Bodies and compaction

variable {id : String} {record : IndexRecord}

theorem Represents.rememberBody (h : Represents engine index contents) {content : String}
    (held : contents id = some record) (text : recordText record = content)
    : Represents engine (index.rememberBody id content) contents := by
  have bodies : BodiesHold contents (index.rememberBody id content).cachedBodies := by
    intro entry member
    rcases mem_rememberBody member with rfl | ⟨earlier, -⟩
    · exact ⟨record, held, text⟩
    · exact h.bodies entry earlier
  obtain ⟨kept, chars, same⟩ := rememberBody_eq index id content
  rw [same] at bodies ⊢
  exact ⟨h.slots, bodies, h.postings, h.aggregates, h.heap, h.retired⟩

theorem Represents.maybeCompact (h : Represents engine index contents)
    : Represents engine index.maybeCompact contents := by
  unfold Bm25Index.maybeCompact
  split
  · exact h
  · exact ⟨h.slots, h.bodies, h.postings.compacted h.slots, h.aggregates, h.heap, h.retired⟩

theorem UpToDate.maybeCompact (h : UpToDate index) : UpToDate index.maybeCompact := by
  unfold Bm25Index.maybeCompact
  split <;> exact h

-- Removal

theorem activeAt_update_erase (slots : Nat → Option Slot) (retired : Finset Nat)
    (slot other : Nat)
    : activeAt (Function.update slots slot none) (retired.erase slot) other
      = if other = slot then none else activeAt slots retired other := by
  unfold activeAt
  by_cases same : other = slot
  · simp [same]
  · simp [same, Finset.mem_erase]

def removal (engine : Engine) (index : Bm25Index) (id : String) (slot : Nat) (entry : Slot)
    (bodies : InsertionMap String String) (chars : Nat) : Bm25Index :=
  let counted := if slot ∈ index.retired then index else index.removeFromAggregates engine entry
  { index with
    slots := Function.update index.slots slot none
    slotOf := index.slotOf.delete id
    deadPostings := index.deadPostings + entry.nTerms
    partitions := counted.partitions
    facets := counted.facets
    retired := index.retired.erase slot
    cachedBodies := bodies
    cachedBodyChars := chars }

variable {slot : Nat} {entry : Slot}

theorem remove_eq (engine : Engine) (placed : index.slotOf.get id = some slot)
    (held : index.slots slot = some entry)
    : ∃ bodies chars, (∀ body ∈ bodies, body ∈ index.cachedBodies ∧ body.1 ≠ id)
        ∧ index.remove engine id
          = (removal engine index id slot entry bodies chars).maybeCompact := by
  have kept : ∀ body ∈ ({ index with slotOf := index.slotOf.delete id }.forgetBody id).cachedBodies,
      body ∈ index.cachedBodies ∧ body.1 ≠ id := by
    intro body member
    have forgotten := mem_forgetBody member
    exact forgotten
  obtain ⟨bodies, chars, same⟩ := forgetBody_eq { index with slotOf := index.slotOf.delete id } id
  rw [same] at kept
  refine ⟨bodies, chars, kept, ?_⟩
  unfold Bm25Index.remove
  simp only [placed, held, same]
  congr 1
  unfold removal
  split
  · rfl
  rename_i counted
  have whole : index.retired.erase slot = index.retired := Finset.erase_eq_of_notMem counted
  rw [whole]
  rfl

variable {bodies : InsertionMap String String} {chars : Nat}

theorem removal_represents (h : Represents engine index contents)
    (placed : index.slotOf.get id = some slot) (held : index.slots slot = some entry)
    (kept : ∀ body ∈ bodies, body ∈ index.cachedBodies ∧ body.1 ≠ id)
    : Represents engine (removal engine index id slot entry bodies chars)
        (contents.remove id) := by
  have inside := h.slots.inside slot entry held
  have changed := activeAt_update_erase index.slots index.retired slot
  have remains : ∀ other document,
      activeAt (Function.update index.slots slot none) (index.retired.erase slot) other
        = some document
      → activeAt index.slots index.retired other = some document := by
    intro other document active
    rw [changed other, Option.ite_none_left_eq_some] at active
    exact active.2
  refine ⟨h.slots.removed placed, ?_, h.postings.removed, ?_, ?_, ?_⟩
  · intro body member
    obtain ⟨earlier, apart⟩ := kept body member
    obtain ⟨other, holds, text⟩ := h.bodies body earlier
    exact ⟨other, by rw [remove_at, if_neg apart, holds], text⟩
  · unfold removal
    by_cases gone : slot ∈ index.retired
    · have same : activeAt (Function.update index.slots slot none) (index.retired.erase slot)
          = activeAt index.slots index.retired := by
        funext other
        rw [changed other]
        split
        · rename_i equal
          rw [equal, activeAt, if_pos gone]
        · rfl
      simp only [gone, if_true, same]
      exact h.aggregates
    · simp only [gone, if_false]
      apply h.aggregates.removed inside (activeAt_some.mpr ⟨gone, held⟩)
      · rw [changed slot, if_pos rfl]
      · intro other apart
        rw [changed other, if_neg apart]
  · refine ⟨h.heap.ordered, ?_⟩
    intro other document expiry active bound
    exact h.heap.covers other document expiry (remains other document active) bound
  · intro other member
    obtain ⟨apart, earlier⟩ := Finset.mem_erase.mp member
    obtain ⟨document, there, swept⟩ := h.retired other earlier
    exact ⟨document, (Function.update_of_ne apart _ _).trans there, swept⟩

theorem Represents.remove (h : Represents engine index contents) (id : String)
    : Represents engine (index.remove engine id) (contents.remove id) := by
  cases placed : index.slotOf.get id with
  | none =>
    have absent := h.slots.absent placed
    have same : contents.remove id = contents := by
      funext other
      rw [remove_at]
      split
      · rename_i equal
        rw [equal, absent]
      · rfl
    rw [same]
    unfold Bm25Index.remove
    rwa [placed]
  | some slot =>
    obtain ⟨record, known, held⟩ := h.slots.found id slot placed
    obtain ⟨bodies, chars, kept, removed⟩ := remove_eq engine placed held
    rw [removed]
    exact (removal_represents h placed held kept).maybeCompact

theorem UpToDate.remove (current : UpToDate index) (h : Represents engine index contents)
    (id : String)
    : UpToDate (index.remove engine id) := by
  cases placed : index.slotOf.get id with
  | none =>
    unfold Bm25Index.remove
    rwa [placed]
  | some slot =>
    obtain ⟨record, known, held⟩ := h.slots.found id slot placed
    obtain ⟨bodies, chars, -, removed⟩ := remove_eq engine placed held
    rw [removed]
    apply UpToDate.maybeCompact
    intro other document expiry active bound
    have before := (activeAt_update_erase index.slots index.retired slot other).symm.trans active
    rw [Option.ite_none_left_eq_some] at before
    exact current other document expiry before.2 bound

-- Admission

theorem PostingsHold.nextSlot {slotOf : InsertionMap String Nat}
    {postings : InsertionMap String (List (Nat × Nat))}
    (h : PostingsHold contents index.slots index.slotCount slotOf index.freeSlots postings)
    : (index.nextSlot ∈ index.freeSlots ∨ index.slotCount ≤ index.nextSlot)
      ∧ (∀ other ∈ index.freeSlots.tail, other ∈ index.freeSlots ∧ other ≠ index.nextSlot)
      ∧ index.freeSlots.tail.Nodup := by
  have once := h.freeOnce
  unfold Bm25Index.nextSlot
  generalize index.freeSlots = free at once
  cases free with
  | nil => simp
  | cons first rest =>
    obtain ⟨fresh, later⟩ := List.nodup_cons.mp once
    refine ⟨Or.inl (by simp), ?_, later⟩
    intro other member
    refine ⟨List.mem_cons_of_mem _ member, ?_⟩
    rintro rfl
    exact fresh member

def admission (engine : Engine) (index : Bm25Index) (record : IndexRecord)
    (bodies : InsertionMap String String) (chars : Nat) : Bm25Index :=
  let slot := index.nextSlot
  let entry := slotFor engine record
  let born := expiresBy entry.expiry index.sweptTo
  let counted := if born then index else index.addToAggregates engine entry
  { index with
    slots := Function.update index.slots slot (some entry)
    slotCount := max index.slotCount (slot + 1)
    freeSlots := index.freeSlots.tail
    slotOf := index.slotOf.set record.id slot
    cachedBodies := bodies
    cachedBodyChars := chars
    postings := Bm25Index.pushPostings index.postings slot
      (termFrequencies (recordTokens record))
    totalPostings := index.totalPostings + (termFrequencies (recordTokens record)).length
    retired := if born then insert slot index.retired else index.retired
    partitions := counted.partitions
    facets := counted.facets
    partitionRep := counted.partitionRep
    expiryHeap :=
      if born then index.expiryHeap
      else
        match entry.expiry with
        | none => index.expiryHeap
        | some expiry => index.expiryHeap.push Prod.fst (expiry, slot) }

theorem enter_eq (engine : Engine) (index : Bm25Index) (record : IndexRecord)
    : ∃ bodies chars,
        (∀ body ∈ bodies, body = (record.id, recordText record) ∨ body ∈ index.cachedBodies)
        ∧ index.enter engine record = admission engine index record bodies chars := by
  let placed : Bm25Index := {
    index with
    slots := Function.update index.slots index.nextSlot (some (slotFor engine record))
    slotCount := max index.slotCount (index.nextSlot + 1)
    freeSlots := index.freeSlots.tail
    slotOf := index.slotOf.set record.id index.nextSlot }
  have kept : ∀ body ∈ (placed.rememberBody record.id (recordText record)).cachedBodies,
      body = (record.id, recordText record) ∨ body ∈ index.cachedBodies := by
    intro body member
    have remembered := mem_rememberBody member
    exact remembered.imp_right And.left
  obtain ⟨bodies, chars, same⟩ := rememberBody_eq placed record.id (recordText record)
  rw [same] at kept
  refine ⟨bodies, chars, kept, ?_⟩
  unfold Bm25Index.enter Bm25Index.place
  dsimp only
  rw [same]
  unfold admission
  dsimp only [placed]
  split
  · rfl
  · cases bound : (slotFor engine record).expiry <;> rfl

theorem Aggregated.grow {active : Nat → Option Slot} {slotCount more : Nat}
    {partitions : InsertionMap String Agg}
    {facets : InsertionMap String (InsertionMap String Agg)}
    {partitionRep : InsertionMap String Record}
    (h : Aggregated engine active slotCount partitions facets partitionRep)
    (longer : slotCount ≤ more) (beyond : ∀ other, slotCount ≤ other → active other = none)
    : Aggregated engine active more partitions facets partitionRep := by
  refine ⟨h.partitionsOnce, ?_, h.facetsOnce, ?_, h.listed, h.represented⟩
  · intro keep
    rw [h.partitioned, sumSlots_grow _ longer beyond]
  · intro key keep
    rw [h.faceted, sumSlots_grow _ longer beyond]

variable {retired : Finset Nat}

theorem activeAt_insert {slots : Nat → Option Slot} (vacant : slots slot = none)
    : activeAt (Function.update slots slot (some entry)) (insert slot retired)
      = activeAt slots retired := by
  funext other
  unfold activeAt
  by_cases same : other = slot
  · simp [same, vacant]
  · simp [same]

theorem activeAt_update (slots : Nat → Option Slot) (entry : Slot) (counted : slot ∉ retired)
    (other : Nat)
    : activeAt (Function.update slots slot (some entry)) retired other
      = if other = slot then some entry else activeAt slots retired other := by
  unfold activeAt
  by_cases same : other = slot
  · simp [same, counted]
  · simp [same]

theorem activeAt_beyond (index : Bm25Index) (h : SlotsHold engine contents index.slots index.slotCount index.slotOf)
    (other : Nat) (beyond : index.slotCount ≤ other)
    : activeAt index.slots index.retired other = none := by
  cases active : activeAt index.slots index.retired other with
  | none => rfl
  | some entry =>
    have inside := h.inside other entry (activeAt_some.mp active).2
    omega

theorem RetiredHold.kept {slots : Nat → Option Slot} {sweptTo : Int}
    (h : RetiredHold slots sweptTo retired) (vacant : slots slot = none)
    : slot ∉ retired := by
  intro gone
  obtain ⟨entry, there, -⟩ := h slot gone
  cases vacant.symm.trans there

theorem admission_represents (h : Represents engine index contents) (named : record.id ≠ "")
    (fresh : contents record.id = none)
    (kept : ∀ body ∈ bodies, body = (record.id, recordText record) ∨ body ∈ index.cachedBodies)
    : Represents engine (admission engine index record bodies chars)
        (contents.upsert record) := by
  obtain ⟨unused, free, once⟩ := h.postings.nextSlot
  have vacant := (h.postings.vacant index.nextSlot unused).1
  have counted := h.retired.kept vacant
  have beyond := activeAt_beyond index h.slots
  have updated := activeAt_update index.slots (slotFor engine record) counted
  refine ⟨h.slots.added named fresh vacant, ?_,
    h.postings.added h.slots named unused free once, ?_, ?_, ?_⟩
  · intro body member
    rcases kept body member with rfl | earlier
    · exact ⟨record, by rw [upsert_at contents named, if_pos rfl], rfl⟩
    obtain ⟨other, holds, text⟩ := h.bodies body earlier
    have apart : body.1 ≠ record.id := by
      intro same
      rw [same, fresh] at holds
      cases holds
    exact ⟨other, by rw [upsert_at contents named, if_neg apart, holds], text⟩
  · unfold admission
    by_cases born : expiresBy (slotFor engine record).expiry index.sweptTo = true
    · simp only [born, if_true, activeAt_insert vacant]
      exact h.aggregates.grow (Nat.le_max_left _ _) beyond
    simp only [born, Bool.false_eq_true, if_false]
    apply h.aggregates.added (Nat.le_max_left _ _) (Nat.le_max_right _ _) beyond
    · rw [activeAt, if_neg counted, vacant]
    · rw [updated, if_pos rfl]
    · intro other apart
      rw [updated, if_neg apart]
  · unfold admission
    by_cases born : expiresBy (slotFor engine record).expiry index.sweptTo = true
    · simp only [born, if_true, activeAt_insert vacant]
      exact h.heap
    simp only [born, Bool.false_eq_true, if_false]
    constructor
    · cases (slotFor engine record).expiry with
      | none => exact h.heap.ordered
      | some expiry => exact (BinaryHeap.push_ordered h.heap.ordered _).1
    · intro other document expiry active bound
      rw [updated] at active
      by_cases same : other = index.nextSlot
      · rw [if_pos same, Option.some_inj] at active
        rw [← active] at bound
        simp only [bound]
        rw [(BinaryHeap.push_ordered h.heap.ordered _).2.2, same]
        exact Or.inl rfl
      · rw [if_neg same] at active
        have covered := h.heap.covers other document expiry active bound
        split
        · exact covered
        · rw [(BinaryHeap.push_ordered h.heap.ordered _).2.2]
          exact Or.inr covered
  · intro other member
    have elsewhere : other ≠ index.nextSlot → other ∈ index.retired
        → ∃ entry, (admission engine index record bodies chars).slots other = some entry
          ∧ expiresBy entry.expiry index.sweptTo = true := by
      intro apart earlier
      obtain ⟨entry, there, swept⟩ := h.retired other earlier
      exact ⟨entry, (Function.update_of_ne apart _ _).trans there, swept⟩
    by_cases born : expiresBy (slotFor engine record).expiry index.sweptTo = true
    · simp only [admission, born, if_true] at member
      rcases Finset.mem_insert.mp member with rfl | earlier
      · exact ⟨slotFor engine record, Function.update_self .., born⟩
      · apply elsewhere _ earlier
        rintro rfl
        exact counted earlier
    · simp only [admission, born, Bool.false_eq_true, if_false] at member
      apply elsewhere _ member
      rintro rfl
      exact counted member

theorem UpToDate.admission (current : UpToDate index) (h : Represents engine index contents)
    : UpToDate (admission engine index record bodies chars) := by
  obtain ⟨unused, -, -⟩ := h.postings.nextSlot
  have vacant := (h.postings.vacant index.nextSlot unused).1
  intro other document expiry active bound
  by_cases born : expiresBy (slotFor engine record).expiry index.sweptTo = true
  · apply current other document expiry _ bound
    simpa [Lexical.admission, born, activeAt_insert vacant] using active
  simp only [Lexical.admission, born, Bool.false_eq_true, if_false] at active
  rw [activeAt_update _ _ (h.retired.kept vacant)] at active
  by_cases same : other = index.nextSlot
  · rw [if_pos same, Option.some_inj] at active
    rw [active, bound] at born
    simp [expiresBy] at born
    exact le_of_lt born
  · rw [if_neg same] at active
    exact current other document expiry active bound

-- Upserts

theorem eq_of_sameIndexValue {left right : Option Value}
    (h : Bm25Index.sameIndexValue left right = true)
    : left = right := by
  unfold Bm25Index.sameIndexValue at h
  split at h
  · rename_i xs ys
    simp only [Bool.and_eq_true, decide_eq_true_eq, List.all_eq_true] at h
    obtain ⟨long, pairs⟩ := h
    congr 2
    apply List.ext_getElem long
    intro i below above
    have both : (xs[i], ys[i]) ∈ xs.zip ys := by
      rw [List.mem_iff_getElem]
      exact ⟨i, by simp [below, above], List.getElem_zip⟩
    exact (pairs _ both).2
  · exact eq_of_strictEquals h

theorem storedFields_get (record : IndexRecord) (field : String)
    : (storedFields record).get field
      = if field = "id" then some (.str record.id)
        else if field ∈ indexMetaAttrs then record.fields.get field else none := by
  rw [storedFields, Record.get_set]
  split
  · rfl
  rw [Record.get_filter]
  cases record.fields.get field with
  | none => simp
  | some value => simp [Option.filter]

theorem slotFor_of_unchanged (h : Represents engine index contents)
    (same : index.unchanged record = true)
    : ∃ old, contents record.id = some old ∧ recordText record = recordText old
        ∧ slotFor engine record = slotFor engine old := by
  unfold Bm25Index.unchanged at same
  split at same
  · cases same
  rename_i previous held
  obtain ⟨slot, placed, there⟩ := Option.bind_eq_some_iff.mp held
  obtain ⟨old, kept, here⟩ := h.slots.found record.id slot placed
  rw [there] at here
  cases here
  have mine := (h.slots.named record.id old kept).1
  simp only [Bool.and_eq_true, decide_eq_true_eq, List.all_eq_true] at same
  obtain ⟨body, attrs⟩ := same
  have text : recordText record = recordText old := by
    obtain ⟨other, known, text⟩ := h.bodies _ (mem_of_get body)
    rw [kept] at known
    rw [Option.some.inj known, text]
  have stored : storedFields record = storedFields old := by
    apply Record.ext_get
    intro field
    rw [storedFields_get, storedFields_get, mine]
    split
    · rfl
    rename_i unnamed
    split
    · rename_i listed
      have equal := eq_of_sameIndexValue (attrs field listed).2
      simp only [slotFor] at equal
      rw [storedFields_get, if_neg unnamed, if_pos listed] at equal
      exact equal.symm
    · rfl
  refine ⟨old, kept, text, ?_⟩
  simp [slotFor, recordTokens, mine, text, stored]

theorem Represents.replaced (h : Represents engine index contents) {old : IndexRecord}
    (held : contents record.id = some old) (text : recordText record = recordText old)
    (same : slotFor engine record = slotFor engine old)
    : Represents engine index (contents.upsert record) := by
  have named := (h.slots.named record.id old held).2
  have at_ : ∀ other, contents.upsert record other
      = if other = record.id then some record else contents other := upsert_at contents named
  refine ⟨⟨?_, ?_, ?_, h.slots.owned, h.slots.inside⟩, ?_,
    ⟨h.postings.distinct, ?_, h.postings.vacant, h.postings.freeInside, h.postings.freeOnce⟩,
    h.aggregates, h.heap, h.retired⟩
  · intro other kept found
    rw [at_] at found
    split at found
    · rename_i equal
      rw [← Option.some.inj found, equal]
      exact ⟨rfl, named⟩
    · exact h.slots.named other kept found
  · intro other slot placed
    obtain ⟨kept, known, there⟩ := h.slots.found other slot placed
    rw [at_]
    split
    · rename_i equal
      rw [equal, held] at known
      rw [← Option.some.inj known, ← same] at there
      exact ⟨record, rfl, there⟩
    · exact ⟨kept, known, there⟩
  · intro other kept found
    rw [at_] at found
    split at found
    · rename_i equal
      rw [equal]
      exact h.slots.placed record.id old held
    · exact h.slots.placed other kept found
  · intro body member
    obtain ⟨kept, known, body_text⟩ := h.bodies body member
    rw [at_]
    split
    · rename_i equal
      rw [equal, held] at known
      rw [← Option.some.inj known, ← text] at body_text
      exact ⟨record, rfl, body_text⟩
    · exact ⟨kept, known, body_text⟩
  · intro other kept slot found placed term
    rw [at_] at found
    split at found
    · rename_i equal
      rw [equal] at placed
      rw [← Option.some.inj found, h.postings.live record.id old slot held placed term,
        ownPostings, ownPostings, recordTokens, recordTokens, text]
    · exact h.postings.live other kept slot found placed term

theorem upsert_remove (contents : IndexContents) (named : record.id ≠ "")
    : (contents.remove record.id).upsert record = contents.upsert record := by
  funext other
  rw [upsert_at _ named, upsert_at _ named, remove_at]
  split <;> rfl

theorem Represents.upsert (h : Represents engine index contents) (record : IndexRecord)
    : Represents engine (index.upsert engine record) (contents.upsert record) := by
  unfold Bm25Index.upsert
  split
  · rename_i unnamed
    rw [IndexContents.upsert, if_pos unnamed]
    exact h
  · rename_i named
    split
    · rename_i same
      obtain ⟨old, held, text, document⟩ := slotFor_of_unchanged h same
      apply (h.replaced held text document).rememberBody _ rfl
      rw [upsert_at contents named, if_pos rfl]
    · obtain ⟨bodies, chars, kept, entered⟩ :=
        enter_eq engine (index.remove engine record.id) record
      have fresh : contents.remove record.id record.id = none := by
        rw [remove_at, if_pos rfl]
      rw [entered, ← upsert_remove contents named]
      exact admission_represents (h.remove record.id) named fresh kept

theorem UpToDate.upsert (current : UpToDate index) (h : Represents engine index contents)
    (record : IndexRecord)
    : UpToDate (index.upsert engine record) := by
  unfold Bm25Index.upsert
  split
  · exact current
  split
  · obtain ⟨bodies, chars, same⟩ := rememberBody_eq index record.id (recordText record)
    rw [same]
    exact current
  · obtain ⟨bodies, chars, -, entered⟩ :=
      enter_eq engine (index.remove engine record.id) record
    rw [entered]
    exact (current.remove h record.id).admission (h.remove record.id)

-- The sweep

structure OnlyRetired (now : Int) (index after : Bm25Index) : Prop where
  slots : after.slots = index.slots
  slotCount : after.slotCount = index.slotCount
  slotOf : after.slotOf = index.slotOf
  postings : after.postings = index.postings
  partitionRep : after.partitionRep = index.partitionRep
  grows : index.retired ⊆ after.retired
  retired : ∀ slot ∈ after.retired, slot ∈ index.retired
    ∨ ∃ entry expiry, index.slots slot = some entry ∧ entry.expiry = some expiry ∧ expiry < now

theorem OnlyRetired.refl (now : Int) (index : Bm25Index) : OnlyRetired now index index :=
  ⟨rfl, rfl, rfl, rfl, rfl, Finset.Subset.refl _, fun _ member => Or.inl member⟩

variable {now : Int}

theorem OnlyRetired.trans {after last : Bm25Index} (first : OnlyRetired now index after)
    (second : OnlyRetired now after last)
    : OnlyRetired now index last := by
  refine ⟨second.slots.trans first.slots, second.slotCount.trans first.slotCount,
    second.slotOf.trans first.slotOf, second.postings.trans first.postings,
    second.partitionRep.trans first.partitionRep, first.grows.trans second.grows, ?_⟩
  intro slot member
  rcases second.retired slot member with earlier | ⟨entry, expiry, there, bound, past⟩
  · exact first.retired slot earlier
  · rw [first.slots] at there
    exact Or.inr ⟨entry, expiry, there, bound, past⟩

end Flair.Lexical
