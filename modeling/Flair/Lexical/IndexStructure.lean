import Flair.Lexical.Bm25Index
import Flair.Lexical.Bm25Ranking
import Flair.Lexical.IndexFeed
import Mathlib.Algebra.BigOperators.Group.Finset.Basic

/-! What the index's slots, postings, aggregates and heap hold for the rows it was given:
each operation keeps them exact, and the sweep retires every row that has expired.
-/

namespace Flair.Lexical

open Dynamic InsertionMap

-- Sums over slots

/-- The documents of the first slots, each taken through a function, together. -/
def sumSlots {M : Type*} [AddCommMonoid M] (count : Nat) (held : Nat → Option Slot)
    (f : Slot → M) : M :=
  ∑ slot ∈ Finset.range count, (held slot).elim 0 f

section

variable {M : Type*} [AddCommMonoid M] {count more : Nat} {held after : Nat → Option Slot}

theorem sumSlots_change (f : Slot → M) {slot : Nat} (inside : slot < count)
    (same : ∀ other, other ≠ slot → after other = held other)
    : sumSlots count after f + (held slot).elim 0 f
      = sumSlots count held f + (after slot).elim 0 f := by
  have member := Finset.mem_range.mpr inside
  unfold sumSlots
  rw [← Finset.add_sum_erase _ _ member,
    ← Finset.add_sum_erase _ (fun slot => (held slot).elim 0 f) member]
  have rest : ∀ other ∈ (Finset.range count).erase slot,
      (after other).elim 0 f = (held other).elim 0 f := by
    intro other inside
    rw [same other (Finset.ne_of_mem_erase inside)]
  rw [Finset.sum_congr rfl rest]
  ac_rfl

theorem sumSlots_grow (f : Slot → M) (longer : count ≤ more)
    (vacant : ∀ slot, count ≤ slot → held slot = none)
    : sumSlots more held f = sumSlots count held f := by
  symm
  apply Finset.sum_subset
  · intro slot inside
    rw [Finset.mem_range] at inside ⊢
    omega
  · intro slot _ outside
    rw [Finset.mem_range, not_lt] at outside
    rw [vacant slot outside]
    rfl

end

-- Slots

section

variable (engine : Engine)

structure SlotsHold (contents : IndexContents) (slots : Nat → Option Slot) (slotCount : Nat)
    (slotOf : InsertionMap String Nat) : Prop where
  named : ∀ id record, contents id = some record → record.id = id ∧ id ≠ ""
  found : ∀ id slot, slotOf.get id = some slot
    → ∃ record, contents id = some record ∧ slots slot = some (slotFor engine record)
  placed : ∀ id record, contents id = some record → ∃ slot, slotOf.get id = some slot
  owned : ∀ slot entry, slots slot = some entry → slotOf.get entry.id = some slot
  inside : ∀ slot entry, slots slot = some entry → slot < slotCount

def BodiesHold (contents : IndexContents) (bodies : InsertionMap String String) : Prop :=
  ∀ entry ∈ bodies, ∃ record, contents entry.1 = some record ∧ recordText record = entry.2

def ownPostings (record : IndexRecord) (slot : Nat) (term : String) : List (Nat × Nat) :=
  ((termFrequencies (recordTokens record)).get term).toList.map fun count => (slot, count)

/-- Each document's postings are those of its terms, once each; a slot that may be taken has
none.
-/
structure PostingsHold (contents : IndexContents) (slots : Nat → Option Slot)
    (slotCount : Nat) (slotOf : InsertionMap String Nat) (freeSlots : List Nat)
    (postings : InsertionMap String (List (Nat × Nat))) : Prop where
  distinct : Distinct postings
  live : ∀ id record slot, contents id = some record → slotOf.get id = some slot → ∀ term,
    ((postings.get term).getD []).filter (fun posting => posting.1 = slot)
      = ownPostings record slot term
  vacant : ∀ slot, slot ∈ freeSlots ∨ slotCount ≤ slot → slots slot = none
    ∧ ∀ term, ∀ posting ∈ (postings.get term).getD [], posting.1 ≠ slot
  freeInside : ∀ slot ∈ freeSlots, slot < slotCount
  freeOnce : freeSlots.Nodup

def activeAt (slots : Nat → Option Slot) (retired : Finset Nat) (slot : Nat) : Option Slot :=
  if slot ∈ retired then none else slots slot

def weight (keep : String → Bool) (entry : Slot) : Agg :=
  if keep entry.pkey then (1, (entry.dl : Int)) else 0

structure Aggregated (active : Nat → Option Slot) (slotCount : Nat)
    (partitions : InsertionMap String Agg)
    (facets : InsertionMap String (InsertionMap String Agg))
    (partitionRep : InsertionMap String Record) : Prop where
  partitionsOnce : Distinct partitions
  partitioned : ∀ keep, total keep partitions = sumSlots slotCount active (weight keep)
  facetsOnce : ∀ key, Distinct (tallyOf facets key)
  faceted : ∀ key keep, total keep (tallyOf facets key)
    = sumSlots slotCount active fun entry =>
        (facetKeysOf engine entry.stored).count key • weight keep entry
  listed : ∀ slot entry, active slot = some entry
    → ∀ key ∈ facetKeysOf engine entry.stored, (facets.get key).isSome
  represented : ∀ slot entry, active slot = some entry
    → (partitionRep.get entry.pkey).isSome

structure HeapHolds (active : Nat → Option Slot) (heap : BinaryHeap (Int × Nat)) : Prop where
  ordered : heap.Ordered Prod.fst
  covers : ∀ slot entry expiry, active slot = some entry → entry.expiry = some expiry
    → heap.Holds (expiry, slot)

def RetiredHold (slots : Nat → Option Slot) (sweptTo : Int) (retired : Finset Nat) : Prop :=
  ∀ slot ∈ retired, ∃ entry, slots slot = some entry ∧ expiresBy entry.expiry sweptTo = true

structure Represents (index : Bm25Index) (contents : IndexContents) : Prop where
  slots : SlotsHold engine contents index.slots index.slotCount index.slotOf
  bodies : BodiesHold contents index.cachedBodies
  postings : PostingsHold contents index.slots index.slotCount index.slotOf index.freeSlots
    index.postings
  aggregates : Aggregated engine (activeAt index.slots index.retired) index.slotCount
    index.partitions index.facets index.partitionRep
  heap : HeapHolds (activeAt index.slots index.retired) index.expiryHeap
  retired : RetiredHold index.slots index.sweptTo index.retired

variable {engine} {index : Bm25Index} {contents : IndexContents}

theorem activeAt_some {slots : Nat → Option Slot} {retired : Finset Nat} {slot : Nat}
    {entry : Slot}
    : activeAt slots retired slot = some entry ↔ slot ∉ retired ∧ slots slot = some entry := by
  unfold activeAt
  split <;> simp_all

theorem SlotsHold.record {slots : Nat → Option Slot} {slotCount : Nat}
    {slotOf : InsertionMap String Nat}
    (h : SlotsHold engine contents slots slotCount slotOf) {slot : Nat} {entry : Slot}
    (held : slots slot = some entry)
    : ∃ record, contents entry.id = some record ∧ entry = slotFor engine record
        ∧ slotOf.get entry.id = some slot := by
  have owned := h.owned slot entry held
  obtain ⟨record, kept, here⟩ := h.found entry.id slot owned
  rw [held] at here
  exact ⟨record, kept, Option.some.inj here, owned⟩

theorem Represents.empty : Represents engine Bm25Index.empty IndexContents.clear := by
  refine ⟨?_, ?_, ?_, ?_, ?_, ?_⟩
  · constructor <;> simp [Bm25Index.empty, IndexContents.clear]
  · intro entry member
    cases member
  · constructor <;> simp [Bm25Index.empty, IndexContents.clear, Distinct]
  · constructor <;> simp [Bm25Index.empty, activeAt, Distinct, tallyOf, sumSlots]
  · refine ⟨BinaryHeap.empty_ordered, ?_⟩
    simp [Bm25Index.empty, activeAt]
  · intro slot member
    simp [Bm25Index.empty] at member

-- Bodies

section

variable {bodies : InsertionMap String String}

variable {entry : String × String}

theorem mem_evict {chars held : Nat} (h : entry ∈ (Bm25Index.evict chars bodies held).1)
    : entry ∈ bodies := by
  induction bodies generalizing held with
  | nil => exact h
  | cons first rest ih =>
    unfold Bm25Index.evict at h
    split at h
    · exact List.mem_cons_of_mem _ (ih h)
    · exact h

theorem mem_forgetBody {id : String} (h : entry ∈ (index.forgetBody id).cachedBodies)
    : entry ∈ index.cachedBodies ∧ entry.1 ≠ id := by
  unfold Bm25Index.forgetBody at h
  split at h
  · rename_i absent
    refine ⟨h, ?_⟩
    rintro rfl
    have held := isSome_get_of_mem h
    rw [absent] at held
    cases held
  · simpa [delete] using h

theorem mem_rememberBody {id content : String}
    (h : entry ∈ (index.rememberBody id content).cachedBodies)
    : entry = (id, content) ∨ (entry ∈ index.cachedBodies ∧ entry.1 ≠ id) := by
  unfold Bm25Index.rememberBody at h
  dsimp only at h
  split at h
  · exact Or.inr (mem_forgetBody h)
  · rcases mem_of_mem_modify h with earlier | ⟨old, same⟩
    · exact Or.inr (mem_forgetBody (mem_evict earlier))
    · exact Or.inl same

theorem rememberBody_eq (index : Bm25Index) (id content : String)
    : ∃ bodies chars, index.rememberBody id content
      = { index with cachedBodies := bodies, cachedBodyChars := chars } := by
  unfold Bm25Index.rememberBody Bm25Index.forgetBody
  dsimp only
  split <;> split <;> exact ⟨_, _, rfl⟩

theorem forgetBody_eq (index : Bm25Index) (id : String)
    : ∃ bodies chars, index.forgetBody id
      = { index with cachedBodies := bodies, cachedBodyChars := chars } := by
  unfold Bm25Index.forgetBody
  split <;> exact ⟨_, _, rfl⟩

end

-- Slots as documents come and go

section

variable {slots : Nat → Option Slot} {slotCount : Nat} {slotOf : InsertionMap String Nat}
variable {freeSlots : List Nat} {postings : InsertionMap String (List (Nat × Nat))}

theorem remove_at (contents : IndexContents) (id other : String)
    : contents.remove id other = if other = id then none else contents other := by
  simp [IndexContents.remove, Function.update_apply]

variable {record : IndexRecord}

theorem upsert_at (contents : IndexContents) (named : record.id ≠ "") (other : String)
    : contents.upsert record other
      = if other = record.id then some record else contents other := by
  simp [IndexContents.upsert, named, Function.update_apply]

variable {id : String}

theorem SlotsHold.absent (h : SlotsHold engine contents slots slotCount slotOf)
    (unplaced : slotOf.get id = none)
    : contents id = none := by
  cases held : contents id with
  | none => rfl
  | some record =>
    obtain ⟨slot, placed⟩ := h.placed id record held
    cases unplaced.symm.trans placed

variable {slot : Nat}

theorem SlotsHold.removed (h : SlotsHold engine contents slots slotCount slotOf)
    (placed : slotOf.get id = some slot)
    : SlotsHold engine (contents.remove id) (Function.update slots slot none) slotCount
        (slotOf.delete id) := by
  obtain ⟨gone, held, here⟩ := h.found id slot placed
  have mine : (slotFor engine gone).id = id := (h.named id gone held).1
  refine ⟨?_, ?_, ?_, ?_, ?_⟩
  · intro other record kept
    rw [remove_at, Option.ite_none_left_eq_some] at kept
    exact h.named other record kept.2
  · intro other place found
    rw [get_delete, Option.ite_none_left_eq_some] at found
    obtain ⟨apart, found⟩ := found
    obtain ⟨record, kept, there⟩ := h.found other place found
    have elsewhere : place ≠ slot := by
      rintro rfl
      rw [here] at there
      have same : (slotFor engine record).id = other := (h.named other record kept).1
      rw [← Option.some.inj there] at same
      exact apart (same.symm.trans mine)
    refine ⟨record, ?_, ?_⟩
    · rw [remove_at, if_neg apart, kept]
    · rw [Function.update_of_ne elsewhere, there]
  · intro other record kept
    rw [remove_at, Option.ite_none_left_eq_some] at kept
    obtain ⟨place, found⟩ := h.placed other record kept.2
    exact ⟨place, by rw [get_delete, if_neg kept.1, found]⟩
  · intro place entry there
    have elsewhere : place ≠ slot := by
      rintro rfl
      simp at there
    rw [Function.update_of_ne elsewhere] at there
    have owned := h.owned place entry there
    have apart : entry.id ≠ id := by
      intro same
      rw [same, placed] at owned
      exact elsewhere (Option.some.inj owned).symm
    rw [get_delete, if_neg apart, owned]
  · intro place entry there
    have elsewhere : place ≠ slot := by
      rintro rfl
      simp at there
    rw [Function.update_of_ne elsewhere] at there
    exact h.inside place entry there

theorem SlotsHold.added (h : SlotsHold engine contents slots slotCount slotOf)
    (named : record.id ≠ "") (fresh : contents record.id = none) (vacant : slots slot = none)
    : SlotsHold engine (contents.upsert record)
        (Function.update slots slot (some (slotFor engine record)))
        (max slotCount (slot + 1)) (slotOf.set record.id slot) := by
  refine ⟨?_, ?_, ?_, ?_, ?_⟩
  · intro other kept held
    rw [upsert_at contents named] at held
    split at held
    · rename_i same
      cases held
      exact ⟨same.symm, same ▸ named⟩
    · exact h.named other kept held
  · intro other place found
    rw [get_set] at found
    rw [upsert_at contents named]
    split at found
    · rename_i same
      cases found
      exact ⟨record, if_pos same, Function.update_self ..⟩
    · rename_i apart
      obtain ⟨kept, held, there⟩ := h.found other place found
      refine ⟨kept, by rw [if_neg apart, held], ?_⟩
      have elsewhere : place ≠ slot := by
        rintro rfl
        cases vacant.symm.trans there
      rw [Function.update_of_ne elsewhere, there]
  · intro other kept held
    rw [upsert_at contents named] at held
    rw [get_set]
    split at held
    · rename_i same
      exact ⟨slot, if_pos same⟩
    · rename_i apart
      obtain ⟨place, found⟩ := h.placed other kept held
      exact ⟨place, by rw [if_neg apart, found]⟩
  · intro place entry there
    rw [get_set]
    by_cases same : place = slot
    · subst same
      rw [Function.update_self] at there
      rw [← Option.some.inj there]
      exact if_pos rfl
    · rw [Function.update_of_ne same] at there
      have owned := h.owned place entry there
      have apart : entry.id ≠ record.id := by
        intro equal
        rw [equal] at owned
        obtain ⟨kept, held, -⟩ := h.found record.id place owned
        cases fresh.symm.trans held
      rw [if_neg apart, owned]
  · intro place entry there
    by_cases same : place = slot
    · omega
    · rw [Function.update_of_ne same] at there
      have bound := h.inside place entry there
      omega

-- Postings as documents come and go

theorem PostingsHold.removed (h : PostingsHold contents slots slotCount slotOf freeSlots postings)
    : PostingsHold (contents.remove id) (Function.update slots slot none) slotCount
        (slotOf.delete id) freeSlots postings := by
  refine ⟨h.distinct, ?_, ?_, h.freeInside, h.freeOnce⟩
  · intro other record place held found
    rw [remove_at, Option.ite_none_left_eq_some] at held
    rw [get_delete, if_neg held.1] at found
    exact h.live other record place held.2 found
  · intro place unused
    obtain ⟨vacant, unposted⟩ := h.vacant place unused
    refine ⟨?_, unposted⟩
    by_cases same : place = slot
    · simp [same]
    · rw [Function.update_of_ne same, vacant]

theorem PostingsHold.compacted
    (h : PostingsHold contents slots slotCount slotOf freeSlots postings)
    (holds : SlotsHold engine contents slots slotCount slotOf)
    : PostingsHold contents slots slotCount slotOf
        ((List.range slotCount).filter fun slot => (slots slot).isNone).reverse
        (filterLists (fun posting => (slots posting.1).isSome) postings) := by
  refine ⟨h.distinct.filterLists _, ?_, ?_, ?_, ?_⟩
  · intro id record slot held placed term
    obtain ⟨kept, -, there⟩ := holds.found id slot placed
    rw [h.distinct.get_filterLists, List.filter_filter, ← h.live id record slot held placed term]
    apply List.filter_congr
    intro posting _
    by_cases same : posting.1 = slot
    · simp [same, there]
    · simp [same]
  · intro slot unused
    have vacant : slots slot = none := by
      rcases unused with free | beyond
      · simp at free
        exact free.2
      · exact (h.vacant slot (Or.inr beyond)).1
    refine ⟨vacant, ?_⟩
    intro term posting member
    rw [h.distinct.get_filterLists, List.mem_filter] at member
    rintro rfl
    rw [vacant] at member
    cases member.2
  · intro slot free
    simp at free
    exact free.1
  · rw [List.nodup_reverse]
    exact List.nodup_range.filter _

theorem get_pushPostings {tf : InsertionMap String Nat} (once : Distinct tf) (slot : Nat)
    (term : String)
    : ((Bm25Index.pushPostings postings slot tf).get term).getD []
      = (postings.get term).getD [] ++ (tf.get term).toList.map fun count => (slot, count) := by
  unfold Bm25Index.pushPostings
  induction tf generalizing postings with
  | nil => simp
  | cons entry rest ih =>
    obtain ⟨other, count⟩ := entry
    obtain ⟨fresh, later⟩ := List.nodup_cons.mp once
    rw [List.foldl_cons, ih later, get_modify]
    by_cases same : term = other
    · subst same
      simp [get_eq_none fresh, InsertionMap.get]
    · have apart : other ≠ term := fun equal => same equal.symm
      rw [if_neg same, InsertionMap.get, if_neg apart]

theorem pushPostings_distinct {tf : InsertionMap String Nat} (once : Distinct postings)
    (slot : Nat)
    : Distinct (Bm25Index.pushPostings postings slot tf) := by
  unfold Bm25Index.pushPostings
  induction tf generalizing postings with
  | nil => exact once
  | cons entry rest ih => exact ih (once.modify _)

theorem PostingsHold.added (h : PostingsHold contents slots slotCount slotOf freeSlots postings)
    (holds : SlotsHold engine contents slots slotCount slotOf) (named : record.id ≠ "")
    (unused : slot ∈ freeSlots ∨ slotCount ≤ slot) {left : List Nat}
    (free : ∀ other ∈ left, other ∈ freeSlots ∧ other ≠ slot) (once : left.Nodup)
    : PostingsHold (contents.upsert record)
        (Function.update slots slot (some (slotFor engine record)))
        (max slotCount (slot + 1)) (slotOf.set record.id slot) left
        (Bm25Index.pushPostings postings slot (termFrequencies (recordTokens record))) := by
  obtain ⟨vacant, unposted⟩ := h.vacant slot unused
  have tfOnce := termFrequencies_distinct (recordTokens record)
  refine ⟨pushPostings_distinct h.distinct slot, ?_, ?_, ?_, once⟩
  · intro id kept place held found term
    rw [upsert_at contents named] at held
    rw [get_set] at found
    rw [get_pushPostings tfOnce, List.filter_append]
    split at held
    · rename_i same
      rw [if_pos same] at found
      cases held
      cases found
      have none_before : ((postings.get term).getD []).filter
          (fun posting => posting.1 = slot) = [] := by
        rw [List.filter_eq_nil_iff]
        intro posting member
        simpa using unposted term posting member
      rw [none_before, List.nil_append, List.filter_eq_self.mpr]
      · rfl
      · intro posting member
        obtain ⟨count, -, rfl⟩ := List.mem_map.mp member
        simp
    · rename_i apart
      rw [if_neg apart] at found
      obtain ⟨old, -, there⟩ := holds.found id place found
      have elsewhere : slot ≠ place := by
        rintro rfl
        cases vacant.symm.trans there
      have none_new : (((termFrequencies (recordTokens record)).get term).toList.map
          fun count => (slot, count)).filter (fun posting => posting.1 = place) = [] := by
        rw [List.filter_eq_nil_iff]
        intro posting member
        obtain ⟨count, -, rfl⟩ := List.mem_map.mp member
        simpa using elsewhere
      rw [none_new, List.append_nil]
      exact h.live id kept place held found term
  · intro place available
    have before : (place ∈ freeSlots ∨ slotCount ≤ place) ∧ place ≠ slot := by
      rcases available with still | beyond
      · exact ⟨Or.inl (free place still).1, (free place still).2⟩
      · exact ⟨Or.inr (by omega), by omega⟩
    obtain ⟨empty, clear⟩ := h.vacant place before.1
    refine ⟨by rw [Function.update_of_ne before.2, empty], ?_⟩
    intro term posting member
    rw [get_pushPostings tfOnce, List.mem_append] at member
    rcases member with earlier | new
    · exact clear term posting earlier
    · obtain ⟨count, -, rfl⟩ := List.mem_map.mp new
      exact fun same => before.2 same.symm
  · intro place still
    have bound := h.freeInside place (free place still).1
    omega

end

-- Aggregates as documents come and go

section

variable {active after : Nat → Option Slot} {slotCount : Nat}
variable {partitions : InsertionMap String Agg}
variable {facets : InsertionMap String (InsertionMap String Agg)}
variable {partitionRep : InsertionMap String Record}

variable {keys : List String} {pkey : String} {amount : Agg}

theorem tallyOf_distinct_foldl (h : ∀ key, Distinct (tallyOf facets key))
    : ∀ key, Distinct (tallyOf
        (keys.foldl (fun facets key => bumpIn facets key pkey amount) facets) key) := by
  induction keys generalizing facets with
  | nil => exact h
  | cons first rest ih =>
    apply ih
    intro key
    rw [tallyOf_bumpIn]
    split
    · exact (h first).bump amount
    · exact h key

theorem isSome_foldl_bumpIn {key : String}
    : ((keys.foldl (fun facets key => bumpIn facets key pkey amount) facets).get key).isSome
      ↔ key ∈ keys ∨ (facets.get key).isSome := by
  induction keys generalizing facets with
  | nil => simp
  | cons first rest ih =>
    rw [List.foldl_cons, ih, bumpIn, get_modify, List.mem_cons]
    by_cases same : key = first
    · simp [same]
    · simp [same]

theorem foldl_decrement (listed : ∀ key ∈ keys, (facets.get key).isSome)
    : keys.foldl
        (fun facets key =>
          match facets.get key with
          | none => facets
          | some held => facets.set key (bump held pkey amount))
        facets
      = keys.foldl (fun facets key => bumpIn facets key pkey amount) facets := by
  induction keys generalizing facets with
  | nil => rfl
  | cons first rest ih =>
    rw [List.foldl_cons, List.foldl_cons]
    obtain ⟨held, found⟩ := Option.isSome_iff_exists.mp (listed first List.mem_cons_self)
    have same : facets.set first (bump held pkey amount) = bumpIn facets first pkey amount := by
      apply modify_congr
      rw [found]
      rfl
    simp only [found, same]
    apply ih
    intro key member
    rw [bumpIn, get_modify]
    split
    · rfl
    · exact listed key (List.mem_cons_of_mem _ member)

theorem weight_neg (keep : String → Bool) (entry : Slot)
    : (if keep entry.pkey then ((-1, -(entry.dl : Int)) : Agg) else 0) = -weight keep entry := by
  unfold weight
  split <;> simp

theorem Aggregated.added (h : Aggregated engine active slotCount partitions facets partitionRep)
    {slot more : Nat} {entry : Slot} (longer : slotCount ≤ more) (inside : slot < more)
    (beyond : ∀ other, slotCount ≤ other → active other = none) (vacant : active slot = none)
    (here : after slot = some entry)
    (same : ∀ other, other ≠ slot → after other = active other)
    : Aggregated engine after more (bump partitions entry.pkey (1, (entry.dl : Int)))
        ((facetKeysOf engine entry.stored).foldl
          (fun facets key => bumpIn facets key entry.pkey (1, (entry.dl : Int))) facets)
        (if (partitionRep.get entry.pkey).isSome then partitionRep
          else partitionRep.set entry.pkey (Bm25Index.repOf entry.stored)) := by
  have sums : ∀ f : Slot → Agg, sumSlots more after f = sumSlots slotCount active f + f entry := by
    intro f
    have changed := sumSlots_change f inside same
    rwa [vacant, here, Option.elim_none, add_zero, Option.elim_some,
      sumSlots_grow f longer beyond] at changed
  refine ⟨h.partitionsOnce.bump _, ?_, tallyOf_distinct_foldl h.facetsOnce, ?_, ?_, ?_⟩
  · intro keep
    rw [total_bump, h.partitioned, sums]
    rfl
  · intro key keep
    rw [total_foldl_bumpIn, h.faceted, sums]
    rfl
  · intro place other held key member
    rw [isSome_foldl_bumpIn]
    by_cases equal : place = slot
    · subst equal
      rw [here] at held
      cases held
      exact Or.inl member
    · rw [same place equal] at held
      exact Or.inr (h.listed place other held key member)
  · intro place other held
    by_cases equal : place = slot
    · subst equal
      rw [here] at held
      cases held
      split
      · assumption
      · rw [get_set, if_pos rfl]
        rfl
    · rw [same place equal] at held
      have known := h.represented place other held
      split
      · exact known
      rw [get_set]
      split
      · rfl
      · exact known

theorem Aggregated.removed
    (h : Aggregated engine active slotCount partitions facets partitionRep) {slot : Nat}
    {entry : Slot} (inside : slot < slotCount) (here : active slot = some entry)
    (vacant : after slot = none) (same : ∀ other, other ≠ slot → after other = active other)
    : Aggregated engine after slotCount (bump partitions entry.pkey (-1, -(entry.dl : Int)))
        ((facetKeysOf engine entry.stored).foldl
          (fun facets key =>
            match facets.get key with
            | none => facets
            | some held => facets.set key (bump held entry.pkey (-1, -(entry.dl : Int))))
          facets)
        partitionRep := by
  have sums : ∀ f : Slot → Agg,
      sumSlots slotCount after f = sumSlots slotCount active f + -f entry := by
    intro f
    have changed := sumSlots_change f inside same
    rw [vacant, here, Option.elim_none, add_zero, Option.elim_some] at changed
    rw [← changed, add_neg_cancel_right]
  have remains : ∀ place other, after place = some other → active place = some other := by
    intro place other held
    by_cases equal : place = slot
    · subst equal
      cases vacant.symm.trans held
    · exact (same place equal).symm.trans held
  rw [foldl_decrement (h.listed slot entry here)]
  refine ⟨h.partitionsOnce.bump _, ?_, tallyOf_distinct_foldl h.facetsOnce, ?_, ?_, ?_⟩
  · intro keep
    rw [total_bump, h.partitioned, sums, weight_neg]
  · intro key keep
    rw [total_foldl_bumpIn, h.faceted, sums, weight_neg, neg_nsmul]
  · intro place other held key member
    rw [isSome_foldl_bumpIn]
    exact Or.inr (h.listed place other (remains place other held) key member)
  · intro place other held
    exact h.represented place other (remains place other held)

end

end

end Flair.Lexical
