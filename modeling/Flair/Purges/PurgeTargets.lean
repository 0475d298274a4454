import Flair.Foundations.InsertionMap
import Flair.Foundations.Objects

/-! The target set of a memory purge: every named row and the rows its skill lineage search
finds, read one await at a time. Follows `resolvePurgeTargets` of `resources/MemoryPurge.ts`.
-/

namespace Flair.Purges

open Dynamic

abbrev MemoryTable := InsertionMap String Record

/-- `Array.isArray(row.tags) && row.tags.includes("skill")` -/
def taggedSkill (row : Record) : Bool :=
  match row.get "tags" with
  | some (.arr items) => items.contains (.str "skill")
  | _ => false

def subjectOf (id : String) (row : Record) : Option String :=
  match (asString (row.get "skillSubjectId")).filter (· ≠ "") with
  | some subject => some subject
  | none => if taggedSkill row then some id else none

def searchSubject (memory : MemoryTable) (subject : String) : MemoryTable :=
  memory.filter fun entry =>
    entry.2.get "skillSubjectId" = some (.str subject) && entry.1 ≠ ""

structure LineageRead where
  id : String
  row : Record
  searched : Option MemoryTable

/-- Where the resolution stands: the ids to read, the lineage to search next, and what was
read so far.
-/
structure Resolving where
  todo : List String
  pending : Option (String × Record × String)
  rows : MemoryTable
  missing : List String
  reads : List LineageRead

def startResolving (ids : List String) : Resolving where
  todo := ids.dedup
  pending := none
  rows := []
  missing := []
  reads := []

def resolveNext (memory : MemoryTable) (now : Resolving) : Option Resolving :=
  match now.pending with
  | some (id, row, subject) =>
    some { now with
      pending := none
      rows := (searchSubject memory subject).foldl
        (fun rows sibling => rows.set sibling.1 sibling.2) now.rows
      reads := ⟨id, row, some memory⟩ :: now.reads }
  | none =>
    match now.todo with
    | [] => none
    | id :: todo =>
      match memory.get id with
      | none => some { now with todo, missing := now.missing ++ [id] }
      | some row =>
        let rows := now.rows.set id row
        match subjectOf id row with
        | none => some { now with todo, rows, reads := ⟨id, row, none⟩ :: now.reads }
        | some subject => some { now with todo, rows, pending := some (id, row, subject) }

def Resolving.targets (now : Resolving) : List String := now.rows.map Prod.fst

-- What a resolution has found

structure LineageRead.Covered (read : LineageRead) (targets : List String) : Prop where
  named : read.id ∈ targets
  searched : (subjectOf read.id read.row).isSome → read.searched.isSome
  siblings : ∀ memory subject, read.searched = some memory
    → subjectOf read.id read.row = some subject
    → ∀ id row, memory.get id = some row → row.get "skillSubjectId" = some (.str subject)
      → id ≠ "" → id ∈ targets

structure ResolvingHolds (ids : List String) (now : Resolving) : Prop where
  distinct : InsertionMap.Distinct now.rows
  reads : ∀ read ∈ now.reads, read.Covered now.targets
  pending : ∀ id row subject, now.pending = some (id, row, subject)
    → id ∈ now.targets ∧ subjectOf id row = some subject
  accounted : ∀ id ∈ ids, id ∈ now.todo ∨ id ∈ now.missing
    ∨ (∃ row subject, now.pending = some (id, row, subject)) ∨ ∃ read ∈ now.reads, read.id = id

theorem LineageRead.Covered.mono {read : LineageRead} {targets more : List String}
    (covered : read.Covered targets) (sub : ∀ id ∈ targets, id ∈ more)
    : read.Covered more :=
  ⟨sub _ covered.named, covered.searched,
    fun memory subject searched of id row held carries nonempty =>
      sub _ (covered.siblings memory subject searched of id row held carries nonempty)⟩

theorem mem_keys_foldl_set {rows : MemoryTable} {found : MemoryTable} {id : String}
    : id ∈ (found.foldl (fun rows sibling => rows.set sibling.1 sibling.2) rows).map Prod.fst
      ↔ id ∈ rows.map Prod.fst ∨ id ∈ found.map Prod.fst := by
  induction found generalizing rows with
  | nil => simp
  | cons first rest ih =>
    rw [List.foldl_cons, ih, List.map_cons, List.mem_cons, InsertionMap.set,
      InsertionMap.mem_keys_modify]
    tauto

theorem distinct_foldl_set {rows found : MemoryTable} (distinct : InsertionMap.Distinct rows)
    : InsertionMap.Distinct
        (found.foldl (fun rows sibling => rows.set sibling.1 sibling.2) rows) := by
  induction found generalizing rows with
  | nil => exact distinct
  | cons first rest ih => exact ih (distinct.modify _)

theorem startResolving_holds (ids : List String) : ResolvingHolds ids (startResolving ids) := by
  refine ⟨List.nodup_nil, by simp [startResolving], by simp [startResolving],
    fun id member => .inl ?_⟩
  exact List.mem_dedup.mpr member

theorem resolveNext_holds {ids : List String} {memory : MemoryTable} {now next : Resolving}
    (holds : ResolvingHolds ids now) (read : resolveNext memory now = some next)
    : ResolvingHolds ids next := by
  unfold resolveNext at read
  split at read
  case h_1 id row subject waiting =>
    cases read
    obtain ⟨named, of⟩ := holds.pending id row subject waiting
    have wider : ∀ other, other ∈ now.targets → other ∈ ((searchSubject memory subject).foldl
        (fun rows sibling => rows.set sibling.1 sibling.2) now.rows).map Prod.fst :=
      fun other member => mem_keys_foldl_set.mpr (.inl member)
    refine ⟨distinct_foldl_set holds.distinct, ?reads, by simp, ?accounted⟩
    case reads =>
      intro other member
      rcases List.mem_cons.mp member with rfl | old
      · refine ⟨wider _ named, fun _ => rfl, ?_⟩
        intro searched subject' found same other row' held carries nonempty
        cases found
        obtain rfl := Option.some.inj (of.symm.trans same)
        refine mem_keys_foldl_set.mpr (.inr (List.mem_map.mpr ⟨(other, row'), ?_, rfl⟩))
        refine List.mem_filter.mpr ⟨InsertionMap.mem_of_get held, ?_⟩
        simp [carries, nonempty]
      · exact (holds.reads other old).mono wider
    case accounted =>
      intro other member
      rcases holds.accounted other member with
        todo | missing | ⟨row', subject', there⟩ | ⟨past, old, same⟩
      · exact .inl todo
      · exact .inr (.inl missing)
      · obtain ⟨rfl, -⟩ := Prod.mk.inj (Option.some.inj (waiting.symm.trans there))
        exact .inr (.inr (.inr ⟨_, List.mem_cons_self, rfl⟩))
      · exact .inr (.inr (.inr ⟨past, List.mem_cons_of_mem _ old, same⟩))
  case h_2 idle =>
    have accounted : ∀ other ∈ ids, other ∈ now.todo ∨ other ∈ now.missing
        ∨ ∃ past ∈ now.reads, past.id = other := by
      intro other member
      rcases holds.accounted other member with todo | missing | ⟨_, _, there⟩ | past
      · exact .inl todo
      · exact .inr (.inl missing)
      · rw [idle] at there
        contradiction
      · exact .inr (.inr past)
    split at read
    · contradiction
    case h_2 id todo rest =>
      split at read
      case h_1 absent =>
        cases read
        refine ⟨holds.distinct, holds.reads, by simp [idle], fun other member => ?_⟩
        rcases accounted other member with there | missing | past
        · rw [rest] at there
          rcases List.mem_cons.mp there with rfl | later
          · exact .inr (.inl (by simp))
          · exact .inl later
        · exact .inr (.inl (List.mem_append_left _ missing))
        · exact .inr (.inr (.inr past))
      case h_2 row held =>
        have wider : ∀ other, other ∈ now.targets → other ∈ (now.rows.set id row).map Prod.fst :=
          fun other member => (InsertionMap.mem_keys_modify _).mpr (.inr member)
        have named : id ∈ (now.rows.set id row).map Prod.fst :=
          (InsertionMap.mem_keys_modify _).mpr (.inl rfl)
        simp only at read
        split at read
        case h_1 none_ =>
          cases read
          refine ⟨holds.distinct.modify _, ?reads, by simp [idle], fun other member => ?_⟩
          case reads =>
            intro other member
            rcases List.mem_cons.mp member with rfl | old
            · exact ⟨named, by simp [none_], by simp⟩
            · exact (holds.reads other old).mono wider
          rcases accounted other member with there | missing | ⟨past, old, same⟩
          · rw [rest] at there
            rcases List.mem_cons.mp there with rfl | later
            · exact .inr (.inr (.inr ⟨_, List.mem_cons_self, rfl⟩))
            · exact .inl later
          · exact .inr (.inl missing)
          · exact .inr (.inr (.inr ⟨past, List.mem_cons_of_mem _ old, same⟩))
        case h_2 subject of =>
          cases read
          refine ⟨holds.distinct.modify _, fun other old => (holds.reads other old).mono wider,
            ?_, fun other member => ?_⟩
          · rintro id' row' subject' there
            obtain ⟨rfl, rfl, rfl⟩ := by simpa using there
            exact ⟨named, of⟩
          rcases accounted other member with there | missing | past
          · rw [rest] at there
            rcases List.mem_cons.mp there with rfl | later
            · exact .inr (.inr (.inl ⟨row, subject, rfl⟩))
            · exact .inl later
          · exact .inr (.inl missing)
          · exact .inr (.inr (.inr past))

theorem resolved_all {ids : List String} {memory : MemoryTable} {now : Resolving}
    (holds : ResolvingHolds ids now) (done : resolveNext memory now = none)
    (found : now.missing = [])
    : ∀ id ∈ ids, ∃ read ∈ now.reads, read.id = id := by
  unfold resolveNext at done
  split at done
  · contradiction
  case h_2 idle =>
    split at done
    case h_1 finished =>
      intro id member
      rcases holds.accounted id member with todo | missing | ⟨_, _, there⟩ | past
      · simp [finished] at todo
      · simp [found] at missing
      · rw [idle] at there
        contradiction
      · exact past
    case h_2 =>
      split at done
      · contradiction
      · simp only at done
        split at done <;> contradiction

end Flair.Purges
