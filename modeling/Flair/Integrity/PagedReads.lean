import Flair.Foundations.Objects
import Mathlib.Data.String.Basic

/-! The keyset walk over a table by primary key, while rows come and go between its pages.
Follows `src/memory-id-checkpoint.ts`.
-/

namespace Flair.Integrity

open Dynamic

-- The table and its queries

structure IdOrder where
  lt : String → String → Prop
  decides : DecidableRel lt
  total : IsStrictTotalOrder String lt

attribute [instance] IdOrder.decides IdOrder.total

structure IdRow where
  id : String
  columns : Record

abbrev Increasing (order : IdOrder) (rows : List IdRow) : Prop :=
  rows.Pairwise fun left right => order.lt left.id right.id

structure IdTable (order : IdOrder) where
  rows : List IdRow
  sorted : Increasing order rows

def sqlQuote : Char := '\x27'

/-- `lastId.replace(/'/g, "''")` -/
def quoteLiteral (id : List Char) : List Char :=
  id.flatMap fun c => if c = sqlQuote then [sqlQuote, sqlQuote] else [c]

/-- The string a literal stands for by its text between the quotes; what a backslash would
mean in it is left open.
-/
def readLiteral : List Char → Option (List Char)
  | [] => some []
  | [c] => if c = sqlQuote ∨ c = '\\' then none else some [c]
  | c :: d :: rest =>
    if c = sqlQuote then
      if d = sqlQuote then (readLiteral rest).map (sqlQuote :: ·) else none
    else if c = '\\' then none
    else (readLiteral (d :: rest)).map (c :: ·)

/-- `SELECT … [WHERE (filter) AND id > 'after'] ORDER BY id LIMIT limit` -/
structure PageQuery where
  filter : Option String
  after : Option (List Char)
  limit : Nat

def past (order : IdOrder) (cursor : Option String) (row : IdRow) : Bool :=
  cursor.all fun last => order.lt last row.id

variable {order : IdOrder} (holds : String → IdRow → Bool)

def IdTable.matching (table : IdTable order) (filter : Option String) : List IdRow :=
  table.rows.filter fun row => filter.all (holds · row)

def IdTable.answer (table : IdTable order) (query : PageQuery) : Option (List IdRow) :=
  match query.after with
  | none => some ((table.matching holds query.filter).take query.limit)
  | some literal =>
    (readLiteral literal).map fun id =>
      ((table.matching holds query.filter).filter (past order (String.ofList id))).take
        query.limit

-- The walk

inductive ReadError where
  | plain (message : String)
  | inconsistentRead (message : String)

structure KeysetReadOptions where
  table : String
  filter : Option String
  expected : Nat
  pageSize : Rat
  maxPages : Rat
  mismatch : Nat → Nat → ReadError

structure Walk where
  rows : List IdRow
  lastId : Option String

structure Reading where
  pages : Nat
  probes : Nat
  outcome : Except ReadError (List IdRow)

def KeysetReadOptions.condition (opts : KeysetReadOptions) : Option String :=
  opts.filter.filter (· ≠ "")

def Walk.push (opts : KeysetReadOptions) (walk : Walk) (row : IdRow) : Except ReadError Walk :=
  if row.id = "" then
    .error (.plain (opts.table ++ " search returned a row without a usable id"))
  else if walk.rows.any fun seen => seen.id = row.id then
    .error (.inconsistentRead
      (opts.table ++ " search returned duplicate id " ++ row.id ++ " across pages"))
  else .ok ⟨walk.rows ++ [row], some row.id⟩

def hasBackslash (cursor : Option String) : Bool := cursor.any fun last => '\\' ∈ last.toList

def unsupportedCursor (opts : KeysetReadOptions) : ReadError :=
  .plain (opts.table ++ " cursor contains an unsupported backslash")

def pageQuery (opts : KeysetReadOptions) (cursor : Option String) (limit : Nat) : PageQuery :=
  ⟨opts.condition, cursor.map fun last => quoteLiteral last.toList, limit⟩

def Walk.finish (opts : KeysetReadOptions) (walk : Walk) : Except ReadError (List IdRow) :=
  if walk.rows.length ≠ opts.expected then .error (opts.mismatch opts.expected walk.rows.length)
  else .ok walk.rows

def probeStep (opts : KeysetReadOptions) (allowance : Nat)
    (ask : Nat → PageQuery → Option (List IdRow)) (pages : Nat) (walk : Walk)
    : Reading :=
  if hasBackslash walk.lastId then ⟨pages, 0, .error (unsupportedCursor opts)⟩
  else
    let probe := ask pages (pageQuery opts walk.lastId 1)
    if (probe.any List.isEmpty) && walk.rows.length = opts.expected then
      ⟨pages, 1, walk.finish opts⟩
    else ⟨pages, 1, .error (.plain (opts.table ++ " read reached the " ++ toString allowance
      ++ "-page cap"))⟩

def readPages (opts : KeysetReadOptions) (size allowance : Nat)
    (ask : Nat → PageQuery → Option (List IdRow))
    : Nat → Nat → Walk → Reading
  | 0, page, walk => ⟨page, 0, walk.finish opts⟩
  | left + 1, page, walk =>
    if hasBackslash walk.lastId then ⟨page, 0, .error (unsupportedCursor opts)⟩
    else
      match ask page (pageQuery opts walk.lastId size) with
      | none =>
        ⟨page + 1, 0, .error (.plain (opts.table ++ " search returned a body that is "
          ++ "neither a row array nor \x7b results: [...] \x7d"))⟩
      | some batch =>
        match batch.foldlM (Walk.push opts) walk with
        | .error error => ⟨page + 1, 0, .error error⟩
        | .ok next =>
          if batch.length < size then ⟨page + 1, 0, next.finish opts⟩
          else if left = 0 then probeStep opts allowance ask (page + 1) next
          else readPages opts size allowance ask left (page + 1) next

def pagingBound (bound : Rat) : Option Nat := (safeCount (some (.num bound))).filter (0 < ·)

def pageAllowance (expected size maxPages : Nat) : Nat :=
  min maxPages ((expected + size - 1) / size + 1)

def readTableByIdPaged (opts : KeysetReadOptions) (tables : Nat → IdTable order) : Reading :=
  match pagingBound opts.pageSize, pagingBound opts.maxPages with
  | some size, some maxPages =>
    let allowance := pageAllowance opts.expected size maxPages
    readPages opts size allowance (fun time => (tables time).answer holds) allowance 0 ⟨[], none⟩
  | _, _ => ⟨0, 0, .error (.plain "invalid keyset paging bounds")⟩

-- Queries and batches

theorem readLiteral_quoteLiteral {id : List Char} (h : '\\' ∉ id)
    : readLiteral (quoteLiteral id) = some id := by
  induction id with
  | nil => rfl
  | cons c rest ih =>
    simp only [List.mem_cons, not_or] at h
    have tail := ih h.2
    have plain : c ≠ '\\' := fun same => h.1 same.symm
    rw [quoteLiteral, List.flatMap_cons, ← quoteLiteral]
    by_cases quote : c = sqlQuote
    · simp [quote, readLiteral, tail]
    rw [if_neg quote]
    cases next : quoteLiteral rest with
    | nil =>
      rw [next] at tail
      cases tail
      simp [readLiteral, quote, plain]
    | cons d more =>
      rw [next] at tail
      simp [readLiteral, quote, plain, tail]

theorem answer_pageQuery (table : IdTable order) (opts : KeysetReadOptions)
    {cursor : Option String} (plain : hasBackslash cursor = false) (limit : Nat)
    : table.answer holds (pageQuery opts cursor limit)
      = some (((table.matching holds opts.condition).filter (past order cursor)).take limit) := by
  cases cursor with
  | none =>
    have every : past order none = fun _ => true := rfl
    simp [IdTable.answer, pageQuery, every]
  | some last =>
    have safe : '\\' ∉ last.toList := by simpa [hasBackslash] using plain
    simp [IdTable.answer, pageQuery, readLiteral_quoteLiteral safe]

theorem IdTable.matching_sorted (table : IdTable order) (filter : Option String)
    : Increasing order (table.matching holds filter) :=
  table.sorted.filter _

variable {opts : KeysetReadOptions} {walk next : Walk} {batch : List IdRow}

theorem foldlM_push (taken : batch.foldlM (Walk.push opts) walk = .ok next)
    : next.rows = walk.rows ++ batch
      ∧ next.lastId = (batch.getLast?.map IdRow.id).or walk.lastId := by
  induction batch generalizing walk with
  | nil =>
    cases taken
    simp
  | cons row rest ih =>
    rw [List.foldlM_cons] at taken
    unfold Walk.push at taken
    split at taken
    · cases taken
    split at taken
    · cases taken
    · obtain ⟨rows, lastId⟩ := ih taken
      refine ⟨by simpa using rows, lastId.trans ?_⟩
      cases rest <;> simp [List.getLast?_cons]

theorem foldlM_push_ok (named : ∀ row ∈ batch, row.id ≠ "")
    (distinct : ((walk.rows ++ batch).map IdRow.id).Nodup)
    : ∃ next, batch.foldlM (Walk.push opts) walk = .ok next := by
  induction batch generalizing walk with
  | nil => exact ⟨walk, rfl⟩
  | cons row rest ih =>
    have fresh : (walk.rows.any fun seen => seen.id = row.id) = false := by
      simp only [List.any_eq_false, decide_eq_true_eq]
      intro seen member same
      simp only [List.map_append, List.map_cons] at distinct
      exact (List.nodup_append.mp distinct).2.2 seen.id (List.mem_map_of_mem member) row.id
        (by simp) same
    have filled : row.id ≠ "" := named row (by simp)
    obtain ⟨next, taken⟩ := @ih ⟨walk.rows ++ [row], some row.id⟩
      (fun other member => named other (by simp [member])) (by simpa using distinct)
    refine ⟨next, ?_⟩
    rw [List.foldlM_cons, Walk.push, if_neg filled, if_neg (by simp [fresh])]
    exact taken

-- What a walk holds

/-- The rows read are in order, none past the last id, and with them is every row not past it
that matched at each request so far.
-/
structure Walk.Sound (order : IdOrder) (matching : Nat → List IdRow) (time : Nat) (walk : Walk)
    : Prop where
  sorted : Increasing order walk.rows
  behind : ∀ row ∈ walk.rows, past order walk.lastId row = false
  complete :
    ∀ row, (∀ moment < time, row ∈ matching moment) → past order walk.lastId row = false
      → row ∈ walk.rows

variable {matching : Nat → List IdRow} {time size : Nat}

theorem lt_of_past {left right : IdRow} {cursor : Option String}
    (behind : past order cursor left = false) (ahead : past order cursor right = true)
    : order.lt left.id right.id := by
  cases cursor with
  | none => cases behind
  | some last =>
    simp only [past, Option.all_some, decide_eq_false_iff_not, decide_eq_true_eq]
      at behind ahead
    rcases trichotomous_of order.lt left.id last with less | same | more
    · exact trans_of order.lt less ahead
    · exact same ▸ ahead
    · exact absurd more behind

theorem Walk.Sound.page (sound : walk.Sound order matching time) (room : 0 < size)
    (sorted : Increasing order (matching time))
    (read : batch = ((matching time).filter (past order walk.lastId)).take size)
    (rows : next.rows = walk.rows ++ batch)
    (cursor : next.lastId = (batch.getLast?.map IdRow.id).or walk.lastId)
    : next.Sound order matching (time + 1) := by
  have ahead : ∀ row ∈ batch, past order walk.lastId row = true := fun row member =>
    (List.mem_filter.mp (List.mem_of_mem_take (read ▸ member))).2
  have ordered : Increasing order ((matching time).filter (past order walk.lastId)) :=
    sorted.filter _
  have reached (row : IdRow) (member : row ∈ next.rows) : past order next.lastId row = false := by
    rw [rows] at member
    rw [cursor]
    cases final : batch.getLast? with
    | none =>
      obtain rfl := List.getLast?_eq_none_iff.mp final
      exact sound.behind row (by simpa using member)
    | some last =>
      obtain ⟨front, rfl⟩ := List.getLast?_eq_some_iff.mp final
      simp only [Option.map_some, Option.some_or, past, Option.all_some,
        decide_eq_false_iff_not]
      intro less
      rcases List.mem_append.mp member with old | fresh
      · exact asymm_of order.lt less (lt_of_past (sound.behind row old) (ahead last (by simp)))
      rcases List.mem_append.mp fresh with early | same
      · have apart := read ▸ ordered.take
        exact asymm_of order.lt less
          ((List.pairwise_append.mp apart).2.2 row early last (by simp))
      · exact irrefl_of order.lt last.id (by simpa [List.mem_singleton.mp same] using less)
  refine ⟨?_, reached, fun row present behind => ?_⟩
  · rw [rows]
    exact List.pairwise_append.mpr ⟨sound.sorted, read ▸ ordered.take, fun left old right fresh =>
      lt_of_past (sound.behind left old) (ahead right fresh)⟩
  · rw [rows, List.mem_append]
    by_cases early : past order walk.lastId row = false
    · exact .inl (sound.complete row (fun moment before => present moment (by omega)) early)
    have waiting : row ∈ (matching time).filter (past order walk.lastId) :=
      List.mem_filter.mpr ⟨present time (by omega), by simpa using early⟩
    rw [← List.take_append_drop size ((matching time).filter _)] at waiting
    rcases List.mem_append.mp waiting with taken | left
    · exact .inr (read ▸ taken)
    -- a row beyond a full page is past its last id
    exfalso
    have full : batch ≠ [] := by
      intro empty
      have short := congrArg List.length (read.symm.trans empty)
      have many := List.length_pos_of_mem left
      simp only [List.length_take, List.length_nil, List.length_drop] at short many
      omega
    rw [cursor, List.getLast?_eq_getLast_of_ne_nil full] at behind
    rw [← List.take_append_drop size ((matching time).filter _), ← read] at ordered
    have beyond := (List.pairwise_append.mp ordered).2.2 _ (List.getLast_mem full) row left
    simp [past, beyond] at behind

/-- After a page that is not full, or one past which a later request finds no row, the walk
has every row that was present throughout.
-/
theorem Walk.Sound.everything (sound : next.Sound order matching time)
    (final : (matching time).filter (past order next.lastId) = []) {row : IdRow}
    (present : ∀ moment ≤ time, row ∈ matching moment)
    : row ∈ next.rows := by
  refine sound.complete row (fun moment before => present moment before.le) ?_
  have none := List.filter_eq_nil_iff.mp final row (present time le_rfl)
  simpa using none

theorem Walk.Sound.ended (sound : walk.Sound order matching time)
    (read : batch = ((matching time).filter (past order walk.lastId)).take size)
    (short : batch.length < size) (rows : next.rows = walk.rows ++ batch) {row : IdRow}
    (present : ∀ moment ≤ time, row ∈ matching moment)
    : row ∈ next.rows := by
  rw [rows, List.mem_append]
  by_cases early : past order walk.lastId row = false
  · exact .inl (sound.complete row (fun moment before => present moment before.le) early)
  · rw [read, List.length_take] at short
    rw [read, List.take_of_length_le (by omega)]
    exact .inr (List.mem_filter.mpr ⟨present time le_rfl, by simpa using early⟩)

-- Whole walks

/-- What a returned walk is: as many rows as expected, in strictly increasing order of ids, and
among them every row that matched at each of its requests.
-/
structure Reading.Complete (order : IdOrder) (matching : Nat → List IdRow) (expected : Nat)
    (reading : Reading)
    : Prop where
  probes : reading.probes ≤ 1
  increasing : ∀ rows, reading.outcome = .ok rows → Increasing order rows
  count : ∀ rows, reading.outcome = .ok rows → rows.length = expected
  present :
    ∀ rows, reading.outcome = .ok rows
      → ∀ row, (∀ moment < reading.pages + reading.probes, row ∈ matching moment) → row ∈ rows

theorem Reading.Complete.failed {pages probes : Nat} {error : ReadError} {expected : Nat}
    (few : probes ≤ 1)
    : Reading.Complete order matching expected ⟨pages, probes, .error error⟩ :=
  ⟨few, nofun, nofun, nofun⟩

theorem Reading.Complete.finished {pages probes : Nat} (few : probes ≤ 1)
    (sorted : Increasing order walk.rows)
    (every : ∀ row, (∀ moment < pages + probes, row ∈ matching moment) → row ∈ walk.rows)
    : Reading.Complete order matching opts.expected ⟨pages, probes, walk.finish opts⟩ := by
  unfold Walk.finish
  split
  · exact .failed few
  rename_i same
  refine ⟨few, ?_, ?_, ?_⟩ <;> rintro rows ⟨⟩
  · exact sorted
  · exact not_not.mp same
  · exact every

variable (tables : Nat → IdTable order)

abbrev matchingAt (opts : KeysetReadOptions) (moment : Nat) : List IdRow :=
  (tables moment).matching holds opts.condition

theorem probeStep_complete (allowance : Nat) {pages : Nat}
    (sound : walk.Sound order (matchingAt holds tables opts) pages)
    : (probeStep opts allowance (fun moment => (tables moment).answer holds) pages walk).pages
        = pages
      ∧ (probeStep opts allowance (fun moment => (tables moment).answer holds) pages walk).Complete
        order (matchingAt holds tables opts) opts.expected := by
  unfold probeStep
  split
  · exact ⟨rfl, .failed (by simp)⟩
  rename_i plain
  simp only [answer_pageQuery holds _ _ (by simpa using plain)]
  split
  · rename_i found
    have final : List.filter (past order walk.lastId)
        ((tables pages).matching holds opts.condition) = [] := by
      simp only [Option.any_some, List.isEmpty_iff, Bool.and_eq_true, List.take_eq_nil_iff,
        one_ne_zero, false_or] at found
      exact found.1
    exact ⟨rfl, .finished le_rfl sound.sorted fun row present =>
      sound.everything final fun moment before => present moment (by omega)⟩
  · exact ⟨rfl, .failed le_rfl⟩

theorem readPages_complete (room : 0 < size) (allowance left page : Nat)
    (sound : walk.Sound order (matchingAt holds tables opts) page)
    {reading : Reading}
    (made : readPages opts size allowance (fun moment => (tables moment).answer holds) (left + 1)
      page walk = reading)
    : reading.pages ≤ page + left + 1
      ∧ reading.Complete order (matchingAt holds tables opts)
        opts.expected := by
  induction left using Nat.strong_induction_on generalizing page walk reading with
  | h left ih =>
    subst made
    unfold readPages
    split
    · exact ⟨by dsimp only; omega, .failed (by simp)⟩
    rename_i supported
    rw [answer_pageQuery holds _ _ (by simpa using supported)]
    dsimp only
    split
    · exact ⟨by dsimp only; omega, .failed (by simp)⟩
    rename_i next taken
    obtain ⟨rows, cursor⟩ := foldlM_push taken
    have after := sound.page room ((tables page).matching_sorted holds _) rfl rows cursor
    split
    · rename_i short
      exact ⟨by dsimp only; omega, .finished (by simp) after.sorted fun row present =>
        sound.ended rfl short rows fun moment before => present moment (by omega)⟩
    cases left with
    | zero =>
      rw [if_pos rfl]
      obtain ⟨pages, complete⟩ := probeStep_complete holds tables allowance after
      exact ⟨pages.le, complete⟩
    | succ left =>
      rw [if_neg left.succ_ne_zero]
      obtain ⟨pages, complete⟩ := ih left left.lt_succ_self (page + 1) after rfl
      exact ⟨by omega, complete⟩

-- A table that stays as it is

variable (table : IdTable order)

/-- The walk of an unchanged table after its first pages. -/
def walkOf (rows : List IdRow) (count : Nat) : Walk :=
  ⟨rows.take count, (rows.take count).getLast?.map IdRow.id⟩

/-- The cursor after the rows of the first pages parts them from the rest. -/
theorem filter_past_take {rows : List IdRow} (count : Nat)
    (sorted : Increasing order rows)
    : rows.filter (past order (walkOf rows count).lastId) = rows.drop count := by
  simp only [walkOf]
  rw [← List.take_append_drop count rows] at sorted
  obtain ⟨first, -, across⟩ := List.pairwise_append.mp sorted
  cases final : (rows.take count).getLast? with
  | none =>
    have empty := List.getLast?_eq_none_iff.mp final
    have every : past order none = fun _ => true := rfl
    nth_rewrite 1 [← List.take_append_drop count rows]
    simp [empty, every]
  | some last =>
    obtain ⟨front, taken⟩ := List.getLast?_eq_some_iff.mp final
    nth_rewrite 1 [← List.take_append_drop count rows]
    rw [List.filter_append, List.filter_eq_nil_iff.mpr, List.filter_eq_self.mpr, List.nil_append]
    · intro row member
      simpa [past] using across last (by simp [taken]) row member
    intro row member
    rw [taken] at member first
    rcases List.mem_append.mp member with early | same
    · have less := (List.pairwise_append.mp first).2.2 row early last (by simp)
      simpa [past] using fun more => asymm_of order.lt less more
    · simpa [past, List.mem_singleton.mp same] using irrefl_of order.lt last.id

/-- No row has an empty id, and none that ends a full page has a backslash in it. -/
structure Walkable (size : Nat) (rows : List IdRow) : Prop where
  named : ∀ row ∈ rows, row.id ≠ ""
  cursors : ∀ page row, rows[(page + 1) * size - 1]? = some row → '\\' ∉ row.id.toList

theorem Walkable.plain {rows : List IdRow} (walkable : Walkable size rows) (room : 0 < size) {page : Nat}
    (inside : page * size ≤ rows.length)
    : hasBackslash (walkOf rows (page * size)).lastId = false := by
  unfold walkOf
  cases page with
  | zero => simp [hasBackslash]
  | succ page =>
    have filled : 0 < (page + 1) * size := Nat.mul_pos page.succ_pos room
    rw [List.getLast?_take, if_neg filled.ne',
      List.getElem?_eq_getElem (show (page + 1) * size - 1 < rows.length by omega)]
    simpa [hasBackslash] using walkable.cursors page _ (List.getElem?_eq_getElem (by omega))

theorem foldlM_push_walkOf {rows : List IdRow} (named : ∀ row ∈ rows, row.id ≠ "")
    (sorted : Increasing order rows) (count : Nat)
    : ((rows.drop count).take size).foldlM (Walk.push opts) (walkOf rows count)
      = .ok (walkOf rows (count + size)) := by
  have both : rows.take count ++ (rows.drop count).take size = rows.take (count + size) :=
    List.take_add.symm
  have distinct : (((rows.take count) ++ (rows.drop count).take size).map IdRow.id).Nodup := by
    rw [both, List.Nodup, List.pairwise_map]
    refine sorted.take.imp ?_
    intro left right less same
    exact irrefl_of order.lt right.id (same ▸ less)
  obtain ⟨next, taken⟩ := @foldlM_push_ok opts (walkOf rows count) _
    (fun row member => named row (List.mem_of_mem_drop (List.mem_of_mem_take member))) distinct
  obtain ⟨read, last⟩ := foldlM_push taken
  have reached : next = walkOf rows (count + size) := by
    cases next
    simp only at read last
    rw [read, last, walkOf, walkOf, ← both]
    simp [List.getLast?_append, Option.map_or]
  rw [taken, reached]

theorem readPages_unchanged (room : 0 < size) (allowance left page : Nat)
    (walkable : Walkable size (table.matching holds opts.condition))
    (count : (table.matching holds opts.condition).length = opts.expected)
    (inside : page * size ≤ opts.expected) (enough : opts.expected ≤ (page + left + 1) * size)
    : (readPages opts size allowance (fun _ => table.answer holds) (left + 1) page
        (walkOf (table.matching holds opts.condition) (page * size))).outcome
      = .ok (table.matching holds opts.condition) := by
  have sorted := table.matching_sorted holds opts.condition
  generalize rows_eq : table.matching holds opts.condition = rows at walkable count sorted ⊢
  have asked {page : Nat} (inside : page * size ≤ opts.expected) (limit : Nat)
      : table.answer holds (pageQuery opts (walkOf rows (page * size)).lastId limit)
        = some ((rows.drop (page * size)).take limit) := by
    rw [answer_pageQuery holds _ _ (walkable.plain room (count ▸ inside)), rows_eq,
      filter_past_take _ sorted]
  have finished {read : Nat} (all : rows.length ≤ read)
      : (walkOf rows read).finish opts = .ok rows := by
    simp [Walk.finish, walkOf, List.take_of_length_le all, count]
  induction left using Nat.strong_induction_on generalizing page with
  | h left ih =>
    unfold readPages
    rw [if_neg (by simpa using walkable.plain room (count ▸ inside)), asked inside]
    simp only [foldlM_push_walkOf walkable.named sorted, List.length_take, List.length_drop, count]
    split
    · rename_i short
      exact finished (by omega)
    have next : (page + 1) * size ≤ opts.expected := by rw [Nat.succ_mul]; omega
    rw [← Nat.succ_mul, Nat.succ_eq_add_one]
    cases left with
    | zero =>
      have all : rows.length = (page + 1) * size := by rw [count]; simp at enough; omega
      rw [if_pos rfl, probeStep, if_neg (by simpa using walkable.plain room (count ▸ next)),
        asked next, ← all]
      have read : (walkOf rows rows.length).rows.length = opts.expected := by
        simp [walkOf, count]
      simp [finished le_rfl, read]
    | succ left =>
      rw [if_neg left.succ_ne_zero]
      exact ih left left.lt_succ_self (page + 1) next (by convert enough using 2; omega)

variable (opts)

/-- A returned keyset walk has as many rows as expected, in strictly increasing order of ids,
and among them every matching row that was there at each of its requests; it makes at most its
allowance of page reads, and one probe. A table that stays as it is, with as many matching rows
as expected and no more than the cap has room for, is read in full under valid bounds, as long
as no matching row has an empty id and none that ends a full page has a backslash in it.
-/
theorem keyset_walk_complete
    : (∀ size maxPages, pagingBound opts.pageSize = some size
        → pagingBound opts.maxPages = some maxPages
        → (readTableByIdPaged holds opts tables).pages
          ≤ pageAllowance opts.expected size maxPages)
      ∧ (readTableByIdPaged holds opts tables).Complete order
        (matchingAt holds tables opts) opts.expected
      ∧ (∀ size maxPages, pagingBound opts.pageSize = some size
        → pagingBound opts.maxPages = some maxPages
        → (table.matching holds opts.condition).length = opts.expected
        → opts.expected ≤ maxPages * size
        → Walkable size (table.matching holds opts.condition)
        → (readTableByIdPaged holds opts fun _ => table).outcome
          = .ok (table.matching holds opts.condition)) := by
  have start : Walk.Sound order (matchingAt holds tables opts) 0
      ⟨[], none⟩ := ⟨.nil, nofun, nofun⟩
  have positive {bound : Rat} {count : Nat} (h : pagingBound bound = some count) : 0 < count :=
    by simpa using (Option.filter_eq_some_iff.mp h).2
  have allowed {size maxPages : Nat} (some_pages : 0 < maxPages)
      : pageAllowance opts.expected size maxPages
        = pageAllowance opts.expected size maxPages - 1 + 1 := by
    unfold pageAllowance
    generalize (opts.expected + size - 1) / size = pages
    omega
  refine ⟨fun size maxPages room pages => ?_, ?_, ?_⟩
  · simp only [readTableByIdPaged, room, pages]
    rw [allowed (positive pages)]
    exact (readPages_complete holds tables (positive room) _ _ 0 start rfl).1.trans (by omega)
  · unfold readTableByIdPaged
    split
    · rename_i size maxPages room pages
      dsimp only
      rw [allowed (positive pages)]
      exact (readPages_complete holds tables (positive room) _ _ 0 start rfl).2
    · exact .failed (by simp)
  · intro size maxPages room pages count within walkable
    have needed : opts.expected ≤ pageAllowance opts.expected size maxPages * size := by
      have whole := Nat.div_add_mod (opts.expected + size - 1) size
      have rest := Nat.mod_lt (opts.expected + size - 1) (positive room)
      rw [pageAllowance, Nat.min_def]
      split
      · exact within
      · rw [Nat.succ_mul, Nat.mul_comm]
        omega
    have first : walkOf (table.matching holds opts.condition) (0 * size) = ⟨[], none⟩ := by
      simp [walkOf]
    have result := readPages_unchanged holds table (positive room)
      (pageAllowance opts.expected size maxPages)
      (pageAllowance opts.expected size maxPages - 1) 0 walkable count (by simp)
      (by rw [Nat.zero_add, ← allowed (positive pages)]; exact needed)
    rw [first, ← allowed (positive pages)] at result
    simpa only [readTableByIdPaged, room, pages] using result

-- A cursor with a backslash

def codePointOrder : IdOrder := ⟨(· < ·), inferInstance, inferInstance⟩

def backslashTable : IdTable codePointOrder := ⟨[⟨"m\\", ∅⟩], by simp⟩

def onePageRead : KeysetReadOptions :=
  ⟨"Memory", none, 1, 1, 10, fun _ _ => .inconsistentRead "writes during checkpoint"⟩

/-- The table stays as it is and has the expected count, yet the walk throws. -/
theorem backslash_ends_walk
    : (backslashTable.matching (fun _ _ => true) onePageRead.condition).length
        = onePageRead.expected
      ∧ pagingBound onePageRead.pageSize = some 1 ∧ pagingBound onePageRead.maxPages = some 10
      ∧ (readTableByIdPaged (fun _ _ => true) onePageRead fun _ => backslashTable).outcome
        = .error (.plain "Memory cursor contains an unsupported backslash") := by
  exact ⟨rfl, by decide, by decide, rfl⟩

end Flair.Integrity
