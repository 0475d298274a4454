import Flair.Archives.StrictJson

/-! Strict UTF-8 decoding of an archive's bytes, and the offset of a refusal, found by bisection:
the first byte after which nothing well formed can follow.
-/

namespace Flair.Archives

-- The decoder

/-- The state of a UTF-8 decoder between two bytes: the continuation bytes still needed, the
range the next one must lie in, and the code point so far.
-/
structure Utf8Decoder where
  needed : Nat
  lower : Nat
  upper : Nat
  codePoint : Nat
  inhabited : lower ≤ upper

namespace Utf8Decoder

def start : Utf8Decoder := ⟨0, 0x80, 0xbf, 0, by decide⟩

/-- After a byte that begins a sequence of more than one; none when no sequence begins so. -/
def lead (byte : Nat) : Option Utf8Decoder :=
  if 0xc2 ≤ byte ∧ byte ≤ 0xdf then some ⟨1, 0x80, 0xbf, byte - 0xc0, by decide⟩
  else if byte = 0xe0 then some ⟨2, 0xa0, 0xbf, byte - 0xe0, by decide⟩
  else if byte = 0xed then some ⟨2, 0x80, 0x9f, byte - 0xe0, by decide⟩
  else if 0xe1 ≤ byte ∧ byte ≤ 0xef then some ⟨2, 0x80, 0xbf, byte - 0xe0, by decide⟩
  else if byte = 0xf0 then some ⟨3, 0x90, 0xbf, byte - 0xf0, by decide⟩
  else if byte = 0xf4 then some ⟨3, 0x80, 0x8f, byte - 0xf0, by decide⟩
  else if 0xf1 ≤ byte ∧ byte ≤ 0xf3 then some ⟨3, 0x80, 0xbf, byte - 0xf0, by decide⟩
  else none

def next (decoder : Utf8Decoder) (byte : Nat) : Option (Utf8Decoder × List Nat) :=
  if decoder.needed = 0 then
    if byte ≤ 0x7f then some (start, [byte]) else (lead byte).map fun next => (next, [])
  else if byte < decoder.lower ∨ decoder.upper < byte then none
  else
    let codePoint := decoder.codePoint * 64 + (byte - 0x80)
    if decoder.needed = 1 then some (start, [codePoint])
    else some (⟨decoder.needed - 1, 0x80, 0xbf, codePoint, by decide⟩, [])

/-- `decode` of bytes with more to come. -/
def decode (decoder : Utf8Decoder) : List Nat → Option (Utf8Decoder × List Nat)
  | [] => some (decoder, [])
  | byte :: bytes => do
      let (decoder, codePoints) ← decoder.next byte
      let (decoder, others) ← decoder.decode bytes
      return (decoder, codePoints ++ others)

end Utf8Decoder

def codePointUnits (codePoint : Nat) : Units :=
  if codePoint < 0x10000 then [codePoint]
  else [0xd800 + (codePoint - 0x10000) / 0x400, 0xdc00 + (codePoint - 0x10000) % 0x400]

/-- `strictUtf8Decoder().decode`: nothing may be needed at the end. -/
def strictDecode (bytes : List Nat) : Option Units :=
  match Utf8Decoder.start.decode bytes with
  | some (decoder, codePoints) =>
    if decoder.needed = 0 then some (codePoints.flatMap codePointUnits) else none
  | none => none

def acceptsPrefix (bytes : List Nat) (last : Nat) : Bool :=
  (Utf8Decoder.start.decode (bytes.take last)).isSome

def boundary (accepts : Nat → Bool) (lo hi : Nat) : Nat :=
  if 1 < hi - lo then
    let mid := lo + (hi - lo) / 2
    if accepts mid then boundary accepts mid hi else boundary accepts lo mid
  else hi
termination_by hi - lo
decreasing_by all_goals omega

def illFormedUtf8Offset (bytes : List Nat) : Nat :=
  if acceptsPrefix bytes bytes.length then bytes.length
  else boundary (acceptsPrefix bytes) 0 bytes.length - 1

structure Utf8Refusal where
  offset : Nat
  reason : String

def decodeStrictUtf8 (bytes : List Nat) : Except Utf8Refusal Units :=
  match strictDecode bytes with
  | some text => .ok text
  | none =>
    let offset := illFormedUtf8Offset bytes
    .error {
      offset
      reason :=
        if offset = bytes.length then "the input ends inside a multi-byte UTF-8 sequence"
        else "the input is not well-formed UTF-8" }

-- Well-formed UTF-8

def wellFormedSequences : List (List (Nat × Nat)) :=
  [[(0x00, 0x7f)],
    [(0xc2, 0xdf), (0x80, 0xbf)],
    [(0xe0, 0xe0), (0xa0, 0xbf), (0x80, 0xbf)],
    [(0xe1, 0xec), (0x80, 0xbf), (0x80, 0xbf)],
    [(0xed, 0xed), (0x80, 0x9f), (0x80, 0xbf)],
    [(0xee, 0xef), (0x80, 0xbf), (0x80, 0xbf)],
    [(0xf0, 0xf0), (0x90, 0xbf), (0x80, 0xbf), (0x80, 0xbf)],
    [(0xf1, 0xf3), (0x80, 0xbf), (0x80, 0xbf), (0x80, 0xbf)],
    [(0xf4, 0xf4), (0x80, 0x8f), (0x80, 0xbf), (0x80, 0xbf)]]

def Fits (ranges : List (Nat × Nat)) (bytes : List Nat) : Prop :=
  List.Forall₂ (fun range byte => range.1 ≤ byte ∧ byte ≤ range.2) ranges bytes

/-- Bytes that are sequences of code points one after the other. -/
inductive WellFormedUtf8 : List Nat → Prop where
  | nil : WellFormedUtf8 []
  | more {ranges : List (Nat × Nat)} {front rest : List Nat}
      (sequence : ranges ∈ wellFormedSequences) (fits : Fits ranges front)
      (others : WellFormedUtf8 rest)
      : WellFormedUtf8 (front ++ rest)

def BeginsUtf8 (bytes : List Nat) : Prop := ∃ more, WellFormedUtf8 (bytes ++ more)

def Finishes (ranges : List (Nat × Nat)) (bytes : List Nat) : Prop :=
  ∃ front rest, bytes = front ++ rest ∧ Fits ranges front ∧ WellFormedUtf8 rest

theorem finishes_nil {bytes : List Nat} : Finishes [] bytes ↔ WellFormedUtf8 bytes := by
  constructor
  · rintro ⟨front, rest, rfl, fits, others⟩
    cases fits
    exact others
  · exact fun wellFormed => ⟨[], bytes, rfl, .nil, wellFormed⟩

theorem finishes_cons {range : Nat × Nat} {ranges : List (Nat × Nat)} {byte : Nat}
    {bytes : List Nat}
    : Finishes (range :: ranges) (byte :: bytes)
      ↔ (range.1 ≤ byte ∧ byte ≤ range.2) ∧ Finishes ranges bytes := by
  constructor
  · rintro ⟨front, rest, same, fits, others⟩
    cases fits with
    | cons inRange fits =>
      cases same
      exact ⟨inRange, _, _, rfl, fits, others⟩
  · rintro ⟨inRange, front, rest, rfl, fits, others⟩
    exact ⟨byte :: front, rest, rfl, .cons inRange fits, others⟩

theorem wellFormedUtf8_cons {byte : Nat} {bytes : List Nat}
    : WellFormedUtf8 (byte :: bytes)
      ↔ ∃ ranges ∈ wellFormedSequences, Finishes ranges (byte :: bytes) := by
  constructor
  · intro wellFormed
    generalize same : byte :: bytes = all at wellFormed
    cases wellFormed with
    | nil => cases same
    | more sequence fits others => exact ⟨_, sequence, _, _, rfl, fits, others⟩
  · rintro ⟨ranges, sequence, front, rest, same, fits, others⟩
    rw [same]
    exact .more sequence fits others

-- The decoder and the table

def Utf8Decoder.pending (decoder : Utf8Decoder) : List (Nat × Nat) :=
  match decoder.needed with
  | 0 => []
  | needed + 1 => (decoder.lower, decoder.upper) :: List.replicate needed (0x80, 0xbf)

theorem finishes_lead (byte : Nat) (bytes : List Nat)
    : WellFormedUtf8 (byte :: bytes)
      ↔ byte ≤ 0x7f ∧ WellFormedUtf8 bytes
        ∨ ¬ byte ≤ 0x7f ∧ ∃ next, Utf8Decoder.lead byte = some next
          ∧ Finishes next.pending bytes := by
  rw [wellFormedUtf8_cons]
  simp only [wellFormedSequences, List.exists_mem_cons_iff, List.not_mem_nil, false_and,
    exists_false, or_false, finishes_cons, finishes_nil]
  generalize WellFormedUtf8 bytes = one
  unfold Utf8Decoder.lead
  repeat' split
  all_goals
    simp only [Option.some.injEq, exists_eq_left', Utf8Decoder.pending, List.replicate, reduceCtorEq,
      false_and, exists_false, and_false, or_false]
    grind

theorem finishes_next (decoder : Utf8Decoder) (byte : Nat) (bytes : List Nat)
    : Finishes decoder.pending (byte :: bytes)
      ↔ ∃ after, decoder.next byte = some after ∧ Finishes after.1.pending bytes := by
  obtain ⟨needed, lower, upper, codePoint, _⟩ := decoder
  unfold Utf8Decoder.next
  cases needed with
  | zero =>
    refine finishes_nil.trans ((finishes_lead byte bytes).trans ?_)
    rw [if_pos rfl]
    split <;> rename_i plain
    · simp only [plain, true_and, not_true_eq_false, false_and, or_false, Option.some.injEq,
        exists_eq_left']
      exact finishes_nil.symm
    · simp only [plain, false_and, not_false_eq_true, true_and, false_or, Option.map_eq_some_iff]
      constructor
      · rintro ⟨next, leads, finishes⟩
        exact ⟨_, ⟨next, leads, rfl⟩, finishes⟩
      · rintro ⟨_, ⟨next, leads, rfl⟩, finishes⟩
        exact ⟨next, leads, finishes⟩
  | succ needed =>
    refine finishes_cons.trans ?_
    dsimp only
    rw [if_neg (Nat.succ_ne_zero _)]
    split <;> rename_i range
    · simp only [reduceCtorEq, false_and, exists_false, iff_false, not_and]
      omega
    rw [and_iff_right (by omega)]
    cases needed with
    | zero => simp [Utf8Decoder.pending, Utf8Decoder.start]
    | succ needed => simp [Utf8Decoder.pending, List.replicate_succ]

theorem finishes_decode (decoder : Utf8Decoder) (bytes more : List Nat)
    : Finishes decoder.pending (bytes ++ more)
      ↔ ∃ after, decoder.decode bytes = some after ∧ Finishes after.1.pending more := by
  induction bytes generalizing decoder with
  | nil => simp [Utf8Decoder.decode]
  | cons byte bytes ih =>
    rw [List.cons_append, finishes_next]
    simp only [ih, Utf8Decoder.decode]
    constructor
    · rintro ⟨next, taken, after, decoded, finishes⟩
      exact ⟨(after.1, next.2 ++ after.2), by simp [taken, decoded], finishes⟩
    rintro ⟨after, decoded, finishes⟩
    obtain ⟨next, taken, others⟩ := Option.bind_eq_some_iff.mp decoded
    obtain ⟨last, rest, same⟩ := Option.bind_eq_some_iff.mp others
    cases same
    exact ⟨next, taken, last, rest, finishes⟩

theorem finishes_end (decoder : Utf8Decoder) : Finishes decoder.pending [] ↔ decoder.needed = 0 := by
  obtain ⟨needed, lower, upper, codePoint, _⟩ := decoder
  cases needed with
  | zero => exact iff_of_true (finishes_nil.mpr .nil) rfl
  | succ needed =>
    refine iff_of_false ?_ (Nat.succ_ne_zero _)
    rintro ⟨front, rest, same, fits, -⟩
    cases fits
    cases same

theorem Utf8Decoder.finishable (decoder : Utf8Decoder) : ∃ more, Finishes decoder.pending more := by
  refine ⟨decoder.pending.map Prod.fst, _, [], (List.append_nil _).symm, ?_, .nil⟩
  have inhabited : ∀ range ∈ decoder.pending, range.1 ≤ range.2 := by
    obtain ⟨needed, lower, upper, codePoint, inhabited⟩ := decoder
    cases needed with
    | zero => exact List.forall_mem_nil _
    | succ needed =>
      refine List.forall_mem_cons.mpr ⟨inhabited, fun range member => ?_⟩
      rw [List.eq_of_mem_replicate member]
      decide
  unfold Fits
  rw [List.forall₂_map_right_iff, List.forall₂_same]
  exact fun range member => ⟨Nat.le_refl _, inhabited range member⟩

theorem isSome_strictDecode (bytes : List Nat)
    : (strictDecode bytes).isSome = true ↔ WellFormedUtf8 bytes := by
  have whole := finishes_decode .start bytes []
  rw [List.append_nil] at whole
  rw [← finishes_nil, show ([] : List (Nat × Nat)) = Utf8Decoder.start.pending from rfl, whole]
  simp only [finishes_end]
  unfold strictDecode
  cases Utf8Decoder.start.decode bytes with
  | none => simp
  | some after => by_cases ended : after.1.needed = 0 <;> simp [ended]

theorem acceptsPrefix_iff (bytes : List Nat) (last : Nat)
    : acceptsPrefix bytes last = true ↔ BeginsUtf8 (bytes.take last) := by
  unfold acceptsPrefix BeginsUtf8
  simp only [← finishes_nil]
  constructor
  · intro decoded
    obtain ⟨after, decoded⟩ := Option.isSome_iff_exists.mp decoded
    obtain ⟨more, finishes⟩ := after.1.finishable
    exact ⟨more, (finishes_decode .start _ more).mpr ⟨after, decoded, finishes⟩⟩
  · rintro ⟨more, finishes⟩
    obtain ⟨after, decoded, -⟩ := (finishes_decode .start _ more).mp finishes
    exact Option.isSome_iff_exists.mpr ⟨after, decoded⟩

-- The offset

theorem boundary_spec (accepts : Nat → Bool) (lo hi : Nat) (less : lo < hi)
    (accepted : accepts lo = true) (refused : accepts hi = false)
    : boundary accepts lo hi ≤ hi ∧ 0 < boundary accepts lo hi
      ∧ accepts (boundary accepts lo hi - 1) = true
      ∧ accepts (boundary accepts lo hi) = false := by
  fun_induction boundary accepts lo hi with
  | case1 lo hi apart mid middle ih => exact ih (by omega) middle refused
  | case2 lo hi apart mid middle ih =>
    obtain ⟨below, others⟩ := ih (by omega) accepted (Bool.eq_false_iff.mpr middle)
    exact ⟨by omega, others⟩
  | case3 lo hi near =>
    obtain rfl : hi = lo + 1 := by omega
    exact ⟨Nat.le_refl _, Nat.succ_pos _, accepted, refused⟩

/-- Where a refusal points: the longest prefix that well-formed text can begin with. -/
structure FirstRefused (bytes : List Nat) (offset : Nat) : Prop where
  inside : offset ≤ bytes.length
  before : BeginsUtf8 (bytes.take offset)
  refused : offset < bytes.length → ¬ BeginsUtf8 (bytes.take (offset + 1))

theorem illFormedUtf8Offset_spec (bytes : List Nat)
    : FirstRefused bytes (illFormedUtf8Offset bytes) := by
  unfold illFormedUtf8Offset
  split <;> rename_i whole
  · exact ⟨Nat.le_refl _, (acceptsPrefix_iff _ _).mp whole, fun less => absurd less (Nat.lt_irrefl _)⟩
  have refused := Bool.eq_false_iff.mpr whole
  have empty : acceptsPrefix bytes 0 = true := rfl
  have less : 0 < bytes.length := by
    refine Nat.pos_of_ne_zero fun none => ?_
    rw [none] at whole
    exact whole empty
  obtain ⟨inside, after, before, here⟩ := boundary_spec _ 0 bytes.length less empty refused
  refine ⟨by omega, (acceptsPrefix_iff _ _).mp before, fun _ begins => ?_⟩
  rw [Nat.sub_add_cancel after, ← acceptsPrefix_iff, here] at begins
  cases begins

end Flair.Archives
