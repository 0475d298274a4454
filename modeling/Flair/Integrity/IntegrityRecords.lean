import Flair.Foundations.InsertionMap
import Flair.Foundations.HexText
import Flair.Foundations.SortedJson
import Flair.Relay.Seals
import Mathlib.Algebra.Order.Ring.Rat

/-! Signed integrity records: the three record shapes, the preparation and the verification of a
record. Follows the record parts of `src/lib/integrity-state.ts`.
-/

namespace Flair.Integrity

open Dynamic JsonText

-- Shapes

def isText (value : Option Value) : Bool := (asString value).isSome

def isFilledText (value : Option Value) : Bool := (asString value).any fun text => text ≠ ""

def numberOf : Option Value → Option Rat
  | some (.num amount) => some amount
  | _ => none

def isSafeInteger (value : Option Value) : Bool :=
  (numberOf value).any fun amount => decide (amount.den = 1 ∧ amount.num.natAbs < 2 ^ 53)

def isGenerationNumber (value : Option Value) : Bool :=
  isSafeInteger value && (numberOf value).any fun amount => 1 ≤ amount && amount ≤ 999999999999

def isSequence (value : Option Value) : Bool :=
  isSafeInteger value && (numberOf value).any fun amount => 1 ≤ amount

def isNumberThree (value : Option Value) : Bool := numberOf value = some 3

def hasKind (kind : String) (value : Option Value) : Bool := asString value = some kind

def membersOf : Option Value → Option Members
  | some (.obj members) => some members
  | _ => none

def itemsOf : Option Value → Option (List Value)
  | some (.arr items) => some items
  | _ => none

def allTiers : List String := ["permanent", "persistent", "standard", "ephemeral"]

def entryFields (get : String → Option Value) : Bool :=
  isFilledText (get "enrollmentId") && isSequence (get "sequence") && isText (get "createdAt")
    && isSafeInteger (get "operatorUid") && isFilledText (get "machineId")
    && (hasKind "active" (get "status") || hasKind "tombstoned" (get "status"))
    && ((get "tombstonedAt").isNone || isText (get "tombstonedAt"))
    && (!hasKind "tombstoned" (get "status") || isText (get "tombstonedAt"))

def registryEntry (entry : Value) : Option (String × Rat) := do
  let members ← membersOf (some entry)
  let id ← asString (members.lookup "enrollmentId")
  let sequence ← numberOf (members.lookup "sequence")
  if entryFields (members.lookup ·) then some (id, sequence) else none

def registryEntries (ids : List String) (maxSeq : Rat) : List Value → Option Rat
  | [] => some maxSeq
  | entry :: rest =>
    match registryEntry entry with
    | none => none
    | some (id, sequence) =>
      if id ∈ ids then none else registryEntries (ids ++ [id]) (max maxSeq sequence) rest

def registryFields (get : String → Option Value) : Bool :=
  isNumberThree (get "version") && hasKind "registry" (get "kind") && isText (get "hmac")
    && isSequence (get "sequence")
    && ((itemsOf (get "entries")).bind (registryEntries [] 0)).any fun maxSeq =>
      (numberOf (get "sequence")).any fun sequence => maxSeq ≤ sequence

def isTieredId (member : String × Value) : Bool :=
  member.1 ≠ "" && (asString (some member.2)).any fun text => text ∈ allTiers

def isInstanceToken (value : Option Value) : Bool := value = some .null || isFilledText value

def baselineShape (baseline : Members) : Bool :=
  let get := (baseline.lookup ·)
  isText (get "scannedAt") && isText (get "scanStartedAt") && isText (get "scanEndedAt")
    && isFilledText (get "clockSource")
    && ((membersOf (get "ids")).any fun ids =>
      ids.all isTieredId
        && (membersOf (get "instanceTokens")).any fun tokens => tokens.length = ids.length
          && ids.all fun member => isInstanceToken (tokens.lookup member.1))
    && (membersOf (get "byDurability")).any fun counts =>
      allTiers.all fun tier => (safeCount (counts.lookup tier)).isSome

def journalEntry (entry : Value) : Bool := (membersOf (some entry)).any fun members =>
  isText (members.lookup "at") && isText (members.lookup "kind")
    && ((members.lookup "detail").isNone || isText (members.lookup "detail"))

def checkpointFields (get : String → Option Value) : Bool :=
  isNumberThree (get "version") && hasKind "checkpoint" (get "kind") && isText (get "hmac")
    && isFilledText (get "enrollmentId") && isGenerationNumber (get "generation")
    && isSafeInteger (get "operatorUid") && isFilledText (get "machineId")
    && (membersOf (get "baseline")).any baselineShape
    && ((get "journal").isNone || (itemsOf (get "journal")).any (·.all journalEntry))
    && ((get "pendingEvents").isNone || (itemsOf (get "pendingEvents")).isSome)

def currentFields (get : String → Option Value) : Bool :=
  isNumberThree (get "version") && hasKind "current" (get "kind")
    && isFilledText (get "enrollmentId") && isGenerationNumber (get "generation")
    && isText (get "hmac")

def shapeOf (kind : Option Value) : (String → Option Value) → Bool :=
  if hasKind "registry" kind then registryFields
  else if hasKind "checkpoint" kind then checkpointFields
  else currentFields

-- Signing

/-- How the bytes of an HMAC are made of a text under the custody key. -/
structure RecordMac where
  numbers : NumberText
  tag : String → List (Fin 256)
  injective : Function.Injective tag

def hmacMatches (expectedHex actualHex : String) : Bool :=
  expectedHex.length = actualHex.length
    && decodeHex expectedHex.toList = decodeHex actualHex.toList

/-- `{ hmac, ...payload }` -/
def payloadOf (members : Members) : Members := members.filter fun member => member.1 ≠ "hmac"

section

variable (mac : RecordMac)

def hmacHex (payload : Members) : String :=
  String.ofList (hexChars (mac.tag
    ("flair-integrity-v3\n" ++ canonicalText textOrder mac.numbers (.obj payload))))

def signIntegrityRecord (record : Members) : Members :=
  let payload := payloadOf (sortedMembers textOrder record)
  payload ++ [("hmac", .str (hmacHex mac payload))]

def verifyIntegrityRecord (record : Value) : Bool :=
  match membersOf (some record) with
  | none => false
  | some members =>
    match asString (members.lookup "hmac") with
    | none => false
    | some hmac => hmacMatches (hmacHex mac (payloadOf members)) hmac

inductive PrepareError where
  | unsafeCounter | invalidShape

def countersOf (record : Members) : List (Option Value) :=
  if hasKind "registry" (record.lookup "kind") then
    record.lookup "sequence" :: ((itemsOf (record.lookup "entries")).getD []).map fun entry =>
      entry.member "sequence"
  else
    record.lookup "generation" ::
      if hasKind "checkpoint" (record.lookup "kind") then
        (((membersOf (record.lookup "baseline")).bind fun baseline =>
          membersOf (baseline.lookup "byDurability")).getD []).map fun count => some count.2
      else []

def prepareIntegrityRecord (built : Value) : Except PrepareError Value :=
  match membersOf (some (built.sorted textOrder)) with
  | none => .error .invalidShape
  | some members =>
    let record := payloadOf members ++ [("hmac", .str "")]
    if (countersOf record).any fun counter => !isSafeInteger counter then .error .unsafeCounter
    else if shapeOf (record.lookup "kind") (record.lookup ·) then
      .ok (.obj (signIntegrityRecord mac record))
    else .error .invalidShape

end

-- Shapes and the order of keys

section

variable (value : Option Value)

@[simp] theorem asString_sorted
    : asString (value.map (Value.sorted textOrder)) = asString value := by
  rcases value with _ | value
  · rfl
  · cases value <;> rfl

@[simp] theorem numberOf_sorted
    : numberOf (value.map (Value.sorted textOrder)) = numberOf value := by
  rcases value with _ | value
  · rfl
  · cases value <;> rfl

@[simp] theorem membersOf_sorted
    : membersOf (value.map (Value.sorted textOrder))
      = (membersOf value).map (sortedMembers textOrder) := by
  rcases value with _ | value
  · rfl
  · cases value <;> rfl

@[simp] theorem itemsOf_sorted
    : itemsOf (value.map (Value.sorted textOrder))
      = (itemsOf value).map (·.map (Value.sorted textOrder)) := by
  rcases value with _ | value
  · rfl
  · cases value with
    | arr items => exact congrArg some (sortedItems_eq items)
    | _ => rfl

@[simp] theorem safeCount_sorted
    : safeCount (value.map (Value.sorted textOrder)) = safeCount value := by
  rcases value with _ | value
  · rfl
  · cases value <;> rfl

@[simp] theorem isInstanceToken_sorted
    : isInstanceToken (value.map (Value.sorted textOrder)) = isInstanceToken value := by
  rcases value with _ | value
  · rfl
  · cases value <;> rfl

end

theorem entryFields_sorted (get : String → Option Value)
    : entryFields (fun key => (get key).map (Value.sorted textOrder)) = entryFields get := by
  simp [entryFields, isSequence, isSafeInteger, isText, isFilledText, hasKind]

theorem registryEntry_sorted {entry : Value} (plain : entry.Plain)
    : registryEntry (entry.sorted textOrder) = registryEntry entry := by
  cases entry with
  | obj members =>
    rw [sorted_obj]
    simp only [registryEntry, membersOf, Option.bind_eq_bind, Option.bind_some,
      lookup_sortedMembers plain.1, entryFields_sorted, asString_sorted, numberOf_sorted]
  | _ => rfl

theorem registryEntries_sorted {entries : List Value} (plain : PlainItems entries)
    (ids : List String) (maxSeq : Rat)
    : registryEntries ids maxSeq (entries.map (Value.sorted textOrder))
      = registryEntries ids maxSeq entries := by
  induction entries generalizing ids maxSeq with
  | nil => rfl
  | cons entry rest ih =>
    rw [PlainItems] at plain
    simp only [List.map_cons, registryEntries, registryEntry_sorted plain.1, ih plain.2]

theorem journalEntry_sorted {entry : Value} (plain : entry.Plain)
    : journalEntry (entry.sorted textOrder) = journalEntry entry := by
  cases entry with
  | obj members =>
    have looked := @lookup_sortedMembers textOrder members plain.1
    rw [sorted_obj]
    simp [journalEntry, membersOf, looked, isText]
  | _ => rfl

theorem plain_of_membersOf {value : Option Value}
    (plain : ∀ held, value = some held → held.Plain) {members : Members}
    (found : membersOf value = some members)
    : (Value.obj members).Plain := by
  rcases value with _ | value
  · cases found
  cases value with
  | obj fields =>
    cases found
    exact plain _ rfl
  | _ => cases found

theorem plain_of_itemsOf {value : Option Value}
    (plain : ∀ held, value = some held → held.Plain) {items : List Value}
    (found : itemsOf value = some items)
    : PlainItems items := by
  rcases value with _ | value
  · cases found
  cases value with
  | arr values =>
    cases found
    have whole := plain _ rfl
    rwa [Value.Plain] at whole
  | _ => cases found

theorem all_sortedMembers (members : Members) {check : String × Value → Bool}
    (same : ∀ key value, check (key, value.sorted textOrder) = check (key, value))
    : (sortedMembers textOrder members).all check = members.all check := by
  rw [(perm_sortedMembers members).all_eq, sortedFields_eq, List.all_map]
  exact congrArg members.all (funext fun member => same member.1 member.2)

theorem baselineShape_sorted {baseline : Members} (plain : (Value.obj baseline).Plain)
    : baselineShape (sortedMembers textOrder baseline) = baselineShape baseline := by
  have inner {key : String} {members : Members}
      (found : membersOf (baseline.lookup key) = some members)
      : (Value.obj members).Plain :=
    plain_of_membersOf (fun _ held => plain_of_lookup plain held) found
  have tiers : ∀ key value, isTieredId (key, value.sorted textOrder) = isTieredId (key, value) := by
    intro key value
    rw [isTieredId, isTieredId, ← asString_sorted (some value)]
    rfl
  have ids : ((membersOf (baseline.lookup "ids")).map (sortedMembers textOrder)).any (fun ids =>
        ids.all isTieredId
          && ((membersOf (baseline.lookup "instanceTokens")).map
              (sortedMembers textOrder)).any fun tokens =>
            tokens.length = ids.length
              && ids.all fun member => isInstanceToken (tokens.lookup member.1))
      = (membersOf (baseline.lookup "ids")).any fun ids =>
        ids.all isTieredId
          && (membersOf (baseline.lookup "instanceTokens")).any fun tokens =>
            tokens.length = ids.length
              && ids.all fun member => isInstanceToken (tokens.lookup member.1) := by
    cases membersOf (baseline.lookup "ids") with
    | none => rfl
    | some ids =>
      cases heldTokens : membersOf (baseline.lookup "instanceTokens") with
      | none => simp
      | some tokens =>
        have looked := @lookup_sortedMembers textOrder tokens (inner heldTokens).1
        have lengths : ∀ members,
            (sortedMembers textOrder members).length = members.length := by
          intro members
          rw [(perm_sortedMembers members).length_eq, sortedFields_eq, List.length_map]
        simp only [Option.map_some, Option.any_some, lengths, looked, isInstanceToken_sorted]
        rw [all_sortedMembers ids tiers, all_sortedMembers ids fun _ _ => rfl]
  have counts : ((membersOf (baseline.lookup "byDurability")).map
        (sortedMembers textOrder)).any (fun counts =>
        allTiers.all fun tier => (safeCount (counts.lookup tier)).isSome)
      = (membersOf (baseline.lookup "byDurability")).any fun counts =>
        allTiers.all fun tier => (safeCount (counts.lookup tier)).isSome := by
    cases held : membersOf (baseline.lookup "byDurability") with
    | none => rfl
    | some counts => simp [lookup_sortedMembers (inner held).1]
  unfold baselineShape
  simp only [lookup_sortedMembers plain.1, isText, isFilledText, asString_sorted,
    membersOf_sorted, ids, counts]

theorem shapeOf_sorted {get : String → Option Value}
    (plain : ∀ key value, get key = some value → value.Plain) (kind : Option Value)
    : shapeOf kind (fun key => (get key).map (Value.sorted textOrder)) = shapeOf kind get := by
  unfold shapeOf
  repeat' split
  · have entries : ((itemsOf (get "entries")).map (·.map (Value.sorted textOrder))).bind
          (registryEntries [] 0)
        = (itemsOf (get "entries")).bind (registryEntries [] 0) := by
      cases held : itemsOf (get "entries") with
      | none => rfl
      | some entries => exact registryEntries_sorted (plain_of_itemsOf (plain _) held) [] 0
    simp only [registryFields, isNumberThree, hasKind, isText, isSequence, isSafeInteger,
      asString_sorted, numberOf_sorted, itemsOf_sorted, entries]
  · have baseline : ((membersOf (get "baseline")).map (sortedMembers textOrder)).any baselineShape
        = (membersOf (get "baseline")).any baselineShape := by
      cases held : membersOf (get "baseline") with
      | none => rfl
      | some baseline => exact baselineShape_sorted (plain_of_membersOf (plain _) held)
    have journal : ((itemsOf (get "journal")).map (·.map (Value.sorted textOrder))).any
          (·.all journalEntry)
        = (itemsOf (get "journal")).any (·.all journalEntry) := by
      cases held : itemsOf (get "journal") with
      | none => rfl
      | some entries =>
        have whole := plain_of_itemsOf (plain _) held
        simp only [Option.map_some, Option.any_some, List.all_map]
        rw [Bool.eq_iff_iff, List.all_eq_true, List.all_eq_true]
        exact forall₂_congr fun entry member => by
          rw [Function.comp_apply, journalEntry_sorted (plainItems_iff.mp whole _ member)]
    simp only [checkpointFields, isNumberThree, hasKind, isText, isFilledText, isGenerationNumber,
      isSafeInteger, asString_sorted, numberOf_sorted, membersOf_sorted, itemsOf_sorted, baseline,
      journal, Option.isNone_map, Option.isSome_map]
  · simp only [currentFields, isNumberThree, hasKind, isText, isFilledText, isGenerationNumber,
      isSafeInteger, asString_sorted, numberOf_sorted]

theorem shapeOf_congr {get other : String → Option Value}
    (same : ∀ key, key ≠ "hmac" → get key = other key)
    (text : isText (get "hmac") = isText (other "hmac")) (kind : Option Value)
    : shapeOf kind get = shapeOf kind other := by
  unfold shapeOf
  repeat' split
  · simp only [registryFields, text, same "version" (by decide), same "kind" (by decide),
      same "sequence" (by decide), same "entries" (by decide)]
  · simp only [checkpointFields, text, same "version" (by decide), same "kind" (by decide),
      same "enrollmentId" (by decide), same "generation" (by decide),
      same "operatorUid" (by decide), same "machineId" (by decide), same "baseline" (by decide),
      same "journal" (by decide), same "pendingEvents" (by decide)]
  · simp only [currentFields, text, same "version" (by decide), same "kind" (by decide),
      same "enrollmentId" (by decide), same "generation" (by decide)]

-- Verification

variable {members : Members}

theorem plain_payloadOf (plain : (Value.obj members).Plain)
    : (Value.obj (payloadOf members)).Plain := by
  rw [Value.Plain, plainFields_iff] at plain ⊢
  exact ⟨plain.1.sublist (List.filter_sublist.map _), fun member kept =>
    plain.2 member (List.mem_of_mem_filter kept)⟩

theorem payloadOf_sortedMembers (plain : (Value.obj members).Plain)
    : payloadOf (sortedMembers textOrder members)
      = sortedMembers textOrder (payloadOf members) := by
  have same : sortedFields textOrder (payloadOf members)
      = payloadOf (sortedFields textOrder members) := by
    simp only [payloadOf, sortedFields_eq, List.filter_map]
    rfl
  have ordered : (payloadOf (sortedMembers textOrder members)).Pairwise (memberLe textOrder) :=
    (List.pairwise_insertionSort (memberLe textOrder) _).sublist List.filter_sublist
  unfold sortedMembers at ordered ⊢
  rw [same, ← ordered.insertionSort_eq]
  refine insertionSort_members ?_ ((List.perm_insertionSort (memberLe textOrder) _).filter _)
  have distinct := plain_payloadOf (@plain_sortedMembers textOrder members plain)
  rw [Value.Plain] at distinct
  exact distinct.1

theorem lookup_payloadOf (members : Members) {key : String} (other : key ≠ "hmac")
    : (payloadOf members).lookup key = members.lookup key := by
  induction members with
  | nil => rfl
  | cons member rest ih =>
    rw [payloadOf, List.filter_cons]
    by_cases kept : member.1 = "hmac"
    · have apart : (key == member.1) = false := beq_false_of_ne (kept ▸ other)
      rw [if_neg (by simpa using kept), List.lookup_cons, apart]
      exact ih
    · rw [if_pos (by simpa using kept), List.lookup_cons, List.lookup_cons, ← payloadOf, ih]

theorem lookup_hmac_payloadOf (members : Members) : (payloadOf members).lookup "hmac" = none := by
  rw [List.lookup_eq_none_iff]
  intro member kept
  exact bne_iff_ne.mpr (Ne.symm (of_decide_eq_true (List.mem_filter.mp kept).2))

theorem plain_signed (plain : (Value.obj members).Plain) (hmac : String)
    : (Value.obj (payloadOf members ++ [("hmac", .str hmac)])).Plain := by
  have payload := plain_payloadOf plain
  rw [Value.Plain, plainFields_iff] at payload ⊢
  constructor
  · rw [List.map_append, List.nodup_append]
    refine ⟨payload.1, List.nodup_singleton _, fun key member other one => ?_⟩
    obtain ⟨held, kept, rfl⟩ := List.mem_map.mp member
    rw [List.mem_singleton.mp one]
    exact of_decide_eq_true (List.mem_filter.mp kept).2
  · refine List.forall_mem_append.mpr ⟨payload.2, fun member one => ?_⟩
    rw [List.mem_singleton.mp one]
    trivial

section

variable (mac : RecordMac)

theorem hmacHex_sortedMembers {payload : Members} (plain : (Value.obj payload).Plain)
    : hmacHex mac (sortedMembers textOrder payload) = hmacHex mac payload := by
  unfold hmacHex canonicalText
  rw [← sorted_obj, (Value.Plain.reorders _ plain).symm.sorted_eq]

variable {record : Value}

theorem verifyIntegrityRecord_sorted (plain : record.Plain)
    : verifyIntegrityRecord mac (record.sorted textOrder) = verifyIntegrityRecord mac record := by
  cases record with
  | obj members =>
    rw [sorted_obj]
    simp only [verifyIntegrityRecord, membersOf, payloadOf_sortedMembers plain,
      hmacHex_sortedMembers mac (plain_payloadOf plain)]
    rw [Value.Plain] at plain
    rw [lookup_sortedMembers plain.1, asString_sorted]
  | _ => rfl

def validates (record : Value) : Bool := (membersOf (some record)).any fun members =>
  shapeOf (members.lookup "kind") (members.lookup ·)

theorem shapeOf_kind_sorted (kind : Option Value)
    : shapeOf (kind.map (Value.sorted textOrder)) = shapeOf kind := by
  unfold shapeOf hasKind
  rw [asString_sorted]

theorem validates_sorted (plain : record.Plain)
    : validates (record.sorted textOrder) = validates record := by
  cases record with
  | obj members =>
    rw [sorted_obj]
    have looked := @lookup_sortedMembers textOrder members
      (by rw [Value.Plain] at plain; exact plain.1)
    simp only [validates, membersOf, Option.any_some, looked, shapeOf_kind_sorted]
    exact shapeOf_sorted (fun _ _ held => plain_of_lookup plain held) _
  | _ => rfl

variable {mac}

theorem prepareIntegrityRecord_eq_ok {built : Value} (plain : built.Plain)
    (prepared : prepareIntegrityRecord mac built = .ok record)
    : ∃ members, (Value.obj members).Plain ∧ isText (members.lookup "hmac") = true
      ∧ shapeOf (members.lookup "kind") (members.lookup ·) = true
      ∧ record = .obj (signIntegrityRecord mac members) := by
  have sorted := (@Value.Plain.reorders textOrder _ plain).plain_iff.mp plain
  unfold prepareIntegrityRecord at prepared
  split at prepared
  · cases prepared
  rename_i members held
  have whole : (Value.obj members).Plain :=
    @plain_of_membersOf (some (built.sorted textOrder)) (by rintro _ ⟨⟩; exact sorted) _ held
  dsimp only at prepared
  split at prepared
  · cases prepared
  split at prepared
  · rename_i shaped
    refine ⟨_, plain_signed whole "", ?_, shaped, (Except.ok.inj prepared).symm⟩
    rw [List.lookup_append, lookup_hmac_payloadOf]
    rfl
  · cases prepared

theorem payloadOf_append (members : Members) (hmac : Value)
    : payloadOf (payloadOf members ++ [("hmac", hmac)]) = payloadOf members := by
  simp [payloadOf, List.filter_append, List.filter_filter]

theorem payloadOf_signed (members : Members)
    : payloadOf (signIntegrityRecord mac members) = payloadOf (sortedMembers textOrder members) :=
  payloadOf_append _ _

theorem signed_accepted {members : Members} (plain : (Value.obj members).Plain)
    (text : isText (members.lookup "hmac") = true)
    (shaped : shapeOf (members.lookup "kind") (members.lookup ·) = true)
    : validates (.obj (signIntegrityRecord mac members)) = true
      ∧ verifyIntegrityRecord mac (.obj (signIntegrityRecord mac members)) = true := by
  have hmac : (signIntegrityRecord mac members).lookup "hmac"
      = some (.str (hmacHex mac (payloadOf (sortedMembers textOrder members)))) := by
    unfold signIntegrityRecord
    rw [List.lookup_append, lookup_hmac_payloadOf]
    rfl
  have distinct := plain
  rw [Value.Plain] at distinct
  have others : ∀ key, key ≠ "hmac" → (signIntegrityRecord mac members).lookup key
      = (members.lookup key).map (Value.sorted textOrder) := by
    intro key other
    have apart : (key == "hmac") = false := beq_false_of_ne other
    unfold signIntegrityRecord
    rw [List.lookup_append, lookup_payloadOf _ other, lookup_sortedMembers distinct.1,
      List.lookup_cons, apart, List.lookup_nil, Option.or_none]
  constructor
  · simp only [validates, membersOf, Option.any_some, others "kind" (by decide),
      shapeOf_kind_sorted]
    have texts : isText ((signIntegrityRecord mac members).lookup "hmac")
        = isText ((members.lookup "hmac").map (Value.sorted textOrder)) := by
      unfold isText at text ⊢
      rw [asString_sorted, text, hmac]
      rfl
    rw [shapeOf_congr others texts,
      shapeOf_sorted (fun _ _ held => plain_of_lookup plain held), shaped]
  · simp [verifyIntegrityRecord, membersOf, hmac, asString, payloadOf_signed, hmacMatches]

def hmacOf (record : Value) : Option String := asString (record.member "hmac")

def payloadValue : Value → Value
  | .obj members => .obj (payloadOf members)
  | value => value

def lower (text : String) : String := String.ofList (text.toList.map Char.toLower)

theorem lower_hmac (verified : verifyIntegrityRecord mac record = true)
    : ∃ members hmac, record = .obj members ∧ hmacOf record = some hmac
      ∧ lower hmac = hmacHex mac (payloadOf members) := by
  unfold verifyIntegrityRecord at verified
  cases record with
  | obj members =>
    dsimp only [membersOf] at verified
    cases held : asString (members.lookup "hmac") with
    | none =>
      rw [held] at verified
      cases verified
    | some hmac =>
      rw [held] at verified
      refine ⟨members, hmac, rfl, held, ?_⟩
      obtain ⟨lengths, decoded⟩ := (Bool.and_eq_true _ _).mp verified
      replace lengths := of_decide_eq_true lengths
      replace decoded := of_decide_eq_true decoded
      unfold hmacHex at lengths decoded ⊢
      rw [String.toList_ofList, decodeHex_hexChars] at decoded
      rw [← String.length_toList, ← String.length_toList, String.toList_ofList,
        length_hexChars] at lengths
      rw [lower, lower_of_decodeHex decoded.symm lengths.symm]
  | _ => cases verified

theorem hmacOf_signed (members : Members)
    : hmacOf (.obj (signIntegrityRecord mac members))
      = some (hmacHex mac (payloadOf (sortedMembers textOrder members))) := by
  unfold hmacOf Value.member signIntegrityRecord
  dsimp only
  rw [List.lookup_append, lookup_hmac_payloadOf]
  rfl

theorem hmacHex_eq_iff {left right : Members} (leftPlain : (Value.obj left).Plain)
    (rightPlain : (Value.obj right).Plain)
    : hmacHex mac left = hmacHex mac right ↔ Reorders (.obj left) (.obj right) := by
  unfold hmacHex
  rw [String.ofList_inj, hexChars_injective.eq_iff, mac.injective.eq_iff,
    String.append_right_inj, canonicalText_eq_iff mac.numbers leftPlain rightPlain]

/-- Canonical texts agree exactly for the values that differ in the order of keys alone; what is
prepared is accepted by the validator of its kind and verifies, also after its keys are put in
another order; and another record that verifies has the same HMAC, in some letter case, exactly
when it has the same payload.
-/
theorem integrity_records_round_trip (mac : RecordMac)
    : (∀ left right : Value, left.Plain → right.Plain
        → (canonicalText textOrder mac.numbers left = canonicalText textOrder mac.numbers right
          ↔ Reorders left right))
      ∧ ∀ built record, built.Plain → prepareIntegrityRecord mac built = .ok record
        → (∀ read, Reorders record read
            → validates read = true ∧ verifyIntegrityRecord mac read = true)
          ∧ ∀ other, other.Plain → verifyIntegrityRecord mac other = true
            → ((hmacOf other).map lower = hmacOf record
              ↔ Reorders (payloadValue other) (payloadValue record)) := by
  refine ⟨fun _ _ => canonicalText_eq_iff mac.numbers, fun built record plain prepared => ?_⟩
  obtain ⟨members, whole, text, shaped, rfl⟩ := prepareIntegrityRecord_eq_ok plain prepared
  obtain ⟨valid, verified⟩ := @signed_accepted mac _ whole text shaped
  have signedPlain : (Value.obj (signIntegrityRecord mac members)).Plain :=
    plain_signed (plain_sortedMembers whole) _
  constructor
  · intro read reordered
    have readPlain := reordered.plain_iff.mp signedPlain
    have same := @Reorders.sorted_eq textOrder _ _ reordered
    rw [← validates_sorted readPlain, ← verifyIntegrityRecord_sorted mac readPlain, ← same,
      validates_sorted signedPlain, verifyIntegrityRecord_sorted mac signedPlain]
    exact ⟨valid, verified⟩
  · intro other otherPlain otherVerified
    obtain ⟨others, hmac, rfl, carried, lowered⟩ := lower_hmac otherVerified
    rw [carried, Option.map_some, lowered, hmacOf_signed, Option.some.injEq, payloadValue,
      payloadValue, payloadOf_signed]
    exact hmacHex_eq_iff (plain_payloadOf otherPlain) (plain_payloadOf (plain_sortedMembers whole))

end

def letteredMac : RecordMac where
  numbers := Relay.codedNumbers
  tag text := ⟨0xab, by decide⟩ :: unaryBytes text
  injective _ _ same := unaryBytes_injective (List.cons.inj same).2

def currentPointer : Value := .obj [("version", .num 3), ("kind", .str "current"),
  ("enrollmentId", .str "watch"), ("generation", .num 1)]

theorem set_hmac (payload : Members) (old new : Value)
    : InsertionMap.set (payloadOf payload ++ [("hmac", old)]) "hmac" new
      = payloadOf payload ++ [("hmac", new)] := by
  have others : ∀ member ∈ payloadOf payload, member.1 ≠ "hmac" :=
    fun member kept => of_decide_eq_true (List.mem_filter.mp kept).2
  generalize payloadOf payload = kept at others
  induction kept with
  | nil => rfl
  | cons member rest ih =>
    obtain ⟨other, more⟩ := List.forall_mem_cons.mp others
    simp only [List.cons_append, InsertionMap.set, InsertionMap.modify, if_neg other] at ih ⊢
    rw [ih more]

/-- A record verifies after a letter of its HMAC is put in upper case. -/
theorem upper_case_hmac_verifies
    : ¬ ∀ (mac : RecordMac) (built : Value) (fields : Members) (key : String) (value : Value),
      built.Plain → prepareIntegrityRecord mac built = .ok (.obj fields)
      → fields.lookup key ≠ some value
      → verifyIntegrityRecord mac (.obj (InsertionMap.set fields key value)) = false := by
  intro all
  obtain ⟨members, prepared⟩ : ∃ members, prepareIntegrityRecord letteredMac currentPointer
      = .ok (.obj (signIntegrityRecord letteredMac members)) := ⟨_, rfl⟩
  obtain ⟨tail, digest⟩ : ∃ tail, hmacHex letteredMac (payloadOf (sortedMembers textOrder members))
      = String.ofList ('a' :: 'b' :: tail) := ⟨_, rfl⟩
  have plain : currentPointer.Plain := by
    simp [currentPointer, Value.Plain, PlainFields]
  have changed := all letteredMac _ _ "hmac" (.str (String.ofList ('A' :: 'b' :: tail))) plain
    prepared
  unfold signIntegrityRecord at changed
  rw [set_hmac, List.lookup_append, lookup_hmac_payloadOf, digest] at changed
  have accepted : hmacMatches (String.ofList ('a' :: 'b' :: tail))
      (String.ofList ('A' :: 'b' :: tail)) = true := by
    unfold hmacMatches
    rw [String.toList_ofList, String.toList_ofList, String.length_ofList, String.length_ofList]
    simp [decodeHex, hexValue]
  have verified := changed (by simp)
  unfold verifyIntegrityRecord at verified
  dsimp only [membersOf] at verified
  rw [List.lookup_append, lookup_hmac_payloadOf, payloadOf_append, digest] at verified
  exact Bool.false_ne_true (verified.symm.trans accepted)

end Flair.Integrity
