import Mathlib.Data.Rat.Encodable
import Flair.Foundations.CanonicalJson
import Flair.Relay.Requests

/-! Sealing a message and verifying the seal: the content hash and the signature over the
canonical text of the signed fields. Follows `sealMessage` and `verifyMessageSignature` of
`resources/relay-lib.ts`, and `signBody` and `verifyBodySignature` of
`resources/federation-crypto.ts`.
-/

namespace Flair.Relay

open Dynamic

universe u

-- The signature scheme

/-- What sealing takes from the platform: how numbers and texts are written, SHA-256 in
hexadecimal, base64url, and detached signatures. `verifyDetached` is `none` where it throws
on a key or a signature of the wrong length; `bufferFrom` reads base64url texts and is
`none` on what it cannot read.
-/
structure SealScheme (Secret Bytes : Type u) where
  numbers : NumberText
  encode : String → Bytes
  sha256Hex : Bytes → String
  toBase64url : Bytes → String
  bufferFrom : Value → Option Bytes
  publicKey : Secret → Bytes
  signDetached : Bytes → Secret → Bytes
  verifyDetached : Bytes → Bytes → Bytes → Option Bool

namespace SealScheme

variable {Secret Bytes : Type u} (scheme : SealScheme Secret Bytes)

def message (body : Record) : Bytes := scheme.encode (canonicalize scheme.numbers body)

def signBody (body : Record) (secret : Secret) : String :=
  scheme.toBase64url (scheme.signDetached (scheme.message body) secret)

def verifyBodySignature (body : Record) (publicKey : String) : Bool :=
  match body.get "signature" with
  | none => false
  | some signature =>
    if !truthy (some signature) then false
    else
      let rest := body.delete "signature"
      ((scheme.bufferFrom signature).bind fun sig =>
        (scheme.bufferFrom (.str publicKey)).bind fun pubKey =>
          scheme.verifyDetached (scheme.message rest) sig pubKey).getD false

def signing : Signing where
  digest body := scheme.sha256Hex (scheme.message body)
  verifyBodySignature := scheme.verifyBodySignature

def signedBody (content : Record) : Record := pick content signedBodyFields

/-- `{ ...msg, contentHash }` -/
def withHash (content : Record) : Record :=
  content.set "contentHash" (.str (computeContentHash scheme.signing content))

def sealMessage (content : MessageEnvelope) (secret : Secret) : Record :=
  let hashed := scheme.withHash content.fields
  hashed.set "signature" (.str (scheme.signBody (signedBody hashed) secret))

-- What is assumed of the scheme

/-- A correct scheme whose signatures bind: one made over a message verifies only over that
message and under the key of its maker.
-/
structure Binding : Prop where
  encode_injective : Function.Injective scheme.encode
  reads : ∀ bytes, scheme.bufferFrom (.str (scheme.toBase64url bytes)) = some bytes
  nonempty : ∀ message secret, scheme.toBase64url (scheme.signDetached message secret) ≠ ""
  verifies
    : ∀ message secret,
        scheme.verifyDetached message (scheme.signDetached message secret)
          (scheme.publicKey secret) = some true
  binds
    : ∀ message signed secret key,
        scheme.verifyDetached message (scheme.signDetached signed secret) key = some true
        → message = signed ∧ key = scheme.publicKey secret

def sealedMessage (content : MessageEnvelope) : Bytes :=
  scheme.message (signedBody (scheme.withHash content.fields))

/-- Nobody but the holder of a key makes signatures for it: a circulating signature that
verifies is over a message its key's holder has sealed.
-/
def Unforgeable (sealed : MessageEnvelope → Secret → Prop) (circulating : Bytes → Prop)
    : Prop :=
  ∀ message signature key, circulating signature
    → scheme.verifyDetached message signature key = some true
    → ∃ content secret, sealed content secret ∧ key = scheme.publicKey secret
        ∧ message = scheme.sealedMessage content

end SealScheme

-- The signed fields

/-- A field as it is signed: `null` is read as absent. -/
def present (row : Record) (field : String) : Option Value :=
  (row.get field).filter fun value => decide (value ≠ .null)

def SameSigned (left right : Record) : Prop :=
  ∀ field ∈ signedBodyFields, present left field = present right field

theorem get_pick (record : Record) (fields : List String) (field : String)
    : (pick record fields).get field = if field ∈ fields then present record field else none := by
  rw [pick, Record.get_filter]
  by_cases named : field ∈ fields
  · rw [if_pos named, present]
    congr 1
    funext value
    simp [named]
  · rw [if_neg named]
    cases record.get field with
    | none => rfl
    | some value => simp [Option.filter, named]

variable {left right : Record}

theorem pick_eq_iff {fields : List String}
    : pick left fields = pick right fields
      ↔ ∀ field ∈ fields, present left field = present right field := by
  constructor
  · intro same field named
    have both := congrArg (fun record => record.get field) same
    simpa only [get_pick, if_pos named] using both
  · intro same
    apply Record.ext_get
    intro field
    rw [get_pick, get_pick]
    by_cases named : field ∈ fields
    · rw [if_pos named, if_pos named, same field named]
    · rw [if_neg named, if_neg named]

theorem contentHashFields_signed : ∀ field ∈ contentHashFields, field ∈ signedBodyFields := by
  decide

theorem SameSigned.hash (same : SameSigned left right) (signing : Signing)
    : computeContentHash signing left = computeContentHash signing right := by
  rw [computeContentHash, computeContentHash,
    pick_eq_iff.mpr fun field hashed => same field (contentHashFields_signed field hashed)]

theorem SameSigned.symm (same : SameSigned left right)
    : SameSigned right left :=
  fun field signed => (same field signed).symm

theorem SameSigned.trans {first second third : Record} (same : SameSigned first second)
    (others : SameSigned second third)
    : SameSigned first third :=
  fun field signed => (same field signed).trans (others field signed)

theorem SameSigned.contentHash (same : SameSigned left right) {hash : String}
    (held : right.get "contentHash" = some (.str hash))
    : left.get "contentHash" = some (.str hash) := by
  have hashes := same "contentHash" (by decide)
  rw [present, present, held] at hashes
  exact (Option.filter_eq_some_iff.mp hashes).1

namespace SealScheme

variable {Secret Bytes : Type u} (scheme : SealScheme Secret Bytes)

-- What verification reads

theorem delete_signature (row : Record) (signature : Value)
    : ((signedBody row).set "signature" signature).delete "signature" = signedBody row := by
  apply Record.ext_get
  intro field
  rw [Record.get_delete, Record.get_set]
  by_cases same : field = "signature"
  · rw [if_pos same, same, signedBody, get_pick, if_neg (by decide)]
  · rw [if_neg same, if_neg same]

def Signs (row : Record) (signature : Value) (key : String) : Prop :=
  ∃ sig pubKey, scheme.bufferFrom signature = some sig
    ∧ scheme.bufferFrom (.str key) = some pubKey
    ∧ scheme.verifyDetached (scheme.message (signedBody row)) sig pubKey = some true

variable {row : Record} {key : String}

theorem verifyBodySignature_iff {signature : Value} (present : truthy (some signature) = true)
    : scheme.verifyBodySignature ((signedBody row).set "signature" signature) key = true
      ↔ scheme.Signs row signature key := by
  have held : ((signedBody row).set "signature" signature).get "signature"
      = some signature := by
    rw [Record.get_set, if_pos rfl]
  simp only [verifyBodySignature, held, present, delete_signature, Signs]
  cases scheme.bufferFrom signature with
  | none => simp
  | some sig =>
    cases scheme.bufferFrom (.str key) with
    | none => simp
    | some pubKey =>
      cases verified : scheme.verifyDetached (scheme.message (signedBody row)) sig pubKey
        with
      | none => simp [verified]
      | some answer => simp [verified]

theorem verifyMessageSignature_iff
    : verifyMessageSignature scheme.signing row key = none
      ↔ ∃ signature, row.get "signature" = some signature
          ∧ truthy (some signature) = true
          ∧ row.get "contentHash" = some (.str (computeContentHash scheme.signing row))
          ∧ scheme.Signs row signature key := by
  unfold verifyMessageSignature
  cases row.get "signature" with
  | none => simp
  | some signature =>
    cases there : truthy (some signature) with
    | false => simp [there]
    | true =>
      have verifies : scheme.signing.verifyBodySignature
            ((pick row signedBodyFields).set "signature" signature) key = true
          ↔ scheme.Signs row signature key := scheme.verifyBodySignature_iff there
      by_cases hash : row.get "contentHash"
          = some (.str (computeContentHash scheme.signing row))
      · simp [there, hash, verifies]
      · simp [there, hash]

-- What sealing writes

theorem sealMessage_same (content : MessageEnvelope) (secret : Secret)
    : SameSigned (scheme.sealMessage content secret) (scheme.withHash content.fields) := by
  intro field signed
  have apart : field ≠ "signature" := by
    rintro rfl
    revert signed
    decide
  rw [present, present, sealMessage, Record.get_set, if_neg apart]

theorem get_sealMessage_signature (content : MessageEnvelope) (secret : Secret)
    : (scheme.sealMessage content secret).get "signature"
      = some (.str (scheme.toBase64url
          (scheme.signDetached (scheme.sealedMessage content) secret))) := by
  rw [sealMessage, Record.get_set, if_pos rfl]
  rfl

theorem get_sealMessage_contentHash (content : MessageEnvelope) (secret : Secret)
    : (scheme.sealMessage content secret).get "contentHash"
      = some (.str (computeContentHash scheme.signing (scheme.sealMessage content secret))) := by
  have hashes : computeContentHash scheme.signing (scheme.sealMessage content secret)
      = computeContentHash scheme.signing content.fields := by
    have fields : pick (scheme.sealMessage content secret) contentHashFields
        = pick content.fields contentHashFields := by
      rw [pick_eq_iff]
      intro field hashed
      have notSignature : field ≠ "signature" := by
        rintro rfl
        revert hashed
        decide
      have notHash : field ≠ "contentHash" := by
        rintro rfl
        revert hashed
        decide
      rw [present, present, sealMessage, Record.get_set, if_neg notSignature, withHash,
        Record.get_set, if_neg notHash]
    rw [computeContentHash, computeContentHash, fields]
  rw [hashes, sealMessage, Record.get_set, if_neg (by decide), withHash, Record.get_set,
    if_pos rfl]

theorem message_eq_iff (binding : scheme.Binding) {content : MessageEnvelope} (secret : Secret)
    : scheme.message (signedBody row) = scheme.sealedMessage content
      ↔ SameSigned row (scheme.sealMessage content secret) := by
  have sealedSame := scheme.sealMessage_same content secret
  constructor
  · intro same
    have bodies := canonicalize_injective scheme.numbers (binding.encode_injective same)
    have fields : SameSigned row (scheme.withHash content.fields) := pick_eq_iff.mp bodies
    exact fields.trans sealedSame.symm
  · intro same
    have bodies : signedBody row = signedBody (scheme.withHash content.fields) :=
      pick_eq_iff.mpr (same.trans sealedSame)
    rw [sealedMessage, bodies]

-- The round trip

/-- A row that carries the signature of a seal is accepted just when it says what was sealed
in every signed field and is verified under the sealer's key.
-/
theorem accepts_seal_iff (binding : scheme.Binding) {content : MessageEnvelope} {secret : Secret}
    (carried : row.get "signature" = (scheme.sealMessage content secret).get "signature")
    : verifyMessageSignature scheme.signing row key = none
      ↔ scheme.bufferFrom (.str key) = some (scheme.publicKey secret)
        ∧ SameSigned row (scheme.sealMessage content secret) := by
  rw [scheme.get_sealMessage_signature] at carried
  constructor
  · intro accepted
    obtain ⟨signature, held, -, -, sig, pubKey, sigRead, keyRead, verified⟩ :=
      scheme.verifyMessageSignature_iff.mp accepted
    obtain rfl := Option.some.inj (carried.symm.trans held)
    rw [binding.reads] at sigRead
    cases sigRead
    obtain ⟨messages, rfl⟩ := binding.binds _ _ _ _ verified
    exact ⟨keyRead, (scheme.message_eq_iff binding secret).mp messages⟩
  · rintro ⟨keyRead, same⟩
    have there : truthy (some (.str (scheme.toBase64url
        (scheme.signDetached (scheme.sealedMessage content) secret)))) = true := by
      simpa [truthy] using binding.nonempty (scheme.sealedMessage content) secret
    have hash : row.get "contentHash"
        = some (.str (computeContentHash scheme.signing row)) := by
      rw [same.hash]
      exact same.contentHash (scheme.get_sealMessage_contentHash content secret)
    have verified := binding.verifies (scheme.sealedMessage content) secret
    rw [← (scheme.message_eq_iff binding secret).mpr same] at verified
    refine scheme.verifyMessageSignature_iff.mpr
      ⟨_, carried, there, hash, _, _, binding.reads _, keyRead, ?_⟩
    rw [← (scheme.message_eq_iff binding secret).mpr same]
    exact verified

theorem accepted_was_sealed (binding : scheme.Binding) {sealed : MessageEnvelope → Secret → Prop}
    {circulating : Bytes → Prop} (unforgeable : scheme.Unforgeable sealed circulating)
    (known : ∀ signature bytes, row.get "signature" = some signature
      → scheme.bufferFrom signature = some bytes → circulating bytes)
    (accepted : verifyMessageSignature scheme.signing row key = none)
    : ∃ content secret, sealed content secret
        ∧ scheme.bufferFrom (.str key) = some (scheme.publicKey secret)
        ∧ SameSigned row (scheme.sealMessage content secret) := by
  obtain ⟨signature, held, -, -, sig, pubKey, sigRead, keyRead, verified⟩ :=
    scheme.verifyMessageSignature_iff.mp accepted
  obtain ⟨content, secret, made, rfl, messages⟩ :=
    unforgeable _ _ _ (known signature sig held sigRead) verified
  exact ⟨content, secret, made, keyRead, (scheme.message_eq_iff binding secret).mp messages⟩

end SealScheme

/-- Seal and verification agree. A sealed row is accepted under the sealer's key, and what an
envelope leaves out may as well be `null`. A row with the signature of a seal that differs
from it in a signed field, or is verified under another key, is refused; and so is every row
with a circulating signature that differs in a signed field from all its key's holder sealed.
-/
theorem seals_verify_iff_unchanged {Secret Bytes : Type u} (scheme : SealScheme Secret Bytes)
    (binding : scheme.Binding) {sealed : MessageEnvelope → Secret → Prop}
    {circulating : Bytes → Prop} (unforgeable : scheme.Unforgeable sealed circulating)
    : (∀ content secret key, scheme.bufferFrom (.str key) = some (scheme.publicKey secret)
        → verifyMessageSignature scheme.signing (scheme.sealMessage content secret) key = none)
      ∧ (∀ content other secret, SameSigned content.fields other.fields
        → (scheme.sealMessage content secret).get "signature"
            = (scheme.sealMessage other secret).get "signature"
          ∧ SameSigned (scheme.sealMessage content secret) (scheme.sealMessage other secret))
      ∧ (∀ content secret row key,
        row.get "signature" = (scheme.sealMessage content secret).get "signature"
        → ((∃ field ∈ signedBodyFields,
              present row field ≠ present (scheme.sealMessage content secret) field)
            ∨ scheme.bufferFrom (.str key) ≠ some (scheme.publicKey secret))
        → verifyMessageSignature scheme.signing row key ≠ none)
      ∧ ∀ row key,
        (∀ signature bytes, row.get "signature" = some signature
          → scheme.bufferFrom signature = some bytes → circulating bytes)
        → (∀ content secret, sealed content secret
            → scheme.bufferFrom (.str key) = some (scheme.publicKey secret)
            → ∃ field ∈ signedBodyFields,
                present row field ≠ present (scheme.sealMessage content secret) field)
        → verifyMessageSignature scheme.signing row key ≠ none := by
  refine ⟨?_, ?_, ?_, ?_⟩
  · intro content secret key keyRead
    exact (scheme.accepts_seal_iff binding rfl).mpr ⟨keyRead, fun _ _ => rfl⟩
  · intro content other secret same
    have hashed : SameSigned (scheme.withHash content.fields) (scheme.withHash other.fields) := by
      intro field signed
      by_cases isHash : field = "contentHash"
      · simp only [present, SealScheme.withHash, Record.get_set, if_pos isHash, same.hash]
      · simpa only [present, SealScheme.withHash, Record.get_set, if_neg isHash]
          using same field signed
    have seals : SameSigned (scheme.sealMessage content secret)
        (scheme.sealMessage other secret) :=
      ((scheme.sealMessage_same content secret).trans hashed).trans
        (scheme.sealMessage_same other secret).symm
    have messages : scheme.sealedMessage content = scheme.sealedMessage other :=
      congrArg scheme.message (pick_eq_iff.mpr hashed)
    refine ⟨?_, seals⟩
    rw [scheme.get_sealMessage_signature, scheme.get_sealMessage_signature, messages]
  · intro content secret row key carried differs accepted
    obtain ⟨keyRead, same⟩ := (scheme.accepts_seal_iff binding carried).mp accepted
    rcases differs with ⟨field, signed, apart⟩ | otherKey
    · exact apart (same field signed)
    · exact otherKey keyRead
  · intro row key known differs accepted
    obtain ⟨content, secret, made, keyRead, same⟩ :=
      scheme.accepted_was_sealed binding unforgeable known accepted
    obtain ⟨field, signed, apart⟩ := differs content secret made keyRead
    exact apart (same field signed)

theorem digits_numberChars : ∀ code < 58, 48 ≤ code → Char.ofNat code ∈ numberChars := by
  decide

def codedNumbers : NumberText where
  write amount := Nat.toDigits 10 (Encodable.encode amount)
  injective := by
    intro left right same
    have codes := congrArg (fun digits => Nat.ofDigitChars 10 digits 0) same
    simp only [Nat.ofDigitChars_toDigits (by decide : 1 < 10) (by decide : 10 ≤ 10)] at codes
    exact Encodable.encode_injective codes
  nonempty _ := Nat.toDigits_ne_nil
  chars amount c member := by
    have digit := Nat.isDigit_of_mem_toDigits (by decide) (by decide) member
    simp only [Char.isDigit, Bool.and_eq_true, decide_eq_true_eq] at digit
    obtain ⟨low, high⟩ := digit
    rw [← Char.ofNat_toNat c]
    exact digits_numberChars c.toNat (Nat.lt_succ_of_le high) low

def namedSeals : SealScheme String String where
  numbers := codedNumbers
  encode := id
  sha256Hex := id
  toBase64url := id
  bufferFrom value := asString (some value)
  publicKey := id
  signDetached message secret := JsonText.array [JsonText.quote message, JsonText.quote secret]
  verifyDetached message signature key :=
    some (decide (signature = JsonText.array [JsonText.quote message, JsonText.quote key]))

theorem namedSeals_binding : namedSeals.Binding where
  encode_injective := Function.injective_id
  reads _ := rfl
  nonempty message secret empty := by
    have chars := congrArg String.toList empty
    simp [namedSeals, JsonText.array] at chars
  verifies message secret := by simp [namedSeals]
  binds message signed secret key verified := by
    have texts : JsonText.array [JsonText.quote signed, JsonText.quote secret]
        = JsonText.array [JsonText.quote message, JsonText.quote key] := by
      simpa [namedSeals] using verified
    obtain ⟨messages, keys⟩ := JsonText.array_pair_inj texts
    exact ⟨messages.symm, keys.symm⟩

def sampleNote : MessageEnvelope where
  fields := Record.ofFields [("id", .str "m-1"), ("from", .str "ada"), ("to", .str "bob"),
    ("kind", .str "message"), ("body", .str "one"), ("deadline", .null)]
  texts := by decide

/-- A sealed row is accepted; with another body it is refused. -/
theorem seals_verify_iff_unchanged_sample
    : verifyMessageSignature namedSeals.signing (namedSeals.sealMessage sampleNote "key") "key"
        = none
      ∧ verifyMessageSignature namedSeals.signing
          ((namedSeals.sealMessage sampleNote "key").set "body" (.str "two")) "key" ≠ none := by
  have unforgeable : namedSeals.Unforgeable
      (fun content secret => content = sampleNote ∧ secret = "key")
      (fun bytes => bytes = namedSeals.signDetached (namedSeals.sealedMessage sampleNote) "key")
      := by
    rintro message signature key rfl verified
    obtain ⟨messages, keys⟩ := namedSeals_binding.binds _ _ _ _ verified
    exact ⟨sampleNote, "key", ⟨rfl, rfl⟩, keys, messages⟩
  obtain ⟨accepts, -, refuses, -⟩ :=
    seals_verify_iff_unchanged namedSeals namedSeals_binding unforgeable
  refine ⟨accepts sampleNote "key" "key" rfl, refuses sampleNote "key" _ "key" ?_ (Or.inl ?_)⟩
  · rw [Record.get_set, if_neg (by decide)]
  · refine ⟨"body", by decide, ?_⟩
    have body : sampleNote.fields.get "body" = some (.str "one") := by decide
    simp [present, SealScheme.sealMessage, SealScheme.withHash, body, Option.filter]

end Flair.Relay
