import Flair.OAuth.TokenEndpoint

/-! What every write of the endpoints keeps of the tables: a row's id and hash name one token,
whose lifetime is bounded by the clock it was stamped at, and a revoked row stays revoked.
-/

namespace Flair.OAuth

-- Rows of one token

/-- Two versions of one token's row: all that a put changes is `revokedAt`. -/
structure SameToken (left right : TokenRow) : Prop where
  id : left.id = right.id
  tokenHash : left.tokenHash = right.tokenHash
  tokenType : left.tokenType = right.tokenType
  expiresAt : left.expiresAt = right.expiresAt

theorem SameToken.refl (row : TokenRow) : SameToken row row := ⟨rfl, rfl, rfl, rfl⟩

theorem SameToken.trans {left middle right : TokenRow} (h : SameToken left middle)
    (more : SameToken middle right)
    : SameToken left right where
  id := h.id.trans more.id
  tokenHash := h.tokenHash.trans more.tokenHash
  tokenType := h.tokenType.trans more.tokenType
  expiresAt := h.expiresAt.trans more.expiresAt

theorem SameToken.symm {left right : TokenRow} (h : SameToken left right)
    : SameToken right left where
  id := h.id.symm
  tokenHash := h.tokenHash.symm
  tokenType := h.tokenType.symm
  expiresAt := h.expiresAt.symm

/-- Two versions of one code's row: all that a put changes is `used`. -/
def SameCode (left right : AuthCodeRow) : Prop := { left with used := right.used } = right

theorem SameCode.refl (row : AuthCodeRow) : SameCode row row := rfl

theorem SameCode.trans {left middle right : AuthCodeRow} (h : SameCode left middle)
    (more : SameCode middle right)
    : SameCode left right := by
  unfold SameCode at h more ⊢
  rw [← more, ← h]

def OAuthTables.Tracks (tables : OAuthTables) (row : TokenRow) : Prop :=
  ∃ stored ∈ tables.tokens, SameToken row stored

def OAuthTables.HasCode (tables : OAuthTables) (code : String) (authCode : AuthCodeRow)
    : Prop :=
  ∃ stored, tables.codes code = some stored ∧ SameCode authCode stored

-- Sound tables

/-- Ids and hashes name one row each, no row outlives its stamp by more than its lifetime, and
a refresh token is claimed no earlier than it was issued.
-/
structure OAuthTables.Sound (tables : OAuthTables) : Prop where
  distinct : ∀ left ∈ tables.tokens, ∀ right ∈ tables.tokens,
    left.id = right.id ∨ left.tokenHash = right.tokenHash → left = right
  lifetimes : ∀ row ∈ tables.tokens, row.tokenType = .refresh
    → row.expiresAt ≤ tables.clock + refreshTokenTtlMs
  codes : ∀ code row, tables.codes code = some row
    → row.id = code ∧ row.expiresAt ≤ tables.clock + authCodeTtlMs
  claims : ∀ tokenHash recordedAt, tables.claims (.refresh tokenHash) = some recordedAt
    → tokenHash ∈ tables.presented ∧ ∀ row ∈ tables.tokens, row.tokenHash = tokenHash
      → row.tokenType = .refresh → row.expiresAt ≤ recordedAt + refreshTokenTtlMs

structure OAuthTables.Evolves (before after : OAuthTables) : Prop where
  clock : before.clock ≤ after.clock
  codes : ∀ code row, before.codes code = some row → after.HasCode code row
  kept : ∀ row ∈ before.tokens, ∃ later ∈ after.tokens, SameToken row later
    ∧ (row.revokedAt.isSome → later.revokedAt.isSome)
  origin : ∀ later ∈ after.tokens,
    before.Tracks later ∨ later.tokenHash ∉ before.presented
  claims : ∀ key recordedAt, before.claims key = some recordedAt
    → after.claims key = some recordedAt
      ∨ recordedAt + singleUseRetentionMs ≤ after.clock
  presented : ∀ tokenHash ∈ before.presented, tokenHash ∈ after.presented

def OAuthTables.Advances (before after : OAuthTables) : Prop :=
  before.Sound → before.Evolves after ∧ after.Sound

namespace OAuthTables

variable {before middle after tables : OAuthTables}

theorem Evolves.refl (tables : OAuthTables) : tables.Evolves tables where
  clock := Int.le_refl _
  codes _ row stored := ⟨row, stored, SameCode.refl row⟩
  kept row member := ⟨row, member, SameToken.refl row, id⟩
  origin later member := Or.inl ⟨later, member, SameToken.refl later⟩
  claims _ _ recorded := Or.inl recorded
  presented _ member := member

variable {row : TokenRow}

theorem Evolves.tracks (h : before.Evolves after) (tracked : before.Tracks row)
    : after.Tracks row := by
  obtain ⟨stored, member, same⟩ := tracked
  obtain ⟨later, kept, version, -⟩ := h.kept stored member
  exact ⟨later, kept, same.trans version⟩

variable {authCode : AuthCodeRow}

theorem Evolves.hasCode (h : before.Evolves after) {code : String}
    (has : before.HasCode code authCode)
    : after.HasCode code authCode := by
  obtain ⟨stored, found, same⟩ := has
  obtain ⟨later, kept, version⟩ := h.codes code stored found
  exact ⟨later, kept, same.trans version⟩

theorem Evolves.trans (h : before.Evolves middle) (more : middle.Evolves after)
    : before.Evolves after where
  clock := Int.le_trans h.clock more.clock
  codes code row stored := more.hasCode (h.codes code row stored)
  kept row member := by
    obtain ⟨between, found, same, revoked⟩ := h.kept row member
    obtain ⟨later, kept, version, still⟩ := more.kept between found
    exact ⟨later, kept, same.trans version, fun some => still (revoked some)⟩
  origin later member := by
    rcases more.origin later member with tracked | fresh
    · obtain ⟨between, found, same⟩ := tracked
      rcases h.origin between found with older | fresh
      · obtain ⟨stored, kept, version⟩ := older
        exact Or.inl ⟨stored, kept, same.trans version⟩
      · exact Or.inr (same.tokenHash ▸ fresh)
    · exact Or.inr (fun known => fresh (h.presented _ known))
  claims key recordedAt recorded := by
    rcases h.claims key recordedAt recorded with still | expired
    · exact more.claims key recordedAt still
    · exact Or.inr (Int.le_trans expired more.clock)
  presented tokenHash member := more.presented tokenHash (h.presented tokenHash member)

theorem Advances.refl (tables : OAuthTables) : tables.Advances tables :=
  fun sound => ⟨Evolves.refl tables, sound⟩

theorem Advances.trans (h : before.Advances middle) (more : middle.Advances after)
    : before.Advances after := by
  intro sound
  obtain ⟨first, between⟩ := h sound
  obtain ⟨second, final⟩ := more between
  exact ⟨first.trans second, final⟩

theorem Sound.sameToken (h : tables.Sound) {left right : TokenRow} (tracked : tables.Tracks left)
    (also : tables.Tracks right) (sameHash : left.tokenHash = right.tokenHash)
    : SameToken left right := by
  obtain ⟨first, found, version⟩ := tracked
  obtain ⟨second, alsoFound, alsoVersion⟩ := also
  have hashes : first.tokenHash = second.tokenHash := by
    rw [← version.tokenHash, sameHash, alsoVersion.tokenHash]
  obtain rfl := h.distinct first found second alsoFound (Or.inr hashes)
  exact version.trans alsoVersion.symm

-- The writes

theorem advances_put (tracked : tables.Tracks row) (revoked : row.revokedAt.isSome)
    : tables.Advances (tables.put row) := by
  intro sound
  obtain ⟨stored, found, same⟩ := tracked
  have replaced : ∀ other ∈ tables.tokens, other.id = row.id → other = stored := by
    intro other member sameId
    exact sound.distinct other member stored found (Or.inl (sameId.trans same.id))
  have oldOf : ∀ other ∈ (tables.put row).tokens,
      ∃ old ∈ tables.tokens, SameToken other old ∧ (other = row ∨ other = old) := by
    intro other member
    rcases mem_putToken.mp member with rfl | kept
    · exact ⟨stored, found, same, Or.inl rfl⟩
    · exact ⟨other, kept.1, SameToken.refl other, Or.inr rfl⟩
  refine ⟨?_, ?_⟩
  · exact {
      clock := Int.le_refl _
      codes := fun code other stored => ⟨other, stored, SameCode.refl other⟩
      kept := by
        intro other member
        by_cases sameId : other.id = row.id
        · obtain rfl := replaced other member sameId
          exact ⟨row, mem_putToken.mpr (Or.inl rfl), same.symm, fun _ => revoked⟩
        · exact ⟨other, mem_putToken.mpr (Or.inr ⟨member, sameId⟩), SameToken.refl other, id⟩
      origin := by
        intro later member
        obtain ⟨old, kept, version, -⟩ := oldOf later member
        exact Or.inl ⟨old, kept, version⟩
      claims := fun _ _ recorded => Or.inl recorded
      presented := fun _ member => member }
  · exact {
      distinct := by
        intro left leftMember right rightMember shared
        obtain ⟨leftOld, leftFound, leftSame, leftIs⟩ := oldOf left leftMember
        obtain ⟨rightOld, rightFound, rightSame, rightIs⟩ := oldOf right rightMember
        have olds : leftOld = rightOld := by
          apply sound.distinct leftOld leftFound rightOld rightFound
          rw [← leftSame.id, ← leftSame.tokenHash, ← rightSame.id, ← rightSame.tokenHash]
          exact shared
        subst olds
        have ids : left.id = right.id := leftSame.id.trans rightSame.id.symm
        rcases mem_putToken.mp leftMember with leftNew | leftKept
        · rcases mem_putToken.mp rightMember with rightNew | rightKept
          · rw [leftNew, rightNew]
          · exact absurd (ids.symm.trans (congrArg _ leftNew)) rightKept.2
        · rcases mem_putToken.mp rightMember with rightNew | rightKept
          · exact absurd (ids.trans (congrArg _ rightNew)) leftKept.2
          · exact sound.distinct left leftKept.1 right rightKept.1 (Or.inl ids)
      lifetimes := by
        intro other member isRefresh
        obtain ⟨old, kept, version, -⟩ := oldOf other member
        rw [version.expiresAt]
        exact sound.lifetimes old kept (version.tokenType.symm.trans isRefresh)
      codes := sound.codes
      claims := by
        intro tokenHash recordedAt recorded
        obtain ⟨known, lifetimes⟩ := sound.claims tokenHash recordedAt recorded
        refine ⟨known, ?_⟩
        intro other member sameHash isRefresh
        obtain ⟨old, kept, version, -⟩ := oldOf other member
        rw [version.expiresAt]
        exact lifetimes old kept (version.tokenHash.symm.trans sameHash)
          (version.tokenType.symm.trans isRefresh) }

theorem advances_insert
    (newRow : ∀ other ∈ tables.tokens, other.id ≠ row.id ∧ other.tokenHash ≠ row.tokenHash)
    (unknown : row.tokenHash ∉ tables.presented)
    (lifetime : row.tokenType = .refresh → row.expiresAt ≤ tables.clock + refreshTokenTtlMs)
    : tables.Advances (tables.put row) := by
  intro sound
  refine ⟨?_, ?_⟩
  · exact {
      clock := Int.le_refl _
      codes := fun code other stored => ⟨other, stored, SameCode.refl other⟩
      kept := by
        intro other member
        exact ⟨other, mem_putToken.mpr (Or.inr ⟨member, (newRow other member).1⟩),
          SameToken.refl other, id⟩
      origin := by
        intro later member
        rcases mem_putToken.mp member with rfl | kept
        · exact Or.inr unknown
        · exact Or.inl ⟨later, kept.1, SameToken.refl later⟩
      claims := fun _ _ recorded => Or.inl recorded
      presented := fun _ member => member }
  · exact {
      distinct := by
        intro left leftMember right rightMember shared
        rcases mem_putToken.mp leftMember with rfl | leftKept
        · rcases mem_putToken.mp rightMember with rightNew | rightKept
          · exact rightNew.symm
          obtain ⟨otherId, otherHash⟩ := newRow right rightKept.1
          rcases shared with sameId | sameHash
          · exact absurd sameId.symm otherId
          · exact absurd sameHash.symm otherHash
        · rcases mem_putToken.mp rightMember with rfl | rightKept
          · obtain ⟨otherId, otherHash⟩ := newRow left leftKept.1
            rcases shared with sameId | sameHash
            · exact absurd sameId otherId
            · exact absurd sameHash otherHash
          · exact sound.distinct left leftKept.1 right rightKept.1 shared
      lifetimes := by
        intro other member isRefresh
        rcases mem_putToken.mp member with rfl | kept
        · exact lifetime isRefresh
        · exact sound.lifetimes other kept.1 isRefresh
      codes := sound.codes
      claims := by
        intro tokenHash recordedAt recorded
        obtain ⟨known, lifetimes⟩ := sound.claims tokenHash recordedAt recorded
        refine ⟨known, ?_⟩
        intro other member sameHash isRefresh
        rcases mem_putToken.mp member with rfl | kept
        · exact absurd (sameHash ▸ known) unknown
        · exact lifetimes other kept.1 sameHash isRefresh }

theorem advances_present (tokenHash : String) : tables.Advances (tables.present tokenHash) := by
  intro sound
  refine ⟨?_, ?_⟩
  · exact { Evolves.refl tables with
      presented := fun _ member => List.mem_cons_of_mem _ member }
  exact {
    distinct := sound.distinct
    lifetimes := sound.lifetimes
    codes := sound.codes
    claims := by
      intro other recordedAt recorded
      obtain ⟨known, lifetimes⟩ := sound.claims other recordedAt recorded
      exact ⟨List.mem_cons_of_mem _ known, lifetimes⟩ }

variable {key : SingleUseKey}

theorem advances_claim (free : tables.claims key = none)
    (presented : ∀ tokenHash, key = .refresh tokenHash → tokenHash ∈ tables.presented)
    : tables.Advances (tables.claim key) := by
  intro sound
  refine ⟨?_, ?_⟩
  · exact { Evolves.refl tables with
      claims := by
        intro other recordedAt recorded
        have different : other ≠ key := by
          rintro rfl
          rw [free] at recorded
          cases recorded
        exact Or.inl (by simp [claim, different, recorded]) }
  · exact {
      distinct := sound.distinct
      lifetimes := sound.lifetimes
      codes := sound.codes
      claims := by
        intro tokenHash recordedAt recorded
        by_cases same : SingleUseKey.refresh tokenHash = key
        · have recordedNow : tables.clock = recordedAt := by
            simpa [claim, same] using recorded
          refine ⟨presented tokenHash same.symm, ?_⟩
          intro row member _ isRefresh
          rw [← recordedNow]
          exact sound.lifetimes row member isRefresh
        · exact sound.claims tokenHash recordedAt (by simpa [claim, same] using recorded) }

theorem advances_tick {elapsed : Int} (h : tickStep before elapsed = some after)
    : before.Advances after := by
  simp only [tickStep, Option.ite_none_right_eq_some, Option.some.injEq] at h
  obtain ⟨forward, rfl⟩ := h
  intro sound
  refine ⟨?_, ?_⟩
  · exact { Evolves.refl before with
      clock := by dsimp only; omega
      claims := fun _ _ recorded => Or.inl recorded }
  · exact {
      distinct := sound.distinct
      lifetimes := by
        intro row member isRefresh
        have bound := sound.lifetimes row member isRefresh
        exact Int.le_trans bound (by dsimp only; omega)
      codes := by
        intro code row stored
        obtain ⟨sameId, bound⟩ := sound.codes code row stored
        exact ⟨sameId, Int.le_trans bound (by dsimp only; omega)⟩
      claims := sound.claims }

theorem advances_expireClaim (h : expireClaimStep before key = some after)
    : before.Advances after := by
  unfold expireClaimStep at h
  split at h
  · rename_i recordedAt recorded
    simp only [Option.ite_none_right_eq_some, Option.some.injEq] at h
    obtain ⟨expired, rfl⟩ := h
    intro sound
    refine ⟨?_, ?_⟩
    · exact { Evolves.refl before with
        claims := by
          intro other at' known
          by_cases same : other = key
          · subst same
            rw [recorded] at known
            cases known
            exact Or.inr expired
          · exact Or.inl (by simp [same, known]) }
    · exact {
        distinct := sound.distinct
        lifetimes := sound.lifetimes
        codes := sound.codes
        claims := by
          intro tokenHash at' known
          by_cases same : SingleUseKey.refresh tokenHash = key
          · simp [same] at known
          · exact sound.claims tokenHash at' (by simpa [same] using known) }
  · cases h

theorem advances_putCode
    (versions : ∀ old, tables.codes authCode.id = some old → SameCode old authCode)
    (lifetime : tables.Sound → authCode.expiresAt ≤ tables.clock + authCodeTtlMs)
    : tables.Advances (tables.putCode authCode) := by
  intro sound
  refine ⟨?_, ?_⟩
  · exact { Evolves.refl tables with
      codes := by
        intro code row stored
        by_cases same : code = authCode.id
        · subst same
          exact ⟨authCode, by simp [putCode], versions row stored⟩
        · exact ⟨row, by simp [putCode, same, stored], SameCode.refl row⟩ }
  · exact {
      distinct := sound.distinct
      lifetimes := sound.lifetimes
      codes := by
        intro code row stored
        by_cases same : code = authCode.id
        · have isRow : authCode = row := by simpa [putCode, same] using stored
          exact ⟨by rw [← isRow, same], by rw [← isRow]; exact lifetime sound⟩
        · exact sound.codes code row (by simpa [putCode, same] using stored)
      claims := sound.claims }

theorem advances_authorize (h : authorizeStep before authCode = some after)
    : before.Advances after := by
  simp only [authorizeStep, Option.ite_none_right_eq_some, Option.some.injEq] at h
  obtain ⟨⟨-, free, -, lifetime⟩, rfl⟩ := h
  apply advances_putCode
  · intro old stored
    rw [free] at stored
    cases stored
  · exact fun _ => lifetime

theorem advances_markUsed {code : String} (has : tables.HasCode code authCode)
    : tables.Advances (tables.markUsed authCode) := by
  intro sound
  obtain ⟨stored, found, same⟩ := has
  obtain ⟨ownId, lifetime⟩ := sound.codes code stored found
  unfold SameCode at same
  have isCode : authCode.id = code := by rw [← ownId, ← same]
  have expires : authCode.expiresAt = stored.expiresAt := by rw [← same]
  have advances : tables.Advances (tables.markUsed authCode) := by
    apply advances_putCode
    · intro old found'
      have olds : old = stored := by
        rw [show ({ authCode with used := true } : AuthCodeRow).id = code from isCode, found]
          at found'
        exact (Option.some.inj found').symm
      rw [olds, ← same]
      rfl
    · intro _
      exact expires ▸ lifetime
  exact advances sound

theorem advances_claimOAuthSingleUse {choice : ClaimChoice} {claimed : OAuthTables}
    {answer : ReplayClaim} (h : claimOAuthSingleUse tables key choice = (claimed, answer))
    (presented : ∀ tokenHash, key = .refresh tokenHash → tokenHash ∈ tables.presented)
    : tables.Advances claimed := by
  cases choice with
  | decided =>
    simp only [claimOAuthSingleUse] at h
    split at h
    · obtain ⟨rfl, -⟩ := Prod.mk.inj h
      exact Advances.refl tables
    · rename_i free
      obtain ⟨rfl, -⟩ := Prod.mk.inj h
      exact advances_claim (by simpa using free) presented
  | failed written =>
    simp only [claimOAuthSingleUse] at h
    split at h
    · rename_i free
      obtain ⟨rfl, -⟩ := Prod.mk.inj h
      exact advances_claim free.2 presented
    · obtain ⟨rfl, -⟩ := Prod.mk.inj h
      exact Advances.refl tables

theorem advances_putAll {rows : List TokenRow} (tracked : ∀ row ∈ rows, tables.Tracks row)
    (revoked : ∀ row ∈ rows, row.revokedAt.isSome)
    : tables.Advances (tables.putAll rows) := by
  induction rows generalizing tables with
  | nil => exact Advances.refl tables
  | cons row rest ih =>
    intro sound
    have first := advances_put (tracked row List.mem_cons_self) (revoked row List.mem_cons_self)
    obtain ⟨evolves, between⟩ := first sound
    have later := ih
      (fun other member => evolves.tracks (tracked other (List.mem_cons_of_mem _ member)))
      (fun other member => revoked other (List.mem_cons_of_mem _ member))
    obtain ⟨more, final⟩ := later between
    exact ⟨evolves.trans more, final⟩

end OAuthTables

-- Token pairs

variable {tables : OAuthTables} {hashes : OAuthHashes} {draw : Draw}

structure Draw.New (hashes : OAuthHashes) (tables : OAuthTables) (draw : Draw) : Prop where
  ids : draw.pair.accessId ≠ draw.pair.refreshId
  tokens : hashes.sha256 draw.pair.accessToken ≠ hashes.sha256 draw.pair.refreshToken
  access : ∀ row ∈ tables.tokens, row.id ≠ draw.pair.accessId
    ∧ row.tokenHash ≠ hashes.sha256 draw.pair.accessToken
  refresh : ∀ row ∈ tables.tokens, row.id ≠ draw.pair.refreshId
    ∧ row.tokenHash ≠ hashes.sha256 draw.pair.refreshToken
  accessUnknown : hashes.sha256 draw.pair.accessToken ∉ tables.presented
  refreshUnknown : hashes.sha256 draw.pair.refreshToken ∉ tables.presented
  stamped : draw.stampedAt ≤ tables.clock

theorem Draw.new_of_ok (h : draw.ok hashes tables = true) : Draw.New hashes tables draw := by
  simp only [Draw.ok, NewPair.fresh, Bool.and_eq_true, decide_eq_true_eq, List.all_eq_true]
    at h
  obtain ⟨⟨⟨⟨⟨ids, tokens⟩, rows⟩, accessUnknown⟩, refreshUnknown⟩, stamped⟩ := h
  refine ⟨ids, tokens, ?_, ?_, accessUnknown, refreshUnknown, stamped⟩
  · intro row member
    obtain ⟨⟨⟨accessId, -⟩, accessHash⟩, -⟩ := rows row member
    exact ⟨by simpa using accessId, by simpa using accessHash⟩
  · intro row member
    obtain ⟨⟨⟨-, refreshId⟩, -⟩, refreshHash⟩ := rows row member
    exact ⟨by simpa using refreshId, by simpa using refreshHash⟩

theorem OAuthTables.advances_pairRows (new : Draw.New hashes tables draw) (clientId principalId scope : String)
    (stored : Nat)
    : tables.Advances
        (tables.putAll ((pairRows hashes draw clientId principalId scope).take stored)) := by
  let access := accessRow hashes draw.pair clientId principalId scope draw.stampedAt
  let refresh := refreshRow hashes draw.pair clientId principalId scope draw.stampedAt
  have first : tables.Advances (tables.put access) := by
    apply OAuthTables.advances_insert new.access new.accessUnknown
    intro isRefresh
    cases isRefresh
  have second : (tables.put access).Advances ((tables.put access).put refresh) := by
    apply OAuthTables.advances_insert
    · intro other member
      rcases mem_putToken.mp member with rfl | kept
      · exact ⟨new.ids, new.tokens⟩
      · exact new.refresh other kept.1
    · exact new.refreshUnknown
    · intro _
      have stamped := new.stamped
      change draw.stampedAt + refreshTokenTtlMs ≤ tables.clock + refreshTokenTtlMs
      omega
  match stored with
  | 0 => exact OAuthTables.Advances.refl tables
  | 1 => exact first
  | _ + 2 => simpa [pairRows, OAuthTables.putAll, access, refresh] using first.trans second

theorem Draw.New.put (new : Draw.New hashes tables draw) {row : TokenRow}
    (tracked : tables.Tracks row)
    : Draw.New hashes (tables.put row) draw := by
  obtain ⟨stored, found, same⟩ := tracked
  have access := new.access stored found
  have refresh := new.refresh stored found
  refine ⟨new.ids, new.tokens, ?_, ?_, new.accessUnknown, new.refreshUnknown, new.stamped⟩
  · intro other member
    rcases mem_putToken.mp member with rfl | kept
    · rw [same.id, same.tokenHash]
      exact access
    · exact new.access other kept.1
  · intro other member
    rcases mem_putToken.mp member with rfl | kept
    · rw [same.id, same.tokenHash]
      exact refresh
    · exact new.refresh other kept.1

theorem OAuthTables.advances_rotationRows (new : Draw.New hashes tables draw) {committed : TokenRow}
    (tracked : tables.Tracks committed)
    : tables.Advances (tables.putAll (rotationRows hashes draw committed)) := by
  have versions : tables.Tracks { committed with revokedAt := some draw.stampedAt } := by
    obtain ⟨stored, found, same⟩ := tracked
    exact ⟨stored, found, same.id, same.tokenHash, same.tokenType, same.expiresAt⟩
  exact (OAuthTables.advances_put versions rfl).trans (OAuthTables.advances_pairRows (new.put versions) _ _ _ 2)

theorem OAuthTables.revoked_rotationRows (new : Draw.New hashes tables draw) {committed : TokenRow}
    (tracked : tables.Tracks committed) (sound : tables.Sound)
    : ∀ row ∈ (tables.putAll (rotationRows hashes draw committed)).tokens,
        row.tokenHash = committed.tokenHash → row.revokedAt.isSome := by
  obtain ⟨stored, found, same⟩ := tracked
  intro row member sameHash
  rcases mem_putToken.mp member with rfl | ⟨member, -⟩
  · exact absurd (sameHash.trans same.tokenHash).symm (new.refresh stored found).2
  rcases mem_putToken.mp member with rfl | ⟨member, -⟩
  · exact absurd (sameHash.trans same.tokenHash).symm (new.access stored found).2
  rcases mem_putToken.mp member with rfl | ⟨member, otherId⟩
  · rfl
  · have isStored := sound.distinct row member stored found
      (Or.inr (sameHash.trans same.tokenHash))
    exact absurd (isStored ▸ same.id.symm) otherId

end Flair.OAuth
