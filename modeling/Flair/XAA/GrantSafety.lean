import Flair.XAA.GrantRuns

/-! Every step of every grant keeps what a jwt-bearer grant may store. -/

namespace Flair.XAA

open Dynamic Transition KeyLedger Flair.OAuth
open Flair.WriteBack (verifyCommittedFields committedShowsFields_of_verify
  get_of_committedShowsFields)

-- The invariant

def JtisKept (clock : Int) (rows : String → Option Int) (log : List GrantEvent) : Prop :=
  ∀ id jti writtenAt, .claimed id jti writtenAt ∈ log
    → (∃ row, rows jti = some row ∧ writtenAt ≤ row) ∨ writtenAt + idJagReplayRetentionMs ≤ clock

structure GrantsInv (state : GrantState) : Prop where
  subjects : ∀ id, state.subjects.HoldsExactly id (state.grant id).heldSubject.toList
  jtis : ∀ id, state.jtis.HoldsExactly id (state.grant id).heldJti.toList
  kept : JtisKept state.clock state.jtiRows state.log
  log : LogSound state.log
  grants : ∀ id, GrantHolds state.clock state.log state.cell id (state.grant id)

/-- What a step of one grant does before the grant enters its next stage. -/
structure ActsFor (id : Nat) (new : List GrantEvent) (state base : GrantState) : Prop where
  clock : base.clock = state.clock
  grant : base.grant = state.grant
  subjects : base.subjects = state.subjects
  jtis : base.jtis = state.jtis
  log : base.log = new ++ state.log
  owned : ∀ event ∈ new, event.owner = some id
  claims : ∀ other jti last, .claimed other jti last ∈ new → (state.grant id).heldJti = some jti
  creates
    : ∀ other key principalId, .provisioned other key principalId ∈ new
      → (state.grant id).heldSubject = some key
  cells : ∀ credential, base.cell credential = state.cell credential
    ∨ (base.cell credential).maps = true

theorem ActsFor.refl (id : Nat) (state : GrantState) : ActsFor id [] state state where
  clock := rfl
  grant := rfl
  subjects := rfl
  jtis := rfl
  log := rfl
  owned _ inside := absurd inside List.not_mem_nil
  claims _ _ _ inside := absurd inside List.not_mem_nil
  creates _ _ _ inside := absurd inside List.not_mem_nil
  cells := fun _ => .inl rfl

section Enter

variable {state base : GrantState} {id : Nat} {stage : GrantStage} {new : List GrantEvent}

theorem enter_grant_self : (base.enter id stage).grant id = { base.grant id with stage } := by
  simp [GrantState.enter]

theorem enter_grant_of_ne {other : Nat} (different : other ≠ id)
    : (base.enter id stage).grant other = base.grant other := by
  simp [GrantState.enter, different]

theorem enter_subjects (keeps : stage.locked = true → (base.grant id).stage.locked = true)
    : base.subjects.Moves (base.enter id stage).subjects id (base.grant id).heldSubject
        ((base.enter id stage).grant id).heldSubject := by
  rw [enter_grant_self]
  unfold Grant.heldSubject Grant.key
  cases held : (base.grant id).stage.locked with
  | false =>
    have free : stage.locked = false := by
      cases next : stage.locked with
      | false => rfl
      | true => exact absurd (keeps next) (by simp [held])
    simp [free, Ledger.Moves, GrantState.enter, held]
  | true =>
    cases next : stage.locked <;>
      simp [Ledger.Moves, GrantState.enter, held, next, Grant.key]

theorem enter_jtis (keeps : stage.claims = true → (base.grant id).stage.claims = true)
    : base.jtis.Moves (base.enter id stage).jtis id (base.grant id).heldJti
        ((base.enter id stage).grant id).heldJti := by
  rw [enter_grant_self]
  cases held : (base.grant id).stage.claims with
  | false =>
    have free : stage.claims = false := by
      cases next : stage.claims with
      | false => rfl
      | true => exact absurd (keeps next) (by simp [held])
    simp [free, Ledger.Moves, GrantState.enter, held, Grant.heldJti]
  | true =>
    cases carried : (base.grant id).jti with
    | none =>
      have same : ({ base.grant id with stage } : Grant).jti = none := carried
      cases next : stage.claims <;>
        simp [Ledger.Moves, GrantState.enter, held, next, Grant.heldJti, carried, same]
    | some jti =>
      have same : ({ base.grant id with stage } : Grant).jti = some jti := carried
      cases next : stage.claims <;>
        simp [Ledger.Moves, GrantState.enter, held, next, Grant.heldJti, carried, same]

/-- Two grants hold no lock in common, so the events of the one's step are no claim of the
other's jti and no creation for the other's subject.
-/
theorem GrantsInv.follows (inv : GrantsInv state) (acts : ActsFor id new state base)
    {other : Nat} (different : other ≠ id)
    : Follows other (state.grant other) new state.log state.cell base.cell where
  others event member owner := by
    rw [acts.owned event member] at owner
    exact different (Option.some.inj owner).symm
  claims jti held owner last member :=
    different ((inv.jtis other).unique (inv.jtis id) held (acts.claims owner jti last member))
  creates key held owner principalId member :=
    different ((inv.subjects other).unique (inv.subjects id) held
      (acts.creates owner key principalId member))
  cells credential := (acts.cells credential).imp_right .inl

theorem GrantsInv.enter (inv : GrantsInv state) (acts : ActsFor id new state base)
    (locks : stage.locked = true → (state.grant id).stage.locked = true)
    (claims : stage.claims = true → (state.grant id).stage.claims = true)
    (kept : JtisKept state.clock base.jtiRows (new ++ state.log))
    (sound : LogSound (new ++ state.log))
    (holds : GrantHolds state.clock (new ++ state.log) base.cell id { state.grant id with stage })
    : GrantsInv (base.enter id stage) := by
  rw [← acts.log] at kept sound holds
  have cells : (base.enter id stage).cell = base.cell := rfl
  have subjectMove : base.subjects.Moves (base.enter id stage).subjects id
      (base.grant id).heldSubject ((base.enter id stage).grant id).heldSubject :=
    enter_subjects (by rw [acts.grant]; exact locks)
  have jtiMove : base.jtis.Moves (base.enter id stage).jtis id (base.grant id).heldJti
      ((base.enter id stage).grant id).heldJti :=
    enter_jtis (by rw [acts.grant]; exact claims)
  rw [acts.grant, acts.subjects] at subjectMove
  rw [acts.grant, acts.jtis] at jtiMove
  refine ⟨?_, ?_, ?_, sound, ?_⟩
  · intro other
    by_cases same : other = id
    · subst same
      exact subjectMove.own (inv.subjects other)
    · rw [enter_grant_of_ne same, acts.grant]
      exact subjectMove.other (inv.subjects id) (inv.subjects other) same
  · intro other
    by_cases same : other = id
    · subst same
      exact jtiMove.own (inv.jtis other)
    · rw [enter_grant_of_ne same, acts.grant]
      exact jtiMove.other (inv.jtis id) (inv.jtis other) same
  · change JtisKept base.clock base.jtiRows base.log
    rw [acts.clock]
    exact kept
  · intro other
    change GrantHolds base.clock base.log base.cell other ((base.enter id stage).grant other)
    rw [acts.clock]
    by_cases same : other = id
    · subst same
      rw [enter_grant_self, acts.grant]
      exact holds
    · rw [enter_grant_of_ne same, acts.grant, acts.log]
      exact (inv.grants other).follow (inv.follows acts same) le_rfl

theorem GrantsInv.update (inv : GrantsInv state) {grant : Grant} {subjects : Ledger SubjectKey Nat}
    {jtis : Ledger String Nat}
    (subjectMove : state.subjects.Moves subjects id (state.grant id).heldSubject grant.heldSubject)
    (jtiMove : state.jtis.Moves jtis id (state.grant id).heldJti grant.heldJti)
    (holds : GrantHolds state.clock state.log state.cell id grant)
    : GrantsInv { state with subjects, jtis, grant := Function.update state.grant id grant } := by
  refine ⟨?_, ?_, inv.kept, inv.log, ?_⟩
  · intro other
    by_cases same : other = id
    · subst same
      simpa using subjectMove.own (inv.subjects other)
    · simpa [same] using subjectMove.other (inv.subjects id) (inv.subjects other) same
  · intro other
    by_cases same : other = id
    · subst same
      simpa using jtiMove.own (inv.jtis other)
    · simpa [same] using jtiMove.other (inv.jtis id) (inv.jtis other) same
  · intro other
    change GrantHolds state.clock state.log state.cell other
      (Function.update state.grant id grant other)
    by_cases same : other = id
    · subst same
      simpa using holds
    · simpa [same] using inv.grants other

theorem GrantsInv.goto (inv : GrantsInv state)
    (locks : stage.locked = true → (state.grant id).stage.locked = true)
    (claims : stage.claims = true → (state.grant id).stage.claims = true)
    (holds : GrantHolds state.clock state.log state.cell id { state.grant id with stage })
    : GrantsInv (state.enter id stage) :=
  inv.enter (ActsFor.refl id state) locks claims inv.kept inv.log holds

theorem GrantsInv.answer (inv : GrantsInv state) {answer : OAuthAnswer}
    (refused : issuesPair answer = false) (none : tokensOf id state.log = [])
    : GrantsInv (state.enter id (.answered answer)) :=
  inv.goto nofun nofun (.inr ⟨refused, .inl none⟩)

theorem GrantsInv.refuse (inv : GrantsInv state) (message : String)
    (none : tokensOf id state.log = [])
    : GrantsInv (state.refuse id message) :=
  inv.answer rfl none

theorem jtisKept_cons {clock : Int} {rows : String → Option Int} {log : List GrantEvent}
    {event : GrantEvent} (kept : JtisKept clock rows log)
    (other : ∀ id jti writtenAt, event ≠ .claimed id jti writtenAt)
    : JtisKept clock rows (event :: log) := by
  intro id jti writtenAt member
  rcases List.mem_cons.mp member with rfl | old
  · exact absurd rfl (other id jti writtenAt)
  · exact kept id jti writtenAt old

theorem ActsFor.note (id : Nat) (state : GrantState) {event : GrantEvent}
    (owned : event.owner = some id)
    (claims : ∀ other jti last, event ≠ .claimed other jti last)
    (creates : ∀ other key principalId, event ≠ .provisioned other key principalId)
    : ActsFor id [event] state (state.note event) where
  clock := rfl
  grant := rfl
  subjects := rfl
  jtis := rfl
  log := rfl
  owned other member := by
    rw [List.mem_singleton.mp member]
    exact owned
  claims other jti last member := absurd (List.mem_singleton.mp member).symm (claims other jti last)
  creates other key principalId member :=
    absurd (List.mem_singleton.mp member).symm (creates other key principalId)
  cells _ := .inl rfl

end Enter

-- The steps of a grant

section Steps

variable {hashes : OAuthHashes} {state after : GrantState} {id : Nat}

theorem GrantsInv.at (inv : GrantsInv state) {stage : GrantStage}
    (here : (state.grant id).stage = stage)
    : GrantHolds state.clock state.log state.cell id { state.grant id with stage } := by
  have holds := inv.grants id
  rw [← here]
  exact holds

theorem inv_arriveStep (inv : GrantsInv state)
    {assertion : Option (Except String (Record × IdpConfig))} {clientId : Option String}
    (taken : arriveStep state id assertion clientId = some after)
    : GrantsInv after := by
  unfold arriveStep at taken
  split at taken
  · rename_i here
    cases taken
    exact inv.answer rfl (inv.at here).1
  · rename_i here
    cases taken
    exact inv.refuse _ (inv.at here).1
  · rename_i payload config here
    split at taken
    · cases taken
      exact inv.refuse _ (inv.at here).1
    cases taken
    refine inv.update ?_ ?_ (inv.at here)
    · simp [Grant.heldSubject, here, GrantStage.locked, Ledger.Moves]
    · simp [Grant.heldJti, here, GrantStage.claims, Ledger.Moves]
  · cases taken

theorem inv_lockStep (inv : GrantsInv state) (taken : lockStep state id = some after)
    : GrantsInv after := by
  unfold lockStep at taken
  dsimp only at taken
  split at taken
  · rename_i here
    obtain ⟨subjects, locked, rfl⟩ := Option.map_eq_some_iff.mp taken
    have none : tokensOf id state.log = [] ∧ Untouched state.log id := inv.at here
    refine inv.update ?_ ?_ none
    · simpa [Grant.heldSubject, here, GrantStage.locked, Ledger.Moves, Grant.key] using locked
    · simp [Grant.heldJti, here, GrantStage.claims, Ledger.Moves]
  · cases taken

theorem GrantsInv.apart (inv : GrantsInv state) {jti : String} (free : state.jtiRows jti = none)
    {other : Nat} {last : Int} (claimed : .claimed other jti last ∈ state.log)
    : last + idJagReplayRetentionMs ≤ state.clock := by
  rcases inv.kept other jti last claimed with ⟨row, present, -⟩ | past
  · rw [free] at present
    cases present
  · exact past

theorem inv_claimStep (inv : GrantsInv state) {unavailable : Bool}
    (taken : claimStep state id unavailable = some after)
    : GrantsInv after := by
  unfold claimStep at taken
  dsimp only at taken
  split at taken
  · rename_i here
    obtain ⟨none, untouched⟩ := inv.at here
    split at taken
    · rename_i without
      cases taken
      refine inv.goto (fun _ => by rw [here]; rfl) nofun ⟨⟨?_, none⟩, untouched⟩
      intro jti carried
      rw [show ({ state.grant id with stage := .searching } : Grant).jti = (state.grant id).jti
        from rfl, without] at carried
      cases carried
    · rename_i jti carried
      split at taken
      · cases taken
        exact inv.answer rfl none
      split at taken
      · cases taken
        exact inv.refuse _ none
      rename_i jtis locked
      split at taken
      · cases taken
        exact inv.refuse _ none
      rename_i free
      cases taken
      refine inv.update ?_ ?_ ⟨⟨none, untouched⟩, le_rfl, ?_⟩
      · simp [Grant.heldSubject, here, GrantStage.locked, Ledger.Moves, Grant.key]
      · have same : ({ state.grant id with stage := .recording state.clock } : Grant).jti
            = some jti := carried
        simpa [Grant.heldJti, here, GrantStage.claims, Ledger.Moves, same] using locked
      · intro wanted same other last claimed
        have equal : wanted = jti := Option.some.inj (same.symm.trans carried)
        subst equal
        exact inv.apart free claimed
  · cases taken

theorem jtisKept_record (kept : JtisKept state.clock state.jtiRows state.log) {jti : String}
    {writtenAt : Int} (past : writtenAt ≤ state.clock)
    (apart : ∀ other last, .claimed other jti last ∈ state.log
      → last + idJagReplayRetentionMs ≤ writtenAt)
    : JtisKept state.clock (Function.update state.jtiRows jti (some writtenAt)) state.log := by
  intro other wanted last claimed
  by_cases same : wanted = jti
  · subst same
    exact .inr ((apart other last claimed).trans past)
  · simpa [same] using kept other wanted last claimed

theorem inv_recordStep (inv : GrantsInv state) {commit : JtiCommit}
    (taken : recordStep state id commit = some after)
    : GrantsInv after := by
  unfold recordStep at taken
  dsimp only at taken
  split at taken
  · rename_i writtenAt jti here carried
    obtain ⟨⟨none, untouched⟩, past, apart⟩ := inv.at here
    have rows := jtisKept_record inv.kept past (apart jti carried)
    have held : (state.grant id).heldJti = some jti := by
      simp [Grant.heldJti, here, GrantStage.claims, carried]
    cases commit with
    | resolved =>
      cases taken
      have acts : ActsFor id [.claimed id jti writtenAt] state
          ({ state with jtiRows := Function.update state.jtiRows jti (some writtenAt) }.note
            (.claimed id jti writtenAt)) := by
        refine { ActsFor.refl id state with
          log := rfl
          owned := ?_
          claims := ?_
          creates := ?_
          cells := fun _ => .inl rfl }
        · intro event member
          rw [List.mem_singleton.mp member]
          rfl
        · intro other wanted last member
          cases List.mem_singleton.mp member
          exact held
        · intro other key principalId member
          cases List.mem_singleton.mp member
      refine inv.enter acts (fun _ => by rw [here]; rfl) nofun ?_
        (inv.log.cons (apart jti carried))
        ⟨⟨?_, none⟩, untouched.later (untouched_singleton nofun)⟩
      · intro other wanted last member
        rcases List.mem_cons.mp member with fresh | old
        · cases fresh
          exact .inl ⟨writtenAt, by simp [GrantState.note], le_rfl⟩
        · exact rows other wanted last old
      · intro wanted same
        have equal : wanted = jti := Option.some.inj (same.symm.trans carried)
        exact ⟨writtenAt, by rw [equal]; exact List.mem_cons_self⟩
    | rejected landed =>
      cases taken
      cases landed with
      | false => exact inv.answer rfl none
      | true =>
        have acts : ActsFor id [] state
            { state with jtiRows := Function.update state.jtiRows jti (some writtenAt) } :=
          { ActsFor.refl id state with
            log := rfl
            cells := fun _ => .inl rfl }
        exact inv.enter acts nofun nofun rows inv.log (.inr ⟨rfl, .inl none⟩)
  · cases taken

theorem inv_searchStep (inv : GrantsInv state) {found : Option String} {now : String}
    (taken : searchStep state id found now = some after)
    : GrantsInv after := by
  unfold searchStep at taken
  dsimp only at taken
  split at taken
  · rename_i credential here
    obtain ⟨⟨claimed, none⟩, untouched⟩ := inv.at here
    have ready : Ready state.log id (state.grant id) := ⟨claimed, none⟩
    split at taken
    · cases taken
    rename_i cred read
    split at taken
    · split at taken
      · rename_i maps
        cases taken
        exact inv.goto (fun _ => by rw [here]; rfl) nofun
          ⟨⟨ready.claimed, ready.none⟩, maps, now, rfl⟩
      · cases taken
        exact inv.refuse _ ready.none
    · cases taken
  · rename_i here
    obtain ⟨⟨claimed, none⟩, untouched⟩ := inv.at here
    have ready : Ready state.log id (state.grant id) := ⟨claimed, none⟩
    have acts : ActsFor id [.foundNone id (state.grant id).key] state
        (state.note (.foundNone id (state.grant id).key)) :=
      ActsFor.note id state rfl nofun nofun
    have kept : JtisKept state.clock state.jtiRows
        (.foundNone id (state.grant id).key :: state.log) :=
      jtisKept_cons inv.kept nofun
    have sound : LogSound (.foundNone id (state.grant id).key :: state.log) := inv.log.cons trivial
    split at taken
    · cases taken
    split at taken
    · cases taken
      exact inv.enter acts nofun nofun kept sound (.inr ⟨rfl, .inl ready.none⟩)
    split at taken
    · cases taken
      exact inv.enter acts nofun nofun kept sound (.inr ⟨rfl, .inl ready.none⟩)
    cases taken
    refine inv.enter acts (fun _ => by rw [here]; rfl) nofun kept sound
      ⟨⟨?_, ready.none⟩, ?_, ?_⟩
    · exact ready.claimed.cons
    · exact untouched.later (untouched_singleton nofun)
    · exact ⟨[], state.log, rfl, nofun⟩
  · cases taken

theorem inv_confirmStep (inv : GrantsInv state) (taken : confirmStep state id = some after)
    : GrantsInv after := by
  unfold confirmStep at taken
  split at taken
  · rename_i touch here
    obtain ⟨ready, sound⟩ := inv.at here
    split at taken
    · rename_i committed read
      split at taken
      · rename_i matched
        cases taken
        have maps : credentialMapsPrincipal committed = true := by
          simp only [stillMatched, Option.any_some, Bool.and_eq_true] at matched
          exact matched.1.1
        refine inv.enter (ActsFor.note id state rfl nofun nofun) (fun _ => by rw [here]; rfl) nofun
          (jtisKept_cons inv.kept nofun) (inv.log.cons trivial)
          ⟨⟨?_, ready.none⟩, sound, ⟨[], state.log, committed, rfl, maps⟩, .inl ?_⟩
        · exact ready.claimed.cons
        · change (state.cell touch.id).maps = true
          simp [CredentialCell.maps, read, maps]
      · cases taken
        exact inv.refuse _ ready.none
    · cases taken
      exact inv.refuse _ ready.none
  · cases taken

theorem cell_putCredential {credential other : String} {row : Option Record} {order : Int}
    : (state.putCredential credential row order).cell other
      = if other = credential then ⟨row, some order⟩ else state.cell other := by
  by_cases same : other = credential
  · simp [GrantState.putCredential, GrantState.cell, same]
  · simp [GrantState.putCredential, GrantState.cell, same]

theorem Touch.Sound.touched {touch : Touch} (sound : touch.Sound)
    : credentialMapsPrincipal touch.touched = true := by
  obtain ⟨now, row⟩ := sound.row
  rw [row, credentialMapsPrincipal_touchedRow]
  exact sound.maps

theorem inv_commitTouchStep (inv : GrantsInv state) {landed : Bool}
    (taken : commitTouchStep state id landed = some after)
    : GrantsInv after := by
  unfold commitTouchStep at taken
  split at taken
  · rename_i touch here
    obtain ⟨ready, sound, confirmed⟩ := inv.at here
    cases taken
    generalize effect : (landed && (state.cell touch.id).admits touch.readAt) = lands
    have event : EventSound (.touched id touch (state.cell touch.id) lands) state.log := by
      cases lands with
      | false => trivial
      | true =>
        obtain ⟨-, admitted⟩ := Bool.and_eq_true_iff.mp effect
        rcases confirmed.2 with active | ⟨order, current, written⟩
        · exact .inl active
        · refine .inr ⟨order, ?_, written⟩
          simpa [CredentialCell.admits, current] using admitted
    have acts : ActsFor id [.touched id touch (state.cell touch.id) lands] state
        ((if lands then state.putCredential touch.id (some touch.touched) touch.readAt
          else state).note (.touched id touch (state.cell touch.id) lands)) := by
      have noted : ActsFor id [.touched id touch (state.cell touch.id) lands] state
          (state.note (.touched id touch (state.cell touch.id) lands)) :=
        ActsFor.note id state rfl nofun nofun
      cases lands with
      | false => exact noted
      | true =>
        refine { noted with cells := ?_ }
        intro credential
        change (state.putCredential touch.id (some touch.touched) touch.readAt).cell credential
            = state.cell credential
          ∨ ((state.putCredential touch.id (some touch.touched) touch.readAt).cell
            credential).maps = true
        rw [cell_putCredential]
        by_cases same : credential = touch.id
        · simp [same, CredentialCell.maps, sound.touched]
        · simp [same]
    have rows : ((if lands then state.putCredential touch.id (some touch.touched) touch.readAt
        else state).note (.touched id touch (state.cell touch.id) lands)).jtiRows
        = state.jtiRows := by
      cases lands <;> rfl
    refine inv.enter acts (fun _ => by rw [here]; rfl) nofun ?_ (inv.log.cons event)
      ⟨⟨?_, ready.none⟩, sound, _, _, List.mem_cons_self⟩
    · rw [rows]
      exact jtisKept_cons inv.kept nofun
    · exact ready.claimed.cons
  · cases taken

theorem Touch.Sound.shown {touch : Touch} (sound : touch.Sound) {committed : Record}
    {principalId : String} (names : credentialPrincipalId touch.cred = some principalId)
    (shown : verifyCommittedFields (some (some committed)) (some touch.touched)
      (touchedFields touch.touched) = .shown)
    : isUsableCredential committed = true ∧ credentialPrincipalId committed = some principalId := by
  have fields := committedShowsFields_of_verify shown
  have holds {field : String} {value : Value} (managed : field ∉ WriteBack.harperManagedFields)
      (value_of : touch.touched.get field = some value)
      : committed.get field = some value := by
    refine get_of_committedShowsFields fields ?_
    simp only [WriteBack.harperManagedFields, List.mem_cons, List.not_mem_nil, or_false, not_or]
      at managed
    simpa [touchedFields, WriteBack.withoutHarperManagedFields, WriteBack.harperManagedFields,
      managed] using value_of
  have usable : isUsableCredential touch.touched = true := by
    have maps := sound.touched
    simp only [credentialMapsPrincipal, Bool.and_eq_true] at maps
    exact maps.1
  obtain ⟨now, row⟩ := sound.row
  have named : credentialPrincipalId touch.touched = some principalId := by
    rw [row, credentialPrincipalId_touchedRow]
    exact names
  obtain ⟨text, nonempty⟩ := Option.filter_eq_some_iff.mp named
  have principal := holds (by decide) (asString_eq_some.mp text)
  have status := holds (by decide) (of_decide_eq_true usable)
  refine ⟨by simp [isUsableCredential, status], ?_⟩
  exact Option.filter_eq_some_iff.mpr ⟨by rw [principal]; rfl, nonempty⟩

theorem inv_verifyStep (inv : GrantsInv state) (taken : verifyStep state id = some after)
    : GrantsInv after := by
  unfold verifyStep at taken
  split at taken
  · rename_i touch here
    obtain ⟨⟨claimed, none⟩, sound, prior, landed, touched⟩ := inv.at here
    split at taken
    · rename_i committed principalId read names
      split at taken
      · rename_i shown
        cases taken
        obtain ⟨usable, named⟩ := sound.shown names shown
        refine inv.enter (ActsFor.note id state rfl nofun nofun) nofun nofun
          (jtisKept_cons inv.kept nofun) (inv.log.cons trivial) ⟨⟨claimed.cons, none⟩, .inr ?_⟩
        exact ⟨[], state.log, touch.id, committed, rfl, usable, named, touch, prior, landed, rfl,
          touched⟩
      · cases taken
        exact inv.refuse _ none
    · cases taken
      exact inv.refuse _ none
  · cases taken

theorem inv_provisionStep (inv : GrantsInv state) {suffix credential now : String} {landed : Bool}
    (taken : provisionStep state id suffix credential now landed = some after)
    : GrantsInv after := by
  unfold provisionStep at taken
  dsimp only at taken
  split at taken
  · rename_i subject here text
    obtain ⟨⟨claimed, none⟩, untouched, looked⟩ := inv.at here
    cases taken
    have held : (state.grant id).heldSubject = some (state.grant id).key := by
      simp [Grant.heldSubject, here, GrantStage.locked]
    generalize principal : newPrincipalId subject suffix = principalId
    have active : credentialMapsPrincipal (jitCredential (state.grant id).config
        (state.grant id).payload credential principalId now) = true := by
      rw [← principal]
      exact jitCredential_maps _ _ _ _ _ _
    generalize jitCredential (state.grant id).config (state.grant id).payload credential
      principalId now = row at active
    have acts : ActsFor id [.provisioned id (state.grant id).key principalId] state
        ((if landed then state.putCredential credential (some row) state.clock else state).note
          (.provisioned id (state.grant id).key principalId)) := by
      have created : ∀ other key name, GrantEvent.provisioned other key name
          ∈ [.provisioned id (state.grant id).key principalId]
          → (state.grant id).heldSubject = some key := by
        intro other key name member
        cases List.mem_singleton.mp member
        exact held
      have owned : ∀ event ∈ [.provisioned id (state.grant id).key principalId],
          GrantEvent.owner event = some id := by
        intro event member
        rw [List.mem_singleton.mp member]
        rfl
      have claims : ∀ other jti last, GrantEvent.claimed other jti last
          ∈ [.provisioned id (state.grant id).key principalId]
          → (state.grant id).heldJti = some jti := by
        intro other jti last member
        cases List.mem_singleton.mp member
      cases landed with
      | false =>
        exact { ActsFor.refl id state with
          log := rfl
          owned
          claims
          creates := created
          cells := fun _ => .inl rfl }
      | true =>
        refine { ActsFor.refl id state with
          log := rfl
          owned
          claims
          creates := created
          cells := ?_ }
        intro other
        change (state.putCredential credential (some row) state.clock).cell other
            = state.cell other
          ∨ ((state.putCredential credential (some row) state.clock).cell other).maps = true
        rw [cell_putCredential]
        by_cases same : other = credential
        · simp [same, CredentialCell.maps, active]
        · simp [same]
    have rows : ((if landed then state.putCredential credential (some row) state.clock
        else state).note (.provisioned id (state.grant id).key principalId)).jtiRows
        = state.jtiRows := by
      cases landed <;> rfl
    refine inv.enter acts nofun nofun ?_ (inv.log.cons looked)
      ⟨⟨claimed.cons, none⟩, .inl ⟨untouched.later (untouched_singleton nofun), _,
        List.mem_cons_self⟩⟩
    rw [rows]
    exact jtisKept_cons inv.kept nofun
  · cases taken

theorem tokensOf_stored {log : List GrantEvent} {token : IdpTokenRow}
    {tokens : List IdpTokenRow} (stored : tokensOf id log = tokens)
    : tokensOf id (.tokenStored id token :: log) = token :: tokens := by
  rw [← stored]
  simp [tokensOf]

theorem inv_storeAccessStep (inv : GrantsInv state) {pair : NewPair}
    (taken : storeAccessStep hashes state id pair = some after)
    : GrantsInv after := by
  unfold storeAccessStep at taken
  dsimp only at taken
  split at taken
  · rename_i principalId here
    obtain ⟨⟨claimed, none⟩, entitled⟩ := inv.at here
    split at taken
    · cases taken
      exact inv.refuse _ none
    rename_i scope granted
    cases taken
    refine inv.enter (ActsFor.note id state rfl nofun nofun) nofun nofun
      (jtisKept_cons inv.kept nofun) (inv.log.cons entitled)
      ⟨claimed.cons, entitled.later (untouched_singleton nofun), ?_⟩
    exact ⟨_, tokensOf_stored none, rfl⟩
  · cases taken

theorem inv_storeRefreshStep (inv : GrantsInv state)
    (taken : storeRefreshStep hashes state id = some after)
    : GrantsInv after := by
  unfold storeRefreshStep at taken
  dsimp only at taken
  split at taken
  · rename_i principalId scope pair here
    obtain ⟨claimed, entitled, access, stored, type⟩ := inv.at here
    cases taken
    refine inv.enter (ActsFor.note id state rfl nofun nofun) nofun nofun
      (jtisKept_cons inv.kept nofun) (inv.log.cons entitled)
      (.inl ⟨rfl, ?_, claimed.cons⟩)
    exact ⟨_, access, tokensOf_stored stored, rfl, type⟩
  · cases taken

theorem GrantsInv.none_of_stage (inv : GrantsInv state)
    (early
      : ∀ principalId scope pair, (state.grant id).stage ≠ .accessStored principalId scope pair)
    (waiting : ∀ answer, (state.grant id).stage ≠ .answered answer)
    : tokensOf id state.log = [] := by
  cases here : (state.grant id).stage with
  | idle | waiting | claiming => exact (inv.at here).1
  | recording writtenAt => exact (inv.at here).1.1
  | searching => exact (inv.at here).1.none
  | touching touch | confirmed touch | provisioning | verifying touch | issuing principalId =>
    exact (inv.at here).1.none
  | accessStored principalId scope pair => exact absurd here (early principalId scope pair)
  | answered answer => exact absurd here (waiting answer)

theorem inv_failStep (inv : GrantsInv state) {message : String}
    (taken : failStep state id message = some after)
    : GrantsInv after := by
  unfold failStep at taken
  split at taken
  · cases taken
  · cases taken
  · rename_i writtenAt here
    cases taken
    exact inv.answer rfl (inv.at here).1.1
  · rename_i principalId scope pair here
    obtain ⟨claimed, -, access, stored, type⟩ := inv.at here
    cases taken
    exact inv.enter (ActsFor.note id state rfl nofun nofun) nofun nofun
      (jtisKept_cons inv.kept nofun) (inv.log.cons trivial)
      (.inr ⟨rfl, .inr ⟨List.mem_cons_self, ⟨access, stored, type⟩, claimed.cons⟩⟩)
  · rename_i waiting answered recording stored
    cases taken
    exact inv.refuse message (inv.none_of_stage stored answered)

-- The steps of time and of others

theorem inv_tick (inv : GrantsInv state) {elapsed : Int} (forward : 0 ≤ elapsed)
    : GrantsInv { state with clock := state.clock + elapsed } := by
  have later : state.clock ≤ state.clock + elapsed := by omega
  refine ⟨inv.subjects, inv.jtis, ?_, inv.log, ?_⟩
  · intro other jti writtenAt claimed
    exact (inv.kept other jti writtenAt claimed).imp_right fun past => past.trans later
  intro other
  have follows : Follows other (state.grant other) [] state.log state.cell state.cell :=
    ⟨fun _ inside => absurd inside List.not_mem_nil, fun _ _ _ _ => List.not_mem_nil,
      fun _ _ _ _ => List.not_mem_nil, fun _ => .inl rfl⟩
  exact (inv.grants other).follow follows later

theorem inv_expire (inv : GrantsInv state) {jti : String} {writtenAt : Int}
    (row : state.jtiRows jti = some writtenAt)
    (old : writtenAt + idJagReplayRetentionMs ≤ state.clock)
    : GrantsInv { state with jtiRows := Function.update state.jtiRows jti none } := by
  refine ⟨inv.subjects, inv.jtis, ?_, inv.log, inv.grants⟩
  intro other wanted last claimed
  rcases inv.kept other wanted last claimed with ⟨found, present, newer⟩ | past
  · by_cases same : wanted = jti
    · subst same
      obtain rfl := Option.some.inj (row.symm.trans present)
      have past : last + idJagReplayRetentionMs ≤ state.clock := by omega
      exact .inr past
    · exact .inl ⟨found, by simpa [same] using present, newer⟩
  · exact .inr past

theorem inv_other (inv : GrantsInv state) {credential : String} {row : Option Record} {order : Int}
    : GrantsInv
        ((state.putCredential credential row order).note (.otherWrote credential order)) := by
  refine ⟨inv.subjects, inv.jtis, jtisKept_cons inv.kept nofun, inv.log.cons trivial, ?_⟩
  intro other
  have follows : Follows other (state.grant other) [.otherWrote credential order] state.log
      state.cell (state.putCredential credential row order).cell := by
    refine ⟨?_, ?_, ?_, ?_⟩
    · intro event member
      rw [List.mem_singleton.mp member]
      nofun
    · intro jti _ owner last member
      cases List.mem_singleton.mp member
    · intro key _ owner principalId member
      cases List.mem_singleton.mp member
    · intro wanted
      rw [cell_putCredential]
      by_cases same : wanted = credential
      · subst same
        exact .inr (.inr ⟨order, by simp, by simp⟩)
      · exact .inl (by simp [same])
  exact (inv.grants other).follow follows le_rfl

theorem GrantsInv.step (inv : GrantsInv state) {label : GrantLabel}
    (taken : grantStep hashes state label = some after)
    : GrantsInv after := by
  cases label with
  | tick elapsed =>
    simp only [grantStep, Option.ite_none_right_eq_some] at taken
    obtain ⟨forward, same⟩ := taken
    cases same
    exact inv_tick inv forward
  | expire jti =>
    simp only [grantStep] at taken
    split at taken
    · rename_i writtenAt row
      simp only [Option.ite_none_right_eq_some] at taken
      obtain ⟨old, same⟩ := taken
      cases same
      exact inv_expire inv row old
    · cases taken
  | other credential row order =>
    simp only [grantStep, Option.ite_none_right_eq_some] at taken
    obtain ⟨-, same⟩ := taken
    cases same
    exact inv_other inv
  | arrive id assertion clientId => exact inv_arriveStep inv taken
  | lock id => exact inv_lockStep inv taken
  | miss id =>
    simp only [grantStep] at taken
    split at taken
    · rename_i here
      cases taken
      exact inv.answer rfl (inv.at here).1
    · cases taken
  | claim id unavailable => exact inv_claimStep inv taken
  | record id commit => exact inv_recordStep inv taken
  | search id found now => exact inv_searchStep inv taken
  | confirm id => exact inv_confirmStep inv taken
  | commitTouch id landed => exact inv_commitTouchStep inv taken
  | verify id => exact inv_verifyStep inv taken
  | provision id suffix credential now landed => exact inv_provisionStep inv taken
  | storeAccess id pair => exact inv_storeAccessStep inv taken
  | storeRefresh id => exact inv_storeRefreshStep inv taken
  | fail id message => exact inv_failStep inv taken

theorem GrantsInv.initially (h : (jwtBearerGrants hashes).initial state) : GrantsInv state := by
  obtain ⟨jtis, subjects, idle, log⟩ := h
  refine ⟨?_, ?_, ?_, by rw [log]; exact logSound_nil, ?_⟩
  · intro id key
    simp [subjects, idle, Ledger.fresh, Grant.heldSubject, Grant.idle, GrantStage.locked]
  · intro id jti
    simp [jtis, idle, Ledger.fresh, Grant.heldJti, Grant.idle, GrantStage.claims]
  · intro id jti writtenAt member
    rw [log] at member
    cases member
  · intro id
    rw [idle, log]
    exact ⟨rfl, fun _ _ _ => List.not_mem_nil⟩

theorem grantsInv_of_reachable (h : (jwtBearerGrants hashes).Reachable state)
    : GrantsInv state :=
  System.Reachable.invariant (fun _ => GrantsInv.initially) (fun _ _ _ inv => inv.step) h

end Steps

end Flair.XAA
