import Mathlib.Order.Lattice

/-! Last-writer-wins registers: a state that takes a record when its stamp is newer than
what it holds and keeps itself otherwise. Whatever order records arrive in, a reading that
the newest record writes ends with that record's value.
-/

namespace LastWriter

universe u v w x

structure Register (State : Type u) (Record : Type v) (Stamp : Type w) where
  stamp : Record → Stamp
  held : State → Option Stamp
  Step : State → Record → State → Prop

namespace Register

variable {State : Type u} {Record : Type v} {Stamp : Type w}

inductive Run (register : Register State Record Stamp) : State → List Record → State → Prop where
  | nil (state : State) : Run register state [] state
  | cons {state next final : State} {record : Record} {rest : List Record}
      : register.Step state record next
        → Run register next rest final
        → Run register state (record :: rest) final

theorem Run.preserves {register : Register State Record Stamp} {allowed : Record → Prop}
    {property : State → Prop} {start final : State} {records : List Record}
    (run : register.Run start records final) (all : ∀ record ∈ records, allowed record)
    (kept : ∀ {state record next}, allowed record → register.Step state record next
      → property state → property next)
    (initially : property start)
    : property final := by
  induction run with
  | nil state => exact initially
  | cons step _ ih =>
    have first := kept (all _ List.mem_cons_self) step initially
    exact ih (fun record member => all record (List.mem_cons_of_mem _ member)) first

variable [LinearOrder Stamp]

def Loses (register : Register State Record Stamp) (state : State) (record : Record) : Prop :=
  ∃ held, register.held state = some held ∧ register.stamp record ≤ held

def Before (register : Register State Record Stamp) (top : Stamp) (state : State) : Prop :=
  ∀ held, register.held state = some held → held < top

/-- Merging an allowed record keeps the held stamp when it loses and takes its own stamp
when it wins.
-/
structure Lawful (register : Register State Record Stamp) (allowed : Record → Prop) : Prop where
  kept
    : ∀ {state record next},
        allowed record
        → register.Step state record next
        → register.Loses state record
        → register.held next = register.held state
  taken
    : ∀ {state record next},
        allowed record
        → register.Step state record next
        → ¬ register.Loses state record
        → register.held next = some (register.stamp record)

def Keeps {Reading : Type x} (register : Register State Record Stamp)
    (allowed : Record → Prop) (read : State → Reading)
    : Prop :=
  ∀ {state record next},
    allowed record
    → register.Step state record next
    → register.Loses state record
    → read next = read state

def Writes {Reading : Type x} (register : Register State Record Stamp)
    (read : State → Reading) (record : Record) (value : Reading)
    : Prop :=
  ∀ {state next},
    register.Step state record next → ¬ register.Loses state record → read next = value

variable {register : Register State Record Stamp} {allowed : Record → Prop}

variable {top : Stamp}

theorem not_loses_of_before {state : State} {record : Record} (before : register.Before top state)
    (stamp : register.stamp record = top)
    : ¬ register.Loses state record := by
  rintro ⟨held, found, le⟩
  rw [stamp] at le
  exact absurd (before held found) (not_lt.mpr le)

variable {Reading : Type x} {start final : State} {records : List Record}

theorem Run.dominated {read : State → Reading} (lawful : register.Lawful allowed)
    (keeps : register.Keeps allowed read) (run : register.Run start records final)
    (all : ∀ record ∈ records, allowed record ∧ register.Loses start record)
    : read final = read start := by
  have loses_of_held {state : State} {record : Record}
      (same : register.held state = register.held start)
      (loses : register.Loses start record)
      : register.Loses state record := by
    obtain ⟨held, found, le⟩ := loses
    exact ⟨held, same.trans found, le⟩
  have invariant : register.held final = register.held start ∧ read final = read start := by
    let settled (state : State) : Prop :=
      register.held state = register.held start ∧ read state = read start
    change settled final
    refine run.preserves all ?_ ⟨rfl, rfl⟩
    rintro state record next ⟨ok, loses⟩ step ⟨held, same⟩
    have lost := loses_of_held held loses
    exact ⟨(lawful.kept ok step lost).trans held, (keeps ok step lost).trans same⟩
  exact invariant.2

theorem Run.after {read : State → Reading} (lawful : register.Lawful allowed)
    (keeps : register.Keeps allowed read) (run : register.Run start records final)
    (all : ∀ record ∈ records, allowed record ∧ register.stamp record ≤ top)
    (held : register.held start = some top)
    : read final = read start := by
  refine run.dominated lawful keeps ?_
  intro record member
  obtain ⟨ok, le⟩ := all record member
  exact ⟨ok, top, held, le⟩

/-- A run that meets a top record from a state before it ends with the value that record
writes, by induction on the run up to the first top record.
-/
theorem Run.written {read : State → Reading} {value : Reading} (lawful : register.Lawful allowed)
    (keeps : register.Keeps allowed read) (run : register.Run start records final)
    (all : ∀ record ∈ records, allowed record
      ∧ (register.stamp record < top
        ∨ (register.stamp record = top ∧ register.Writes read record value)))
    (met : ∃ record ∈ records, register.stamp record = top) (before : register.Before top start)
    : read final = value := by
  induction run with
  | nil state =>
    obtain ⟨record, member, _⟩ := met
    cases member
  | @cons state next final record rest step run ih =>
    have later : ∀ record ∈ rest, allowed record
        ∧ (register.stamp record < top
          ∨ (register.stamp record = top ∧ register.Writes read record value)) :=
      fun record member => all record (List.mem_cons_of_mem _ member)
    obtain ⟨ok, order⟩ := all record List.mem_cons_self
    rcases order with older | ⟨stamp, writes⟩
    · -- An older record leaves the state before the top, whether it wins or loses.
      have still : register.Before top next := by
        intro held found
        by_cases loses : register.Loses state record
        · rw [lawful.kept ok step loses] at found
          exact before held found
        · rw [lawful.taken ok step loses] at found
          cases found
          exact older
      refine ih later ?_ still
      obtain ⟨other, member, stamp⟩ := met
      rcases List.mem_cons.mp member with rfl | member
      · rw [stamp] at older
        exact absurd older (lt_irrefl top)
      · exact ⟨other, member, stamp⟩
    · have wins := not_loses_of_before before stamp
      have held : register.held next = some top := by
        rw [lawful.taken ok step wins, stamp]
      have settled : read final = read next := by
        refine run.after lawful keeps ?_ held
        intro record member
        obtain ⟨ok, order⟩ := later record member
        exact ⟨ok, order.elim le_of_lt (fun same => same.1.le)⟩
      exact settled.trans (writes step wins)

end Register

end LastWriter
