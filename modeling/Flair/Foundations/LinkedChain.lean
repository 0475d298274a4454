import Mathlib.Data.List.Range

/-! Hash-linked chains, newest entry first: each entry carries the next sequence number and
names the hash of the entry before it. The newest entry of a chain is its head, appending to
the head and dropping it keep the chain.
-/

namespace LinkedChain

universe u v

/-- How an entry reads: its sequence number, its own hash and the hash it names. -/
structure Links (Entry : Type u) (Hash : Type v) where
  seq : Entry → Nat
  hash : Entry → Hash
  previous : Entry → Option Hash

variable {Entry : Type u} {Hash : Type v} (links : Links Entry Hash)

def newest : List Entry → Option Entry
  | [] => none
  | entry :: rest =>
    match newest rest with
    | none => some entry
    | some best => if links.seq best ≤ links.seq entry then some entry else some best

/-- Sequence numbers n down to 1, each entry linked to the one after it in the list. -/
def Chained : List Entry → Prop
  | [] => True
  | entry :: rest =>
    links.seq entry = rest.length + 1 ∧ links.previous entry = rest.head?.map links.hash
      ∧ Chained rest

variable {links} {entries : List Entry}

theorem Chained.tail {entry : Entry} (h : Chained links (entry :: entries))
    : Chained links entries :=
  h.2.2

theorem Chained.newest_eq (h : Chained links entries) : newest links entries = entries.head? := by
  induction entries with
  | nil => rfl
  | cons entry rest ih =>
    have older := ih h.tail
    cases rest with
    | nil => rfl
    | cons next others =>
      have below : links.seq next ≤ links.seq entry := by
        rw [h.1, h.tail.1]
        simp
      simp only [newest] at older ⊢
      simp only [older, List.head?_cons, below, if_true]

def nextSeq (links : Links Entry Hash) (head : Option Entry) : Nat :=
  match head with
  | some entry => links.seq entry + 1
  | none => 1

theorem Chained.cons {entry : Entry} (h : Chained links entries)
    (seq : links.seq entry = nextSeq links entries.head?)
    (previous : links.previous entry = entries.head?.map links.hash)
    : Chained links (entry :: entries) := by
  refine ⟨?_, previous, h⟩
  cases entries with
  | nil => exact seq
  | cons head rest => simpa [nextSeq, h.1] using seq

theorem Chained.seqs (h : Chained links entries)
    : (entries.reverse.map links.seq) = List.range' 1 entries.length := by
  induction entries with
  | nil => rfl
  | cons entry rest ih =>
    rw [List.reverse_cons, List.map_append, ih h.tail, List.length_cons,
      List.range'_concat, List.map_singleton, h.1]
    simp [Nat.add_comm]

theorem Chained.seqs_perm (h : Chained links entries)
    : (entries.map links.seq).Perm (List.range' 1 entries.length) := by
  have reversed := h.seqs
  rw [List.map_reverse] at reversed
  exact (List.reverse_perm _).symm.trans (reversed ▸ List.Perm.refl _)

theorem Chained.seq_le (h : Chained links entries) {entry : Entry} (member : entry ∈ entries)
    : links.seq entry ≤ entries.length := by
  have inRange : links.seq entry ∈ List.range' 1 entries.length :=
    h.seqs_perm.mem_iff.mp (List.mem_map_of_mem member)
  have bounds := List.mem_range'_1.mp inRange
  omega

theorem Chained.first (h : Chained links entries) {entry : Entry} (member : entry ∈ entries)
    (isFirst : links.seq entry = 1)
    : links.previous entry = none := by
  induction entries with
  | nil => cases member
  | cons newest rest ih =>
    rcases List.mem_cons.mp member with rfl | later
    · have alone : rest = [] := by
        apply List.eq_nil_of_length_eq_zero
        have top := h.1
        omega
      rw [h.2.1, alone]
      rfl
    · exact ih h.tail later

end LinkedChain
