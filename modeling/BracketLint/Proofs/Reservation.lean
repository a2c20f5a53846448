import BracketLint.Proofs.Refusal

/-! The slots of a list. A failed append may leave more of them, which only a later append that
asks for them can tell. -/

namespace BracketLint

/-- The same memory, but for some requests that are granted in any case. -/
def Memory.granting (memory : Memory) (granted : List Request) : Memory :=
  fun q => decide (q ∈ granted) || memory q

theorem Memory.granting_of_not_mem {memory : Memory} {granted : List Request} {q : Request}
    (h : q ∉ granted) : memory.granting granted q = memory q := by
  simp [granting, h]

namespace RecordList

/-- The slots that an append is granted, whatever becomes of its message. -/
def obtained (l : RecordList) (memory : Memory) : List Request :=
  if l.size < l.capacity then [] else [.slots (grown l.capacity)].filter memory

theorem lt_grown (c : Nat) : c < grown c := by unfold grown; omega

section Reservation

variable {l : RecordList} {memory : Memory}

theorem reserve?_of_room (h : l.size < l.capacity) : l.reserve? memory = some l := if_pos h

theorem reserve?_of_full (h : ¬ l.size < l.capacity)
    (hg : memory (.slots (grown l.capacity)) = true) :
    ∃ m, l.reserve? memory = some m ∧ m.records = l.records ∧ m.capacity = grown l.capacity := by
  simp only [reserve?, if_neg h, if_pos hg]
  exact ⟨_, rfl, rfl, rfl⟩

theorem reserve?_of_refused (h : ¬ l.size < l.capacity)
    (hg : ¬ memory (.slots (grown l.capacity)) = true) : l.reserve? memory = none := by
  simp only [reserve?, if_neg h, if_neg hg]

/-- A failed append changes nothing but, if it was granted slots, how many there are. -/
theorem append_of_error_slots {message : List UInt8} {position : UInt32} {e : OutOfMemory}
    {m : RecordList} (h : l.append message position memory = (.error e, m)) :
    m = l ∧ l.obtained memory = [] ∨
      m.records = l.records ∧ m.capacity = grown l.capacity ∧
        l.obtained memory = [.slots (grown l.capacity)] := by
  by_cases hroom : l.size < l.capacity
  · rw [append_of_reserve?_eq_some (reserve?_of_room hroom)] at h
    split at h <;> cases h
    exact .inl ⟨rfl, if_pos hroom⟩
  · by_cases hg : memory (.slots (grown l.capacity)) = true
    · obtain ⟨k, hk, hrec, hcap⟩ := reserve?_of_full hroom hg
      rw [append_of_reserve?_eq_some hk] at h
      split at h <;> cases h
      exact .inr ⟨hrec, hcap, by simp [obtained, hroom, hg]⟩
    · rw [append_of_reserve?_eq_none (reserve?_of_refused hroom hg)] at h
      cases h
      exact .inl ⟨rfl, by simp [obtained, hroom, hg]⟩

end Reservation

/-- The lists hold the same. A full list of `c` slots, which `l` may still be, asks for more of
them, and `m` has got these. -/
structure Ahead (c : Nat) (m l : RecordList) : Prop where
  records : m.records = l.records
  slots : m.capacity = l.capacity ∧ grown c ≤ l.capacity ∨ m.capacity = grown c ∧ l.capacity = c

namespace Ahead

variable {c : Nat} {m l : RecordList}

theorem size_eq (h : Ahead c m l) : m.size = l.size := by
  simp only [size, h.records]

theorem push (h : Ahead c m l) (hroom : l.size < l.capacity) (r : Record) :
    Ahead c (m.push r) (l.push r) := by
  have hsize := h.size_eq
  have hc := lt_grown c
  refine ⟨by simp only [RecordList.push, h.records], ?_⟩
  simp only [RecordList.push, hsize]
  rcases h.slots with ⟨hm, hl⟩ | ⟨hm, hl⟩
  · exact .inl ⟨by rw [hm], by omega⟩
  · exact .inr ⟨by omega, by omega⟩

/-- The list that is behind asks for the slots it lacks when it is full, and gets them. -/
theorem reserve? (h : Ahead c m l) (memory : Memory) :
    let memory' := memory.granting [.slots (grown c)]
    (m.reserve? memory = none ∧ l.reserve? memory' = none ∧ m.capacity = l.capacity) ∨
      ∃ m' l', m.reserve? memory = some m' ∧ l.reserve? memory' = some l' ∧ Ahead c m' l' ∧
        l'.size < l'.capacity := by
  intro memory'
  have hsize := h.size_eq
  have hc := lt_grown c
  have hle := l.size_le_capacity
  by_cases hroom : l.size < l.capacity
  · have hroom' : m.size < m.capacity := by rcases h.slots with hs | hs <;> omega
    exact .inr ⟨m, l, reserve?_of_room hroom', reserve?_of_room hroom, h, hroom⟩
  · have hlt := lt_grown l.capacity
    rcases h.slots with ⟨hm, hl⟩ | ⟨hm, rfl⟩
    · -- both are full and ask for the same slots, more of them than those granted in any case
      have hfull : ¬ m.size < m.capacity := by omega
      have hsame : memory' (.slots (grown l.capacity)) = memory (.slots (grown m.capacity)) := by
        have hne : grown l.capacity ≠ grown c := by omega
        rw [hm]
        exact Memory.granting_of_not_mem (by simpa using hne)
      by_cases hg : memory (.slots (grown m.capacity)) = true
      · obtain ⟨m', hm', hrec, hcap⟩ := reserve?_of_full hfull hg
        obtain ⟨l', hl', hrec', hcap'⟩ := reserve?_of_full hroom (hsame.trans hg)
        have hahead : Ahead c m' l' :=
          ⟨by rw [hrec, hrec', h.records], .inl ⟨by rw [hcap, hcap', hm], by omega⟩⟩
        refine .inr ⟨m', l', hm', hl', hahead, ?_⟩
        simp only [size, hrec', hcap']
        exact Nat.lt_of_le_of_lt hle hlt
      · exact .inl ⟨reserve?_of_refused hfull hg, reserve?_of_refused hroom (by rwa [hsame]), hm⟩
    · -- only `l` is full, and what it asks for is granted
      have hg : memory' (.slots (grown l.capacity)) = true := by simp [memory', Memory.granting]
      have hroom' : m.size < m.capacity := by
        simp only [size] at hsize ⊢
        omega
      obtain ⟨l', hl', hrec', hcap'⟩ := reserve?_of_full hroom hg
      have hahead : Ahead l.capacity m l' :=
        ⟨by rw [hrec', h.records], .inl ⟨by rw [hcap', hm], Nat.le_of_eq hcap'.symm⟩⟩
      refine .inr ⟨m, l', reserve?_of_room hroom', hl', hahead, ?_⟩
      simp only [size, hrec', hcap']
      exact Nat.lt_of_le_of_lt hle hlt

theorem append (h : Ahead c m l) (message : List UInt8) (position : UInt32) (memory : Memory) :
    let memory' := memory.granting [.slots (grown c)]
    (m.append message position memory).1 = (l.append message position memory').1 ∧
      Ahead c (m.append message position memory).2 (l.append message position memory').2 := by
  intro memory'
  have hcopies : copies message memory' = copies message memory := by
    have hmessage : memory' (.message message.length) = memory (.message message.length) :=
      Memory.granting_of_not_mem (by simp)
    rw [copies, copies, hmessage]
  rcases h.reserve? memory with ⟨hm, hl, hcap⟩ | ⟨m', l', hm, hl, h', hroom⟩
  · rw [append_of_reserve?_eq_none hm, append_of_reserve?_eq_none hl, hcap]
    exact ⟨rfl, h⟩
  · rw [append_of_reserve?_eq_some hm, append_of_reserve?_eq_some hl, hcopies]
    split
    · exact ⟨rfl, h'.push hroom _⟩
    · exact ⟨rfl, h'⟩

theorem recordAll {memory : Nat → Memory} (h : Ahead c m l) (fs : List Finding) :
    let memory' := fun i => (memory i).granting [.slots (grown c)]
    (Finding.recordAll memory 0 m fs).value.1 = (Finding.recordAll memory' 0 l fs).value.1 ∧
      Ahead c (Finding.recordAll memory 0 m fs).value.2 (Finding.recordAll memory' 0 l fs).value.2 := by
  induction fs generalizing memory m l with
  | nil => exact ⟨rfl, h⟩
  | cons f fs ih =>
    intro memory'
    rcases hm : m.append f.message f.position (memory 0) with ⟨o, m'⟩
    rcases hl : l.append f.message f.position (memory' 0) with ⟨o', l'⟩
    obtain ⟨ho, h'⟩ := h.append f.message f.position (memory 0)
    rw [hm, hl] at ho h'
    obtain rfl : o = o' := ho
    cases o with
    | error e =>
      rw [Finding.value_recordAll_cons_of_error hm, Finding.value_recordAll_cons_of_error hl]
      exact ⟨rfl, h'⟩
    | ok =>
      rw [Finding.value_recordAll_cons_of_ok hm, Finding.value_recordAll_cons_of_ok hl]
      exact ih h'

end Ahead

end RecordList

end BracketLint
