import BracketLint.RecordList

/-! Walking a list from both ends. A cursor stands before `front` and after `back`, and what
lies between is still to come. A cursor that owns its list goes forward only. -/

namespace BracketLint

structure Cursor where
  records : Array Record
  front : Nat
  back : Nat
  front_le_back : front ≤ back
  back_le_size : back ≤ records.size

namespace Cursor

def ofList (l : RecordList) : Cursor :=
  ⟨l.records, 0, l.records.size, Nat.zero_le _, Nat.le_refl _⟩

/-- The number of records still to come. -/
def length (c : Cursor) : Nat := c.back - c.front

/-- Bounds on the number of records still to come, which is known. -/
def sizeHint (c : Cursor) : Nat × Option Nat := (c.length, some c.length)

def next (c : Cursor) : Option Record × Cursor :=
  if h : c.front < c.back then
    have h' : c.front < c.records.size := Nat.lt_of_lt_of_le h c.back_le_size
    (some c.records[c.front], { c with front := c.front + 1, front_le_back := h })
  else (none, c)

def nextBack (c : Cursor) : Option Record × Cursor :=
  if h : c.front < c.back then
    have h' : c.back - 1 < c.records.size := by have := c.back_le_size; omega
    (some c.records[c.back - 1],
      { c with back := c.back - 1, front_le_back := by omega, back_le_size := Nat.le_of_lt h' })
  else (none, c)

/-- The records still to come, in order. -/
def remaining (c : Cursor) : List Record :=
  (c.records.toList.drop c.front).take c.length

theorem length_remaining (c : Cursor) : c.remaining.length = c.length := by
  have := c.back_le_size
  simp [remaining, length]
  omega

theorem remaining_ofList (l : RecordList) : (ofList l).remaining = l.toList := by
  simp only [remaining, ofList, length, RecordList.toList, List.drop_zero, Nat.sub_zero]
  exact List.take_of_length_le (by simp)

section Step

variable {c : Cursor} {r : Record} {rs : List Record}

theorem not_lt_of_remaining_eq_nil (h : c.remaining = []) : ¬ c.front < c.back := by
  have hlen := c.length_remaining
  rw [h, List.length_nil, length] at hlen
  omega

theorem next_of_remaining_eq_nil (h : c.remaining = []) : c.next = (none, c) := by
  simp [next, not_lt_of_remaining_eq_nil h]

theorem nextBack_of_remaining_eq_nil (h : c.remaining = []) : c.nextBack = (none, c) := by
  simp [nextBack, not_lt_of_remaining_eq_nil h]

theorem next_of_remaining_eq_cons (h : c.remaining = r :: rs) :
    ∃ c', c.next = (some r, c') ∧ c'.remaining = rs := by
  have hlen := c.length_remaining
  rw [h, List.length_cons, length] at hlen
  have hc : c.front < c.back := by omega
  have hsize : c.front < c.records.size := Nat.lt_of_lt_of_le hc c.back_le_size
  have hdrop : c.records.toList.drop c.front =
      c.records[c.front] :: c.records.toList.drop (c.front + 1) := by
    rw [List.drop_eq_getElem_cons (by simpa using hsize), Array.getElem_toList]
  simp only [remaining, length, ← hlen, hdrop, List.take_succ_cons, List.cons.injEq] at h
  simp only [next, dif_pos hc, h.1]
  refine ⟨_, rfl, ?_⟩
  simp only [remaining, length, show c.back - (c.front + 1) = rs.length by omega, h.2]

theorem nextBack_of_remaining_eq_concat (h : c.remaining = rs ++ [r]) :
    ∃ c', c.nextBack = (some r, c') ∧ c'.remaining = rs := by
  have hlen := c.length_remaining
  rw [h, List.length_append, List.length_singleton, length] at hlen
  have hc : c.front < c.back := by omega
  have hsize : c.back - 1 < c.records.size := by
    have := c.back_le_size
    omega
  have htake : (c.records.toList.drop c.front).take (rs.length + 1) =
      (c.records.toList.drop c.front).take rs.length ++ [c.records[c.back - 1]] := by
    have hi : c.front + rs.length = c.back - 1 := by omega
    rw [List.take_add_one, List.getElem?_drop, hi, Array.getElem?_toList,
      Array.getElem?_eq_getElem hsize, Option.toList_some]
  rw [remaining, length, ← hlen, htake] at h
  obtain ⟨hrs, hr⟩ := List.append_inj' h rfl
  simp only [nextBack, dif_pos hc, List.singleton_inj.mp hr]
  refine ⟨_, rfl, ?_⟩
  simp only [remaining, length, show c.back - 1 - c.front = rs.length by omega, hrs]

end Step

end Cursor

/-- Gives the records of a list away, the first one first, and owns those that are left. -/
structure OwningCursor where
  left : List Record

namespace OwningCursor

def ofList (l : RecordList) : OwningCursor := ⟨l.toList⟩

def next (c : OwningCursor) : Option Record × OwningCursor :=
  match c.left with
  | [] => (none, c)
  | r :: rest => (some r, ⟨rest⟩)

def sizeHint (c : OwningCursor) : Nat × Option Nat := (c.left.length, some c.left.length)

/-- The number of records still to come, for which the bounds are exact. -/
def length (c : OwningCursor) : Nat := c.sizeHint.1

end OwningCursor

end BracketLint
