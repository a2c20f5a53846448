import Mathlib.Algebra.Group.Nat.Defs
import Mathlib.Order.Bounds.Basic
import BracketLint.Proofs.History

/-! How many slots a list has. Each append that gets a slot may raise that number, whether or not
it then fails, and nothing lowers it: it is the least in the series 4, 8, 16 and so on that was
enough for all of them. An append that is refused all memory lives on these slots. -/

namespace BracketLint

namespace RecordList

variable {l m : RecordList} {memory : Memory} {c j : Nat}

theorem grown_doubled (h : c = 0 ∨ ∃ k, c = 4 * 2 ^ k) : ∃ k, grown c = 4 * 2 ^ k := by
  rcases h with rfl | ⟨k, rfl⟩
  · exact ⟨0, rfl⟩
  · have hpos : 0 < 2 ^ k := Nat.two_pow_pos k
    refine ⟨k + 1, ?_⟩
    rw [grown, Nat.pow_succ]
    omega

/-- Growing goes on to the next number in the series. -/
theorem grown_le_of_lt (h : c = 0 ∨ ∃ k, c = 4 * 2 ^ k) (hlt : c < 4 * 2 ^ j) :
    grown c ≤ 4 * 2 ^ j := by
  rcases h with rfl | ⟨k, rfl⟩
  · have hpos : 0 < 2 ^ j := Nat.two_pow_pos j
    rw [grown]
    omega
  · have hkj : k < j := (Nat.pow_lt_pow_iff_right (by decide)).mp (Nat.lt_of_mul_lt_mul_left hlt)
    have hpow : 2 ^ (k + 1) ≤ 2 ^ j := Nat.pow_le_pow_right (by decide) hkj
    have hpos : 0 < 2 ^ k := Nat.two_pow_pos k
    rw [Nat.pow_succ] at hpow
    rw [grown]
    omega

theorem capacity_of_reserve? (h : l.reserve? memory = some m) : m.size < m.capacity ∧
    (l.size < l.capacity ∧ m.capacity = l.capacity ∨
      l.size = l.capacity ∧ m.capacity = grown l.capacity) := by
  have hle : l.size ≤ l.capacity := l.size_le_capacity
  by_cases hroom : l.size < l.capacity
  · rw [reserve?_of_room hroom] at h
    cases h
    exact ⟨hroom, .inl ⟨hroom, rfl⟩⟩
  · by_cases hg : memory (.slots (grown l.capacity)) = true
    · obtain ⟨m', hm', hrecords, hcapacity⟩ := reserve?_of_full hroom hg
      rw [hm'] at h
      cases h
      have hsize : m.size = l.size := by rw [size, size, hrecords]
      have hlt := lt_grown l.capacity
      exact ⟨by omega, .inr ⟨by omega, hcapacity⟩⟩
    · rw [reserve?_of_refused hroom hg] at h
      cases h

theorem capacity_push (h : l.size < l.capacity) (r : Record) : (l.push r).capacity = l.capacity :=
  Nat.max_eq_left h

end RecordList

namespace HistoryEntry

/-- An attempt that got a slot, though it may then have been refused the copy of its message. -/
def gotSlot : HistoryEntry → Bool
  | attempt _ _ (.ok ()) | attempt _ _ (.error ⟨_, .message _⟩) => true
  | attempt _ _ (.error ⟨_, .slots _⟩) | cleared => false

/-- Some attempt got a slot for what would have been the record numbered `n`, counted from one. -/
def Used (es : List HistoryEntry) (n : Nat) : Prop :=
  ∃ before e after, es = before ++ e :: after ∧ e.gotSlot = true ∧ n = (held before).length + 1

/-- The slots after a history: none until an attempt got one, and then the least number in the
series 4, 8, 16 and so on that is enough for every attempt that did. -/
structure SlotsAfter (es : List HistoryEntry) (c : Nat) : Prop where
  unused : (∀ n, ¬ Used es n) → c = 0
  least : ∀ n, Used es n → IsLeast {x | (∃ k, x = 4 * 2 ^ k) ∧ ∀ m, Used es m → m ≤ x} c

variable {es : List HistoryEntry} {e : HistoryEntry} {c c' n : Nat}

theorem not_used_nil : ¬ Used [] n := by
  rintro ⟨before, e, after, he, -⟩
  simp at he

theorem used_concat_iff :
    Used (es ++ [e]) n ↔ Used es n ∨ e.gotSlot = true ∧ n = (held es).length + 1 := by
  constructor
  · rintro ⟨before, x, after, he, hx, hn⟩
    rcases List.eq_nil_or_concat after with rfl | ⟨after, y, rfl⟩
    · obtain ⟨rfl, hxe⟩ := List.append_inj' he rfl
      cases hxe
      exact .inr ⟨hx, hn⟩
    · rw [List.concat_eq_append, ← List.cons_append, ← List.append_assoc] at he
      exact .inl ⟨before, x, after, (List.append_inj' he rfl).1, hx, hn⟩
  · rintro (⟨before, x, after, rfl, hx, hn⟩ | ⟨he, hn⟩)
    · exact ⟨before, x, after ++ [e], by rw [List.append_assoc, List.cons_append], hx, hn⟩
    · exact ⟨es, e, [], rfl, he, hn⟩

namespace SlotsAfter

theorem nil : SlotsAfter [] 0 := ⟨fun _ => rfl, fun _ hn => absurd hn not_used_nil⟩

theorem le_of_used (h : SlotsAfter es c) (hn : Used es n) : n ≤ c := (h.least n hn).1.2 n hn

theorem unique (h : SlotsAfter es c) (h' : SlotsAfter es c') : c = c' := by
  by_cases hu : ∃ n, Used es n
  · obtain ⟨n, hn⟩ := hu
    exact (h.least n hn).unique (h'.least n hn)
  · have hno : ∀ n, ¬ Used es n := fun n hn => hu ⟨n, hn⟩
    rw [h.unused hno, h'.unused hno]

theorem eq_zero_or_doubled (h : SlotsAfter es c) : c = 0 ∨ ∃ k, c = 4 * 2 ^ k := by
  by_cases hu : ∃ n, Used es n
  · obtain ⟨n, hn⟩ := hu
    exact .inr (h.least n hn).1.1
  · exact .inl (h.unused fun n hn => hu ⟨n, hn⟩)

/-- An entry that got no slot leaves the slots as they are. -/
theorem concat_of_not_gotSlot (h : SlotsAfter es c) (he : e.gotSlot = false) :
    SlotsAfter (es ++ [e]) c := by
  have hused : ∀ n, Used (es ++ [e]) n ↔ Used es n := by
    intro n
    simp [used_concat_iff, he]
  refine ⟨fun hno => h.unused fun n hn => hno n ((hused n).mpr hn), fun n hn => ?_⟩
  simp only [hused] at hn ⊢
  exact h.least n hn

theorem concat_of_room (h : SlotsAfter es c) (hroom : (held es).length < c) :
    SlotsAfter (es ++ [e]) c := by
  -- where there is room, slots were got before
  obtain ⟨m, hm⟩ : ∃ m, Used es m := by
    by_contra hno
    have hc := h.unused fun n hn => hno ⟨n, hn⟩
    omega
  have hmore : ∀ n, Used es n → Used (es ++ [e]) n := fun n hn => used_concat_iff.mpr (.inl hn)
  refine ⟨fun hno => absurd (hmore m hm) (hno m), fun n hn => ⟨⟨(h.least m hm).1.1, ?_⟩, ?_⟩⟩
  · intro x hx
    rcases used_concat_iff.mp hx with hx | ⟨-, rfl⟩
    · exact h.le_of_used hx
    · exact hroom
  · rintro x ⟨hseries, henough⟩
    exact (h.least m hm).2 ⟨hseries, fun y hy => henough y (hmore y hy)⟩

/-- An attempt that gets its slot on a full list makes the list grow. -/
theorem concat_of_full (h : SlotsAfter es c) (he : e.gotSlot = true)
    (hfull : (held es).length = c) : SlotsAfter (es ++ [e]) (RecordList.grown c) := by
  have hlast : Used (es ++ [e]) (c + 1) := used_concat_iff.mpr (.inr ⟨he, by rw [hfull]⟩)
  have hseries := h.eq_zero_or_doubled
  refine ⟨fun hno => absurd hlast (hno _), fun n _ =>
    ⟨⟨RecordList.grown_doubled hseries, ?_⟩, ?_⟩⟩
  · intro x hx
    have hlt := RecordList.lt_grown c
    rcases used_concat_iff.mp hx with hx | ⟨-, rfl⟩
    · have hle := h.le_of_used hx
      omega
    · omega
  · rintro x ⟨⟨j, rfl⟩, henough⟩
    exact RecordList.grown_le_of_lt hseries (henough _ hlast)

end SlotsAfter

end HistoryEntry

open HistoryEntry

namespace RecordList

variable {l : RecordList} {message : List UInt8} {es : List HistoryEntry}

/-- An append gets a slot exactly if one can be reserved, and then has the slots reserved. -/
theorem append_gotSlot (l : RecordList) (message : List UInt8) (position : UInt32) (memory : Memory) :
    let e := HistoryEntry.attempt message position (l.append message position memory).1
    e.gotSlot = false ∧ (l.append message position memory).2 = l ∨
      e.gotSlot = true ∧ ∃ m, l.reserve? memory = some m ∧
        (l.append message position memory).2.capacity = m.capacity := by
  intro e
  cases hr : l.reserve? memory with
  | none =>
    have hrefused : l.append message position memory =
        (.error ⟨position, .slots (grown l.capacity)⟩, l) := append_of_reserve?_eq_none hr
    exact .inl ⟨by simp only [e, hrefused, gotSlot], by rw [hrefused]⟩
  | some m =>
    have hroom := (capacity_of_reserve? hr).1
    simp only [e, append_of_reserve?_eq_some hr]
    split
    · exact .inr ⟨rfl, m, rfl, capacity_push hroom _⟩
    · exact .inr ⟨rfl, m, rfl, rfl⟩

theorem slotsAfter_append (h : SlotsAfter es l.capacity) (hl : l.toList = held es)
    (message : List UInt8) (position : UInt32) (memory : Memory) :
    SlotsAfter (es ++ [.attempt message position (l.append message position memory).1])
      (l.append message position memory).2.capacity := by
  have hsize : (held es).length = l.size := by rw [← hl, length_toList]
  rcases l.append_gotSlot message position memory with ⟨hno, he⟩ | ⟨hyes, m, hm, hc⟩
  · rw [he]
    exact h.concat_of_not_gotSlot hno
  · rw [hc]
    obtain ⟨-, ⟨hroom, hsame⟩ | ⟨hfull, hgrown⟩⟩ := capacity_of_reserve? hm
    · rw [hsame]
      exact h.concat_of_room (by omega)
    · rw [hgrown]
      exact h.concat_of_full hyes (by omega)

theorem append_exhausted_eq_ok_iff {position : UInt32} :
    (l.append message position .exhausted).1 = .ok () ↔ message = [] ∧ l.size < l.capacity := by
  have hcopies : copies message .exhausted = message.isEmpty := by
    simp [copies, Memory.exhausted]
  by_cases hroom : l.size < l.capacity
  · rw [append_of_reserve?_eq_some (reserve?_of_room hroom), hcopies]
    by_cases hm : message = []
    · simp [hm, hroom]
    · simp [hm]
  · rw [append_of_reserve?_eq_none (reserve?_of_refused hroom (by simp [Memory.exhausted]))]
    simp [hroom]

theorem untilZero_eq_nil_iff : untilZero message = [] ↔ message = [] ∨ ∃ rest, message = 0 :: rest := by
  cases message with
  | nil => simp [untilZero]
  | cons b message => simp [untilZero]

end RecordList

theorem Finding.slotsAfter_recordAll {l : RecordList} {memory : Nat → Memory} {fs : List Finding}
    {es : List HistoryEntry} (h : SlotsAfter es l.capacity) (hl : l.toList = held es) :
    SlotsAfter (es ++ l.attempts memory (fs.map record))
      (recordAll memory 0 l fs).value.2.capacity := by
  induction fs generalizing memory l es with
  | nil => simpa [recordAll, RecordList.attempts] using h
  | cons f fs ih =>
    have hstep := RecordList.slotsAfter_append h hl f.message f.position (memory 0)
    rcases hd : l.append f.message f.position (memory 0) with ⟨e | ⟨⟩, m⟩
    · rw [hd] at hstep
      rw [value_recordAll_cons_of_error hd, List.map_cons,
        RecordList.attempts_cons_of_error (r := f.record) hd]
      exact hstep
    · rw [hd] at hstep
      have hm : m.toList = held (es ++ [.attempt f.message f.position (.ok ())]) := by
        rw [RecordList.append_of_ok hd, hl, held_concat_ok]
      rw [value_recordAll_cons_of_ok hd, List.map_cons,
        RecordList.attempts_cons_of_ok (r := f.record) hd, List.append_cons]
      exact ih hstep hm

theorem Operation.slotsAfter_run {l : RecordList} {es : List HistoryEntry}
    (h : SlotsAfter es l.capacity) (hl : l.toList = held es) (op : Operation) :
    SlotsAfter (es ++ op.entries l) (op.run l).2.capacity := by
  cases op with
  | append message position memory =>
    rw [run, RecordList.value_appendLogged]
    exact RecordList.slotsAfter_append h hl message position memory
  | appendUntilZero message position memory =>
    rw [run, RecordList.appendUntilZeroLogged, RecordList.value_appendLogged]
    exact RecordList.slotsAfter_append h hl (RecordList.untilZero message) position memory
  | scan o source memory =>
    simp only [run, entries, value_scanInto, scanned_eq]
    exact Finding.slotsAfter_recordAll h hl
  | clear => exact h.concat_of_not_gotSlot rfl

theorem RecordList.slotsAfter_runAll {l : RecordList} {es : List HistoryEntry}
    (h : SlotsAfter es l.capacity) (hl : l.toList = held es) (ops : List Operation) :
    SlotsAfter (es ++ l.history ops) (l.runAll ops).capacity := by
  induction ops generalizing l es with
  | nil => simpa [history, runAll] using h
  | cons op ops ih =>
    rw [history, ← List.append_assoc]
    exact ih (op.slotsAfter_run h hl) (op.toList_run hl)

/-- Whatever was done to a list since it was new, an append that is refused all memory succeeds
exactly if it has nothing to copy and there are fewer records than slots. How many slots there are
is settled by the attempts that got one. -/
theorem append_exhausted_by_slots (ops : List Operation) :
    let l := RecordList.empty.runAll ops
    let es := RecordList.empty.history ops
    ∃ c, SlotsAfter es c ∧ (∀ c', SlotsAfter es c' → c' = c) ∧ ∀ message position,
      (((Operation.append message position .exhausted).run l).1 = .ok () ↔
        message = [] ∧ l.size < c) ∧
      (((Operation.appendUntilZero message position .exhausted).run l).1 = .ok () ↔
        (message = [] ∨ ∃ rest, message = 0 :: rest) ∧ l.size < c) := by
  intro l es
  have hslots : SlotsAfter es l.capacity := RecordList.slotsAfter_runAll (l := .empty) .nil rfl ops
  refine ⟨l.capacity, hslots, fun c' h => h.unique hslots, fun message position => ⟨?_, ?_⟩⟩
  · rw [Operation.run, RecordList.value_appendLogged]
    exact RecordList.append_exhausted_eq_ok_iff
  · rw [Operation.run, RecordList.appendUntilZeroLogged, RecordList.value_appendLogged,
      RecordList.append_exhausted_eq_ok_iff, RecordList.untilZero_eq_nil_iff]

/-- Four records, one more that got its slot but no copy, and the list is cleared: eight slots are
kept, and without memory eight empty messages go in. -/
theorem append_exhausted_by_slots_cleared :
    let ops : List Operation := List.replicate 4 (.append [97] 0 .plenty) ++
      [.append [97] 0 (.refusing 1), .clear]
    let filled (n : Nat) : List Operation := ops ++ List.replicate n (.append [] 1 .exhausted)
    let l (n : Nat) : RecordList := RecordList.empty.runAll (filled n)
    (∀ n, n ≤ 8 → SlotsAfter (RecordList.empty.history (filled n)) 8) ∧
    ((Operation.append [] 1 .exhausted).run (l 7)).1 = .ok () ∧
    ((Operation.appendUntilZero [0, 97] 1 .exhausted).run (l 7)).1 = .ok () ∧
    ((Operation.append [] 1 .exhausted).run (l 8)).1 ≠ .ok () := by
  intro ops filled l
  have hcapacity : ∀ n, n ≤ 8 → (l n).capacity = 8 := by decide
  have hslots : ∀ n, n ≤ 8 → SlotsAfter (RecordList.empty.history (filled n)) 8 := by
    intro n hn
    have h := RecordList.slotsAfter_runAll (l := .empty) .nil rfl (filled n)
    rwa [List.nil_append, hcapacity n hn] at h
  have hsize : (l 7).size = 7 ∧ (l 8).size = 8 := by decide
  refine ⟨hslots, ?_, ?_, ?_⟩
  · obtain ⟨c, -, hunique, h⟩ := append_exhausted_by_slots (filled 7)
    obtain rfl := hunique 8 (hslots 7 (by decide))
    exact (h [] 1).1.mpr ⟨rfl, by rw [hsize.1]; decide⟩
  · obtain ⟨c, -, hunique, h⟩ := append_exhausted_by_slots (filled 7)
    obtain rfl := hunique 8 (hslots 7 (by decide))
    exact (h [0, 97] 1).2.mpr ⟨.inr ⟨[97], rfl⟩, by rw [hsize.1]; decide⟩
  · obtain ⟨c, -, hunique, h⟩ := append_exhausted_by_slots (filled 8)
    obtain rfl := hunique 8 (hslots 8 (by decide))
    intro hok
    have hlt := ((h [] 1).1.mp hok).2
    rw [hsize.2] at hlt
    exact absurd hlt (Nat.lt_irrefl 8)

end BracketLint
