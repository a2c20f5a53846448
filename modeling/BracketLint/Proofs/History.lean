import Mathlib.Data.List.DropRight
import BracketLint.RecordList.Cursor
import BracketLint.Proofs.Reservation

/-! A list over its whole life. It reads as the appends that succeeded since it was last
cleared. Appends that fail leave no mark on it but the slots they were granted. -/

namespace BracketLint

namespace Cursor

/-- Going forward gives these records and then none, however often one asks. -/
inductive Yields : Cursor → List Record → Prop where
  | nil {c : Cursor} : c.next = (none, c) → Yields c []
  | cons {c c' : Cursor} {r : Record} {rs : List Record} :
    c.next = (some r, c') → Yields c' rs → Yields c (r :: rs)

theorem yields_remaining (c : Cursor) : c.Yields c.remaining := by
  induction hrs : c.remaining generalizing c with
  | nil => exact .nil (next_of_remaining_eq_nil hrs)
  | cons r rs ih =>
    obtain ⟨c', hnext, hrest⟩ := next_of_remaining_eq_cons hrs
    exact .cons hnext (ih c' hrest)

theorem Yields.unique {c : Cursor} {rs rs' : List Record} (h : c.Yields rs) (h' : c.Yields rs') :
    rs = rs' := by
  induction h generalizing rs' with
  | nil hn =>
    cases h' with
    | nil _ => rfl
    | cons hn' _ => rw [hn] at hn'; cases hn'
  | cons hn _ ih =>
    cases h' with
    | nil hn' => rw [hn] at hn'; cases hn'
    | cons hn' hrest =>
      rw [hn] at hn'
      cases hn'
      rw [ih hrest]

end Cursor

/-- Everything that can be read of the list says that it holds these records. -/
structure RecordList.Reads (l : RecordList) (h : List Record) : Prop where
  walked : (Cursor.ofList l).Yields h
  get? : ∀ i, l.get? i = h[i]?
  first? : l.first? = h.head?
  size : l.size = h.length
  isEmpty : l.isEmpty = true ↔ h = []

theorem RecordList.reads_iff {l : RecordList} {h : List Record} : l.Reads h ↔ l.toList = h := by
  have hwalk := (Cursor.ofList l).yields_remaining
  rw [Cursor.remaining_ofList] at hwalk
  constructor
  · exact fun hr => hwalk.unique hr.walked
  · rintro rfl
    exact ⟨hwalk, l.get?_eq, l.first?_eq, l.length_toList.symm, by simp [l.isEmpty_eq]⟩

/-- What is done to a list. Every append has its own memory. -/
inductive Operation where
  | append (message : List UInt8) (position : UInt32) (memory : Memory)
  | appendUntilZero (message : List UInt8) (position : UInt32) (memory : Memory)
  | scan (o : ScanOptions) (source : List Char) (memory : Nat → Memory)
  | clear

inductive HistoryEntry where
  | attempt (message : List UInt8) (position : UInt32) (outcome : Except OutOfMemory Unit)
  | cleared

namespace HistoryEntry

def isCleared : HistoryEntry → Bool
  | attempt .. => false
  | cleared => true

def outcome : HistoryEntry → Except OutOfMemory Unit
  | attempt _ _ outcome => outcome
  | cleared => .ok ()

def added? : HistoryEntry → Option Record
  | attempt message position (.ok ()) => some ⟨position, position, message⟩
  | attempt _ _ (.error _) | cleared => none

/-- The records of the successful appends since the list was last cleared, in order. -/
def held (es : List HistoryEntry) : List Record := (es.rtakeWhile (!·.isCleared)).filterMap added?

variable {es : List HistoryEntry} {message : List UInt8} {position : UInt32} {e : OutOfMemory}

@[simp] theorem held_concat_ok :
    held (es ++ [attempt message position (.ok ())]) = held es ++ [.point message position] := by
  simp [held, isCleared, added?, Record.point]

@[simp] theorem held_concat_error :
    held (es ++ [attempt message position (.error e)]) = held es := by
  simp [held, isCleared, added?]

@[simp] theorem held_concat_cleared : held (es ++ [cleared]) = [] := by
  simp [held, isCleared]

end HistoryEntry

open HistoryEntry

/-- The appends made to keep records in order, of which only the last may fail. -/
def RecordList.attempts (memory : Nat → Memory) (l : RecordList) : List Record → List HistoryEntry
  | [] => []
  | r :: rs =>
    match l.append r.message r.start (memory 0) with
    | (.ok (), m) =>
      .attempt r.message r.start (.ok ()) :: attempts (fun i => memory (i + 1)) m rs
    | (.error e, _) => [.attempt r.message r.start (.error e)]

namespace Operation

def run (l : RecordList) : Operation → Recorded
  | append message position memory => (l.appendLogged message position memory).value
  | appendUntilZero message position memory => (l.appendUntilZeroLogged message position memory).value
  | scan o source memory => (scanInto o source memory l).value
  | clear => (.ok (), l.clearLogged.value)

def entries (l : RecordList) : Operation → List HistoryEntry
  | append message position memory =>
    [.attempt message position (l.append message position memory).1]
  | appendUntilZero message position memory =>
    let kept := RecordList.untilZero message
    [.attempt kept position (l.append kept position memory).1]
  | scan o source memory => l.attempts memory (scanned o source)
  | clear => [.cleared]

/-- The same done with these requests granted in any case. -/
def granting (granted : List Request) : Operation → Operation
  | append message position memory => append message position (memory.granting granted)
  | appendUntilZero message position memory =>
    appendUntilZero message position (memory.granting granted)
  | scan o source memory => scan o source fun i => (memory i).granting granted
  | clear => clear

theorem granting_nil (op : Operation) : op.granting [] = op := by
  have hm : ∀ memory : Memory, memory.granting [] = memory := by
    intro memory
    funext q
    simp [Memory.granting]
  cases op <;> simp [granting, hm]

end Operation

namespace RecordList

def runAll (l : RecordList) (ops : List Operation) : RecordList :=
  ops.foldl (fun l op => (op.run l).2) l

def outcomes (l : RecordList) : List Operation → List (Except OutOfMemory Unit)
  | [] => []
  | op :: ops => (op.run l).1 :: outcomes (op.run l).2 ops

def history (l : RecordList) : List Operation → List HistoryEntry
  | [] => []
  | op :: ops => op.entries l ++ history (op.run l).2 ops

section Attempts

variable {memory : Nat → Memory} {l m : RecordList} {r : Record} {rs : List Record} {e : OutOfMemory}

theorem attempts_cons_of_ok (h : l.append r.message r.start (memory 0) = (.ok (), m)) :
    l.attempts memory (r :: rs) =
      .attempt r.message r.start (.ok ()) :: m.attempts (fun i => memory (i + 1)) rs := by
  simp only [attempts, h]

theorem attempts_cons_of_error (h : l.append r.message r.start (memory 0) = (.error e, m)) :
    l.attempts memory (r :: rs) = [.attempt r.message r.start (.error e)] := by
  simp only [attempts, h]

theorem position_of_mem_attempts {message : List UInt8} {position : UInt32}
    (h : .attempt message position (.error e) ∈ l.attempts memory rs) : e.position = position := by
  induction rs generalizing memory l with
  | nil => cases h
  | cons r rs ih =>
    rcases hd : l.append r.message r.start (memory 0) with ⟨_ | ⟨⟩, m⟩
    · rw [attempts_cons_of_error hd] at h
      cases List.mem_singleton.mp h
      exact (append_of_error hd).1
    · rw [attempts_cons_of_ok hd] at h
      rcases List.mem_cons.mp h with h | h
      · cases h
      · exact ih h

end Attempts

end RecordList

namespace Finding

variable {memory : Nat → Memory} {l m : RecordList} {f : Finding} {fs : List Finding}
  {e : OutOfMemory}

theorem toList_recordAll {es : List HistoryEntry} (h : l.toList = held es) :
    (recordAll memory 0 l fs).value.2.toList =
      held (es ++ l.attempts memory (fs.map record)) := by
  induction fs generalizing memory l es with
  | nil => simpa [recordAll, RecordList.attempts] using h
  | cons f fs ih =>
    rcases hd : l.append f.message f.position (memory 0) with ⟨e | ⟨⟩, m⟩
    · rw [value_recordAll_cons_of_error hd, List.map_cons,
        RecordList.attempts_cons_of_error (r := f.record) hd, held_concat_error,
        (RecordList.append_of_error hd).2, h]
    · rw [value_recordAll_cons_of_ok hd, List.map_cons,
        RecordList.attempts_cons_of_ok (r := f.record) hd, List.append_cons]
      -- the entry made here belongs to the history before the rest
      apply ih
      rw [RecordList.append_of_ok hd, h, held_concat_ok]
      rfl

theorem outcome_recordAll :
    (recordAll memory 0 l fs).value.1 =
        (((l.attempts memory (fs.map record)).getLast?.map HistoryEntry.outcome).getD (.ok ())) ∧
      ∀ x ∈ (l.attempts memory (fs.map record)).dropLast, x.outcome = .ok () := by
  induction fs generalizing memory l with
  | nil => exact ⟨rfl, fun x hx => by cases hx⟩
  | cons f fs ih =>
    rcases hd : l.append f.message f.position (memory 0) with ⟨e | ⟨⟩, m⟩
    · rw [value_recordAll_cons_of_error hd, List.map_cons,
        RecordList.attempts_cons_of_error (r := f.record) hd]
      exact ⟨rfl, fun x hx => by cases hx⟩
    · rw [value_recordAll_cons_of_ok hd, List.map_cons,
        RecordList.attempts_cons_of_ok (r := f.record) hd]
      obtain ⟨hlast, hrest⟩ := @ih (fun i => memory (i + 1)) m
      rw [hlast]
      -- what follows ends as the whole does, and if nothing follows the append just made is last
      cases hes : m.attempts (fun i => memory (i + 1)) (fs.map record) with
      | nil => exact ⟨rfl, fun x hx => by cases hx⟩
      | cons a as =>
        rw [hes] at hrest
        refine ⟨by rw [List.getLast?_cons_cons], fun x hx => ?_⟩
        rw [List.dropLast_cons_cons] at hx
        rcases List.mem_cons.mp hx with rfl | hx
        · rfl
        · exact hrest x hx

end Finding

namespace Operation

variable {l : RecordList} {op : Operation}

theorem toList_run {es : List HistoryEntry} (h : l.toList = held es) :
    (op.run l).2.toList = held (es ++ op.entries l) := by
  have happend : ∀ message position memory, (l.append message position memory).2.toList =
      held (es ++ [.attempt message position (l.append message position memory).1]) := by
    intro message position memory
    rcases hd : l.append message position memory with ⟨e | ⟨⟩, m⟩
    · rw [held_concat_error, (RecordList.append_of_error hd).2, h]
    · rw [held_concat_ok, RecordList.append_of_ok hd, h]
  cases op with
  | append message position memory =>
    rw [run, RecordList.value_appendLogged]
    exact happend message position memory
  | appendUntilZero message position memory =>
    rw [run, RecordList.appendUntilZeroLogged, RecordList.value_appendLogged]
    exact happend (RecordList.untilZero message) position memory
  | scan o source memory =>
    simp only [run, entries, value_scanInto, scanned_eq]
    exact Finding.toList_recordAll h
  | clear => simp [run, entries, RecordList.clearLogged]

/-- An operation ends as the last append it makes, and the others have succeeded. -/
theorem outcome_run (op : Operation) (l : RecordList) :
    (op.run l).1 = ((op.entries l).getLast?.map HistoryEntry.outcome).getD (.ok ()) ∧
      ∀ x ∈ (op.entries l).dropLast, x.outcome = .ok () := by
  cases op with
  | append message position memory =>
    exact ⟨by rw [run, RecordList.value_appendLogged]; rfl, fun x hx => by cases hx⟩
  | appendUntilZero message position memory =>
    refine ⟨?_, fun x hx => by cases hx⟩
    rw [run, RecordList.appendUntilZeroLogged, RecordList.value_appendLogged]
    rfl
  | scan o source memory =>
    simp only [run, entries, value_scanInto, scanned_eq]
    exact Finding.outcome_recordAll
  | clear => exact ⟨rfl, fun x hx => by cases hx⟩

theorem position_of_mem_entries {message : List UInt8} {position : UInt32} {e : OutOfMemory}
    (h : .attempt message position (.error e) ∈ op.entries l) : e.position = position := by
  have happend : ∀ {message' position' memory}, HistoryEntry.attempt message position (.error e) =
      .attempt message' position' (l.append message' position' memory).1 → e.position = position := by
    intro message' position' memory he
    injection he with _ hp ho
    rw [hp]
    exact (RecordList.append_of_error (Prod.ext ho.symm rfl)).1
  cases op with
  | append message' position' memory => exact happend (List.mem_singleton.mp h)
  | appendUntilZero message' position' memory => exact happend (List.mem_singleton.mp h)
  | scan o source memory => exact RecordList.position_of_mem_attempts h
  | clear => cases List.mem_singleton.mp h

end Operation

namespace RecordList

namespace Ahead

variable {c : Nat} {m l : RecordList}

theorem run (h : Ahead c m l) (op : Operation) :
    (op.run m).1 = ((op.granting [.slots (grown c)]).run l).1 ∧
      Ahead c (op.run m).2 ((op.granting [.slots (grown c)]).run l).2 := by
  cases op with
  | append message position memory =>
    simp only [Operation.run, Operation.granting, value_appendLogged]
    exact h.append message position memory
  | appendUntilZero message position memory =>
    simp only [Operation.run, Operation.granting, appendUntilZeroLogged, value_appendLogged]
    exact h.append (untilZero message) position memory
  | scan o source memory =>
    simp only [Operation.run, Operation.granting, value_scanInto]
    exact h.recordAll (scan o source)
  | clear => exact ⟨rfl, rfl, h.slots⟩

theorem runAll (h : Ahead c m l) (ops : List Operation) :
    m.outcomes ops = l.outcomes (ops.map (·.granting [.slots (grown c)])) ∧
      Ahead c (m.runAll ops) (l.runAll (ops.map (·.granting [.slots (grown c)]))) := by
  induction ops generalizing m l with
  | nil => exact ⟨rfl, h⟩
  | cons op ops ih =>
    obtain ⟨ho, hnext⟩ := h.run op
    obtain ⟨hos, hend⟩ := ih hnext
    exact ⟨congrArg₂ List.cons ho hos, hend⟩

end Ahead

theorem toList_runAll {l : RecordList} (es : List HistoryEntry) (h : l.toList = held es)
    (ops : List Operation) : (l.runAll ops).toList = held (es ++ l.history ops) := by
  induction ops generalizing l es with
  | nil => simpa [history, runAll] using h
  | cons op ops ih =>
    rw [history, ← List.append_assoc]
    exact ih _ (Operation.toList_run h)

theorem position_of_mem_history {l : RecordList} {ops : List Operation} {message : List UInt8}
    {position : UInt32} {e : OutOfMemory}
    (h : .attempt message position (.error e) ∈ l.history ops) : e.position = position := by
  induction ops generalizing l with
  | nil => cases h
  | cons op ops ih =>
    rcases List.mem_append.mp h with h | h
    · exact Operation.position_of_mem_entries h
    · exact ih h

theorem zero_not_mem_untilZero (message : List UInt8) : 0 ∉ untilZero message := by
  intro h
  have hb := List.mem_takeWhile_imp h
  simp at hb

theorem untilZero_eq_or (message : List UInt8) :
    untilZero message = message ∨ ∃ rest, message = untilZero message ++ 0 :: rest := by
  induction message with
  | nil => exact .inl rfl
  | cons b message ih =>
    by_cases hb : b = 0
    · exact .inr ⟨message, by simp [untilZero, hb]⟩
    · have hkept : untilZero (b :: message) = b :: untilZero message := by simp [untilZero, hb]
      rw [hkept]
      rcases ih with ih | ⟨rest, ih⟩
      · exact .inl (by rw [ih])
      · exact .inr ⟨rest, by rw [List.cons_append, ← ih]⟩

/-- After an append that failed everything goes as if it had not been tried, on a list that is
sure of the slots it was granted. -/
theorem later_of_append_error {l m : RecordList} {message : List UInt8} {position : UInt32}
    {memory : Memory} {e : OutOfMemory} (h : l.append message position memory = (.error e, m))
    (later : List Operation) :
    let later' := later.map (·.granting (l.obtained memory))
    m.outcomes later = l.outcomes later' ∧ (m.runAll later).toList = (l.runAll later').toList := by
  rcases append_of_error_slots h with ⟨rfl, hnone⟩ | ⟨hrec, hcap, hslots⟩
  · have hid : later.map (·.granting []) = later := by simp [Operation.granting_nil]
    simp only [hnone, hid, and_self]
  · have hahead : Ahead l.capacity m l := ⟨hrec, .inr ⟨hcap, rfl⟩⟩
    obtain ⟨ho, hend⟩ := hahead.runAll later
    simp only [hslots]
    exact ⟨ho, congrArg Array.toList hend.records⟩

end RecordList

/-- Whatever was done to a list since it was new, it reads as the appends that succeeded since it
was last cleared, and lists are equal when these are. An operation ends as its last append. A
failed append tells its own position and changes nothing that can be read, and what comes after
it goes as if it had not been tried, except that slots it was granted stay granted. -/
theorem runAll_reads_held (ops : List Operation) :
    let l := RecordList.empty.runAll ops
    let h := held (RecordList.empty.history ops)
    l.Reads h ∧
    (∀ ops', (l == RecordList.empty.runAll ops') = true ↔
      h = held (RecordList.empty.history ops')) ∧
    (∀ op : Operation, (op.run l).1 = ((op.entries l).getLast?.map outcome).getD (.ok ()) ∧
      ∀ x ∈ (op.entries l).dropLast, x.outcome = .ok ()) ∧
    (∀ message position e, .attempt message position (.error e) ∈ RecordList.empty.history ops →
      e.position = position) ∧
    (∀ message, ∃ kept, 0 ∉ kept ∧ (kept = message ∨ ∃ rest, message = kept ++ 0 :: rest) ∧
      ∀ position memory, (Operation.appendUntilZero message position memory).run l =
          (Operation.append kept position memory).run l ∧
        (Operation.appendUntilZero message position memory).entries l =
          (Operation.append kept position memory).entries l) ∧
    ∀ message position memory e m, (Operation.append message position memory).run l = (.error e, m) →
      e.position = position ∧ (∀ h', m.Reads h' ↔ l.Reads h') ∧
      ∀ later, let later' := later.map (·.granting (l.obtained memory))
        m.outcomes later = l.outcomes later' ∧
        ∀ h', (m.runAll later).Reads h' ↔ (l.runAll later').Reads h' := by
  intro l h
  have hl : l.toList = h := RecordList.toList_runAll [] rfl ops
  refine ⟨RecordList.reads_iff.mpr hl, fun ops' => ?_, fun op => op.outcome_run l,
    fun _ _ _ => RecordList.position_of_mem_history, fun message => ?_, ?_⟩
  · have hl' : (RecordList.empty.runAll ops').toList = held (RecordList.empty.history ops') :=
      RecordList.toList_runAll [] rfl ops'
    rw [RecordList.beq_eq, beq_iff_eq, hl, hl']
  · exact ⟨_, RecordList.zero_not_mem_untilZero message, RecordList.untilZero_eq_or message,
      fun _ _ => ⟨rfl, rfl⟩⟩
  · intro message position memory e m he
    rw [Operation.run, RecordList.value_appendLogged] at he
    obtain ⟨hp, hm⟩ := RecordList.append_of_error he
    refine ⟨hp, fun h' => by rw [RecordList.reads_iff, RecordList.reads_iff, hm], fun later => ?_⟩
    obtain ⟨ho, hend⟩ := RecordList.later_of_append_error he later
    exact ⟨ho, fun h' => by rw [RecordList.reads_iff, RecordList.reads_iff, hend]⟩

/-- Slots granted to a failed append are there for a later one, which is refused them if the failed
one was not tried. -/
theorem append_after_refused_copy : ∃ e m,
    (Operation.append [97] 0 (.refusing 1)).run .empty = (.error e, m) ∧
    m.outcomes [.append [] 5 .exhausted] = [.ok ()] ∧
    (m.runAll [.append [] 5 .exhausted]).toList = [⟨5, 5, []⟩] ∧
    RecordList.empty.outcomes [.append [] 5 .exhausted] = [.error ⟨5, .slots 4⟩] ∧
    (RecordList.empty.runAll [.append [] 5 .exhausted]).toList = [] :=
  ⟨⟨0, .message 1⟩, _, rfl, rfl, rfl, rfl, rfl⟩

/-- A full list whose next append is granted slots and refused the copy. -/
theorem runAll_reads_held_full :
    let l := RecordList.empty.runAll [.append [99] 5 .plenty, .clear,
      .append [97, 0, 255] 7 .plenty, .append [97] 6 (.refusing 1),
      .appendUntilZero [98, 0, 99] 8 .plenty, .scan {} ")]".toList fun _ => .plenty]
    l.Reads [⟨7, 7, [97, 0, 255]⟩, ⟨8, 8, [98]⟩,
      ⟨0, 0, Utf8.encode "unexpected closing \x60)\x60".toList⟩,
      ⟨1, 1, Utf8.encode "unexpected closing \x60]\x60".toList⟩] ∧
    ∃ e m, (Operation.append [100] 9 (.refusing 1)).run l = (.error e, m) ∧ e.position = 9 ∧
      l.obtained (.refusing 1) = [.slots 8] ∧
      m.outcomes [.append [] 5 .exhausted] =
        l.outcomes [.append [] 5 (Memory.exhausted.granting [.slots 8])] := by
  intro l
  obtain ⟨hreads, -, -, -, -, hfail⟩ := runAll_reads_held [.append [99] 5 .plenty, .clear,
      .append [97, 0, 255] 7 .plenty, .append [97] 6 (.refusing 1),
      .appendUntilZero [98, 0, 99] 8 .plenty, .scan {} ")]".toList fun _ => .plenty]
  have herr : (Operation.append [100] 9 (.refusing 1)).run l =
      (.error ⟨9, .message 1⟩, ((Operation.append [100] 9 (.refusing 1)).run l).2) :=
    Prod.ext (by decide +kernel) rfl
  obtain ⟨hp, -, hlater⟩ := hfail _ _ _ _ _ herr
  have hslots : l.obtained (.refusing 1) = [.slots 8] := by decide +kernel
  have hnext := (hlater [.append [] 5 .exhausted]).1
  rw [hslots] at hnext
  have hlist : l.toList = [⟨7, 7, [97, 0, 255]⟩, ⟨8, 8, [98]⟩,
      ⟨0, 0, Utf8.encode "unexpected closing \x60)\x60".toList⟩,
      ⟨1, 1, Utf8.encode "unexpected closing \x60]\x60".toList⟩] := by decide +kernel
  rw [← RecordList.reads_iff.mp hreads, hlist] at hreads
  exact ⟨hreads, _, _, herr, hp, hslots, hnext⟩

end BracketLint
