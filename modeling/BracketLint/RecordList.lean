import BracketLint.Record

/-! An append-only list of records that asks for its memory and may be refused. A record needs
a slot and a copy of its message. Slots are asked for many at a time and are kept, also when
the message is then refused and when the list is cleared. No refusal changes the records. -/

namespace BracketLint

/-- What an append asks memory for. -/
inductive Request where
  | slots (count : Nat)
  | message (length : Nat)
  deriving DecidableEq

namespace Request

/-- The bytes of a slot. -/
def slotBytes : Nat := 24

/-- The bytes asked for. -/
def bytes : Request → Nat
  | slots count => slotBytes * count
  | message length => length

/-- The power of two that the place of the bytes is a multiple of. -/
def alignment : Request → Nat
  | slots _ => 3
  | message _ => 0

/-- A request as a refusal shows it, for debugging. -/
def inspect (r : Request) : String :=
  "AllocError \x7b layout: Layout \x7b size: " ++ toString r.bytes ++ ", align: " ++
    toString (Nat.pow 2 r.alignment) ++ " (1 << " ++ toString r.alignment ++
    ") \x7d, non_exhaustive: () \x7d"

end Request

/-- The answers that an append gets. -/
abbrev Memory := Request → Bool

namespace Memory

def plenty : Memory := fun _ => true

def exhausted : Memory := fun _ => false

/-- Refuses copies of messages of one length. -/
def refusing (length : Nat) : Memory := fun r => r != .message length

end Memory

/-- The record at this position could not be kept, because a request was refused. -/
structure OutOfMemory where
  position : UInt32
  refused : Request
  deriving DecidableEq

namespace OutOfMemory

def message (e : OutOfMemory) : String :=
  "out of memory while recording diagnostic at offset " ++ toString e.position.toNat

/-- The refusal with its fields, for debugging. -/
def inspect (e : OutOfMemory) : String :=
  "OutOfMemory \x7b position: " ++ toString e.position.toNat ++
    ", source: TryReserveError \x7b kind: " ++ e.refused.inspect ++ " \x7d \x7d"

end OutOfMemory

structure RecordList where
  records : Array Record
  capacity : Nat
  size_le_capacity : records.size ≤ capacity

namespace RecordList

def empty : RecordList := ⟨#[], 0, Nat.le_refl 0⟩

def toList (l : RecordList) : List Record := l.records.toList

def size (l : RecordList) : Nat := l.records.size

def isEmpty (l : RecordList) : Bool := l.records.isEmpty

def get? (l : RecordList) (i : Nat) : Option Record := l.records[i]?

def first? (l : RecordList) : Option Record := l.records[0]?

/-- Lists are equal when their records are, whatever slots they hold. -/
instance : BEq RecordList := ⟨fun l m => l.records == m.records⟩

/-- The slots of a full list after it has grown. -/
def grown (capacity : Nat) : Nat := max (2 * capacity) 4

/-- A full list asks for more slots. -/
def reserve? (l : RecordList) (memory : Memory) : Option RecordList :=
  if l.size < l.capacity then some l
  else if memory (.slots (grown l.capacity)) then
    some ⟨l.records, grown l.capacity, by have := l.size_le_capacity; unfold grown; omega⟩
  else none

def push (l : RecordList) (r : Record) : RecordList :=
  let slots := max l.capacity (l.size + 1)
  ⟨l.records.push r, slots, by
    rw [Array.size_push]
    exact Nat.le_max_right _ _⟩

/-- Copying an empty message needs no memory. -/
def copies (message : List UInt8) (memory : Memory) : Bool :=
  message.isEmpty || memory (.message message.length)

/-- Keep a message at a position. The slot is asked for before the copy. -/
def append (l : RecordList) (message : List UInt8) (position : UInt32) (memory : Memory) :
    Except OutOfMemory Unit × RecordList :=
  match l.reserve? memory with
  | none => (.error ⟨position, .slots (grown l.capacity)⟩, l)
  | some r =>
    if copies message memory then (.ok (), r.push (.point message position))
    else (.error ⟨position, .message message.length⟩, r)

/-- The part of a message before its first zero byte. -/
def untilZero (message : List UInt8) : List UInt8 := message.takeWhile (· != 0)

def clear (l : RecordList) : RecordList := ⟨#[], l.capacity, Nat.zero_le _⟩

/-- The list with its records, for debugging. -/
def inspect (l : RecordList) : String :=
  "DiagnosticList \x7b diagnostics: [" ++ ", ".intercalate (l.toList.map Record.inspect) ++
    "] \x7d"

@[simp] theorem toList_empty : empty.toList = [] := rfl

@[simp] theorem toList_clear (l : RecordList) : l.clear.toList = [] := rfl

@[simp] theorem length_toList (l : RecordList) : l.toList.length = l.size := by
  simp [toList, size]

@[simp] theorem toList_push (l : RecordList) (r : Record) :
    (l.push r).toList = l.toList ++ [r] := by
  simp [toList, push]

theorem get?_eq (l : RecordList) (i : Nat) : l.get? i = l.toList[i]? := by
  simp [get?, toList]

theorem first?_eq (l : RecordList) : l.first? = l.toList.head? := by
  simp [first?, toList, List.head?_eq_getElem?]

theorem isEmpty_eq (l : RecordList) : l.isEmpty = l.toList.isEmpty := by
  simp [isEmpty, toList]

theorem beq_eq (l m : RecordList) : (l == m) = (l.toList == m.toList) := by
  change (l.records == m.records) = _
  rw [Bool.eq_iff_iff]
  simp [toList]

theorem toList_of_reserve? {l r : RecordList} {memory : Memory}
    (h : l.reserve? memory = some r) : r.toList = l.toList := by
  unfold reserve? at h
  split at h
  · cases h; rfl
  · split at h <;> cases h
    rfl

theorem append_of_ok {l m : RecordList} {message : List UInt8} {position : UInt32}
    {memory : Memory} (h : l.append message position memory = (.ok (), m)) :
    m.toList = l.toList ++ [.point message position] := by
  unfold append at h
  split at h
  · cases h
  · rename_i r hr
    split at h <;> cases h
    rw [toList_push, toList_of_reserve? hr]

theorem append_of_error {l m : RecordList} {message : List UInt8} {position : UInt32}
    {memory : Memory} {e : OutOfMemory} (h : l.append message position memory = (.error e, m)) :
    e.position = position ∧ m.toList = l.toList := by
  unfold append at h
  split at h
  · cases h; exact ⟨rfl, rfl⟩
  · rename_i r hr
    split at h <;> cases h
    exact ⟨rfl, toList_of_reserve? hr⟩

theorem append_plenty (l : RecordList) (message : List UInt8) (position : UInt32) :
    (l.append message position .plenty).1 = .ok () := by
  unfold append
  split
  · rename_i h
    unfold reserve? at h
    split at h <;> simp [Memory.plenty] at h
  · simp [copies, Memory.plenty]

end RecordList

end BracketLint
