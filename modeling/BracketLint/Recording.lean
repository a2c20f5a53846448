import BracketLint.RecordList
import BracketLint.Journal
import BracketLint.Offset
import BracketLint.Scan

/-! Putting findings into a list. Each attempt to record one may be refused its memory. The
first refusal ends the scan, and what was recorded before it stays in the list. -/

namespace BracketLint

/-- What an operation on a list leaves: how it went, and the list. -/
abbrev Recorded := Except OutOfMemory Unit × RecordList

namespace RecordList

def appendLogged (l : RecordList) (message : List UInt8) (position : UInt32) (memory : Memory) :
    Logged Recorded :=
  let attempt := l.append message position memory
  match attempt.1 with
  | .ok () => ⟨[.recorded position message.length], attempt⟩
  | .error _ => ⟨[], attempt⟩

/-- Record the part of a message before its first zero byte. -/
def appendUntilZeroLogged (l : RecordList) (message : List UInt8) (position : UInt32)
    (memory : Memory) : Logged Recorded :=
  l.appendLogged (untilZero message) position memory

def clearLogged (l : RecordList) : Logged RecordList := ⟨[.clearing l.size], l.clear⟩

/-- Give up a list. -/
def release (l : RecordList) : Logged Unit := .note (.releasing l.size)

@[simp] theorem value_appendLogged (l : RecordList) (message : List UInt8) (position : UInt32)
    (memory : Memory) :
    (l.appendLogged message position memory).value = l.append message position memory := by
  simp only [appendLogged]
  split <;> rfl

end RecordList

namespace Finding

def position (f : Finding) : UInt32 := Offset.ofNat f.offset

def message (f : Finding) : List UInt8 := Utf8.encode f.problem.message

def record (f : Finding) : Record := .point f.message f.position

/-- The events before a finding is recorded. -/
def events (f : Finding) : List Event :=
  match f.problem with
  | .mismatchedClosing _ _ openedAt => [.mismatchedPair (Offset.ofNat openedAt) f.position]
  | _ => []

/-- Record findings in order. The attempt numbered `i` gets the memory `memory i`, and the
first one here is numbered `attempt`. -/
def recordAll (memory : Nat → Memory) (attempt : Nat) (l : RecordList) :
    List Finding → Logged Recorded
  | [] => ⟨[], (.ok (), l)⟩
  | f :: rest =>
    let done := l.appendLogged f.message f.position (memory attempt)
    match done.value.1 with
    | .ok () =>
      let after := recordAll memory (attempt + 1) done.value.2 rest
      ⟨f.events ++ done.events ++ after.events, after.value⟩
    | .error _ => ⟨f.events ++ done.events, done.value⟩

end Finding

/-- Scan a source and record everything found in the list given. -/
def scanInto (o : ScanOptions) (source : List Char) (memory : Nat → Memory)
    (l : RecordList) : Logged Recorded := do
  let placed := tokens o source
  let recorded ← Finding.recordAll memory 0 l (Scan.findings [] placed)
  match recorded.1 with
  | .ok () =>
    .note (.scanFinished placed.length (recorded.2.size - l.size))
    return recorded
  | .error _ => return recorded

end BracketLint
