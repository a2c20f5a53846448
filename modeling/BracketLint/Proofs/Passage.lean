import Mathlib.Data.List.Basic
import BracketLint.Recording

/-! A scan over some of the tokens: the brackets that are open after them, and what is reported
on the way. Where the tokens stand does not matter: moving them moves the findings. -/

namespace BracketLint

def PlacedToken.moved (g : Nat → Nat) (t : PlacedToken) : PlacedToken :=
  ⟨t.token, g t.start, g t.stop⟩

def Opener.moved (g : Nat → Nat) (o : Opener) : Opener := ⟨o.kind, g o.offset⟩

def Problem.moved (g : Nat → Nat) : Problem → Problem
  | unexpectedClosing d => unexpectedClosing d
  | mismatchedClosing d e n => mismatchedClosing d e (g n)
  | unterminatedString => unterminatedString
  | unclosed d => unclosed d

def Finding.moved (g : Nat → Nat) (f : Finding) : Finding := ⟨f.problem.moved g, g f.offset⟩

def Record.moved (g : Nat → Nat) (r : Record) : Record :=
  ⟨Offset.ofNat (g r.start.toNat), Offset.ofNat (g r.stop.toNat), r.message⟩

/-- The record is about a bracket that is left open. -/
def Record.isUnclosed (r : Record) : Bool :=
  BracketKind.all.any fun d => r.message == Utf8.encode (Problem.unclosed d).message

theorem Problem.message_moved (g : Nat → Nat) (p : Problem) : (p.moved g).message = p.message := by
  cases p <;> rfl

theorem Finding.record_moved {g : Nat → Nat} {f : Finding} (h : f.offset ≤ Offset.greatest) :
    (f.moved g).record = f.record.moved g := by
  have hp : (Offset.ofNat f.offset).toNat = f.offset := Offset.toNat_ofNat_of_le h
  simp only [record, message, position, moved, Problem.message_moved, Record.moved, Record.point, hp]

theorem Problem.message_unclosed_iff (p : Problem) :
    (BracketKind.all.any fun d => Utf8.encode p.message == Utf8.encode (unclosed d).message) =
      p.isUnclosed := by
  cases p with
  | unexpectedClosing d => cases d <;> decide +kernel
  | mismatchedClosing d e n =>
    change (BracketKind.all.any fun x =>
      Utf8.encode (mismatchedClosing d e 0).message == Utf8.encode (unclosed x).message) = false
    cases d <;> cases e <;> decide +kernel
  | unterminatedString => decide +kernel
  | unclosed d => cases d <;> decide +kernel

theorem Finding.isUnclosed_record (f : Finding) : f.record.isUnclosed = f.problem.isUnclosed :=
  f.problem.message_unclosed_iff

theorem Lexeme.place_add (n k : Nat) (ls : List Lexeme) :
    place (n + k) ls = (place n ls).map (PlacedToken.moved (· + k)) := by
  induction ls generalizing n with
  | nil => rfl
  | cons l ls ih =>
    rw [place_cons, place_cons, List.map_cons, ← ih, Nat.add_right_comm]
    rfl

namespace Scan

/-- The brackets that are open after the tokens. -/
def after (opened : List Opener) : List PlacedToken → List Opener
  | [] => opened
  | t :: ts => after (step opened t).1 ts

/-- What is reported while the tokens are read. -/
def reported (opened : List Opener) : List PlacedToken → List Finding
  | [] => []
  | t :: ts => (step opened t).2.toList ++ reported (step opened t).1 ts

theorem findings_append (opened : List Opener) (ts us : List PlacedToken) :
    findings opened (ts ++ us) = reported opened ts ++ findings (after opened ts) us := by
  induction ts generalizing opened with
  | nil => rfl
  | cons t ts ih => rw [List.cons_append, findings_cons, ih, ← List.append_assoc]; rfl

theorem findings_eq (opened : List Opener) (ts : List PlacedToken) :
    findings opened ts = reported opened ts ++ leftOpen (after opened ts) := by
  have h := findings_append opened ts []
  rwa [List.append_nil, findings_nil] at h

theorem isUnclosed_of_mem_leftOpen {opened : List Opener} {f : Finding} (h : f ∈ leftOpen opened) :
    f.problem.isUnclosed = true := by
  obtain ⟨o, -, rfl⟩ := List.mem_map.mp h
  rfl

theorem leftOpen_eq_nil_iff {opened : List Opener} : leftOpen opened = [] ↔ opened = [] := by
  simp [leftOpen]

theorem isUnclosed_of_close {opened : List Opener} {d : BracketKind} {n : Nat} {f : Finding}
    (h : (close opened d n).2 = some f) : f.problem.isUnclosed = false := by
  cases opened with
  | nil => cases h; rfl
  | cons o opened =>
    by_cases hk : o.kind = d
    · simp [close, hk] at h
    · simp only [close, if_neg hk, Option.some.injEq] at h
      subst h
      rfl

theorem isUnclosed_of_step {opened : List Opener} {t : PlacedToken} {f : Finding}
    (h : (step opened t).2 = some f) : f.problem.isUnclosed = false := by
  obtain ⟨token, start, stop⟩ := t
  cases token with
  | bracket b =>
    cases b with
    | opening d => cases h
    | closing d => exact isUnclosed_of_close h
  | string terminated =>
    cases terminated with
    | false => cases h; rfl
    | true => cases h
  | comment body => cases h
  | text run => cases h

theorem isUnclosed_of_mem_reported {opened : List Opener} {ts : List PlacedToken} {f : Finding}
    (h : f ∈ reported opened ts) : f.problem.isUnclosed = false := by
  induction ts generalizing opened with
  | nil => cases h
  | cons t ts ih =>
    rcases List.mem_append.mp h with h | h
    · exact isUnclosed_of_step (Option.mem_toList.mp h)
    · exact ih h

/-- A change of tokens that each step takes over to the findings is taken over by the whole scan. -/
theorem findings_map {f : Opener → Opener} {g : PlacedToken → PlacedToken} {h : Finding → Finding}
    (hstep : ∀ opened t,
      step (opened.map f) (g t) = ((step opened t).1.map f, (step opened t).2.map h))
    (hopen : ∀ o : Opener, ⟨.unclosed (f o).kind, (f o).offset⟩ = h ⟨.unclosed o.kind, o.offset⟩)
    (opened : List Opener) (ts : List PlacedToken) :
    findings (opened.map f) (ts.map g) = (findings opened ts).map h := by
  induction ts generalizing opened with
  | nil =>
    simp only [List.map_nil, findings_nil, leftOpen, ← List.map_reverse, List.map_map]
    exact List.map_congr_left fun o _ => hopen o
  | cons t ts ih =>
    rw [List.map_cons, findings_cons, findings_cons, hstep, ih, List.map_append]
    cases (step opened t).2 <;> rfl

section Moved

variable (g : Nat → Nat)

theorem close_moved (opened : List Opener) (d : BracketKind) (n : Nat) :
    close (opened.map (Opener.moved g)) d (g n) =
      ((close opened d n).1.map (Opener.moved g), (close opened d n).2.map (Finding.moved g)) := by
  cases opened with
  | nil => rfl
  | cons o opened =>
    rw [List.map_cons]
    by_cases hk : o.kind = d
    · simp [close, Opener.moved, hk]
    · simp [close, Opener.moved, hk, Finding.moved, Problem.moved]

theorem step_moved (opened : List Opener) (t : PlacedToken) :
    step (opened.map (Opener.moved g)) (t.moved g) =
      ((step opened t).1.map (Opener.moved g), (step opened t).2.map (Finding.moved g)) := by
  obtain ⟨token, start, stop⟩ := t
  cases token with
  | bracket b =>
    cases b with
    | opening d => rfl
    | closing d => exact close_moved g opened d start
  | string terminated => cases terminated <;> rfl
  | comment body => rfl
  | text run => rfl

theorem findings_moved (opened : List Opener) (ts : List PlacedToken) :
    findings (opened.map (Opener.moved g)) (ts.map (PlacedToken.moved g)) =
      (findings opened ts).map (Finding.moved g) :=
  findings_map (step_moved g) (fun _ => rfl) opened ts

end Moved

end Scan

end BracketLint
