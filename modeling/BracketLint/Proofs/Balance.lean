import BracketLint.Lexeme

/-! Balanced words of brackets, and the height of a token list: how many more brackets have
been opened than closed. A stretch of tokens is balanced when it ends at the height where it
starts and never falls below it. -/

namespace BracketLint

namespace Bracket

def isOpening : Bracket → Bool
  | opening _ => true
  | closing _ => false

def opens (w : List Bracket) : Nat := w.countP isOpening

def closes (w : List Bracket) : Nat := w.countP (!isOpening ·)

/-- As many brackets are opened as closed, and in no prefix are more closed than opened. The
kinds of the brackets do not matter. -/
def Balanced (w : List Bracket) : Prop :=
  opens w = closes w ∧ ∀ p, p <+: w → closes p ≤ opens p

instance (w : List Bracket) : Decidable (Balanced w) :=
  decidable_of_iff (opens w = closes w ∧ ∀ n, n < w.length + 1 → closes (w.take n) ≤ opens (w.take n))
    (and_congr_right fun _ => by
      constructor
      · intro h p hp
        have hl := hp.length_le
        rw [List.prefix_iff_eq_take.mp hp]
        exact h p.length (by omega)
      · intro h n _
        exact h _ (List.take_prefix n w))

example : Balanced [.opening .paren, .closing .brace, .opening .brace, .closing .paren] := by decide

/-- How far a word ends above its start. -/
def climb (w : List Bracket) : Int := opens w - closes w

@[simp] theorem climb_nil : climb [] = 0 := rfl

theorem climb_append (v w : List Bracket) : climb (v ++ w) = climb v + climb w := by
  simp only [climb, opens, closes, List.countP_append]
  omega

@[simp] theorem climb_opening (d : BracketKind) : climb [opening d] = 1 := rfl

@[simp] theorem climb_closing (d : BracketKind) : climb [closing d] = -1 := rfl

theorem balanced_iff_climb {w : List Bracket} :
    Balanced w ↔ climb w = 0 ∧ ∀ p, p <+: w → 0 ≤ climb p := by
  unfold Balanced climb
  constructor
  · rintro ⟨he, hp⟩
    exact ⟨by omega, fun p h => by have := hp p h; omega⟩
  · rintro ⟨he, hp⟩
    exact ⟨by omega, fun p h => by have := hp p h; omega⟩

end Bracket

def Token.bracket? : Token → Option Bracket
  | .bracket b => some b
  | .string _ | .comment _ | .text _ => none

namespace PlacedToken

/-- The brackets among tokens, in order. -/
def brackets (ts : List PlacedToken) : List Bracket := ts.filterMap (·.token.bracket?)

/-- The bracket that is the token numbered `i`, if that is one. -/
def bracketAt (ts : List PlacedToken) (i : Nat) : Option Bracket := ts[i]?.bind (·.token.bracket?)

/-- The brackets strictly between the tokens numbered `i` and `j`. -/
def between (ts : List PlacedToken) (i j : Nat) : List Bracket := brackets ((ts.take j).drop (i + 1))

/-- How many more brackets are opened than closed among the first `k` tokens. -/
def height (ts : List PlacedToken) (k : Nat) : Int := Bracket.climb (brackets (ts.take k))

theorem brackets_append (ts us : List PlacedToken) :
    brackets (ts ++ us) = brackets ts ++ brackets us := List.filterMap_append

theorem brackets_take_succ (ts : List PlacedToken) (k : Nat) :
    brackets (ts.take (k + 1)) = brackets (ts.take k) ++ (bracketAt ts k).toList := by
  rw [List.take_add_one, brackets_append, bracketAt]
  cases ts[k]? with
  | none => rfl
  | some t =>
    simp only [Option.toList_some, Option.bind_some, brackets, List.filterMap_cons, List.filterMap_nil]
    cases t.token.bracket? <;> rfl

theorem height_succ (ts : List PlacedToken) (k : Nat) :
    height ts (k + 1) = height ts k + Bracket.climb (bracketAt ts k).toList := by
  rw [height, brackets_take_succ, Bracket.climb_append, height]

theorem height_succ_of_opening {ts : List PlacedToken} {k : Nat} {d : BracketKind}
    (h : bracketAt ts k = some (.opening d)) : height ts (k + 1) = height ts k + 1 := by
  rw [height_succ, h, Option.toList_some, Bracket.climb_opening]

theorem height_succ_of_closing {ts : List PlacedToken} {k : Nat} {d : BracketKind}
    (h : bracketAt ts k = some (.closing d)) : height ts (k + 1) = height ts k - 1 := by
  rw [height_succ, h, Option.toList_some, Bracket.climb_closing]
  omega

theorem height_succ_of_none {ts : List PlacedToken} {k : Nat}
    (h : bracketAt ts k = none) : height ts (k + 1) = height ts k := by
  rw [height_succ, h, Option.toList_none, Bracket.climb_nil]
  omega

theorem climb_segment (ts : List PlacedToken) {a b : Nat} (hab : a ≤ b) :
    Bracket.climb (brackets ((ts.take b).drop a)) = height ts b - height ts a := by
  have hsplit : ts.take b = ts.take a ++ (ts.take b).drop a := by
    have he : (ts.take b).take a = ts.take a := by rw [List.take_take, Nat.min_eq_left hab]
    rw [← he, List.take_append_drop]
  have hb : height ts b = Bracket.climb (brackets (ts.take a ++ (ts.take b).drop a)) := by
    rw [← hsplit, height]
  rw [hb, brackets_append, Bracket.climb_append, height]
  omega

/-- The prefixes of the brackets in a stretch are the brackets of its shorter stretches. -/
theorem prefix_brackets_segment_iff {ts : List PlacedToken} {a b : Nat} {p : List Bracket} (hab : a ≤ b) :
    p <+: brackets ((ts.take b).drop a) ↔
      ∃ m, a ≤ m ∧ m ≤ b ∧ p = brackets ((ts.take m).drop a) := by
  constructor
  · intro h
    obtain ⟨q, hq, rfl⟩ := List.prefix_filterMap_iff.mp h
    refine ⟨min (a + q.length) b, by omega, by omega, ?_⟩
    have he := List.prefix_iff_eq_take.mp hq
    rw [List.take_drop, List.take_take] at he
    rw [brackets, ← he]
  · rintro ⟨m, _, hm, rfl⟩
    have he : (ts.take m).drop a = ((ts.take b).drop a).take (m - a) := by
      rw [List.take_drop, List.take_take, show min (a + (m - a)) b = m by omega]
    rw [he]
    exact (List.take_prefix _ _).filterMap _

theorem balanced_between_iff {ts : List PlacedToken} {i j : Nat} (hij : i < j) :
    Bracket.Balanced (between ts i j) ↔
      height ts j = height ts (i + 1) ∧ ∀ m, i < m → m ≤ j → height ts (i + 1) ≤ height ts m := by
  have hle : i + 1 ≤ j := hij
  rw [Bracket.balanced_iff_climb, between, climb_segment ts hle]
  constructor
  · rintro ⟨he, hp⟩
    refine ⟨by omega, fun m him hmj => ?_⟩
    have hm : i + 1 ≤ m := him
    have hh := hp _ ((prefix_brackets_segment_iff hle).mpr ⟨m, hm, hmj, rfl⟩)
    rw [climb_segment ts hm] at hh
    omega
  · rintro ⟨he, hp⟩
    refine ⟨by omega, fun p h => ?_⟩
    obtain ⟨m, hm, hmj, rfl⟩ := (prefix_brackets_segment_iff hle).mp h
    have hh := hp m (by omega) hmj
    rw [climb_segment ts hm]
    omega

end PlacedToken

end BracketLint
