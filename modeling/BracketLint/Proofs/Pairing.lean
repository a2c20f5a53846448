import Mathlib.Data.List.Basic
import BracketLint.Recording
import BracketLint.Proofs.Balance

/-! Brackets paired without a stack. An opening bracket and a later closing one are partners
when what lies between them is balanced. A bracket has one partner at most, and what is wrong
with a token list can be read off the partners. -/

namespace BracketLint

open PlacedToken

instance BracketKind.decidableExists {p : BracketKind → Prop} [DecidablePred p] :
    Decidable (∃ d, p d) :=
  decidable_of_iff (∃ d ∈ BracketKind.all, p d)
    ⟨fun ⟨d, _, h⟩ => ⟨d, h⟩, fun ⟨d, h⟩ => ⟨d, d.mem_all, h⟩⟩

/-- The tokens numbered `i` and `j` are an opening bracket and a closing one after it, and the
brackets strictly between them are balanced. -/
structure Partners (ts : List PlacedToken) (i j : Nat) : Prop where
  lt : i < j
  opening : ∃ d, bracketAt ts i = some (.opening d)
  closing : ∃ d, bracketAt ts j = some (.closing d)
  balanced : Bracket.Balanced (between ts i j)

namespace Partners

variable {ts : List PlacedToken} {i j k : Nat}

instance : Decidable (Partners ts i j) :=
  decidable_of_iff (i < j ∧ (∃ d, bracketAt ts i = some (.opening d)) ∧
      (∃ d, bracketAt ts j = some (.closing d)) ∧ Bracket.Balanced (between ts i j))
    ⟨fun ⟨h, ho, hc, hb⟩ => ⟨h, ho, hc, hb⟩, fun ⟨h, ho, hc, hb⟩ => ⟨h, ho, hc, hb⟩⟩

theorem level (h : Partners ts i j) : height ts j = height ts (i + 1) :=
  ((balanced_between_iff h.lt).mp h.balanced).1

theorem above (h : Partners ts i j) {m : Nat} (him : i < m) (hmj : m ≤ j) :
    height ts (i + 1) ≤ height ts m :=
  ((balanced_between_iff h.lt).mp h.balanced).2 m him hmj

theorem height_opening (h : Partners ts i j) : height ts (i + 1) = height ts i + 1 := by
  obtain ⟨d, hd⟩ := h.opening
  exact height_succ_of_opening hd

theorem height_closing (h : Partners ts i j) : height ts (j + 1) = height ts j - 1 := by
  obtain ⟨d, hd⟩ := h.closing
  exact height_succ_of_closing hd

theorem lt_length (h : Partners ts i j) : j < ts.length := by
  obtain ⟨d, hd⟩ := h.closing
  apply Nat.lt_of_not_le
  intro hj
  simp [bracketAt, List.getElem?_eq_none hj] at hd

theorem closing_unique (h : Partners ts i j) (h' : Partners ts i k) : j = k := by
  have hno {a b : Nat} (ha : Partners ts i a) (hb : Partners ts i b) : ¬ a < b := by
    intro hab
    have hlt := ha.lt
    have hm := hb.above (m := a + 1) (by omega) hab
    have := ha.height_closing
    have := ha.level
    omega
  have := hno h h'
  have := hno h' h
  omega

theorem opening_unique (h : Partners ts i k) (h' : Partners ts j k) : i = j := by
  have hno {a b : Nat} (ha : Partners ts a k) (hb : Partners ts b k) : ¬ a < b := by
    intro hab
    have hm := ha.above hab (Nat.le_of_lt hb.lt)
    have := hb.height_opening
    have := hb.level
    have := ha.level
    omega
  have := hno h h'
  have := hno h' h
  omega

instance : Decidable (∀ j, ¬ Partners ts i j) :=
  decidable_of_iff (∀ j, j < ts.length → ¬ Partners ts i j)
    ⟨fun h j hj => h j hj.lt_length hj, fun h j _ => h j⟩

/-- A closing bracket is no opening bracket of another pair. -/
theorem not_chained (h : Partners ts i j) (h' : Partners ts j k) : False := by
  obtain ⟨d, hd⟩ := h.closing
  obtain ⟨e, he⟩ := h'.opening
  rw [hd] at he
  cases he

end Partners

/-- A text and the byte offset it is about. -/
structure Notice where
  text : List Char
  offset : Nat
  deriving DecidableEq

def Notice.record (n : Notice) : Record := .point (Utf8.encode n.text) (Offset.ofNat n.offset)

namespace Pairing

/-- The opening bracket that is the partner of the token numbered `j`. -/
def opener? (ts : List PlacedToken) (j : Nat) : Option Nat :=
  (List.range ts.length).find? fun i => Partners ts i j

variable {ts : List PlacedToken} {i j : Nat}

theorem opener?_eq_some (h : Partners ts i j) : opener? ts j = some i := by
  cases ho : opener? ts j with
  | none =>
    have hn := List.find?_eq_none.mp ho i (List.mem_range.mpr (Nat.lt_trans h.lt h.lt_length))
    simp [h] at hn
  | some k =>
    have hk : Partners ts k j := by simpa using List.find?_some ho
    rw [h.opening_unique hk]

theorem opener?_eq_none (h : ∀ i, ¬ Partners ts i j) : opener? ts j = none :=
  List.find?_eq_none.mpr fun i _ => by simpa using h i

def kindAt (ts : List PlacedToken) (i : Nat) : Option BracketKind :=
  (bracketAt ts i).map Bracket.kind

def quoted (c : Char) : List Char := ['\x60', c, '\x60']

/-- What the token numbered `j` has wrong when it is read: a closing bracket without a partner
of its kind, or a string that does not end. -/
def faultAt (ts : List PlacedToken) (j : Nat) : Option Notice :=
  ts[j]?.bind fun t =>
    match t.token with
    | .bracket (.closing d) =>
      match (opener? ts j).bind (kindAt ts) with
      | none => some ⟨"unexpected closing ".toList ++ quoted d.closing, t.start⟩
      | some e =>
        if e = d then none
        else some ⟨"mismatched closing ".toList ++ quoted d.closing ++ ", expected ".toList ++
          quoted e.closing, t.start⟩
    | .string false => some ⟨"unterminated string literal".toList, t.start⟩
    | _ => none

section Fault

variable {t : PlacedToken} {d e : BracketKind}

theorem faultAt_of_plain (hg : ts[j]? = some t) (hp : t.token.isPlain = true) :
    faultAt ts j = none := by
  simp only [faultAt, hg, Option.bind_some]
  cases ht : t.token with
  | bracket b => simp [ht, Token.isPlain] at hp
  | string terminated =>
    cases terminated with
    | false => simp [ht, Token.isPlain] at hp
    | true => rfl
  | comment body => rfl
  | text run => rfl

theorem faultAt_of_opening (hg : ts[j]? = some t) (ht : t.token = .bracket (.opening d)) :
    faultAt ts j = none := by
  simp only [faultAt, hg, Option.bind_some, ht]

theorem faultAt_of_unterminated (hg : ts[j]? = some t) (ht : t.token = .string false) :
    faultAt ts j = some ⟨"unterminated string literal".toList, t.start⟩ := by
  simp only [faultAt, hg, Option.bind_some, ht]

theorem faultAt_of_unpaired (hg : ts[j]? = some t) (ht : t.token = .bracket (.closing d))
    (hno : ∀ i, ¬ Partners ts i j) :
    faultAt ts j = some ⟨"unexpected closing ".toList ++ quoted d.closing, t.start⟩ := by
  simp only [faultAt, hg, Option.bind_some, ht, opener?_eq_none hno, Option.bind_none]

theorem faultAt_of_partners (hg : ts[j]? = some t) (ht : t.token = .bracket (.closing d))
    (hi : Partners ts i j) (he : kindAt ts i = some e) :
    faultAt ts j = if e = d then none
      else some ⟨"mismatched closing ".toList ++ quoted d.closing ++ ", expected ".toList ++
        quoted e.closing, t.start⟩ := by
  simp only [faultAt, hg, Option.bind_some, ht, opener?_eq_some hi, he]

end Fault

/-- The token numbered `i` is reported if it is an opening bracket and `free` holds. -/
def unclosedIf (ts : List PlacedToken) (i : Nat) (free : Prop) [Decidable free] : Option Notice :=
  ts[i]?.bind fun t =>
    match t.token with
    | .bracket (.opening d) =>
      if free then some ⟨"unclosed ".toList ++ quoted d.opening, t.start⟩ else none
    | _ => none

/-- An opening bracket without a partner. -/
def unclosedAt (ts : List PlacedToken) (i : Nat) : Option Notice :=
  unclosedIf ts i (∀ j, ¬ Partners ts i j)

/-- All that is wrong with a token list, what is left open at the end. -/
def notices (ts : List PlacedToken) : List Notice :=
  (List.range ts.length).filterMap (faultAt ts) ++ (List.range ts.length).filterMap (unclosedAt ts)

/-- What becomes of a bracket. -/
inductive Fate where
  | matched
  | mismatched
  | unexpected
  | unclosed
  deriving DecidableEq

def Paired (ts : List PlacedToken) (i j : Nat) : Prop := Partners ts i j ∨ Partners ts j i

def Fate.Of (ts : List PlacedToken) (i : Nat) : Fate → Prop
  | matched => ∃ j, Paired ts i j ∧ kindAt ts i = kindAt ts j
  | mismatched => ∃ j, Paired ts i j ∧ kindAt ts i ≠ kindAt ts j
  | unexpected => (∃ d, bracketAt ts i = some (.closing d)) ∧ ∀ j, ¬ Partners ts j i
  | unclosed => (∃ d, bracketAt ts i = some (.opening d)) ∧ ∀ j, ¬ Partners ts i j

theorem Paired.unique {k : Nat} (h : Paired ts i j) (h' : Paired ts i k) : j = k := by
  rcases h with h | h <;> rcases h' with h' | h'
  · exact h.closing_unique h'
  · exact (h'.not_chained h).elim
  · exact (h.not_chained h').elim
  · exact h.opening_unique h'

theorem Fate.Of.not_paired {f : Fate} (h : f.Of ts i) (hf : f = .unexpected ∨ f = .unclosed) :
    ¬ Paired ts i j := by
  intro hj
  rcases hf with rfl | rfl <;> obtain ⟨⟨d, hd⟩, hno⟩ := h
  · rcases hj with hj | hj
    · obtain ⟨e, he⟩ := hj.opening
      simp [hd] at he
    · exact hno j hj
  · rcases hj with hj | hj
    · exact hno j hj
    · obtain ⟨e, he⟩ := hj.closing
      simp [hd] at he

theorem Fate.Of.eq_of_paired {f : Fate} (h : f.Of ts i) (hj : Paired ts i j) :
    f = if kindAt ts i = kindAt ts j then .matched else .mismatched := by
  cases f with
  | matched =>
    obtain ⟨k, hk, he⟩ := h
    rw [hj.unique hk, if_pos he]
  | mismatched =>
    obtain ⟨k, hk, hne⟩ := h
    rw [hj.unique hk, if_neg hne]
  | unexpected => exact (h.not_paired (.inl rfl) hj).elim
  | unclosed => exact (h.not_paired (.inr rfl) hj).elim

theorem Fate.Of.eq_of_not_paired {f : Fate} {b : Bracket} (h : f.Of ts i)
    (hb : bracketAt ts i = some b) (hno : ∀ j, ¬ Paired ts i j) :
    f = if b.isOpening then .unclosed else .unexpected := by
  cases f with
  | matched =>
    obtain ⟨j, hj, -⟩ := h
    exact (hno j hj).elim
  | mismatched =>
    obtain ⟨j, hj, -⟩ := h
    exact (hno j hj).elim
  | unexpected =>
    obtain ⟨⟨d, hd⟩, -⟩ := h
    obtain rfl := Option.some.inj (hd.symm.trans hb)
    rfl
  | unclosed =>
    obtain ⟨⟨d, hd⟩, -⟩ := h
    obtain rfl := Option.some.inj (hd.symm.trans hb)
    rfl

theorem existsUnique_fate {b : Bracket} (h : bracketAt ts i = some b) : ∃! f, Fate.Of ts i f := by
  by_cases hp : ∃ j, Paired ts i j
  · obtain ⟨j, hj⟩ := hp
    refine ⟨_, ?_, fun f hf => hf.eq_of_paired hj⟩
    by_cases hk : kindAt ts i = kindAt ts j
    · rw [if_pos hk]
      exact ⟨j, hj, hk⟩
    · rw [if_neg hk]
      exact ⟨j, hj, hk⟩
  · have hno (j : Nat) : ¬ Paired ts i j := fun hj => hp ⟨j, hj⟩
    refine ⟨_, ?_, fun f hf => hf.eq_of_not_paired h hno⟩
    cases b with
    | opening d => exact ⟨⟨d, h⟩, fun j hj => hno j (.inl hj)⟩
    | closing d => exact ⟨⟨d, h⟩, fun j hj => hno j (.inr hj)⟩

end Pairing

end BracketLint
