import BracketLint.ScanOptions
import BracketLint.Lexeme

/-! A source as a list of lexemes. At each position the first of these that applies is taken:
a comment, a string literal, a bracket, a run of text, a single character. The lexemes are not
empty, and together they are the source, for any options. -/

namespace BracketLint

namespace Lexeme

/-- The longest run of escapes and plain characters after an opening quote. A backslash takes
the next character with it, whatever that is. -/
def literalBody : List Char → List Char
  | [] => []
  | '\\' :: c :: rest => '\\' :: c :: literalBody rest
  | c :: rest =>
    if c = '"' ∨ c = '\\' ∨ c = '\n' then [] else c :: literalBody rest

/-- Characters at which a run of text ends. -/
def isStop (o : ScanOptions) (c : Char) : Bool :=
  (Bracket.ofChar? c).isSome || (o.strings && c == '"') || o.mark.head? == some c

/-- A comment goes up to the end of its line. -/
def comment? (o : ScanOptions) (s : List Char) : Option Lexeme :=
  if o.mark ≠ [] ∧ o.mark.isPrefixOf s then
    let body := (s.drop o.mark.length).takeWhile (· != '\n')
    some ⟨.comment body, o.mark ++ body⟩
  else none

/-- A literal is terminated when its body is followed by a quote, which it then covers. -/
def literal? (o : ScanOptions) : List Char → Option Lexeme
  | [] => none
  | c :: rest =>
    if o.strings ∧ c = '"' then
      let body := literalBody rest
      let close := (rest.drop body.length).takeWhile (· == '"') |>.take 1
      some ⟨.string (close ≠ []), c :: body ++ close⟩
    else none

def bracket? : List Char → Option Lexeme
  | [] => none
  | c :: _ => (Bracket.ofChar? c).map fun b => ⟨.bracket b, [c]⟩

/-- A run goes up to the next stop character and is not empty. -/
def run? (o : ScanOptions) (s : List Char) : Option Lexeme :=
  let run := s.takeWhile (!isStop o ·)
  if run = [] then none else some ⟨.text run, run⟩

/-- A stop character that starts nothing else is a run of its own. -/
def single? : List Char → Option Lexeme
  | [] => none
  | c :: _ => some ⟨.text [c], [c]⟩

/-- The lexeme at the head of a source. -/
def first? (o : ScanOptions) (s : List Char) : Option Lexeme :=
  comment? o s <|> literal? o s <|> bracket? s <|> run? o s <|> single? s

theorem literalBody_isPrefix (s : List Char) : literalBody s <+: s := by
  fun_induction literalBody s with
  | case1 => exact List.prefix_rfl
  | case2 c rest ih => simpa using ih
  | case3 c rest _ h => exact List.nil_prefix
  | case4 c rest _ h ih => simpa using ih

theorem comment?_isPrefix {o : ScanOptions} {s : List Char} {l : Lexeme}
    (h : comment? o s = some l) : l.source <+: s := by
  unfold comment? at h
  split at h
  · rename_i hm
    obtain ⟨t, rfl⟩ := List.isPrefixOf_iff_prefix.1 hm.2
    cases h
    simpa using List.takeWhile_prefix _
  · cases h

theorem comment?_ne_nil {o : ScanOptions} {s : List Char} {l : Lexeme}
    (h : comment? o s = some l) : l.source ≠ [] := by
  unfold comment? at h
  split at h
  · rename_i hm
    cases h
    simp [hm.1]
  · cases h

theorem literal?_isPrefix {o : ScanOptions} {s : List Char} {l : Lexeme}
    (h : literal? o s = some l) : l.source <+: s := by
  cases s with
  | nil => cases h
  | cons c rest =>
    simp only [literal?] at h
    split at h
    · cases h
      obtain ⟨t, ht⟩ := literalBody_isPrefix rest
      generalize literalBody rest = body at ht
      subst ht
      simpa using (List.take_prefix _ _).trans (List.takeWhile_prefix _)
    · cases h

theorem literal?_ne_nil {o : ScanOptions} {s : List Char} {l : Lexeme}
    (h : literal? o s = some l) : l.source ≠ [] := by
  cases s with
  | nil => cases h
  | cons c rest =>
    simp only [literal?] at h
    split at h <;> cases h
    simp

theorem run?_isPrefix {o : ScanOptions} {s : List Char} {l : Lexeme}
    (h : run? o s = some l) : l.source <+: s := by
  simp only [run?] at h
  split at h <;> cases h
  exact List.takeWhile_prefix _

theorem run?_ne_nil {o : ScanOptions} {s : List Char} {l : Lexeme}
    (h : run? o s = some l) : l.source ≠ [] := by
  simp only [run?] at h
  split at h <;> cases h
  assumption

theorem source_of_bracket? {s : List Char} {l : Lexeme} (h : bracket? s = some l) :
    l.source <+: s ∧ l.source ≠ [] := by
  cases s with
  | nil => cases h
  | cons c rest =>
    simp only [bracket?, Option.map_eq_some_iff] at h
    obtain ⟨b, -, rfl⟩ := h
    simp

theorem source_of_single? {s : List Char} {l : Lexeme} (h : single? s = some l) :
    l.source <+: s ∧ l.source ≠ [] := by
  cases s with
  | nil => cases h
  | cons c rest => cases h; simp

/-- A lexeme is a part of the source that is not empty. -/
theorem source_of_first? {o : ScanOptions} {s : List Char} {l : Lexeme}
    (h : first? o s = some l) : l.source <+: s ∧ l.source ≠ [] := by
  simp only [first?, Option.orElse_eq_orElse, Option.orElse_eq_or, Option.or_eq_some_iff] at h
  rcases h with h | ⟨-, h | ⟨-, h | ⟨-, h | ⟨-, h⟩⟩⟩⟩
  · exact ⟨comment?_isPrefix h, comment?_ne_nil h⟩
  · exact ⟨literal?_isPrefix h, literal?_ne_nil h⟩
  · exact source_of_bracket? h
  · exact ⟨run?_isPrefix h, run?_ne_nil h⟩
  · exact source_of_single? h

/-- Some lexeme starts with any character, so lexing only stops at the end. -/
theorem first?_eq_none_iff {o : ScanOptions} {s : List Char} : first? o s = none ↔ s = [] := by
  cases s with
  | nil => simp [first?, comment?, literal?, bracket?, run?, single?]
  | cons c rest => simp [first?, single?]

/-- All lexemes of a source, in order. -/
def all (o : ScanOptions) (s : List Char) : List Lexeme :=
  match _h : first? o s with
  | none => []
  | some l => l :: all o (s.drop l.source.length)
termination_by s.length
decreasing_by
  obtain ⟨hp, hn⟩ := source_of_first? _h
  have := List.length_pos_iff.2 hn
  have := hp.length_le
  simp only [List.length_drop]
  omega

theorem all_of_none {o : ScanOptions} {s : List Char} (h : first? o s = none) : all o s = [] := by
  rw [all]
  split <;> simp_all

theorem all_of_some {o : ScanOptions} {s : List Char} {l : Lexeme} (h : first? o s = some l) :
    all o s = l :: all o (s.drop l.source.length) := by
  rw [all]
  split <;> simp_all

@[simp] theorem all_nil (o : ScanOptions) : all o [] = [] := all_of_none (first?_eq_none_iff.2 rfl)

theorem flatMap_source_all (o : ScanOptions) (s : List Char) : (all o s).flatMap source = s := by
  fun_induction all o s with
  | case1 s h => exact (first?_eq_none_iff.1 h).symm
  | case2 s l h ih =>
    rw [List.flatMap_cons, ih]
    exact List.prefix_iff_eq_append.1 (source_of_first? h).1

end Lexeme

/-- The tokens of a source with their byte spans. -/
def tokens (o : ScanOptions) (source : List Char) : List PlacedToken :=
  Lexeme.place 0 (Lexeme.all o source)

end BracketLint
