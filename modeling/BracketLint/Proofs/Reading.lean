import BracketLint.Lexing

/-! What stands at the head of a source, said without reading it: a relation between a source
and its first lexeme. The lexeme is determined by the relation and is the one that is read. -/

namespace BracketLint

namespace ScanOptions

/-- The characters that start a comment, of which there is at least one. -/
def Marks (o : ScanOptions) (p : List Char) : Prop :=
  p ≠ [] ∧ ∃ m, o.lineComment = some m ∧ m.toList = p

def CommentAt (o : ScanOptions) (s : List Char) : Prop := ∃ p, o.Marks p ∧ p <+: s

def StringAt (o : ScanOptions) (s : List Char) : Prop := o.strings = true ∧ ['"'] <+: s

/-- Brackets, the quote when strings count, and the character that a comment mark starts with. -/
def IsStop (o : ScanOptions) (c : Char) : Prop :=
  (∃ b : Bracket, c = b.toChar) ∨ (o.strings = true ∧ c = '"') ∨ ∃ p, o.Marks p ∧ p.head? = some c

theorem marks_iff {o : ScanOptions} {p : List Char} : o.Marks p ↔ p ≠ [] ∧ o.mark = p := by
  unfold Marks mark
  refine and_congr_right fun hp => ?_
  cases o.lineComment with
  | none =>
    refine ⟨fun ⟨m, hm, _⟩ => (Option.some_ne_none m hm.symm).elim, fun h => ?_⟩
    exact (hp (h.symm.trans String.toList_empty)).elim
  | some m =>
    exact ⟨fun ⟨n, hn, he⟩ => Option.some.inj hn ▸ he, fun h => ⟨m, rfl, h⟩⟩

theorem commentAt_iff {o : ScanOptions} {s : List Char} :
    o.CommentAt s ↔ o.mark ≠ [] ∧ o.mark <+: s := by
  constructor
  · rintro ⟨p, hp, hs⟩
    obtain ⟨hne, rfl⟩ := marks_iff.mp hp
    exact ⟨hne, hs⟩
  · rintro ⟨hne, hs⟩
    exact ⟨o.mark, marks_iff.mpr ⟨hne, rfl⟩, hs⟩

theorem exists_marks_head?_iff {o : ScanOptions} {c : Char} :
    (∃ p, o.Marks p ∧ p.head? = some c) ↔ o.mark.head? = some c := by
  constructor
  · rintro ⟨p, hp, h⟩
    rwa [(marks_iff.mp hp).2]
  · intro h
    exact ⟨o.mark, marks_iff.mpr ⟨fun he => by simp [he] at h, rfl⟩, h⟩

end ScanOptions

/-- Escapes, each with the character it protects, and characters that neither end a string nor
escape. -/
inductive LiteralBody : List Char → Prop where
  | nil : LiteralBody []
  | escape (c : Char) {b : List Char} (h : LiteralBody b) : LiteralBody ('\\' :: c :: b)
  | plain {c : Char} {b : List Char} (hq : c ≠ '"') (he : c ≠ '\\') (hn : c ≠ '\n')
      (h : LiteralBody b) : LiteralBody (c :: b)

/-- No body of a literal at the head of `s` is longer than `b`. -/
structure LongestBody (b s : List Char) : Prop where
  body : LiteralBody b
  head : b <+: s
  longest : ∀ b', LiteralBody b' → b' <+: s → b'.length ≤ b.length

theorem LiteralBody.append {b b' : List Char} (h : LiteralBody b) (h' : LiteralBody b') :
    LiteralBody (b ++ b') := by
  induction h with
  | nil => exact h'
  | escape c _ ih => exact .escape c ih
  | plain hq he hn _ ih => exact .plain hq he hn ih

/-- A longest body stops at the end, at a quote, at a newline, or at a backslash that is last. -/
theorem LongestBody.stops {b tail : List Char} (h : LongestBody b (b ++ tail)) :
    tail = [] ∨ tail = ['\\'] ∨ ∃ c rest, tail = c :: rest ∧ (c = '"' ∨ c = '\n') := by
  have hno {x : List Char} (hx : LiteralBody x) (hp : x <+: tail) : x = [] := by
    have hl := h.longest _ (h.body.append hx) ((List.prefix_append_right_inj b).mpr hp)
    rw [List.length_append] at hl
    exact List.length_eq_zero_iff.mp (by omega)
  cases tail with
  | nil => exact .inl rfl
  | cons c rest =>
    by_cases he : c = '\\'
    · subst he
      cases rest with
      | nil => exact .inr (.inl rfl)
      | cons d rest =>
        have hh := hno (.escape d .nil) ⟨rest, rfl⟩
        cases hh
    · by_cases hc : c = '"' ∨ c = '\n'
      · exact .inr (.inr ⟨c, rest, rfl, hc⟩)
      · simp only [not_or] at hc
        have hh := hno (.plain hc.1 he hc.2 .nil) ⟨rest, rfl⟩
        cases hh

namespace Lexeme

/-- The lexeme at the head of a source. -/
inductive At (o : ScanOptions) : Lexeme → List Char → Prop where
  | comment {p v tail : List Char} (mark : o.Marks p) (line : '\n' ∉ v)
      (ends : ∀ c ∈ tail.head?, c = '\n') : At o ⟨.comment v, p ++ v⟩ (p ++ v ++ tail)
  | terminated {b tail : List Char} (free : ¬ o.CommentAt ('"' :: (b ++ '"' :: tail)))
      (strings : o.strings = true) (body : LongestBody b (b ++ '"' :: tail)) :
      At o ⟨.string true, '"' :: (b ++ ['"'])⟩ ('"' :: (b ++ '"' :: tail))
  | unterminated {b tail : List Char} (free : ¬ o.CommentAt ('"' :: (b ++ tail)))
      (strings : o.strings = true) (body : LongestBody b (b ++ tail))
      (ends : ∀ c ∈ tail.head?, c ≠ '"') : At o ⟨.string false, '"' :: b⟩ ('"' :: (b ++ tail))
  | bracket {b : Bracket} {tail : List Char} (free : ¬ o.CommentAt (b.toChar :: tail)) :
      At o ⟨.bracket b, [b.toChar]⟩ (b.toChar :: tail)
  | run {r tail : List Char} (free : ¬ o.CommentAt (r ++ tail)) (ne : r ≠ [])
      (plain : ∀ c ∈ r, ¬ o.IsStop c) (ends : ∀ c ∈ tail.head?, o.IsStop c) :
      At o ⟨.text r, r⟩ (r ++ tail)
  | single {c : Char} {tail : List Char} (free : ¬ o.CommentAt (c :: tail))
      (noString : ¬ o.StringAt (c :: tail)) (noBracket : ∀ b : Bracket, c ≠ b.toChar)
      (stop : o.IsStop c) : At o ⟨.text [c], [c]⟩ (c :: tail)

variable {o : ScanOptions} {s : List Char} {l : Lexeme}

theorem isStop_iff {c : Char} : isStop o c = true ↔ o.IsStop c := by
  have hmark : (o.mark.head? == some c) = true ↔ ∃ p, o.Marks p ∧ p.head? = some c := by
    rw [beq_iff_eq, ScanOptions.exists_marks_head?_iff]
  have hbracket : (Bracket.ofChar? c).isSome = true ↔ ∃ b : Bracket, c = b.toChar := by
    rw [Option.isSome_iff_exists]
    exact exists_congr fun b => Bracket.ofChar?_eq_some_iff
  simp only [isStop, Bool.or_eq_true, Bool.and_eq_true, beq_iff_eq (a := c), hbracket, hmark,
    ScanOptions.IsStop, or_assoc]

theorem not_commentAt_of_not_stop {c : Char} {rest : List Char} (h : ¬ o.IsStop c) :
    ¬ o.CommentAt (c :: rest) := by
  rintro ⟨p, hp, t, ht⟩
  obtain ⟨x, p, rfl⟩ := List.exists_cons_of_ne_nil hp.1
  have hx : x = c := (List.cons.inj ht).1
  exact h (.inr (.inr ⟨x :: p, hp, by rw [List.head?_cons, hx]⟩))

theorem not_stringAt_of_not_stop {c : Char} {rest : List Char} (h : ¬ o.IsStop c) :
    ¬ o.StringAt (c :: rest) := by
  rintro ⟨hs, hq⟩
  exact h (.inr (.inl ⟨hs, (List.cons_prefix_cons.mp hq).1.symm⟩))

theorem takeWhile_append_of_stop {p : Char → Bool} {v tail : List Char} (hv : ∀ c ∈ v, p c = true)
    (ht : ∀ c ∈ tail.head?, p c = false) : (v ++ tail).takeWhile p = v := by
  rw [List.takeWhile_append_of_pos hv]
  cases tail with
  | nil => simp
  | cons c tail => simp [ht c rfl]

theorem head?_dropWhile_stop {p : Char → Bool} {v : List Char} :
    ∀ c ∈ (v.dropWhile p).head?, p c = false := by
  intro c hc
  have hh := List.head?_dropWhile_not p v
  rw [hc] at hh
  simpa using hh

theorem comment?_eq_none_iff : comment? o s = none ↔ ¬ o.CommentAt s := by
  rw [ScanOptions.commentAt_iff, comment?]
  split
  · rename_i h
    simpa using ⟨h.1, List.isPrefixOf_iff_prefix.mp h.2⟩
  · rename_i h
    simpa using h

theorem comment?_eq_some {p v tail : List Char} (hp : o.Marks p) (hv : '\n' ∉ v)
    (ht : ∀ c ∈ tail.head?, c = '\n') : comment? o (p ++ v ++ tail) = some ⟨.comment v, p ++ v⟩ := by
  obtain ⟨hne, he⟩ := ScanOptions.marks_iff.mp hp
  have hbody : (v ++ tail).takeWhile (· != '\n') = v := by
    apply takeWhile_append_of_stop
    · intro c hc
      have hne' : c ≠ '\n' := fun h => hv (h ▸ hc)
      simpa using hne'
    · intro c hc
      simpa using ht c hc
  have hcond : p ≠ [] ∧ p.isPrefixOf (p ++ (v ++ tail)) = true :=
    ⟨hne, List.isPrefixOf_iff_prefix.mpr (List.prefix_append _ _)⟩
  simp only [comment?, he, List.append_assoc, if_pos hcond, List.drop_left, hbody]

theorem literalBody_body (s : List Char) : LiteralBody (literalBody s) := by
  fun_induction literalBody s with
  | case1 => exact .nil
  | case2 c rest ih => exact .escape c ih
  | case3 c rest _ h => exact .nil
  | case4 c rest _ h ih =>
    simp only [not_or] at h
    exact .plain h.1 h.2.1 h.2.2 ih

theorem prefix_literalBody {b : List Char} (h : LiteralBody b) (hb : b <+: s) : b <+: literalBody s := by
  induction h generalizing s with
  | nil => exact List.nil_prefix
  | escape c _ ih =>
    obtain ⟨t, rfl⟩ := hb
    simp only [List.cons_append, literalBody, List.cons_prefix_cons, true_and]
    exact ih (List.prefix_append _ _)
  | @plain c b hq he hn _ ih =>
    obtain ⟨t, rfl⟩ := hb
    have hc : ¬ (c = '"' ∨ c = '\\' ∨ c = '\n') := by simp [hq, he, hn]
    rw [List.cons_append, literalBody, if_neg hc, List.cons_prefix_cons]
    · exact ⟨rfl, ih (List.prefix_append _ _)⟩
    · intro c' rest' hc' _
      exact he hc'

theorem longestBody_iff {b : List Char} : LongestBody b s ↔ b = literalBody s := by
  constructor
  · intro h
    have hp := prefix_literalBody h.body h.head
    exact hp.eq_of_length_le (h.longest _ (literalBody_body s) (literalBody_isPrefix s))
  · rintro rfl
    exact ⟨literalBody_body s, literalBody_isPrefix s, fun b' hb hp => (prefix_literalBody hb hp).length_le⟩

theorem literal?_eq_none_iff : literal? o s = none ↔ ¬ o.StringAt s := by
  cases s with
  | nil => simp [literal?, ScanOptions.StringAt]
  | cons c rest =>
    simp only [literal?, ScanOptions.StringAt, List.cons_prefix_cons, List.nil_prefix, and_true,
      eq_comm (a := '"')]
    split <;> simp [*]

theorem literal?_terminated {b tail : List Char} (hs : o.strings = true)
    (hb : LongestBody b (b ++ '"' :: tail)) :
    literal? o ('"' :: (b ++ '"' :: tail)) = some ⟨.string true, '"' :: (b ++ ['"'])⟩ := by
  have hbody := longestBody_iff.mp hb
  simp only [literal?, hs, and_self, if_true, ← hbody, List.drop_left]
  simp

theorem literal?_unterminated {b tail : List Char} (hs : o.strings = true)
    (hb : LongestBody b (b ++ tail)) (ht : ∀ c ∈ tail.head?, c ≠ '"') :
    literal? o ('"' :: (b ++ tail)) = some ⟨.string false, '"' :: b⟩ := by
  have hbody := longestBody_iff.mp hb
  have hclose : tail.takeWhile (· == '"') = [] := by
    cases tail with
    | nil => rfl
    | cons c tail => simp [ht c rfl]
  simp only [literal?, hs, and_self, if_true, ← hbody, List.drop_left, hclose]
  simp

theorem bracket?_eq_none_iff : bracket? s = none ↔ ∀ b : Bracket, ∀ c ∈ s.head?, c ≠ b.toChar := by
  cases s with
  | nil => simp [bracket?]
  | cons c rest =>
    simp only [bracket?, Option.map_eq_none_iff, List.head?_cons, Option.mem_def, Option.some.injEq,
      forall_eq']
    rw [Option.eq_none_iff_forall_ne_some]
    exact forall_congr' fun b => not_congr Bracket.ofChar?_eq_some_iff

theorem At.first? (h : At o l s) : first? o s = some l := by
  have hfirst (hfree : ¬ o.CommentAt s) :
      Lexeme.first? o s = (literal? o s <|> bracket? s <|> run? o s <|> single? s) := by
    rw [Lexeme.first?, comment?_eq_none_iff.mpr hfree]
    rfl
  cases h with
  | comment mark line ends =>
    rw [Lexeme.first?, comment?_eq_some mark line ends]
    rfl
  | terminated free strings body =>
    rw [hfirst free, literal?_terminated strings body]
    rfl
  | unterminated free strings body ends =>
    rw [hfirst free, literal?_unterminated strings body ends]
    rfl
  | @bracket b tail free =>
    have hno : ¬ o.StringAt (b.toChar :: tail) := by
      rintro ⟨-, h⟩
      exact b.toChar_ne_quote (List.cons_prefix_cons.mp h).1.symm
    rw [hfirst free, literal?_eq_none_iff.mpr hno]
    simp [bracket?]
  | @run r tail free ne plain ends =>
    obtain ⟨c, r, rfl⟩ := List.exists_cons_of_ne_nil ne
    have hc := plain c List.mem_cons_self
    have hno : ¬ o.StringAt (c :: r ++ tail) := not_stringAt_of_not_stop hc
    have hnb : bracket? (c :: r ++ tail) = none := by
      refine bracket?_eq_none_iff.mpr fun b c' hc' he => ?_
      cases hc'
      exact hc (.inl ⟨b, he⟩)
    have hrun : (c :: r ++ tail).takeWhile (!isStop o ·) = c :: r := by
      refine takeWhile_append_of_stop (fun x hx => ?_) fun x hx => ?_
      · have hh := (not_congr isStop_iff).mpr (plain x hx)
        simpa using hh
      · have hh := isStop_iff.mpr (ends x hx)
        simpa using hh
    rw [hfirst free, literal?_eq_none_iff.mpr hno, hnb]
    simp only [run?, hrun]
    rfl
  | @single c tail free noString noBracket stop =>
    have hnb : bracket? (c :: tail) = none := by
      refine bracket?_eq_none_iff.mpr fun b c' hc' he => ?_
      cases hc'
      exact noBracket b he
    have hnr : run? o (c :: tail) = none := by
      simp only [run?, List.takeWhile_cons, isStop_iff.mpr stop]
      rfl
    rw [hfirst free, literal?_eq_none_iff.mpr noString, hnb, hnr]
    rfl

theorem exists_at_of_comment {p t : List Char} (hp : o.Marks p) : ∃ l, At o l (p ++ t) := by
  have hsplit : p ++ t = p ++ t.takeWhile (· != '\n') ++ t.dropWhile (· != '\n') := by
    rw [List.append_assoc, List.takeWhile_append_dropWhile]
  rw [hsplit]
  refine ⟨_, .comment hp (fun hm => ?_) fun c hc => ?_⟩
  · have hh := List.all_eq_true.mp (List.all_takeWhile (p := (· != '\n')) (l := t)) '\n' hm
    simp at hh
  · simpa using head?_dropWhile_stop (p := (· != '\n')) c hc

theorem exists_at_of_string {rest : List Char} (free : ¬ o.CommentAt ('"' :: rest))
    (hs : o.strings = true) : ∃ l, At o l ('"' :: rest) := by
  obtain ⟨tail, ht⟩ := literalBody_isPrefix rest
  have hb : LongestBody (literalBody rest) (literalBody rest ++ tail) := longestBody_iff.mpr (by rw [ht])
  rw [← ht] at free ⊢
  cases tail with
  | nil => exact ⟨_, .unterminated free hs hb (by simp)⟩
  | cons c tail =>
    by_cases hc : c = '"'
    · subst hc
      exact ⟨_, .terminated free hs hb⟩
    · exact ⟨_, .unterminated free hs hb (by simpa using hc)⟩

/-- Any text starts with a run, which may be empty, that goes up to the next stop character. -/
theorem exists_run (o : ScanOptions) (s : List Char) : ∃ r tail, s = r ++ tail ∧
    (∀ c ∈ r, ¬ o.IsStop c) ∧ ∀ c ∈ tail.head?, o.IsStop c := by
  refine ⟨s.takeWhile (!isStop o ·), s.dropWhile (!isStop o ·),
    List.takeWhile_append_dropWhile.symm, fun c hc => ?_, fun c hc => ?_⟩
  · have hh := List.all_eq_true.mp (List.all_takeWhile (p := (!isStop o ·)) (l := s)) c hc
    rw [← isStop_iff]
    simpa using hh
  · have hh := head?_dropWhile_stop (p := (!isStop o ·)) c hc
    rw [← isStop_iff]
    simpa using hh

theorem exists_at_of_text {c : Char} {rest : List Char} (free : ¬ o.CommentAt (c :: rest))
    (hno : ¬ o.StringAt (c :: rest)) (hnb : ∀ b : Bracket, c ≠ b.toChar) : ∃ l, At o l (c :: rest) := by
  by_cases hc : o.IsStop c
  · exact ⟨_, .single free hno hnb hc⟩
  · obtain ⟨r, tail, rfl, hplain, hends⟩ := exists_run o rest
    rw [← List.cons_append] at free ⊢
    refine ⟨_, .run free (List.cons_ne_nil _ _) (fun x hx => ?_) hends⟩
    rcases List.mem_cons.mp hx with rfl | hx
    · exact hc
    · exact hplain x hx

theorem exists_at (o : ScanOptions) (hne : s ≠ []) : ∃ l, At o l s := by
  obtain ⟨c, rest, rfl⟩ := List.exists_cons_of_ne_nil hne
  by_cases hcomment : o.CommentAt (c :: rest)
  · obtain ⟨p, hp, t, ht⟩ := hcomment
    rw [← ht]
    exact exists_at_of_comment hp
  · by_cases hstring : o.StringAt (c :: rest)
    · obtain ⟨hs, hq⟩ := hstring
      obtain rfl := (List.cons_prefix_cons.mp hq).1
      exact exists_at_of_string hcomment hs
    · by_cases hb : ∃ b : Bracket, c = b.toChar
      · obtain ⟨b, rfl⟩ := hb
        exact ⟨_, .bracket hcomment⟩
      · exact exists_at_of_text hcomment hstring fun b he => hb ⟨b, he⟩

/-- What is read is what stands there. -/
theorem first?_eq_some_iff : first? o s = some l ↔ At o l s := by
  refine ⟨fun h => ?_, At.first?⟩
  have hne : s ≠ [] := by
    rintro rfl
    rw [first?_eq_none_iff.mpr rfl] at h
    cases h
  obtain ⟨l', hl'⟩ := exists_at o hne
  have he := hl'.first?.symm.trans h
  exact Option.some.inj he ▸ hl'

/-- A run of text that goes up to a stop character, or to the end, is one lexeme. -/
theorem all_run {r tail : List Char} (free : ¬ o.CommentAt (r ++ tail)) (ne : r ≠ [])
    (plain : ∀ c ∈ r, ¬ o.IsStop c) (ends : ∀ c ∈ tail.head?, o.IsStop c) :
    all o (r ++ tail) = ⟨.text r, r⟩ :: all o tail := by
  rw [all_of_some (At.run free ne plain ends).first?, List.drop_left]

end Lexeme

end BracketLint
