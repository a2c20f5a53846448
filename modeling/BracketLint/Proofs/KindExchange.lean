import Mathlib.Logic.Equiv.Defs
import BracketLint.Proofs.Passage
import BracketLint.Proofs.Encoding
import BracketLint.Proofs.PairedScan
import BracketLint.Proofs.Reading

/-! The three kinds of brackets are treated alike. If the kinds are exchanged in a source and in
what starts a comment, they are exchanged in its tokens and in the messages about it, and nothing
else changes. -/

namespace BracketLint

open Pairing Utf8

/-- The character for one of another kind, opening for opening and closing for closing. -/
def exchange (p : Equiv.Perm BracketKind) : Char → Char
  | '(' => (p .paren).opening
  | ')' => (p .paren).closing
  | '[' => (p .bracket).opening
  | ']' => (p .bracket).closing
  | '{' => (p .brace).opening
  | '}' => (p .brace).closing
  | c => c

def ScanOptions.exchanged (p : Equiv.Perm BracketKind) (o : ScanOptions) : ScanOptions :=
  { o with lineComment := o.lineComment.map fun m => String.ofList (m.toList.map (exchange p)) }

def Bracket.exchanged (p : Equiv.Perm BracketKind) : Bracket → Bracket
  | opening d => opening (p d)
  | closing d => closing (p d)

def Token.exchanged (p : Equiv.Perm BracketKind) : Token → Token
  | bracket b => bracket (b.exchanged p)
  | string terminated => string terminated
  | comment body => comment (body.map (exchange p))
  | text run => text (run.map (exchange p))

def Lexeme.exchanged (p : Equiv.Perm BracketKind) (l : Lexeme) : Lexeme :=
  ⟨l.token.exchanged p, l.source.map (exchange p)⟩

def PlacedToken.exchanged (p : Equiv.Perm BracketKind) (t : PlacedToken) : PlacedToken :=
  ⟨t.token.exchanged p, t.start, t.stop⟩

def Opener.exchanged (p : Equiv.Perm BracketKind) (o : Opener) : Opener := ⟨p o.kind, o.offset⟩

def Problem.exchanged (p : Equiv.Perm BracketKind) : Problem → Problem
  | unexpectedClosing d => unexpectedClosing (p d)
  | mismatchedClosing d e n => mismatchedClosing (p d) (p e) n
  | unterminatedString => unterminatedString
  | unclosed d => unclosed (p d)

def Finding.exchanged (p : Equiv.Perm BracketKind) (f : Finding) : Finding :=
  ⟨f.problem.exchanged p, f.offset⟩

/-- The record with its message exchanged. -/
def Record.exchanged (p : Equiv.Perm BracketKind) (r : Record) : Record :=
  ⟨r.start, r.stop, encode (r.text.map (exchange p))⟩

variable {p : Equiv.Perm BracketKind} {c d : Char}

section Characters

theorem exchange_opening (p : Equiv.Perm BracketKind) (k : BracketKind) :
    exchange p k.opening = (p k).opening := by
  cases k <;> rfl

theorem exchange_closing (p : Equiv.Perm BracketKind) (k : BracketKind) :
    exchange p k.closing = (p k).closing := by
  cases k <;> rfl

theorem exchange_toChar (p : Equiv.Perm BracketKind) (b : Bracket) :
    exchange p b.toChar = (b.exchanged p).toChar := by
  cases b with
  | opening k => rw [Bracket.toChar, exchange_opening, Bracket.exchanged, Bracket.toChar]
  | closing k => rw [Bracket.toChar, exchange_closing, Bracket.exchanged, Bracket.toChar]

theorem exchange_of_not_bracket (h : ∀ b : Bracket, c ≠ b.toChar) : exchange p c = c := by
  unfold exchange
  split
  · exact absurd rfl (h (.opening .paren))
  · exact absurd rfl (h (.closing .paren))
  · exact absurd rfl (h (.opening .bracket))
  · exact absurd rfl (h (.closing .bracket))
  · exact absurd rfl (h (.opening .brace))
  · exact absurd rfl (h (.closing .brace))
  · rfl

theorem exchange_symm_exchange (p : Equiv.Perm BracketKind) (c : Char) :
    exchange p.symm (exchange p c) = c := by
  by_cases hc : ∃ b : Bracket, c = b.toChar
  · obtain ⟨b, rfl⟩ := hc
    rw [exchange_toChar, exchange_toChar]
    rcases b with k | k <;> simp [Bracket.exchanged]
  · simp only [not_exists] at hc
    rw [exchange_of_not_bracket hc, exchange_of_not_bracket hc]

theorem exchange_injective (p : Equiv.Perm BracketKind) : Function.Injective (exchange p) :=
  Function.LeftInverse.injective (exchange_symm_exchange p)

theorem exchange_eq_iff (h : ∀ b : Bracket, d ≠ b.toChar) : exchange p c = d ↔ c = d := by
  have hd : exchange p d = d := exchange_of_not_bracket h
  constructor
  · exact fun he => exchange_injective p (he.trans hd.symm)
  · rintro rfl
    exact hd

theorem exchange_eq_quote_iff : exchange p c = '"' ↔ c = '"' :=
  exchange_eq_iff fun b => b.toChar_ne_quote.symm

theorem exchange_eq_newline_iff : exchange p c = '\n' ↔ c = '\n' :=
  exchange_eq_iff fun b => b.toChar_ne_newline.symm

theorem exchange_eq_backslash_iff : exchange p c = '\\' ↔ c = '\\' := by
  refine exchange_eq_iff fun b => ?_
  rcases b with k | k <;> cases k <;> decide

theorem exists_exchange_eq_toChar_iff :
    (∃ b : Bracket, exchange p c = b.toChar) ↔ ∃ b : Bracket, c = b.toChar := by
  constructor
  · rintro ⟨b, hb⟩
    by_contra hno
    have hc : exchange p c = c := exchange_of_not_bracket fun b hb => hno ⟨b, hb⟩
    exact hno ⟨b, hc.symm.trans hb⟩
  · rintro ⟨b, rfl⟩
    exact ⟨b.exchanged p, exchange_toChar p b⟩

theorem utf8Size_exchange (p : Equiv.Perm BracketKind) (c : Char) :
    (exchange p c).utf8Size = c.utf8Size := by
  have hone : ∀ b : Bracket, b.toChar.utf8Size = 1 := by
    intro b
    rcases b with k | k <;> cases k <;> rfl
  by_cases hc : ∃ b : Bracket, c = b.toChar
  · obtain ⟨b, rfl⟩ := hc
    rw [exchange_toChar, hone, hone]
  · simp only [not_exists] at hc
    rw [exchange_of_not_bracket hc]

theorem byteLength_map_exchange (p : Equiv.Perm BracketKind) (s : List Char) :
    byteLength (s.map (exchange p)) = byteLength s := by
  induction s with
  | nil => rfl
  | cons c s ih => rw [List.map_cons, byteLength_cons, byteLength_cons, utf8Size_exchange, ih]

end Characters

namespace ScanOptions

variable {o : ScanOptions} {s : List Char}

theorem mark_exchanged (p : Equiv.Perm BracketKind) (o : ScanOptions) :
    (o.exchanged p).mark = o.mark.map (exchange p) := by
  unfold mark exchanged
  cases o.lineComment with
  | none => rfl
  | some m => simp

theorem marks_exchanged {q : List Char} (h : o.Marks q) :
    (o.exchanged p).Marks (q.map (exchange p)) := by
  obtain ⟨hne, rfl⟩ := marks_iff.mp h
  exact marks_iff.mpr ⟨by simpa using hne, mark_exchanged p o⟩

theorem commentAt_exchanged_iff :
    (o.exchanged p).CommentAt (s.map (exchange p)) ↔ o.CommentAt s := by
  rw [commentAt_iff, commentAt_iff, mark_exchanged, ne_eq, List.map_eq_nil_iff,
    List.prefix_map_iff_of_injective (exchange_injective p)]

theorem stringAt_exchanged_iff :
    (o.exchanged p).StringAt (s.map (exchange p)) ↔ o.StringAt s := by
  cases s with
  | nil => rfl
  | cons c s =>
    simp only [StringAt, exchanged, List.map_cons, List.cons_prefix_cons, List.nil_prefix,
      and_true, eq_comm (a := '"'), exchange_eq_quote_iff]

theorem isStop_exchanged_iff : (o.exchanged p).IsStop (exchange p c) ↔ o.IsStop c := by
  have hmark : (∃ q, (o.exchanged p).Marks q ∧ q.head? = some (exchange p c)) ↔
      ∃ q, o.Marks q ∧ q.head? = some c := by
    rw [exists_marks_head?_iff, exists_marks_head?_iff, mark_exchanged, List.head?_map,
      Option.map_eq_some_iff]
    simp [(exchange_injective p).eq_iff]
  rw [IsStop, IsStop, exists_exchange_eq_toChar_iff, exchange_eq_quote_iff, hmark]
  rfl

end ScanOptions

theorem LiteralBody.exchanged {b : List Char} (h : LiteralBody b) :
    LiteralBody (b.map (exchange p)) := by
  induction h with
  | nil => exact .nil
  | escape c _ ih =>
    rw [List.map_cons, List.map_cons, exchange_eq_backslash_iff.mpr rfl]
    exact .escape _ ih
  | plain hq he hn _ ih =>
    exact .plain (mt exchange_eq_quote_iff.mp hq) (mt exchange_eq_backslash_iff.mp he)
      (mt exchange_eq_newline_iff.mp hn) ih

theorem LongestBody.exchanged {b s : List Char} (h : LongestBody b s) :
    LongestBody (b.map (exchange p)) (s.map (exchange p)) := by
  refine ⟨h.body.exchanged, h.head.map _, fun b' hb' hhead => ?_⟩
  -- exchanged back, the other body is one of the source
  obtain ⟨x, hx, rfl⟩ := List.prefix_map_iff.mp hhead
  have hback : (x.map (exchange p)).map (exchange p.symm) = x := by
    simp [Function.comp_def, exchange_symm_exchange]
  rw [List.length_map, List.length_map]
  exact h.longest x (hback ▸ hb'.exchanged) hx

theorem forall_head?_map_exchange {P Q : Char → Prop} {tail : List Char}
    (h : ∀ c, P (exchange p c) ↔ Q c) :
    (∀ c ∈ (tail.map (exchange p)).head?, P c) ↔ ∀ c ∈ tail.head?, Q c := by
  cases tail with
  | nil => simp
  | cons c tail => simpa using h c

namespace Lexeme

variable {o : ScanOptions} {s : List Char} {l : Lexeme}

theorem At.exchanged (h : At o l s) :
    At (o.exchanged p) (l.exchanged p) (s.map (exchange p)) := by
  have free := (not_congr (ScanOptions.commentAt_exchanged_iff (p := p) (o := o) (s := s))).mpr
  have hquote : exchange p '"' = '"' := exchange_eq_quote_iff.mpr rfl
  cases h with
  | @comment q v tail mark line ends =>
    have hline : '\n' ∉ v.map (exchange p) := by
      simpa [exchange_eq_newline_iff] using line
    have hends : ∀ c ∈ (tail.map (exchange p)).head?, c = '\n' :=
      (forall_head?_map_exchange fun c => exchange_eq_newline_iff).mpr ends
    have hat := At.comment (ScanOptions.marks_exchanged (p := p) mark) hline hends
    simpa only [Lexeme.exchanged, Token.exchanged, List.map_append] using hat
  | @terminated b tail free' strings body =>
    have hfree := free free'
    have hbody := body.exchanged (p := p)
    simp only [Lexeme.exchanged, Token.exchanged, List.map_append, List.map_cons, List.map_nil,
      hquote] at hfree hbody ⊢
    exact .terminated hfree strings hbody
  | @unterminated b tail free' strings body ends =>
    have hfree := free free'
    have hbody := body.exchanged (p := p)
    have hends : ∀ c ∈ (tail.map (exchange p)).head?, c ≠ '"' :=
      (forall_head?_map_exchange fun c => not_congr exchange_eq_quote_iff).mpr ends
    simp only [Lexeme.exchanged, Token.exchanged, List.map_append, List.map_cons, hquote]
      at hfree hbody ⊢
    exact .unterminated hfree strings hbody hends
  | @bracket b tail free' =>
    have hfree := free free'
    simp only [Lexeme.exchanged, Token.exchanged, List.map_cons, List.map_nil, exchange_toChar]
      at hfree ⊢
    exact .bracket hfree
  | @run r tail free' ne plain ends =>
    have hfree := free free'
    have hplain : ∀ c ∈ r.map (exchange p), ¬ (o.exchanged p).IsStop c := by
      intro c hc
      obtain ⟨d, hd, rfl⟩ := List.mem_map.mp hc
      exact mt ScanOptions.isStop_exchanged_iff.mp (plain d hd)
    have hends := (forall_head?_map_exchange fun c =>
      ScanOptions.isStop_exchanged_iff (p := p)).mpr ends
    simp only [Lexeme.exchanged, Token.exchanged, List.map_append] at hfree ⊢
    exact .run hfree (by simpa using ne) hplain hends
  | @single c tail free' noString noBracket stop =>
    have hnot : ∀ b : Bracket, exchange p c ≠ b.toChar := fun b hb => by
      obtain ⟨b', hb'⟩ := exists_exchange_eq_toChar_iff.mp ⟨b, hb⟩
      exact noBracket b' hb'
    exact .single (free free') (mt (ScanOptions.stringAt_exchanged_iff (s := c :: tail)).mp noString) hnot
      (ScanOptions.isStop_exchanged_iff.mpr stop)

theorem all_exchanged (p : Equiv.Perm BracketKind) (o : ScanOptions) (s : List Char) :
    all (o.exchanged p) (s.map (exchange p)) = (all o s).map (Lexeme.exchanged p) := by
  fun_induction all o s with
  | case1 s h =>
    obtain rfl := first?_eq_none_iff.mp h
    rw [List.map_nil, all_nil, List.map_nil]
  | case2 s l h ih =>
    have hfirst := (first?_eq_some_iff.mp h).exchanged (p := p).first?
    have hrest : (s.map (exchange p)).drop (l.exchanged p).source.length =
        (s.drop l.source.length).map (exchange p) := by
      rw [Lexeme.exchanged, List.length_map, List.map_drop]
    rw [all_of_some hfirst, hrest, ih, List.map_cons]

theorem place_exchanged (p : Equiv.Perm BracketKind) (n : Nat) (ls : List Lexeme) :
    place n (ls.map (Lexeme.exchanged p)) = (place n ls).map (PlacedToken.exchanged p) := by
  induction ls generalizing n with
  | nil => rfl
  | cons l ls ih =>
    rw [List.map_cons, place_cons, place_cons, List.map_cons, ← ih, Lexeme.exchanged,
      byteLength_map_exchange]
    rfl

end Lexeme

theorem tokens_exchanged (p : Equiv.Perm BracketKind) (o : ScanOptions) (s : List Char) :
    tokens (o.exchanged p) (s.map (exchange p)) = (tokens o s).map (PlacedToken.exchanged p) := by
  rw [tokens, Lexeme.all_exchanged, Lexeme.place_exchanged, tokens]

namespace Scan

theorem close_exchanged (p : Equiv.Perm BracketKind) (opened : List Opener) (d : BracketKind)
    (n : Nat) : close (opened.map (Opener.exchanged p)) (p d) n =
      ((close opened d n).1.map (Opener.exchanged p),
        (close opened d n).2.map (Finding.exchanged p)) := by
  cases opened with
  | nil => rfl
  | cons o opened =>
    rw [List.map_cons]
    by_cases hk : o.kind = d
    · simp [close, Opener.exchanged, hk]
    · simp [close, Opener.exchanged, hk, Finding.exchanged, Problem.exchanged]

theorem step_exchanged (p : Equiv.Perm BracketKind) (opened : List Opener) (t : PlacedToken) :
    step (opened.map (Opener.exchanged p)) (t.exchanged p) =
      ((step opened t).1.map (Opener.exchanged p),
        (step opened t).2.map (Finding.exchanged p)) := by
  obtain ⟨token, start, stop⟩ := t
  cases token with
  | bracket b =>
    cases b with
    | opening d => rfl
    | closing d => exact close_exchanged p opened d start
  | string terminated => cases terminated <;> rfl
  | comment body => rfl
  | text run => rfl

end Scan

theorem map_exchange_of_words {w : List Char} (h : w.all fun c => (Bracket.ofChar? c).isNone) :
    w.map (exchange p) = w := by
  have hsame : ∀ c ∈ w, exchange p c = id c := by
    intro c hc
    refine exchange_of_not_bracket fun b hb => ?_
    have hnone := List.all_eq_true.mp h c hc
    rw [hb, Bracket.ofChar?_toChar] at hnone
    cases hnone
  rw [List.map_congr_left hsame, List.map_id]

theorem map_exchange_quoted (p : Equiv.Perm BracketKind) (c : Char) :
    (quoted c).map (exchange p) = quoted (exchange p c) := rfl

theorem Problem.message_exchanged (p : Equiv.Perm BracketKind) (q : Problem) :
    (q.exchanged p).message = q.message.map (exchange p) := by
  cases q with
  | unexpectedClosing d =>
    rw [exchanged, message_unexpectedClosing, message_unexpectedClosing, List.map_append,
      map_exchange_quoted, exchange_closing, map_exchange_of_words (by decide)]
  | mismatchedClosing d e n =>
    rw [exchanged, message_mismatchedClosing, message_mismatchedClosing, List.map_append,
      List.map_append, List.map_append, map_exchange_quoted, map_exchange_quoted, exchange_closing,
      exchange_closing, map_exchange_of_words (by decide), map_exchange_of_words (by decide)]
  | unterminatedString =>
    exact (map_exchange_of_words (w := unterminatedString.message) (by decide)).symm
  | unclosed d =>
    rw [exchanged, message_unclosed, message_unclosed, List.map_append, map_exchange_quoted,
      exchange_opening, map_exchange_of_words (by decide)]

theorem Finding.record_exchanged (p : Equiv.Perm BracketKind) (f : Finding) :
    (f.exchanged p).record = f.record.exchanged p := by
  have htext : f.record.text = f.problem.message := by
    rw [Record.text, record, Record.point, message, lossy_encode]
  rw [Record.exchanged, htext, ← Problem.message_exchanged]
  rfl

/-- When the kinds of brackets are exchanged in a source and in what starts a comment, the tokens
are the same with their kinds exchanged, and so are the records: they stand where they stood, with
their messages exchanged. -/
theorem scanned_exchanged (p : Equiv.Perm BracketKind) (o : ScanOptions) (s : List Char) :
    tokens (o.exchanged p) (s.map (exchange p)) = (tokens o s).map (PlacedToken.exchanged p) ∧
    scanned (o.exchanged p) (s.map (exchange p)) = (scanned o s).map (Record.exchanged p) := by
  refine ⟨tokens_exchanged p o s, ?_⟩
  have hfindings := Scan.findings_map (Scan.step_exchanged p) (fun _ => rfl) [] (tokens o s)
  rw [scanned_eq, scanned_eq, scan, tokens_exchanged, ← List.map_nil, hfindings, List.map_map,
    List.map_map]
  exact List.map_congr_left fun f _ => f.record_exchanged p

end BracketLint
