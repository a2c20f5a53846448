import BracketLint.Proofs.LiteralEnd
import BracketLint.Proofs.Granted
import BracketLint.Proofs.Passage

/-! The bodies of strings and comments are opaque. Other text of as many bytes may stand in their
place, and the tokens stay where they are and what they are, and a scan does what it did. -/

namespace BracketLint

open Utf8

/-- Text that may stand in the place of a lexeme: its own, or that with another body. -/
inductive MayCover (o : ScanOptions) : Lexeme → List Char → Prop where
  | same (l : Lexeme) : MayCover o l l.source
  | terminated (b b' : List Char) (plain : ∀ c ∈ b', c ≠ '"' ∧ c ≠ '\\' ∧ c ≠ '\n')
      (bytes : byteLength b' = byteLength b) :
      MayCover o ⟨.string true, '"' :: (b ++ ['"'])⟩ ('"' :: (b' ++ ['"']))
  | unterminated (b b' : List Char) (plain : ∀ c ∈ b', c ≠ '"' ∧ c ≠ '\\' ∧ c ≠ '\n')
      (bytes : byteLength b' = byteLength b) :
      MayCover o ⟨.string false, '"' :: b⟩ ('"' :: b')
  | comment (p v v' : List Char) (mark : o.Marks p) (line : '\n' ∉ v')
      (bytes : byteLength v' = byteLength v) : MayCover o ⟨.comment v, p ++ v⟩ (p ++ v')

/-- The second source is the first with other text in the place of any of its lexemes. -/
def Overwritten (o : ScanOptions) (s s' : List Char) : Prop :=
  ∃ pieces, List.Forall₂ (MayCover o) (Lexeme.all o s) pieces ∧ s' = pieces.flatten

/-- No comment starts with a quote in it where quotes start strings. -/
def ScanOptions.MarksWithoutQuote (o : ScanOptions) : Prop :=
  o.strings = false ∨ ∀ m, o.lineComment = some m → '"' ∉ m.toList

/-- The token but for the words of a comment. -/
def Token.outline : Token → Token
  | comment _ => comment []
  | bracket b => bracket b
  | string terminated => string terminated
  | text run => text run

def PlacedToken.outline (t : PlacedToken) : PlacedToken := ⟨t.token.outline, t.start, t.stop⟩

/-- Sources that no lexeme before them tells apart: one that starts a comment mark may go on to its
end in the second only where it does in the first. -/
structure AlikeAhead (o : ScanOptions) (s s' : List Char) : Prop where
  head : s'.head? = s.head?
  bytes : byteLength s' = byteLength s
  mark : ∀ q, q <:+ o.mark → q.length < o.mark.length → q <+: s' → q <+: s

theorem literalBody_of_plain {b : List Char} (h : ∀ c ∈ b, c ≠ '"' ∧ c ≠ '\\' ∧ c ≠ '\n') :
    LiteralBody b := by
  induction b with
  | nil => exact .nil
  | cons c b ih =>
    obtain ⟨hq, he, hn⟩ := h c List.mem_cons_self
    exact .plain hq he hn (ih fun d hd => h d (List.mem_cons_of_mem c hd))

/-- Where a string stops is seen from the next character and how much is left. -/
theorem LiteralEnd.congr {s s' close : List Char} {terminated : Bool}
    (h : LiteralEnd s terminated close) (hhead : s'.head? = s.head?)
    (hbytes : byteLength s' = byteLength s) : LiteralEnd s' terminated close := by
  cases h with
  | quote rest =>
    obtain ⟨rest', rfl⟩ := List.head?_eq_some_iff.mp hhead
    exact .quote rest'
  | newline rest =>
    obtain ⟨rest', rfl⟩ := List.head?_eq_some_iff.mp hhead
    exact .newline rest'
  | exhausted =>
    obtain rfl := List.head?_eq_none_iff.mp hhead
    exact .exhausted
  | backslash =>
    obtain ⟨rest', rfl⟩ := List.head?_eq_some_iff.mp hhead
    have hrest : rest' = [] := by
      by_contra hne
      have hpos := byteLength_pos hne
      rw [byteLength_cons, byteLength_cons, byteLength_nil] at hbytes
      omega
    rw [hrest]
    exact .backslash

namespace MayCover

variable {o : ScanOptions} {l : Lexeme} {piece : List Char}

theorem byteLength_eq (h : MayCover o l piece) : byteLength piece = byteLength l.source := by
  cases h with
  | same => rfl
  | terminated b b' plain bytes => simp [bytes]
  | unterminated b b' plain bytes => simp [bytes]
  | comment p v v' mark line bytes => simp [bytes]

theorem head?_eq (h : MayCover o l piece) : piece.head? = l.source.head? := by
  cases h with
  | same => rfl
  | terminated b b' plain bytes => rfl
  | unterminated b b' plain bytes => rfl
  | comment p v v' mark line bytes =>
    obtain ⟨c, p, rfl⟩ := List.exists_cons_of_ne_nil mark.1
    rfl

end MayCover

namespace Lexeme

variable {o : ScanOptions} {l : Lexeme} {s s' rest rest' piece : List Char}

theorem At.strings_of_string {terminated : Bool} (h : At o l s) (ht : l.token = .string terminated) :
    o.strings = true := by
  cases h with
  | terminated free strings body => exact strings
  | unterminated free strings body ends => exact strings
  | comment mark line ends => cases ht
  | bracket free => cases ht
  | run free ne plain ends => cases ht
  | single free noString noBracket stop => cases ht

theorem At.literalEnd_rest (h : At o l (l.source ++ rest)) (ht : l.token = .string false) :
    LiteralEnd rest false [] := by
  obtain ⟨b, tail, close, hs, -, hend, hl⟩ := h.literalEnd ht
  obtain rfl : close = [] := by cases hend <;> rfl
  rw [hl, List.append_nil, List.cons_append] at hs
  obtain rfl : rest = tail := List.append_cancel_left (List.cons.inj hs).2
  exact hend

theorem At.ends_of_comment {v : List Char} (h : At o l s) (hs : s = l.source ++ rest)
    (ht : l.token = .comment v) : ∀ c ∈ rest.head?, c = '\n' := by
  cases h with
  | comment mark line ends =>
    rw [List.append_cancel_left hs] at ends
    exact ends
  | terminated free strings body => cases ht
  | unterminated free strings body ends => cases ht
  | bracket free => cases ht
  | run free ne plain ends => cases ht
  | single free noString noBracket stop => cases ht

end Lexeme

section Ahead

variable {o : ScanOptions} {l : Lexeme} {s s' rest rest' piece : List Char}

theorem ScanOptions.MarksWithoutQuote.quote_not_mem (h : o.MarksWithoutQuote)
    (hs : o.strings = true) : '"' ∉ o.mark := by
  rcases h with h | h
  · rw [hs] at h
    cases h
  · rw [ScanOptions.mark]
    cases hm : o.lineComment with
    | none => simp
    | some m => exact h m hm

theorem ScanOptions.MarksWithoutQuote.not_commentAt_quote (h : o.MarksWithoutQuote)
    (hs : o.strings = true) : ¬ o.CommentAt ('"' :: rest) := by
  intro hat
  obtain ⟨hne, hstarts⟩ := ScanOptions.commentAt_iff.mp hat
  have hno := h.quote_not_mem hs
  obtain ⟨c, mark, hmark⟩ := List.exists_cons_of_ne_nil hne
  rw [hmark] at hstarts hno
  exact hno (List.mem_cons.mpr (.inl (List.cons_prefix_cons.mp hstarts).1.symm))

theorem AlikeAhead.not_commentAt (h : AlikeAhead o rest rest') {x : List Char} (hx : x ≠ [])
    (hfree : ¬ o.CommentAt (x ++ rest)) : ¬ o.CommentAt (x ++ rest') := by
  intro hat
  obtain ⟨hne, hstarts⟩ := ScanOptions.commentAt_iff.mp hat
  refine hfree (ScanOptions.commentAt_iff.mpr ⟨hne, ?_⟩)
  rcases List.prefix_or_prefix_of_prefix hstarts (List.prefix_append x rest') with hin | ⟨q, hq⟩
  · exact hin.trans (List.prefix_append x rest)
  · -- the mark would start in `x` and go on after it
    rw [← hq, List.prefix_append_right_inj] at hstarts ⊢
    have hpos := List.length_pos_iff.mpr hx
    refine h.mark q ⟨x, hq⟩ ?_ hstarts
    rw [← hq, List.length_append]
    omega

namespace Lexeme

theorem at_terminated {b : List Char} (hm : o.MarksWithoutQuote) (hs : o.strings = true)
    (hb : LiteralBody b) :
    At o ⟨.string true, '"' :: (b ++ ['"'])⟩ ('"' :: (b ++ ['"']) ++ rest) := by
  rw [List.cons_append, List.append_assoc]
  exact .terminated (hm.not_commentAt_quote hs) hs (hb.longest (.quote rest))

theorem at_unterminated {b : List Char} (hm : o.MarksWithoutQuote) (hs : o.strings = true)
    (hb : LiteralBody b) (hend : LiteralEnd rest false []) :
    At o ⟨.string false, '"' :: b⟩ ('"' :: b ++ rest) := by
  have hno : ∀ c ∈ rest.head?, c ≠ '"' := by
    cases hend <;> simp
  exact .unterminated (hm.not_commentAt_quote hs) hs (hb.longest hend) hno

/-- A lexeme stays the same when something alike comes after it. -/
theorem At.of_alikeAhead (hm : o.MarksWithoutQuote) (h : At o l s) (hs : s = l.source ++ rest)
    (ha : AlikeAhead o rest rest') : At o l (l.source ++ rest') := by
  have hhead := ha.head
  cases h with
  | @comment p v tail mark line ends =>
    obtain rfl := List.append_cancel_left hs
    exact .comment mark line (by rwa [hhead])
  | terminated free strings body => exact at_terminated hm strings body.body
  | @unterminated b tail free strings body ends =>
    obtain rfl : tail = rest := List.append_cancel_left (List.cons.inj hs).2
    exact at_unterminated hm strings body.body ((body.literalEnd ends).congr hhead ha.bytes)
  | @bracket b tail free =>
    obtain rfl : tail = rest := (List.cons.inj hs).2
    exact .bracket (ha.not_commentAt (List.cons_ne_nil b.toChar []) free)
  | @run r tail free ne plain ends =>
    obtain rfl := List.append_cancel_left hs
    exact .run (ha.not_commentAt ne free) ne plain (by rwa [hhead])
  | @single c tail free noString noBracket stop =>
    obtain rfl : tail = rest := (List.cons.inj hs).2
    refine .single (ha.not_commentAt (List.cons_ne_nil c []) free) (fun hstring => noString ?_)
      noBracket stop
    exact ⟨hstring.1, List.cons_prefix_cons.mpr ⟨(List.cons_prefix_cons.mp hstring.2).1,
      List.nil_prefix⟩⟩

/-- What covers a lexeme is read as a lexeme with the same outline. -/
theorem At.covered (hm : o.MarksWithoutQuote) (h : At o l (l.source ++ rest))
    (hp : MayCover o l piece) (ha : AlikeAhead o rest rest') :
    ∃ m, At o m (piece ++ rest') ∧ m.source = piece ∧ m.token.outline = l.token.outline := by
  cases hp with
  | same => exact ⟨l, h.of_alikeAhead hm rfl ha, rfl, rfl⟩
  | terminated b b' plain bytes =>
    have hs := h.strings_of_string rfl
    exact ⟨_, at_terminated hm hs (literalBody_of_plain plain), rfl, rfl⟩
  | unterminated b b' plain bytes =>
    have hs := h.strings_of_string rfl
    have hend := (h.literalEnd_rest rfl).congr ha.head ha.bytes
    exact ⟨_, at_unterminated hm hs (literalBody_of_plain plain) hend, rfl, rfl⟩
  | comment p v v' mark line bytes =>
    have hends : ∀ c ∈ rest'.head?, c = '\n' := by
      rw [ha.head]
      exact h.ends_of_comment rfl rfl
    exact ⟨⟨.comment v', p ++ v'⟩, .comment mark line hends, rfl, rfl⟩

end Lexeme

/-- A part of a mark that what covers a lexeme goes on with, the lexeme goes on with. -/
theorem MayCover.prefix_of_prefix {q : List Char} (hm : o.MarksWithoutQuote)
    (h : l.At o (l.source ++ rest)) (hp : MayCover o l piece)
    (ha : AlikeAhead o rest rest') (hq : q <:+ o.mark) (hlen : q.length < o.mark.length)
    (hstarts : q <+: piece ++ rest') : q <+: l.source ++ rest := by
  have hquote : ∀ x, o.strings = true → q <+: '"' :: x → q = [] := by
    intro x hs hx
    cases q with
    | nil => rfl
    | cons c q =>
      obtain rfl := (List.cons_prefix_cons.mp hx).1
      exact absurd (hq.subset List.mem_cons_self) (hm.quote_not_mem hs)
  cases hp with
  | same =>
    rcases List.prefix_or_prefix_of_prefix hstarts (List.prefix_append l.source rest') with
      hin | ⟨r, rfl⟩
    · exact hin.trans (List.prefix_append l.source rest)
    · rw [List.prefix_append_right_inj] at hstarts ⊢
      rw [List.length_append] at hlen
      exact ha.mark r ((List.suffix_append l.source r).trans hq) (by omega) hstarts
  | terminated b b' plain bytes =>
    rw [hquote _ (h.strings_of_string rfl) hstarts]
    exact List.nil_prefix
  | unterminated b b' plain bytes =>
    rw [hquote _ (h.strings_of_string rfl) hstarts]
    exact List.nil_prefix
  | comment p v v' mark line bytes =>
    obtain rfl := (ScanOptions.marks_iff.mp mark).2
    rw [List.append_assoc] at hstarts ⊢
    have hin := List.prefix_of_prefix_length_le hstarts (List.prefix_append _ _) (Nat.le_of_lt hlen)
    exact hin.trans (List.prefix_append _ _)

theorem alikeAhead_of_covered {pieces : List (List Char)} (hm : o.MarksWithoutQuote)
    (h : List.Forall₂ (MayCover o) (Lexeme.all o s) pieces) : AlikeAhead o s pieces.flatten := by
  fun_induction Lexeme.all o s generalizing pieces with
  | case1 s hs =>
    obtain rfl := Lexeme.first?_eq_none_iff.mp hs
    cases h
    exact ⟨rfl, rfl, fun _ _ _ hq => hq⟩
  | case2 s l hl ih =>
    cases h with
    | @cons _ piece _ pieces hp hps =>
      have ha := ih hps
      have hat := Lexeme.first?_eq_some_iff.mp hl
      have hne := (Lexeme.source_of_first? hl).2
      rw [← Lexeme.split_of_first? hl] at hat ⊢
      rw [List.flatten_cons]
      refine ⟨?_, ?_, fun q hq hlen => hp.prefix_of_prefix hm hat ha hq hlen⟩
      · have hhead := hp.head?_eq
        obtain ⟨c, x, hx⟩ := List.exists_cons_of_ne_nil hne
        rw [hx] at hhead ⊢
        obtain ⟨y, rfl⟩ := List.head?_eq_some_iff.mp hhead
        rfl
      · rw [byteLength_append, byteLength_append, hp.byteLength_eq, ha.bytes]

end Ahead

theorem Lexeme.outline_place_covered {o : ScanOptions} {s : List Char} {pieces : List (List Char)}
    (hm : o.MarksWithoutQuote) (h : List.Forall₂ (MayCover o) (all o s) pieces) (n : Nat) :
    (place n (all o pieces.flatten)).map PlacedToken.outline =
      (place n (all o s)).map PlacedToken.outline := by
  fun_induction all o s generalizing pieces n with
  | case1 s hs =>
    cases h
    rw [List.flatten_nil, all_nil]
  | case2 s l hl ih =>
    cases h with
    | @cons _ piece _ pieces hp hps =>
      have hat := first?_eq_some_iff.mp hl
      rw [← split_of_first? hl] at hat
      obtain ⟨m, hmat, rfl, houtline⟩ := hat.covered hm hp (alikeAhead_of_covered hm hps)
      rw [List.flatten_cons, all_of_some hmat.first?, List.drop_left, place_cons, place_cons,
        List.map_cons, List.map_cons, ih hps, hp.byteLength_eq, PlacedToken.outline,
        PlacedToken.outline, houtline]

namespace Scan

theorem step_outline (opened : List Opener) (t : PlacedToken) :
    step opened t.outline = step opened t := by
  obtain ⟨token, start, stop⟩ := t
  cases token with
  | bracket b => rfl
  | string terminated => rfl
  | comment body => rfl
  | text run => rfl

theorem findings_outline (opened : List Opener) (ts : List PlacedToken) :
    findings opened (ts.map PlacedToken.outline) = findings opened ts := by
  have h := findings_map (f := id) (h := id) (g := PlacedToken.outline)
    (fun opened t => by simpa using step_outline opened t) (fun _ => rfl) opened ts
  simpa using h

end Scan

/-- Where quotes start strings and no comment mark has one in it, other text may stand in the place of
the bodies of any strings and comments. The tokens keep their kinds and their places, and a scan
goes as it did, whatever list it records in and whatever memory there is. -/
theorem scanInto_of_overwritten (o : ScanOptions) (s s' : List Char) (hm : o.MarksWithoutQuote)
    (h : Overwritten o s s') :
    (tokens o s').map PlacedToken.outline = (tokens o s).map PlacedToken.outline ∧
    scanned o s' = scanned o s ∧ ∀ memory l, scanInto o s' memory l = scanInto o s memory l := by
  obtain ⟨pieces, hpieces, rfl⟩ := h
  have htokens : (tokens o pieces.flatten).map PlacedToken.outline =
      (tokens o s).map PlacedToken.outline := Lexeme.outline_place_covered hm hpieces 0
  have hscan : Scan.findings [] (tokens o pieces.flatten) = Scan.findings [] (tokens o s) := by
    rw [← Scan.findings_outline, htokens, Scan.findings_outline]
  have hlength : (tokens o pieces.flatten).length = (tokens o s).length := by
    simpa using congrArg List.length htokens
  have hinto : ∀ memory l, scanInto o pieces.flatten memory l = scanInto o s memory l := by
    intro memory l
    simp only [scanInto, hscan, hlength]
  exact ⟨htokens, by rw [scanned, scanned, hinto], hinto⟩

/-- A string with an escaped quote, a comment with a quote, and a string that a backslash cuts off. -/
theorem scanInto_of_overwritten_each_kind :
    Overwritten {} "(\x22é)\\\x22\x22 // ]\x22\n\x22(\\".toList
      "(\x22//[](\x22 //\x22é\n\x22)\\".toList ∧
    ({} : ScanOptions).MarksWithoutQuote ∧
    (tokens {} "(\x22//[](\x22 //\x22é\n\x22)\\".toList).map PlacedToken.outline =
      [⟨.bracket (.opening .paren), 0, 1⟩, ⟨.string true, 1, 8⟩, ⟨.text [' '], 8, 9⟩,
        ⟨.comment [], 9, 14⟩, ⟨.text ['\n'], 14, 15⟩, ⟨.string false, 15, 17⟩,
        ⟨.text ['\\'], 17, 18⟩] ∧
    scanned {} "(\x22//[](\x22 //\x22é\n\x22)\\".toList =
      [.point (encode "unterminated string literal".toList) 15,
        .point (encode "unclosed \x60(\x60".toList) 0] := by
  have hm : ({} : ScanOptions).MarksWithoutQuote := by
    refine .inr fun m hm => ?_
    obtain rfl := Option.some.inj hm
    decide
  have hall : Lexeme.all {} "(\x22é)\\\x22\x22 // ]\x22\n\x22(\\".toList =
      [⟨.bracket (.opening .paren), ['(']⟩,
        ⟨.string true, '"' :: ("é)\\\x22".toList ++ ['"'])⟩, ⟨.text [' '], [' ']⟩,
        ⟨.comment " ]\x22".toList, "//".toList ++ " ]\x22".toList⟩, ⟨.text ['\n'], ['\n']⟩,
        ⟨.string false, '"' :: "(".toList⟩, ⟨.text ['\\'], ['\\']⟩] := by decide +kernel
  have hmark : ({} : ScanOptions).Marks "//".toList := ⟨by decide, "//", rfl, rfl⟩
  have hover : Overwritten {} "(\x22é)\\\x22\x22 // ]\x22\n\x22(\\".toList
      "(\x22//[](\x22 //\x22é\n\x22)\\".toList := by
    refine ⟨[['('], '"' :: ("//[](".toList ++ ['"']), [' '], "//".toList ++ "\x22é".toList, ['\n'],
      '"' :: ")".toList, ['\\']], ?_, by decide⟩
    rw [hall]
    exact .cons (.same _) <| .cons (.terminated _ _ (by simp) (by decide)) <|
      .cons (.same _) <| .cons (.comment _ _ _ hmark (by decide) (by decide)) <|
      .cons (.same _) <| .cons (.unterminated _ _ (by simp) (by decide)) <|
      .cons (.same _) .nil
  obtain ⟨htokens, hscanned, -⟩ := scanInto_of_overwritten {} _ _ hm hover
  refine ⟨hover, hm, ?_, ?_⟩
  · rw [htokens]
    decide +kernel
  · rw [hscanned]
    decide +kernel

end BracketLint
