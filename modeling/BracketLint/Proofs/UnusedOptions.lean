import BracketLint.Proofs.Reading
import BracketLint.Proofs.Granted

/-! Options that a source makes no use of. A comment mark that is nowhere in it only cuts texts into
more pieces, which put together are the texts there are without a mark, and a scan passes over
texts. Where there is no quote, it does not matter whether strings count. -/

namespace BracketLint

open Utf8

namespace PlacedToken

/-- The token before the others, in one piece with the next one if both are texts. -/
def attach (t : PlacedToken) : List PlacedToken → List PlacedToken
  | [] => [t]
  | u :: us =>
    match t.token, u.token with
    | .text a, .text b => ⟨.text (a ++ b), t.start, u.stop⟩ :: us
    | _, _ => t :: u :: us

/-- The tokens with adjacent texts put together. -/
def mergeTexts (ts : List PlacedToken) : List PlacedToken := ts.foldr attach []

theorem mergeTexts_cons (t : PlacedToken) (ts : List PlacedToken) :
    mergeTexts (t :: ts) = t.attach (mergeTexts ts) := rfl

theorem attach_attach_text (a b : List Char) (i j m n : Nat) (us : List PlacedToken) :
    attach ⟨.text a, i, j⟩ (attach ⟨.text b, m, n⟩ us) = attach ⟨.text (a ++ b), i, n⟩ us := by
  cases us with
  | nil => rfl
  | cons u us =>
    obtain ⟨token, start, stop⟩ := u
    cases token with
    | text c => simp [attach]
    | bracket b => rfl
    | string terminated => rfl
    | comment body => rfl

end PlacedToken

open PlacedToken

namespace Scan

theorem findings_attach (opened : List Opener) (t : PlacedToken) (us : List PlacedToken) :
    findings opened (t.attach us) = findings opened (t :: us) := by
  cases us with
  | nil => rfl
  | cons u us =>
    obtain ⟨token, start, stop⟩ := t
    obtain ⟨token', start', stop'⟩ := u
    cases token with
    | text a => cases token' <;> rfl
    | bracket b => rfl
    | string terminated => rfl
    | comment body => rfl

theorem findings_mergeTexts (opened : List Opener) (ts : List PlacedToken) :
    findings opened (mergeTexts ts) = findings opened ts := by
  induction ts generalizing opened with
  | nil => rfl
  | cons t ts ih => rw [mergeTexts_cons, findings_attach, findings_cons, ih, findings_cons]

end Scan

section Comments

variable {o : ScanOptions} {s : List Char}

def ScanOptions.withoutComments (o : ScanOptions) : ScanOptions := { o with lineComment := none }

theorem ScanOptions.not_commentAt_withoutComments (o : ScanOptions) (s : List Char) :
    ¬ o.withoutComments.CommentAt s := by
  rintro ⟨p, ⟨-, m, hm, -⟩, -⟩
  cases hm

theorem ScanOptions.isStop_withoutComments {c : Char} :
    o.withoutComments.IsStop c ↔ (∃ b : Bracket, c = b.toChar) ∨ (o.strings = true ∧ c = '"') := by
  constructor
  · rintro (h | h | ⟨p, ⟨-, m, hm, -⟩, -⟩)
    · exact .inl h
    · exact .inr h
    · cases hm
  · rintro (h | h)
    · exact .inl h
    · exact .inr (.inl h)

namespace Lexeme

/-- Without comments the same lexeme stands there, or it is a text that may go on. -/
theorem At.withoutComments {l : Lexeme} (h : At o l s) (free : ¬ o.CommentAt s) :
    At o.withoutComments l s ∨
      l.token = .text l.source ∧ ∀ c ∈ l.source, ¬ o.withoutComments.IsStop c := by
  have hfree := o.not_commentAt_withoutComments s
  cases h with
  | comment mark line ends =>
    rw [List.append_assoc] at free
    exact absurd ⟨_, mark, List.prefix_append _ _⟩ free
  | terminated _ strings body => exact .inl (.terminated hfree strings body)
  | unterminated _ strings body ends => exact .inl (.unterminated hfree strings body ends)
  | bracket _ => exact .inl (.bracket hfree)
  | run _ ne plain ends =>
    refine .inr ⟨rfl, fun c hc hstop => plain c hc ?_⟩
    rcases ScanOptions.isStop_withoutComments.mp hstop with hb | hq
    · exact .inl hb
    · exact .inr (.inl hq)
  | @single c tail _ noString noBracket stop =>
    refine .inr ⟨rfl, fun d hd hstop => ?_⟩
    obtain rfl := List.mem_singleton.mp hd
    rcases ScanOptions.isStop_withoutComments.mp hstop with ⟨b, hb⟩ | ⟨hs, hq⟩
    · exact noBracket b hb
    · exact noString ⟨hs, List.cons_prefix_cons.mpr ⟨hq.symm, List.nil_prefix⟩⟩

/-- A text cut off in front is put together again with what it was cut from. -/
theorem mergeTexts_text_append {r : List Char} (tail : List Char) (hfree : ∀ s, ¬ o.CommentAt s)
    (hne : r ≠ []) (hr : ∀ c ∈ r, ¬ o.IsStop c) (n : Nat) :
    mergeTexts (place n (all o (r ++ tail))) =
      attach ⟨.text r, n, n + byteLength r⟩
        (mergeTexts (place (n + byteLength r) (all o tail))) := by
  have hrun {w rest : List Char} (hw : w ≠ []) (hplain : ∀ c ∈ w, ¬ o.IsStop c)
      (hends : ∀ c ∈ rest.head?, o.IsStop c) (n : Nat) : place n (all o (w ++ rest)) =
        ⟨.text w, n, n + byteLength w⟩ :: place (n + byteLength w) (all o rest) := by
    rw [all_run (hfree _) hw hplain hends, place_cons]
  obtain ⟨w, rest, rfl, hw, hends⟩ := exists_run o tail
  by_cases he : w = []
  · subst he
    rw [List.nil_append, hrun hne hr hends, mergeTexts_cons]
  · have hboth : ∀ c ∈ r ++ w, ¬ o.IsStop c := by
      intro c hc
      rcases List.mem_append.mp hc with hc | hc
      · exact hr c hc
      · exact hw c hc
    rw [← List.append_assoc, hrun (List.append_ne_nil_of_left_ne_nil hne w) hboth hends,
      hrun he hw hends, mergeTexts_cons, mergeTexts_cons, attach_attach_text, byteLength_append,
      Nat.add_assoc]

theorem mergeTexts_withoutComments (h : ∀ p, o.Marks p → ¬ p <:+: s) (n : Nat) :
    mergeTexts (place n (all o s)) = mergeTexts (place n (all o.withoutComments s)) := by
  fun_induction all o s generalizing n with
  | case1 s hs =>
    obtain rfl := first?_eq_none_iff.mp hs
    rw [all_nil]
  | case2 s l hl ih =>
    have hsplit := List.prefix_iff_eq_append.mp (source_of_first? hl).1
    have free : ¬ o.CommentAt s := by
      rintro ⟨p, hp, hs⟩
      exact h p hp hs.isInfix
    have hrest := ih fun p hp hin => h p hp (hin.trans (List.drop_suffix _ _).isInfix)
    rw [place_cons, mergeTexts_cons, hrest]
    rcases (first?_eq_some_iff.mp hl).withoutComments free with hat | ⟨htoken, hplain⟩
    · rw [all_of_some hat.first?, place_cons, mergeTexts_cons]
    · have hcut := mergeTexts_text_append (s.drop l.source.length)
        o.not_commentAt_withoutComments (source_of_first? hl).2 hplain n
      rw [hsplit] at hcut
      rw [hcut, htoken]

end Lexeme

theorem scan_withoutComments (h : ∀ p, o.Marks p → ¬ p <:+: s) :
    scan o s = scan o.withoutComments s := by
  rw [scan, ← Scan.findings_mergeTexts, tokens, Lexeme.mergeTexts_withoutComments h,
    Scan.findings_mergeTexts]
  rfl

end Comments

section Strings

variable {m : Option String} {s : List Char}

theorem ScanOptions.isStop_of_ne_quote {c : Char} (h : c ≠ '"') :
    (⟨true, m⟩ : ScanOptions).IsStop c ↔ (⟨false, m⟩ : ScanOptions).IsStop c := by
  simp [IsStop, h, Marks]

theorem Lexeme.At.withoutStrings {l : Lexeme} (h : At ⟨true, m⟩ l s) (hs : '"' ∉ s) :
    At ⟨false, m⟩ l s := by
  cases h with
  | comment mark line ends => exact .comment mark line ends
  | terminated free strings body => exact absurd List.mem_cons_self hs
  | unterminated free strings body ends => exact absurd List.mem_cons_self hs
  | bracket free => exact .bracket free
  | @run r tail free ne plain ends =>
    refine .run free ne (fun c hc => ?_) fun c hc => ?_
    · have hq : c ≠ '"' := fun he => hs (he ▸ List.mem_append_left _ hc)
      exact mt (ScanOptions.isStop_of_ne_quote hq).mpr (plain c hc)
    · have hq : c ≠ '"' := fun he => hs (he ▸ List.mem_append_right _ (List.mem_of_mem_head? hc))
      exact (ScanOptions.isStop_of_ne_quote hq).mp (ends c hc)
  | @single c tail free noString noBracket stop =>
    have hq : c ≠ '"' := fun he => hs (he ▸ List.mem_cons_self)
    exact .single free (fun hstring => Bool.noConfusion hstring.1) noBracket
      ((ScanOptions.isStop_of_ne_quote hq).mp stop)

theorem Lexeme.all_withoutStrings (hs : '"' ∉ s) : all ⟨true, m⟩ s = all ⟨false, m⟩ s := by
  fun_induction all ⟨true, m⟩ s with
  | case1 s h =>
    obtain rfl := first?_eq_none_iff.mp h
    rw [all_nil]
  | case2 s l h ih =>
    have hat := (first?_eq_some_iff.mp h).withoutStrings hs
    rw [all_of_some hat.first?, ih fun hm => hs (List.mem_of_mem_drop hm)]

end Strings

/-- A comment mark that does not occur in a source changes its tokens only in how texts are cut, and
no scan of it. Strings may count or not where there is no quote. -/
theorem tokens_of_unused_options (s : List Char) :
    (∀ (strings : Bool) (p : String), ¬ p.toList <:+: s →
      mergeTexts (tokens ⟨strings, some p⟩ s) = mergeTexts (tokens ⟨strings, none⟩ s) ∧
      ∀ memory l, (scanInto ⟨strings, some p⟩ s memory l).value =
        (scanInto ⟨strings, none⟩ s memory l).value) ∧
    ('"' ∉ s → ∀ m, tokens ⟨true, m⟩ s = tokens ⟨false, m⟩ s) := by
  refine ⟨fun strings p hp => ?_, fun hs m => ?_⟩
  · have hmarks : ∀ q, (⟨strings, some p⟩ : ScanOptions).Marks q → ¬ q <:+: s := by
      rintro q ⟨-, m, hm, rfl⟩
      obtain rfl := Option.some.inj hm
      exact hp
    refine ⟨Lexeme.mergeTexts_withoutComments hmarks 0, fun memory l => ?_⟩
    rw [value_scanInto, value_scanInto, scan_withoutComments hmarks]
    rfl
  · rw [tokens, tokens, Lexeme.all_withoutStrings hs]

/-- The slash of half a mark stands alone, and is put together with the texts around it. -/
theorem tokens_of_unused_options_half_mark :
    ¬ "//".toList <:+: "a/b(".toList ∧ '"' ∉ "a/b(".toList ∧
    tokens ⟨true, some "//"⟩ "a/b(".toList = [⟨.text ['a'], 0, 1⟩, ⟨.text ['/'], 1, 2⟩,
      ⟨.text ['b'], 2, 3⟩, ⟨.bracket (.opening .paren), 3, 4⟩] ∧
    mergeTexts (tokens ⟨true, some "//"⟩ "a/b(".toList) =
      [⟨.text ['a', '/', 'b'], 0, 3⟩, ⟨.bracket (.opening .paren), 3, 4⟩] := by
  have hp : ¬ "//".toList <:+: "a/b(".toList := by decide
  have hs : '"' ∉ "a/b(".toList := by decide
  obtain ⟨hcomments, hstrings⟩ := tokens_of_unused_options "a/b(".toList
  refine ⟨hp, hs, ?_, ?_⟩
  · rw [hstrings hs]
    decide +kernel
  · rw [(hcomments true "//" hp).1]
    decide +kernel

end BracketLint
