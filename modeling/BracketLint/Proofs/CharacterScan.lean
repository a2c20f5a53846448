import BracketLint.Proofs.PairedScan
import BracketLint.Proofs.Reading

/-! A scan without tokens. A reader that goes over the source one character at a time, and
remembers only the open brackets and whether it is in code, in a comment or in a string, has
records of its own wording to make. They are those of a scan. -/

namespace BracketLint

open Pairing Utf8

inductive Mode where
  | code
  | comment
  | string (start : Nat)
  deriving DecidableEq

/-- Where a reader stands: its mode, the open brackets, the offset, and the source to come. -/
structure Reader where
  mode : Mode
  opened : List Opener
  offset : Nat
  rest : List Char

namespace Reader

/-- What a closing bracket leaves open, and what is wrong with it. -/
def close (opened : List Opener) (d : BracketKind) (n : Nat) : List Opener × Option Notice :=
  match opened with
  | [] => ([], some ⟨"unexpected closing ".toList ++ quoted d.closing, n⟩)
  | o :: rest =>
    (rest, if o.kind = d then none
      else some ⟨"mismatched closing ".toList ++ quoted d.closing ++ ", expected ".toList ++
        quoted o.kind.closing, n⟩)

def unterminated (start : Nat) : Notice := ⟨"unterminated string literal".toList, start⟩

def leftOpen (opened : List Opener) : List Notice :=
  opened.reverse.map fun o => ⟨"unclosed ".toList ++ quoted o.kind.opening, o.offset⟩

def stepCode (o : ScanOptions) (opened : List Opener) (n : Nat) :
    List Char → Option (Reader × Option Notice)
  | [] => none
  | c :: rest =>
    if o.mark ≠ [] ∧ o.mark <+: c :: rest then
      some (⟨.comment, opened, n + byteLength o.mark, (c :: rest).drop o.mark.length⟩, none)
    else if o.strings = true ∧ c = '"' then
      some (⟨.string n, opened, n + c.utf8Size, rest⟩, none)
    else
      match Bracket.ofChar? c with
      | some (.opening d) => some (⟨.code, ⟨d, n⟩ :: opened, n + c.utf8Size, rest⟩, none)
      | some (.closing d) =>
        some (⟨.code, (close opened d n).1, n + c.utf8Size, rest⟩, (close opened d n).2)
      | none => some (⟨.code, opened, n + c.utf8Size, rest⟩, none)

def stepComment (opened : List Opener) (n : Nat) : List Char → Option (Reader × Option Notice)
  | [] => none
  | c :: rest =>
    if c = '\n' then some (⟨.code, opened, n, c :: rest⟩, none)
    else some (⟨.comment, opened, n + c.utf8Size, rest⟩, none)

def stepString (start : Nat) (opened : List Opener) (n : Nat) :
    List Char → Option (Reader × Option Notice)
  | [] => some (⟨.code, opened, n, []⟩, some (unterminated start))
  | c :: rest =>
    if c = '\\' then
      match rest with
      | [] => some (⟨.code, opened, n, [c]⟩, some (unterminated start))
      | d :: rest => some (⟨.string start, opened, n + (c.utf8Size + d.utf8Size), rest⟩, none)
    else if c = '"' then some (⟨.code, opened, n + c.utf8Size, rest⟩, none)
    else if c = '\n' then
      some (⟨.code, opened, n, c :: rest⟩, some (unterminated start))
    else some (⟨.string start, opened, n + c.utf8Size, rest⟩, none)

/-- One step and what it reports. There is none at the end of the source, unless a string is
still open there. -/
def step? (o : ScanOptions) (x : Reader) : Option (Reader × Option Notice) :=
  match x.mode with
  | .code => stepCode o x.opened x.offset x.rest
  | .comment => stepComment x.opened x.offset x.rest
  | .string start => stepString start x.opened x.offset x.rest

/-- Each step takes characters away or goes back to code. -/
def size (x : Reader) : Nat := 2 * x.rest.length + if x.mode = .code then 0 else 1

theorem size_lt_of_step? {o : ScanOptions} {x y : Reader} {m : Option Notice}
    (h : step? o x = some (y, m)) : y.size < x.size := by
  obtain ⟨mode, opened, n, rest⟩ := x
  cases mode with
  | code =>
    cases rest with
    | nil => cases h
    | cons c rest =>
      simp only [step?, stepCode] at h
      split at h
      · rename_i hm
        have hpos := List.length_pos_iff.mpr hm.1
        have hle := hm.2.length_le
        cases h
        simp only [size, List.length_drop, reduceCtorEq, if_false, if_true]
        omega
      · split at h
        · cases h
          simp only [size, List.length_cons, reduceCtorEq, if_false, if_true]
          omega
        · split at h <;> cases h <;> simp only [size, List.length_cons, if_true] <;> omega
  | comment =>
    cases rest with
    | nil => cases h
    | cons c rest =>
      simp only [step?, stepComment] at h
      split at h <;> cases h <;>
        simp only [size, List.length_cons, reduceCtorEq, if_false, if_true] <;> omega
  | string start =>
    cases rest with
    | nil =>
      cases h
      simp only [size, reduceCtorEq, if_false, if_true]
      omega
    | cons c rest =>
      simp only [step?, stepString] at h
      split at h
      · cases rest <;> cases h <;>
          simp only [size, List.length_cons, reduceCtorEq, if_false, if_true] <;> omega
      · split at h
        · cases h
          simp only [size, List.length_cons, reduceCtorEq, if_false, if_true]
          omega
        · split at h <;> cases h <;>
            simp only [size, List.length_cons, reduceCtorEq, if_false, if_true] <;> omega

/-- All that is wrong from here on, what is left open last. -/
def run (o : ScanOptions) (x : Reader) : List Notice :=
  match _h : step? o x with
  | none => leftOpen x.opened
  | some (y, m) => m.toList ++ run o y
termination_by x.size
decreasing_by exact size_lt_of_step? _h

/-- All that is wrong with a source. -/
def notices (o : ScanOptions) (s : List Char) : List Notice := run o ⟨.code, [], 0, s⟩

theorem run_of_none {o : ScanOptions} {x : Reader} (h : step? o x = none) :
    run o x = leftOpen x.opened := by
  rw [run]
  split <;> simp_all

theorem run_of_some {o : ScanOptions} {x y : Reader} {m : Option Notice}
    (h : step? o x = some (y, m)) : run o x = m.toList ++ run o y := by
  rw [run]
  split <;> simp_all

theorem close_eq (opened : List Opener) (d : BracketKind) (n : Nat) : close opened d n =
    ((Scan.close opened d n).1, (Scan.close opened d n).2.map Finding.notice) := by
  cases opened with
  | nil => simp [close, Scan.close, Finding.notice, message_unexpectedClosing]
  | cons o rest =>
    by_cases hk : o.kind = d
    · simp [close, Scan.close, hk]
    · simp [close, Scan.close, hk, Finding.notice, message_mismatchedClosing]

theorem leftOpen_eq (opened : List Opener) :
    leftOpen opened = (Scan.leftOpen opened).map Finding.notice := by
  simp [leftOpen, Scan.leftOpen, Finding.notice, message_unclosed]

variable {o : ScanOptions} {opened : List Opener} {n start : Nat}

/-- In code, a character that starts neither a comment nor a string nor is a bracket is skipped. -/
theorem run_code_skip {c : Char} {rest : List Char} (free : ¬ o.CommentAt (c :: rest))
    (hs : ¬ o.StringAt (c :: rest)) (hb : ∀ b : Bracket, c ≠ b.toChar) :
    run o ⟨.code, opened, n, c :: rest⟩ = run o ⟨.code, opened, n + c.utf8Size, rest⟩ := by
  have hnb : Bracket.ofChar? c = none :=
    Option.eq_none_iff_forall_ne_some.mpr fun b h => hb b (Bracket.ofChar?_eq_some_iff.mp h)
  have hns : ¬ (o.strings = true ∧ c = '"') := fun ⟨h, hc⟩ =>
    hs ⟨h, List.cons_prefix_cons.mpr ⟨hc.symm, List.nil_prefix⟩⟩
  rw [ScanOptions.commentAt_iff] at free
  have hstep : step? o ⟨.code, opened, n, c :: rest⟩ =
      some (⟨.code, opened, n + c.utf8Size, rest⟩, none) := by
    simp only [step?, stepCode, if_neg free, if_neg hns, hnb]
  rw [run_of_some hstep, Option.toList_none, List.nil_append]

theorem run_text {r tail : List Char} (h : ∀ c ∈ r, ¬ o.IsStop c) :
    run o ⟨.code, opened, n, r ++ tail⟩ = run o ⟨.code, opened, n + byteLength r, tail⟩ := by
  induction r generalizing n with
  | nil => rfl
  | cons c r ih =>
    have hc := h c List.mem_cons_self
    have hskip : run o ⟨.code, opened, n, c :: (r ++ tail)⟩ =
        run o ⟨.code, opened, n + c.utf8Size, r ++ tail⟩ :=
      run_code_skip (Lexeme.not_commentAt_of_not_stop hc) (Lexeme.not_stringAt_of_not_stop hc)
        fun b hb => hc (.inl ⟨b, hb⟩)
    rw [List.cons_append, hskip, ih fun x hx => h x (List.mem_cons_of_mem c hx), byteLength_cons,
      Nat.add_assoc]

theorem run_comment {v tail : List Char} (h : '\n' ∉ v) :
    run o ⟨.comment, opened, n, v ++ tail⟩ = run o ⟨.comment, opened, n + byteLength v, tail⟩ := by
  induction v generalizing n with
  | nil => rfl
  | cons c v ih =>
    have hc : ¬ c = '\n' := fun he => h (he ▸ List.mem_cons_self)
    have hstep : step? o ⟨.comment, opened, n, c :: v ++ tail⟩ =
        some (⟨.comment, opened, n + c.utf8Size, v ++ tail⟩, none) := by
      simp only [step?, List.cons_append, stepComment, if_neg hc]
    rw [run_of_some hstep, Option.toList_none, List.nil_append,
      ih fun hm => h (List.mem_cons_of_mem c hm), byteLength_cons, Nat.add_assoc]

theorem run_comment_end {tail : List Char} (h : ∀ c ∈ tail.head?, c = '\n') :
    run o ⟨.comment, opened, n, tail⟩ = run o ⟨.code, opened, n, tail⟩ := by
  cases tail with
  | nil => rw [run_of_none (show step? o ⟨.comment, opened, n, []⟩ = none from rfl),
      run_of_none (show step? o ⟨.code, opened, n, []⟩ = none from rfl)]
  | cons c tail =>
    have hstep : step? o ⟨.comment, opened, n, c :: tail⟩ =
        some (⟨.code, opened, n, c :: tail⟩, none) := by
      simp only [step?, stepComment, if_pos (h c rfl)]
    rw [run_of_some hstep, Option.toList_none, List.nil_append]

theorem run_quote {rest : List Char} (free : ¬ o.CommentAt ('"' :: rest)) (hs : o.strings = true) :
    run o ⟨.code, opened, n, '"' :: rest⟩ =
      run o ⟨.string n, opened, n + '"'.utf8Size, rest⟩ := by
  rw [ScanOptions.commentAt_iff] at free
  have hstep : step? o ⟨.code, opened, n, '"' :: rest⟩ =
      some (⟨.string n, opened, n + '"'.utf8Size, rest⟩, none) := by
    simp only [step?, stepCode, if_neg free, hs, and_self, if_true]
  rw [run_of_some hstep, Option.toList_none, List.nil_append]

theorem run_body {b tail : List Char} (h : LiteralBody b) :
    run o ⟨.string start, opened, n, b ++ tail⟩ =
      run o ⟨.string start, opened, n + byteLength b, tail⟩ := by
  induction h generalizing n with
  | nil => rfl
  | @escape d b _ ih =>
    have hstep : step? o ⟨.string start, opened, n, '\\' :: d :: b ++ tail⟩ =
        some (⟨.string start, opened, n + ('\\'.utf8Size + d.utf8Size), b ++ tail⟩, none) := by
      simp only [step?, List.cons_append, stepString, if_true]
    rw [run_of_some hstep, Option.toList_none, List.nil_append, ih, byteLength_cons, byteLength_cons,
      Nat.add_assoc, Nat.add_assoc]
  | @plain c b hq he hn _ ih =>
    have hstep : step? o ⟨.string start, opened, n, c :: b ++ tail⟩ =
        some (⟨.string start, opened, n + c.utf8Size, b ++ tail⟩, none) := by
      simp only [step?, List.cons_append, stepString, if_neg he, if_neg hq, if_neg hn]
    rw [run_of_some hstep, Option.toList_none, List.nil_append, ih, byteLength_cons, Nat.add_assoc]

theorem run_string_end {b tail : List Char} (h : LongestBody b (b ++ tail))
    (ht : ∀ c ∈ tail.head?, c ≠ '"') :
    run o ⟨.string start, opened, n, tail⟩ =
      unterminated start :: run o ⟨.code, opened, n, tail⟩ := by
  have hstep : step? o ⟨.string start, opened, n, tail⟩ =
      some (⟨.code, opened, n, tail⟩, some (unterminated start)) := by
    rcases h.stops with rfl | rfl | ⟨c, rest, rfl, hc⟩
    · rfl
    · rfl
    · have hq : ¬ c = '"' := ht c rfl
      obtain rfl := hc.resolve_left hq
      rfl
  rw [run_of_some hstep, Option.toList_some, List.singleton_append]

theorem run_bracket {b : Bracket} {tail : List Char} (free : ¬ o.CommentAt (b.toChar :: tail))
    (stop : Nat) :
    run o ⟨.code, opened, n, b.toChar :: tail⟩ =
      (Scan.step opened ⟨.bracket b, n, stop⟩).2.toList.map Finding.notice ++
        run o ⟨.code, (Scan.step opened ⟨.bracket b, n, stop⟩).1, n + b.toChar.utf8Size, tail⟩ := by
  rw [ScanOptions.commentAt_iff] at free
  have hns : ¬ (o.strings = true ∧ b.toChar = '"') := fun h => b.toChar_ne_quote h.2
  have hstep : step? o ⟨.code, opened, n, b.toChar :: tail⟩ =
      some (⟨.code, (Scan.step opened ⟨.bracket b, n, stop⟩).1, n + b.toChar.utf8Size, tail⟩,
        (Scan.step opened ⟨.bracket b, n, stop⟩).2.map Finding.notice) := by
    simp only [step?, stepCode, if_neg free, if_neg hns, Bracket.ofChar?_toChar]
    cases b with
    | opening d => rfl
    | closing d =>
      simp only [close_eq]
      rfl
  rw [run_of_some hstep, Option.toList_map]

/-- Over one lexeme the reader does what the scan does for its token. -/
theorem run_lexeme {l : Lexeme} {s : List Char} (h : l.At o s) (stop : Nat) :
    run o ⟨.code, opened, n, s⟩ =
      (Scan.step opened ⟨l.token, n, stop⟩).2.toList.map Finding.notice ++
        run o ⟨.code, (Scan.step opened ⟨l.token, n, stop⟩).1, n + byteLength l.source,
          s.drop l.source.length⟩ := by
  cases h with
  | @comment p v tail mark line ends =>
    obtain ⟨hne, rfl⟩ := ScanOptions.marks_iff.mp mark
    obtain ⟨c, p, hp⟩ := List.exists_cons_of_ne_nil hne
    have hstep : step? o ⟨.code, opened, n, o.mark ++ (v ++ tail)⟩ =
        some (⟨.comment, opened, n + byteLength o.mark, v ++ tail⟩, none) := by
      have hcond : o.mark ≠ [] ∧ o.mark <+: o.mark ++ (v ++ tail) := ⟨hne, List.prefix_append _ _⟩
      have hdrop : (o.mark ++ (v ++ tail)).drop o.mark.length = v ++ tail := List.drop_left
      rw [hp] at hcond hdrop ⊢
      simp only [step?, List.cons_append, stepCode, hp] at hcond hdrop ⊢
      rw [if_pos hcond, hdrop]
    have hdrop : (o.mark ++ (v ++ tail)).drop (o.mark ++ v).length = tail := by
      rw [← List.append_assoc, List.drop_left]
    rw [List.append_assoc, run_of_some hstep, run_comment line, run_comment_end ends, hdrop,
      byteLength_append, Nat.add_assoc]
    rfl
  | @terminated b tail free strings body =>
    have hstep (n' : Nat) : step? o ⟨.string n, opened, n', '"' :: tail⟩ =
        some (⟨.code, opened, n' + '"'.utf8Size, tail⟩, none) := rfl
    have hdrop : ('"' :: (b ++ '"' :: tail)).drop ('"' :: (b ++ ['"'])).length = tail := by
      have hsplit : '"' :: (b ++ '"' :: tail) = '"' :: (b ++ ['"']) ++ tail := by simp
      rw [hsplit, List.drop_left]
    rw [run_quote free strings, run_body body.body, run_of_some (hstep _), hdrop]
    simp only [byteLength_cons, byteLength_append, byteLength_nil, Nat.add_zero, Nat.add_assoc]
    rfl
  | @unterminated b tail free strings body ends =>
    have hdrop : ('"' :: (b ++ tail)).drop ('"' :: b).length = tail := by
      rw [List.length_cons, List.drop_succ_cons, List.drop_left]
    rw [run_quote free strings, run_body body.body, run_string_end body ends, hdrop, byteLength_cons,
      Nat.add_assoc]
    rfl
  | bracket free => exact run_bracket free stop
  | @run r tail free ne plain ends =>
    rw [run_text plain, List.drop_left]
    rfl
  | @single c tail free noString noBracket stop =>
    rw [run_code_skip free noString noBracket]
    rfl

/-- The fast path over whole lexemes misses nothing that a single character could start. -/
theorem run_eq_findings (o : ScanOptions) (opened : List Opener) (n : Nat) (s : List Char) :
    run o ⟨.code, opened, n, s⟩ =
      (Scan.findings opened (Lexeme.place n (Lexeme.all o s))).map Finding.notice := by
  fun_induction Lexeme.all o s generalizing opened n with
  | case1 s h =>
    obtain rfl := Lexeme.first?_eq_none_iff.mp h
    exact (run_of_none rfl).trans (leftOpen_eq opened)
  | case2 s l h ih =>
    rw [Lexeme.place_cons, Scan.findings_cons, List.map_append, ← ih]
    exact run_lexeme (Lexeme.first?_eq_some_iff.mp h) _

end Reader

/-- The records of a scan are those of the reader that goes character by character. -/
theorem scanInto_appends_reader_notices (o : ScanOptions) (s : List Char) (l : RecordList) :
    ∃ m, (scanInto o s (fun _ => .plenty) l).value = (.ok (), m) ∧
      m.toList = l.toList ++ (Reader.notices o s).map Notice.record := by
  obtain ⟨m, he, hm⟩ := scanInto_granted o s l
  have hnotices : Reader.notices o s = (scan o s).map Finding.notice :=
    Reader.run_eq_findings o [] 0 s
  refine ⟨m, he, ?_⟩
  rw [hm, hnotices, List.map_map]
  exact congrArg _ (List.map_congr_left fun f _ => f.record_notice.symm)

end BracketLint
