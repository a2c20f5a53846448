import BracketLint.Lint
import BracketLint.Report.Printer
import BracketLint.Proofs.LineLookup
import BracketLint.Proofs.PairedScan
import BracketLint.Proofs.Passage
import BracketLint.Proofs.Refusal
import BracketLint.Proofs.Tokenization

/-! Where the records of a rejected source are. They come in two runs, each in source order,
and no two are at one place. Each is at the character that its message names, and the line and
column printed for it lead to that character. -/

namespace BracketLint

open Pairing Utf8

/-- The text is a message about the character. -/
inductive SpeaksOf : List Char → Char → Prop where
  | unexpectedClosing (c : Char) : SpeaksOf ("unexpected closing ".toList ++ quoted c) c
  | mismatchedClosing (c e : Char) :
    SpeaksOf ("mismatched closing ".toList ++ quoted c ++ ", expected ".toList ++ quoted e) c
  | unterminatedString : SpeaksOf "unterminated string literal".toList '"'
  | unclosed (c : Char) : SpeaksOf ("unclosed ".toList ++ quoted c) c

/-- The character that starts the token a problem is reported at. -/
def Problem.subject : Problem → Char
  | unexpectedClosing d | mismatchedClosing d _ _ => d.closing
  | unterminatedString => '"'
  | unclosed d => d.opening

theorem Problem.speaksOf (p : Problem) : SpeaksOf p.message p.subject := by
  cases p with
  | unexpectedClosing d =>
    rw [message_unexpectedClosing]
    exact .unexpectedClosing d.closing
  | mismatchedClosing d e n =>
    rw [message_mismatchedClosing]
    exact .mismatchedClosing d.closing e.closing
  | unterminatedString => exact .unterminatedString
  | unclosed d =>
    rw [message_unclosed]
    exact .unclosed d.opening

theorem Problem.subject_ne_newline (p : Problem) : p.subject ≠ '\n' := by
  cases p with
  | unexpectedClosing d => exact (Bracket.closing d).toChar_ne_newline
  | mismatchedClosing d e n => exact (Bracket.closing d).toChar_ne_newline
  | unterminatedString => decide
  | unclosed d => exact (Bracket.opening d).toChar_ne_newline

theorem Problem.isUnclosed_eq_of_token_eq {p q : Problem} (h : p.token = q.token) :
    p.isUnclosed = q.isUnclosed := by
  cases p <;> cases q <;> first | rfl | cases h

theorem Lexeme.At.source_of_problem {o : ScanOptions} {l : Lexeme} {s : List Char} {p : Problem}
    (h : l.At o s) (ht : l.token = p.token) : ∃ tail, l.source = p.subject :: tail := by
  cases h with
  | bracket free =>
    cases p <;> cases ht <;> exact ⟨[], rfl⟩
  | unterminated free strings body ends =>
    cases p with
    | unterminatedString => exact ⟨_, rfl⟩
    | unexpectedClosing d => cases ht
    | mismatchedClosing d e n => cases ht
    | unclosed d => cases ht
  | comment mark line ends => cases p <;> cases ht
  | terminated free strings body => cases p <;> cases ht
  | run free ne plain ends => cases p <;> cases ht
  | single free noString noBracket stop => cases p <;> cases ht

section Order

variable {stop n : Nat} {ts : List PlacedToken}

theorem Tiles.le_start (h : Tiles stop n ts) : ∀ t ∈ ts, n ≤ t.start := by
  induction h with
  | nil => intro t ht; cases ht
  | cons ne next ih =>
    intro t' ht'
    rcases List.mem_cons.mp ht' with rfl | ht'
    · exact Nat.le_refl _
    · have := ih t' ht'
      omega

theorem Tiles.start_lt (h : Tiles stop n ts) : ∀ t ∈ ts, t.start < stop := by
  intro t ht
  obtain ⟨us, vs, rfl⟩ := List.append_of_mem ht
  obtain ⟨hlt, hnext⟩ := h.after
  exact Nat.lt_of_lt_of_le hlt hnext.le

theorem Tiles.pairwise_start (h : Tiles stop n ts) : ts.Pairwise (·.start < ·.start) := by
  induction h with
  | nil => exact .nil
  | cons ne next ih =>
    refine .cons (fun t' ht' => ?_) ih
    have := next.le_start t' ht'
    omega

variable {i j : Nat} {t u : PlacedToken}

theorem start_lt_of_lt (hts : ts.Pairwise (·.start < ·.start)) (hi : ts[i]? = some t)
    (hj : ts[j]? = some u) (hij : i < j) : t.start < u.start := by
  obtain ⟨hi', rfl⟩ := List.getElem?_eq_some_iff.mp hi
  obtain ⟨hj', rfl⟩ := List.getElem?_eq_some_iff.mp hj
  exact List.pairwise_iff_getElem.mp hts i j hi' hj' hij

theorem eq_of_start_eq (hts : ts.Pairwise (·.start < ·.start)) (hi : ts[i]? = some t)
    (hj : ts[j]? = some u) (h : t.start = u.start) : t = u := by
  rcases Nat.lt_trichotomy i j with hij | rfl | hij
  · have := start_lt_of_lt hts hi hj hij
    omega
  · exact Option.some.inj (hi.symm.trans hj)
  · have := start_lt_of_lt hts hj hi hij
    omega

/-- Reports made token by token are in source order. -/
theorem pairwise_offset {f : Nat → Option Notice} {b : Bool}
    (hts : ts.Pairwise (·.start < ·.start))
    (hf : ∀ i n, f i = some n → ∃ t p, ts[i]? = some t ∧ n.Reports p t ∧ p.isUnclosed = b) (k : Nat) :
    ((List.range k).filterMap f).Pairwise (·.offset < ·.offset) := by
  rw [List.pairwise_filterMap]
  refine List.pairwise_lt_range.imp fun {i j} hij m hm n hn => ?_
  obtain ⟨t, p, hi, hm, -⟩ := hf i m hm
  obtain ⟨u, q, hj, hn, -⟩ := hf j n hn
  rw [hm.offset, hn.offset]
  exact start_lt_of_lt hts hi hj hij

end Order

section Scanned

variable {o : ScanOptions} {s : List Char}

theorem scanned_eq_notices (o : ScanOptions) (s : List Char) :
    scanned o s = (notices (tokens o s)).map Notice.record := by
  rw [scanned_eq, ← findings_eq_notices, List.map_map]
  exact List.map_congr_left fun f _ => f.record_notice.symm

theorem split_of_mem_notices {n : Notice} (h : n ∈ notices (tokens o s)) :
    ∃ (p : Problem) (before after : List Char), n.text = p.message ∧
      s = before ++ p.subject :: after ∧ n.offset = byteLength before := by
  obtain ⟨t, ht, p, hn⟩ := reports_of_mem_notices h
  obtain ⟨before, l, after, hcut⟩ := (Lexeme.tokenizes_tokens o s).cuts t ht
  obtain ⟨tail, htail⟩ := hcut.head.source_of_problem (hcut.token.symm.trans hn.token)
  refine ⟨p, before, tail ++ after, hn.text, ?_, hn.offset.trans hcut.start⟩
  rw [hcut.split, htail, List.append_assoc, List.cons_append]

theorem toNat_start_record {n : Notice} (h : n ∈ notices (tokens o s))
    (hlen : byteLength s ≤ Offset.greatest) : n.record.start.toNat = n.offset := by
  obtain ⟨p, before, after, -, hs, hn⟩ := split_of_mem_notices h
  apply Offset.toNat_ofNat_of_le
  rw [hs, byteLength_append] at hlen
  omega

/-- A record stands at the character that its message is about. -/
theorem split_of_mem_scanned {r : Record} (hlen : byteLength s ≤ Offset.greatest)
    (h : r ∈ scanned o s) : ∃ (p : Problem) (before after : List Char),
      r.message = encode p.message ∧ r.stop = r.start ∧ s = before ++ p.subject :: after ∧
        r.start.toNat = byteLength before := by
  rw [scanned_eq_notices] at h
  obtain ⟨n, hn, rfl⟩ := List.mem_map.mp h
  obtain ⟨p, before, after, htext, hs, hoffset⟩ := split_of_mem_notices hn
  have hstart := (toNat_start_record hn hlen).trans hoffset
  exact ⟨p, before, after, congrArg encode htext, rfl, hs, hstart⟩

theorem Notice.Reports.isUnclosed_record {n : Notice} {p : Problem} {t : PlacedToken}
    (h : n.Reports p t) : n.record.isUnclosed = p.isUnclosed := by
  rw [← p.message_unclosed_iff, ← h.text]
  rfl

/-- The records of reports made token by token, all about open brackets or none. -/
theorem run_of_reports {f : Nat → Option Notice} {b : Bool} {k : Nat}
    (hf : ∀ i n, f i = some n →
      ∃ t p, (tokens o s)[i]? = some t ∧ n.Reports p t ∧ p.isUnclosed = b)
    (hmem : ∀ n ∈ (List.range k).filterMap f, n ∈ notices (tokens o s))
    (hlen : byteLength s ≤ Offset.greatest) :
    (∀ r ∈ ((List.range k).filterMap f).map Notice.record, r.isUnclosed = b) ∧
      (((List.range k).filterMap f).map Notice.record).Pairwise (·.start < ·.start) := by
  constructor
  · intro r hr
    obtain ⟨n, hn, rfl⟩ := List.mem_map.mp hr
    obtain ⟨i, -, hi⟩ := List.mem_filterMap.mp hn
    obtain ⟨t, p, -, hp, hb⟩ := hf i n hi
    rw [hp.isUnclosed_record, hb]
  · have hts := (Lexeme.tokenizes_tokens o s).tiles.pairwise_start
    refine List.pairwise_map.mpr ((pairwise_offset hts hf k).imp_of_mem fun {m n} hm hn hlt => ?_)
    rw [UInt32.lt_iff_toNat_lt, toNat_start_record (hmem m hm) hlen,
      toNat_start_record (hmem n hn) hlen]
    exact hlt

/-- The records that are not about open brackets come first. Each run is in source order, and no
two records are at one place. -/
theorem scanned_runs (hlen : byteLength s ≤ Offset.greatest) : ∃ first second,
    scanned o s = first ++ second ∧ (∀ r ∈ first, r.isUnclosed = false) ∧
      (∀ r ∈ second, r.isUnclosed = true) ∧ first.Pairwise (·.start < ·.start) ∧
      second.Pairwise (·.start < ·.start) ∧ ∀ r ∈ first, ∀ r' ∈ second, r.start ≠ r'.start := by
  have hsplit : scanned o s =
      ((List.range (tokens o s).length).filterMap (faultAt (tokens o s))).map Notice.record ++
        ((List.range (tokens o s).length).filterMap (unclosedAt (tokens o s))).map
          Notice.record := by
    rw [scanned_eq_notices, notices, List.map_append]
  obtain ⟨hfirst, hpair⟩ := run_of_reports (o := o) (fun _ _ => reports_of_faultAt)
    (fun n => List.mem_append_left _) hlen
  obtain ⟨hsecond, hpair'⟩ := run_of_reports (o := o) (fun _ _ => reports_of_unclosedAt)
    (fun n => List.mem_append_right _) hlen
  refine ⟨_, _, hsplit, hfirst, hsecond, hpair, hpair', ?_⟩
  intro r hr r' hr' hstart
  obtain ⟨m, hm, rfl⟩ := List.mem_map.mp hr
  obtain ⟨n, hn, rfl⟩ := List.mem_map.mp hr'
  have hoffset := congrArg UInt32.toNat hstart
  rw [toNat_start_record (List.mem_append_left _ hm) hlen,
    toNat_start_record (List.mem_append_right _ hn) hlen] at hoffset
  obtain ⟨i, -, hi⟩ := List.mem_filterMap.mp hm
  obtain ⟨j, -, hj⟩ := List.mem_filterMap.mp hn
  obtain ⟨t, p, ht, hp, hfault⟩ := reports_of_faultAt hi
  obtain ⟨u, q, hu, hq, hopen⟩ := reports_of_unclosedAt hj
  -- one token is not reported as two kinds of problem
  have hts := (Lexeme.tokenizes_tokens o s).tiles.pairwise_start
  have htu : t = u := eq_of_start_eq hts ht hu (by rw [← hp.offset, ← hq.offset, hoffset])
  have hpq := Problem.isUnclosed_eq_of_token_eq (hp.token.symm.trans (htu ▸ hq.token))
  rw [hfault, hopen] at hpq
  cases hpq

theorem nodup_start_scanned (hlen : byteLength s ≤ Offset.greatest) :
    ((scanned o s).map Record.start).Nodup := by
  obtain ⟨first, second, he, -, -, hfirst, hsecond, hne⟩ := scanned_runs (o := o) hlen
  rw [he, List.map_append, List.nodup_append]
  refine ⟨?_, ?_, ?_⟩
  · exact (List.pairwise_map.mpr hfirst).imp fun h => UInt32.ne_of_lt h
  · exact (List.pairwise_map.mpr hsecond).imp fun h => UInt32.ne_of_lt h
  · intro a ha b hb
    obtain ⟨r, hr, rfl⟩ := List.mem_map.mp ha
    obtain ⟨r', hr', rfl⟩ := List.mem_map.mp hb
    exact hne r hr r' hr'

end Scanned

namespace Printer

variable {p : Printer} {src : String} {l : RecordList} {i : Nat} {r : Record}

theorem shown_le (p : Printer) (total : Nat) : p.shown total ≤ total := by
  unfold shown
  split
  · exact Nat.le_refl _
  · exact Nat.min_le_right _ _

/-- In the short style the record numbered `i` gives the line numbered `i`. -/
theorem getElem?_print_of_short (hstyle : p.settings.style = .short) (hi : i < p.shown l.size)
    (hr : l.toList[i]? = some r) : (p.print (.check (.rejected l) src))[i]? =
      some (p.path ++ ":" ++ ((LineMap.ofBytes (encode src.toList)).location r.start).text ++ ": " ++
        String.ofList r.text) := by
  have hitems : (LintError.check (.rejected l) src).items.length = l.size := by
    simp [LintError.items]
  have hitem : (LintError.check (.rejected l) src).items[i]? =
      some (.record r src ((LineMap.ofBytes (encode src.toList)).location r.start)) := by
    simp only [LintError.items, List.getElem?_map, hr, Option.map_some]
  have hle := p.shown_le l.size
  rw [print, hitems, List.getElem?_append_left (by simp [hitems]; omega), List.getElem?_map,
    List.getElem?_take_of_lt hi, hitem, Option.map_some, item, hstyle]
  rfl

end Printer

theorem value_lint (settings : Settings) (source : String) (memory : Nat → Memory) :
    (lint settings source memory).value =
      match (check settings.scan source.toList memory).value with
      | .ok () => .ok ()
      | .error e => .error (.check e source) := by
  rcases hc : (check settings.scan source.toList memory).value with e | ⟨⟩ <;>
    simp only [lint, Logged.value_bind, hc] <;> rfl

theorem scanInto_of_check_eq_rejected {o : ScanOptions} {s : List Char} {memory : Nat → Memory}
    {l : RecordList} (h : (check o s memory).value = .error (.rejected l)) :
    (scanInto o s memory .empty).value = (.ok (), l) := by
  rcases hd : (scanInto o s memory .empty).value with ⟨e | ⟨⟩, m⟩
  · simp only [check, Logged.value_bind, hd, Logged.value_pure] at h
    cases h
  · simp only [check, Logged.value_bind, hd] at h
    split at h
    · cases h
    · cases h
      rfl

theorem scanned_of_lint_eq_rejected {settings : Settings} {source src : String}
    {memory : Nat → Memory} {l : RecordList}
    (h : (lint settings source memory).value = .error (.check (.rejected l) src)) :
    src = source ∧ l.toList = scanned settings.scan source.toList := by
  rw [value_lint] at h
  split at h
  · cases h
  · rename_i e he
    cases h
    exact ⟨rfl, toList_of_scanInto_eq_ok (scanInto_of_check_eq_rejected he)⟩

/-- The records of a rejected source come in two runs, each in source order, the open brackets
last, and no two are at one place. Each is a point inside of the source, and so is the label of
its item. In the short style each gives a line that names a character and leads to it: the piece
of the source on that line has the character at that column. -/
theorem lint_records_placed (settings : Settings) (source src : String) (memory : Nat → Memory)
    (l : RecordList) (hlen : byteLength source.toList ≤ Offset.greatest)
    (h : (lint settings source memory).value = .error (.check (.rejected l) src)) :
    src = source ∧
    (∃ first second, l.toList = first ++ second ∧ (∀ r ∈ first, r.isUnclosed = false) ∧
      (∀ r ∈ second, r.isUnclosed = true) ∧ first.Pairwise (·.start < ·.start) ∧
      second.Pairwise (·.start < ·.start)) ∧
    (l.toList.map Record.start).Nodup ∧
    (∀ r ∈ l.toList, r.stop = r.start ∧ r.start.toNat < byteLength src.toList) ∧
    (∀ x ∈ (LintError.check (.rejected l) src).items, ∃ label, x.labels? = some [label] ∧
      label.length = 0 ∧ label.offset < byteLength src.toList ∧ x.source? = some src) ∧
    ∀ (p : Printer) i, p.settings.style = .short → i < p.shown l.size →
      ∃ r line column text c left right, l.toList[i]? = some r ∧ r.message = encode text ∧
        SpeaksOf text c ∧ (p.print (.check (.rejected l) src))[i]? = some (p.path ++ ":" ++
          toString line ++ ":" ++ toString column ++ ": " ++ String.ofList text) ∧
        1 ≤ line ∧ (src.toList.splitOn '\n')[line - 1]? = some (left ++ c :: right) ∧
        1 ≤ column ∧ byteLength left = column - 1 := by
  obtain ⟨rfl, hl⟩ := scanned_of_lint_eq_rejected h
  have hpoint : ∀ r ∈ l.toList, r.stop = r.start ∧ r.start.toNat < byteLength src.toList := by
    intro r hr
    rw [hl] at hr
    obtain ⟨p, before, after, -, hstop, hs, hstart⟩ := split_of_mem_scanned hlen hr
    refine ⟨hstop, ?_⟩
    rw [hstart, hs, byteLength_append, byteLength_cons]
    have := p.subject.utf8Size_pos
    omega
  refine ⟨rfl, ?_, ?_, hpoint, ?_, ?_⟩
  · obtain ⟨first, second, he, hfirst, hsecond, hpair, hpair', -⟩ := scanned_runs hlen
    exact ⟨first, second, hl.trans he, hfirst, hsecond, hpair, hpair'⟩
  · rw [hl]
    exact nodup_start_scanned hlen
  · intro x hx
    obtain ⟨r, hr, rfl⟩ := List.mem_map.mp hx
    obtain ⟨hstop, hlt⟩ := hpoint r hr
    exact ⟨_, rfl, by rw [hstop, Nat.sub_self], hlt, rfl⟩
  · intro p i hstyle hi
    have hi' : i < l.toList.length := by
      have := p.shown_le l.size
      rw [l.length_toList]
      omega
    have hr : l.toList[i]? = some l.toList[i] := List.getElem?_eq_getElem hi'
    have hmem : l.toList[i] ∈ scanned settings.scan src.toList := hl ▸ List.getElem_mem hi'
    obtain ⟨q, before, after, hmessage, -, hs, hstart⟩ := split_of_mem_scanned hlen hmem
    rw [hs] at hlen
    obtain ⟨line, left, right, hline, hpiece, hcolumn⟩ :=
      LineMap.location_encode hlen hstart q.subject_ne_newline
    rw [← hs] at hline hpiece hcolumn
    refine ⟨l.toList[i], line + 1, byteLength left + 1, q.message, q.subject, left, right, hr,
      hmessage, q.speaksOf, ?_, Nat.le_add_left _ _, hpiece, Nat.le_add_left _ _, rfl⟩
    rw [Printer.getElem?_print_of_short hstyle hi hr, LineColumn.text, hline, hcolumn, Record.text,
      hmessage, lossy_encode]
    simp only [String.append_assoc]

/-- A closing bracket after a character of two bytes, and on the second line an open bracket before
a string that does not end. -/
theorem lint_records_placed_two_lines :
    byteLength "é)\n\x7b \x22x\n".toList ≤ Offset.greatest ∧
    ∃ l, (lint {} "é)\n\x7b \x22x\n" fun _ => .plenty).value =
        .error (.check (.rejected l) "é)\n\x7b \x22x\n") ∧
      l.toList = [.point (encode "unexpected closing \x60)\x60".toList) 2,
        .point (encode "unterminated string literal".toList) 6,
        .point (encode "unclosed \x60\x7b\x60".toList) 4] ∧
      (l.toList.map Record.start).Nodup ∧
      ∃ line column text c left right, SpeaksOf text c ∧
        (Printer.print ⟨.ascii, ⟨.short, some 2⟩, "a"⟩
          (.check (.rejected l) "é)\n\x7b \x22x\n"))[1]? = some ("a" ++ ":" ++ toString line ++
            ":" ++ toString column ++ ": " ++ String.ofList text) ∧
        ("é)\n\x7b \x22x\n".toList.splitOn '\n')[line - 1]? = some (left ++ c :: right) ∧
        byteLength left = column - 1 := by
  have hlen : byteLength "é)\n\x7b \x22x\n".toList ≤ Offset.greatest := by decide
  have hscan : (scan {} "é)\n\x7b \x22x\n".toList).map Finding.record =
      [.point (encode "unexpected closing \x60)\x60".toList) 2,
        .point (encode "unterminated string literal".toList) 6,
        .point (encode "unclosed \x60\x7b\x60".toList) 4] := by decide +kernel
  rcases check_granted {} "é)\n\x7b \x22x\n".toList with ⟨hnil, -⟩ | ⟨-, l, he, hl⟩
  · rw [hnil] at hscan
    cases hscan
  · have hlint : (lint {} "é)\n\x7b \x22x\n" fun _ => .plenty).value =
        .error (.check (.rejected l) "é)\n\x7b \x22x\n") := by
      rw [value_lint]
      simp only [he]
    rw [hscan] at hl
    obtain ⟨-, -, hnodup, -, -, hprint⟩ := lint_records_placed {} _ _ _ l hlen hlint
    have hsize : l.size = 3 := by rw [← l.length_toList, hl]; rfl
    obtain ⟨r, line, column, text, c, left, right, -, -, hspeaks, hline, -, hpiece, -, hcolumn⟩ :=
      hprint ⟨.ascii, ⟨.short, some 2⟩, "a"⟩ 1 rfl (by rw [hsize]; decide)
    exact ⟨hlen, l, hlint, hl, hnodup, line, column, text, c, left, right, hspeaks, hline, hpiece,
      hcolumn⟩

end BracketLint
