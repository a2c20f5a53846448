import BracketLint.Proofs.LiteralEnd
import BracketLint.Proofs.PairedScan
import BracketLint.Proofs.Passage
import BracketLint.Proofs.Tokenization

/-! Sources put one after the other. Where a line ends outside of a string, what comes next is
read as if it stood alone, so a scan goes on with the brackets that are open there. -/

namespace BracketLint

open Utf8

/-- Comments start within a line. -/
def ScanOptions.MarksWithinLine (o : ScanOptions) : Prop :=
  ∀ m, o.lineComment = some m → '\n' ∉ m.toList

/-- The source is empty, or its last line has ended and not within a string. -/
def ScanOptions.EndsLine (o : ScanOptions) (s : List Char) : Prop :=
  s = [] ∨ s.getLast? = some '\n' ∧ ∀ b, (tokens o s).getLast?.map (·.token) ≠ some (.string b)

theorem Lexeme.map_token_place (n : Nat) (ls : List Lexeme) :
    (place n ls).map (·.token) = ls.map (·.token) := by
  induction ls generalizing n with
  | nil => rfl
  | cons l ls ih => rw [place_cons, List.map_cons, List.map_cons, ih]

theorem not_mem_of_marks {o : ScanOptions} {p : List Char} (hm : o.MarksWithinLine)
    (h : o.Marks p) : '\n' ∉ p := by
  obtain ⟨-, m, ho, rfl⟩ := h
  exact hm m ho

theorem not_isStop_newline {o : ScanOptions} (hm : o.MarksWithinLine) : ¬ o.IsStop '\n' := by
  rintro (⟨b, hb⟩ | ⟨-, hq⟩ | ⟨p, hp, hhead⟩)
  · exact b.toChar_ne_newline hb.symm
  · revert hq
    decide
  · exact not_mem_of_marks hm hp (List.mem_of_mem_head? hhead)

/-- A comment mark does not reach over the end of a line. -/
theorem commentAt_append_iff {o : ScanOptions} {s t : List Char} (hm : o.MarksWithinLine)
    (hs : s.getLast? = some '\n') : o.CommentAt (s ++ t) ↔ o.CommentAt s := by
  constructor
  · rintro ⟨p, hp, hprefix⟩
    rcases List.prefix_or_prefix_of_prefix hprefix (List.prefix_append s t) with h | h
    · exact ⟨p, hp, h⟩
    · exact absurd (h.subset (List.mem_of_getLast? hs)) (not_mem_of_marks hm hp)
  · rintro ⟨p, hp, hprefix⟩
    exact ⟨p, hp, hprefix.trans (List.prefix_append s t)⟩

namespace Lexeme

variable {o : ScanOptions} {l : Lexeme} {tail t : List Char}

/-- A lexeme with a whole line end after it stays the same when more follows. -/
theorem At.append {s : List Char} (h : At o l s) (hm : o.MarksWithinLine)
    (hs : s.getLast? = some '\n') (hne : s.drop l.source.length ≠ []) : At o l (s ++ t) := by
  have free := (not_congr (commentAt_append_iff (t := t) hm hs)).mpr
  cases h with
  | @comment p v tail mark line ends =>
    rw [List.drop_left] at hne
    obtain ⟨c, tail, rfl⟩ := List.exists_cons_of_ne_nil hne
    rw [List.append_assoc]
    exact .comment mark line ends
  | @terminated b tail free' strings body =>
    have hfree := free free'
    rw [List.cons_append, List.append_assoc, List.cons_append] at hfree ⊢
    exact .terminated hfree strings (body.body.longest (.quote _))
  | @unterminated b tail free' strings body ends =>
    have hfree := free free'
    rw [List.length_cons, List.drop_succ_cons, List.drop_left] at hne
    -- the body cannot have stopped at a backslash, which would be the last character
    have htail : ∃ rest, tail = '\n' :: rest := by
      rcases body.stops with rfl | rfl | ⟨c, rest, rfl, hc⟩
      · exact absurd rfl hne
      · have hback : ('"' :: b ++ ['\\']).getLast? = some '\n' := hs
        rw [List.getLast?_concat] at hback
        exact absurd (Option.some.inj hback) (by decide)
      · exact ⟨rest, by rw [hc.resolve_left (ends c rfl)]⟩
    obtain ⟨rest, rfl⟩ := htail
    rw [List.cons_append, List.append_assoc, List.cons_append] at hfree ⊢
    exact .unterminated hfree strings (body.body.longest (.newline _)) (by simp)
  | bracket free' => exact .bracket (free free')
  | @run r tail free' ne plain ends =>
    have hfree := free free'
    rw [List.drop_left] at hne
    obtain ⟨c, tail, rfl⟩ := List.exists_cons_of_ne_nil hne
    rw [List.append_assoc] at hfree ⊢
    exact .run hfree ne plain ends
  | single free' noString noBracket stop =>
    refine .single (free free') (fun hstring => noString ?_) noBracket stop
    exact ⟨hstring.1, List.cons_prefix_cons.mpr ⟨(List.cons_prefix_cons.mp hstring.2).1,
      List.nil_prefix⟩⟩

/-- The last lexeme of a source that ends its line outside of a string is a run of text. -/
theorem At.run_of_newline {s : List Char} (h : At o l s) (hm : o.MarksWithinLine)
    (hs : s.getLast? = some '\n') (hlast : s.drop l.source.length = [])
    (hstring : ∀ b, l.token ≠ .string b) : (∀ c ∈ s, ¬ o.IsStop c) ∧ l.token = .text s := by
  cases h with
  | @comment p v tail mark line ends =>
    rw [List.drop_left] at hlast
    subst hlast
    rw [List.append_nil] at hs
    rcases List.mem_append.mp (List.mem_of_getLast? hs) with h | h
    · exact absurd h (not_mem_of_marks hm mark)
    · exact absurd h line
  | terminated => exact absurd rfl (hstring true)
  | unterminated => exact absurd rfl (hstring false)
  | @bracket b tail free =>
    rw [List.length_singleton, List.drop_succ_cons, List.drop_zero] at hlast
    subst hlast
    have hb : b.toChar = '\n' := by simpa using hs
    exact absurd (.inl ⟨b, hb.symm⟩) (not_isStop_newline hm)
  | @run r tail free ne plain ends =>
    rw [List.drop_left] at hlast
    subst hlast
    rw [List.append_nil]
    exact ⟨plain, rfl⟩
  | @single c tail free noString noBracket stop =>
    rw [List.length_singleton, List.drop_succ_cons, List.drop_zero] at hlast
    subst hlast
    have hc : c = '\n' := by simpa using hs
    exact absurd (hc ▸ stop) (not_isStop_newline hm)

end Lexeme

namespace Scan

variable {o : ScanOptions} {s t : List Char}

/-- A run of text is passed over. -/
theorem findings_run (opened : List Opener) (n : Nat) (hs : ∀ c ∈ s, ¬ o.IsStop c)
    (hends : ∀ c ∈ t.head?, o.IsStop c) :
    findings opened (Lexeme.place n (Lexeme.all o (s ++ t))) =
      findings opened (Lexeme.place (n + byteLength s) (Lexeme.all o t)) := by
  cases s with
  | nil => rfl
  | cons c s =>
    have free : ¬ o.CommentAt (c :: s ++ t) :=
      Lexeme.not_commentAt_of_not_stop (hs c List.mem_cons_self)
    rw [Lexeme.all_run free (List.cons_ne_nil c s) hs hends, Lexeme.place_cons, findings_cons,
      step_of_plain rfl, Option.toList_none, List.nil_append]

/-- Text that no lexeme of another kind can start in is passed over, also when it goes on. -/
theorem findings_text_append (opened : List Opener) (n : Nat) (hs : ∀ c ∈ s, ¬ o.IsStop c) :
    findings opened (Lexeme.place n (Lexeme.all o (s ++ t))) =
      findings opened (Lexeme.place (n + byteLength s) (Lexeme.all o t)) := by
  obtain ⟨r, tail, rfl, hr, hends⟩ := Lexeme.exists_run o t
  have hboth : ∀ c ∈ s ++ r, ¬ o.IsStop c := fun c hc => (List.mem_append.mp hc).elim (hs c) (hr c)
  rw [← List.append_assoc, findings_run opened n hboth hends, findings_run opened _ hr hends,
    byteLength_append, Nat.add_assoc]

theorem findings_seam_of_last (hm : o.MarksWithinLine) (hs : s.getLast? = some '\n')
    (hstring : ∀ b, (Lexeme.all o s).getLast?.map (·.token) ≠ some (.string b))
    (opened : List Opener) (n : Nat) :
    findings opened (Lexeme.place n (Lexeme.all o (s ++ t))) =
      reported opened (Lexeme.place n (Lexeme.all o s)) ++
        findings (after opened (Lexeme.place n (Lexeme.all o s)))
          (Lexeme.place (n + byteLength s) (Lexeme.all o t)) := by
  fun_induction Lexeme.all o s generalizing opened n with
  | case1 s h =>
    obtain rfl := Lexeme.first?_eq_none_iff.mp h
    cases hs
  | case2 s l h ih =>
    have hat := Lexeme.first?_eq_some_iff.mp h
    have hsplit := Lexeme.split_of_first? h
    by_cases hlast : s.drop l.source.length = []
    · -- the last lexeme may go on into what follows, but it is text and reports nothing
      have hone : ∀ b, l.token ≠ .string b := fun b hb => hstring b (by simp [hlast, hb])
      obtain ⟨hplain, htoken⟩ := hat.run_of_newline hm hs hlast hone
      have hstep : step opened ⟨l.token, n, n + byteLength l.source⟩ = (opened, none) :=
        step_of_plain (by rw [htoken]; rfl)
      rw [findings_text_append opened n hplain, hlast, Lexeme.all_nil, Lexeme.place_cons,
        Lexeme.place_nil]
      simp only [reported, after, hstep, Option.toList_none, List.append_nil, List.nil_append]
    · have hsource : (s ++ t).drop l.source.length = s.drop l.source.length ++ t := by
        rw [List.drop_append_of_le_length (Lexeme.source_of_first? h).1.length_le]
      have hend : (s.drop l.source.length).getLast? = some '\n' := by
        rw [← hsplit, List.getLast?_append_of_ne_nil _ hlast] at hs
        exact hs
      have hne : Lexeme.all o (s.drop l.source.length) ≠ [] := by
        intro he
        have hflat := Lexeme.flatMap_source_all o (s.drop l.source.length)
        rw [he, List.flatMap_nil] at hflat
        exact hlast hflat.symm
      have hrest : ∀ b, (Lexeme.all o (s.drop l.source.length)).getLast?.map (·.token) ≠
          some (.string b) := by
        intro b hb
        refine hstring b ?_
        obtain ⟨m, ms, hms⟩ := List.exists_cons_of_ne_nil hne
        rw [hms] at hb ⊢
        rwa [List.getLast?_cons_cons]
      have hlen : n + byteLength s =
          n + byteLength l.source + byteLength (s.drop l.source.length) := by
        rw [Nat.add_assoc, ← byteLength_append, hsplit]
      rw [Lexeme.all_of_some (hat.append hm hs hlast).first?, hsource, Lexeme.place_cons,
        Lexeme.place_cons, findings_cons, ih hend hrest, hlen, ← List.append_assoc]
      rfl

/-- Over a seam at the end of a line the scan goes on with what is open there. -/
theorem findings_seam (hm : o.MarksWithinLine) (hs : o.EndsLine s) (opened : List Opener) (n : Nat) :
    findings opened (Lexeme.place n (Lexeme.all o (s ++ t))) =
      reported opened (Lexeme.place n (Lexeme.all o s)) ++
        findings (after opened (Lexeme.place n (Lexeme.all o s)))
          (Lexeme.place (n + byteLength s) (Lexeme.all o t)) := by
  rcases hs with rfl | ⟨hs, hstring⟩
  · rw [Lexeme.all_nil]
    rfl
  · refine findings_seam_of_last hm hs (fun b hb => hstring b ?_) opened n
    rw [← List.getLast?_map, tokens, Lexeme.map_token_place, List.getLast?_map, hb]

end Scan

section Records

variable {o : ScanOptions} {s t : List Char}

theorem scanned_split (o : ScanOptions) (s : List Char) :
    scanned o s = (Scan.reported [] (tokens o s)).map Finding.record ++
      (Scan.leftOpen (Scan.after [] (tokens o s))).map Finding.record := by
  rw [scanned_eq, scan, Scan.findings_eq, List.map_append]

theorem isUnclosed_of_mem_map_reported {r : Record} {opened : List Opener} {ts : List PlacedToken}
    (h : r ∈ (Scan.reported opened ts).map Finding.record) : r.isUnclosed = false := by
  obtain ⟨f, hf, rfl⟩ := List.mem_map.mp h
  rw [f.isUnclosed_record, Scan.isUnclosed_of_mem_reported hf]

theorem isUnclosed_of_mem_map_leftOpen {r : Record} {opened : List Opener}
    (h : r ∈ (Scan.leftOpen opened).map Finding.record) : r.isUnclosed = true := by
  obtain ⟨f, hf, rfl⟩ := List.mem_map.mp h
  rw [f.isUnclosed_record, Scan.isUnclosed_of_mem_leftOpen hf]

theorem filter_not_isUnclosed_scanned (o : ScanOptions) (s : List Char) :
    (scanned o s).filter (!·.isUnclosed) = (Scan.reported [] (tokens o s)).map Finding.record := by
  have hreported : ((Scan.reported [] (tokens o s)).map Finding.record).filter (!·.isUnclosed) =
      (Scan.reported [] (tokens o s)).map Finding.record :=
    List.filter_eq_self.mpr fun r hr => by simp [isUnclosed_of_mem_map_reported hr]
  have hopen : ((Scan.leftOpen (Scan.after [] (tokens o s))).map Finding.record).filter
      (!·.isUnclosed) = [] :=
    List.filter_eq_nil_iff.mpr fun r hr => by simp [isUnclosed_of_mem_map_leftOpen hr]
  rw [scanned_split, List.filter_append, hreported, hopen, List.append_nil]

theorem offset_le_of_mem_scan {f : Finding} (h : f ∈ scan o s) : f.offset ≤ byteLength s := by
  have hn : f.notice ∈ Pairing.notices (tokens o s) := by
    rw [← findings_eq_notices]
    exact List.mem_map_of_mem h
  obtain ⟨t, ht, he⟩ := offset_mem_of_notices hn
  have hle := Lexeme.start_le_of_mem_place ht
  rw [Lexeme.flatMap_source_all, Nat.zero_add, ← he] at hle
  exact hle

theorem start_le_of_mem_scanned {r : Record} (hlen : byteLength s ≤ Offset.greatest)
    (h : r ∈ scanned o s) : r.start.toNat ≤ byteLength s ∧ r.stop.toNat ≤ byteLength s := by
  rw [scanned_eq] at h
  obtain ⟨f, hf, rfl⟩ := List.mem_map.mp h
  have hle := offset_le_of_mem_scan hf
  have hexact : f.position.toNat = f.offset := Offset.toNat_ofNat_of_le (Nat.le_trans hle hlen)
  exact ⟨hexact ▸ hle, hexact ▸ hle⟩

/-- What follows the end of a line is read on its own, with the brackets open that are open there. -/
theorem scan_append (hm : o.MarksWithinLine) (hs : o.EndsLine s) :
    scan o (s ++ t) = Scan.reported [] (tokens o s) ++
      Scan.findings (Scan.after [] (tokens o s))
        ((tokens o t).map (PlacedToken.moved (· + byteLength s))) := by
  have hplace : Lexeme.place (0 + byteLength s) (Lexeme.all o t) =
      (tokens o t).map (PlacedToken.moved (· + byteLength s)) := Lexeme.place_add 0 _ _
  have hseam := Scan.findings_seam (t := t) hm hs [] 0
  rwa [hplace] at hseam

theorem scan_append_of_after_eq_nil (hm : o.MarksWithinLine) (hs : o.EndsLine s)
    (hopen : Scan.after [] (tokens o s) = []) :
    scan o (s ++ t) = scan o s ++ (scan o t).map (Finding.moved (· + byteLength s)) := by
  have hmoved := Scan.findings_moved (· + byteLength s) [] (tokens o t)
  have hscan : scan o s = Scan.reported [] (tokens o s) := by
    rw [scan, Scan.findings_eq, hopen]
    exact List.append_nil _
  rw [List.map_nil] at hmoved
  rw [scan_append hm hs, hopen, hmoved, hscan]
  rfl

end Records

/-- At the end of a line outside of strings, all that is wrong so far stays so, whatever follows.
If nothing is left open there, what follows has the findings that it has on its own. -/
theorem scanned_append (o : ScanOptions) (s t : List Char) (hm : o.MarksWithinLine)
    (hs : o.EndsLine s) (hlen : byteLength (s ++ t) ≤ Offset.greatest) :
    (scanned o s).filter (!·.isUnclosed) <+: scanned o (s ++ t) ∧
    ((∀ r ∈ scanned o s, r.isUnclosed = false) →
      scanned o (s ++ t) = scanned o s ++ (scanned o t).map (Record.moved (· + byteLength s)) ∧
      ∀ r ∈ scanned o t, (r.moved (· + byteLength s)).start.toNat = r.start.toNat + byteLength s ∧
        (r.moved (· + byteLength s)).stop.toNat = r.stop.toNat + byteLength s) := by
  rw [byteLength_append] at hlen
  refine ⟨?_, fun hno => ⟨?_, fun r hr => ?_⟩⟩
  · rw [filter_not_isUnclosed_scanned, scanned_eq, scan_append hm hs, List.map_append]
    exact List.prefix_append _ _
  · have hopen : Scan.leftOpen (Scan.after [] (tokens o s)) = [] := by
      apply List.eq_nil_iff_forall_not_mem.mpr
      intro f hf
      have hmem := List.mem_map_of_mem (f := Finding.record) hf
      have hfalse := hno f.record (scanned_split o s ▸ List.mem_append_right _ hmem)
      rw [isUnclosed_of_mem_map_leftOpen hmem] at hfalse
      cases hfalse
    rw [scanned_eq, scanned_eq, scanned_eq,
      scan_append_of_after_eq_nil hm hs (Scan.leftOpen_eq_nil_iff.mp hopen), List.map_append,
      List.map_map, List.map_map]
    refine congrArg (_ ++ ·) (List.map_congr_left fun f hf => ?_)
    exact Finding.record_moved (Nat.le_trans (offset_le_of_mem_scan hf) (by omega))
  · obtain ⟨hstart, hstop⟩ := start_le_of_mem_scanned (by omega) hr
    have hstart' : r.start.toNat + byteLength s ≤ Offset.greatest := by omega
    have hstop' : r.stop.toNat + byteLength s ≤ Offset.greatest := by omega
    exact ⟨Offset.toNat_ofNat_of_le hstart', Offset.toNat_ofNat_of_le hstop'⟩

/-- A line that ends after a string that does not, and a line with a comment and two brackets. -/
theorem scanned_append_line :
    (({} : ScanOptions).MarksWithinLine ∧ ({} : ScanOptions).EndsLine ")(]/ \x22x\n".toList ∧
      byteLength (")(]/ \x22x\n".toList ++ "// (\n\x7d[".toList) ≤ Offset.greatest) ∧
    (scanned {} ")(]/ \x22x\n".toList).filter (!·.isUnclosed) <+:
      scanned {} (")(]/ \x22x\n".toList ++ "// (\n\x7d[".toList) ∧
    (∀ r ∈ scanned {} ")(]/ \x22x\n".toList, r.isUnclosed = false) ∧
    scanned {} (")(]/ \x22x\n".toList ++ "// (\n\x7d[".toList) =
      scanned {} ")(]/ \x22x\n".toList ++
        [.point (encode "unexpected closing \x60\x7d\x60".toList) 13,
          .point (encode "unclosed \x60[\x60".toList) 14] := by
  have hm : ({} : ScanOptions).MarksWithinLine := by
    rintro m hm
    obtain rfl := Option.some.inj hm
    decide
  have hs : ({} : ScanOptions).EndsLine ")(]/ \x22x\n".toList := .inr ⟨by decide, by decide +kernel⟩
  have hlen : byteLength (")(]/ \x22x\n".toList ++ "// (\n\x7d[".toList) ≤ Offset.greatest := by
    decide
  have hno : ∀ r ∈ scanned {} ")(]/ \x22x\n".toList, r.isUnclosed = false := by decide +kernel
  have ht : (scanned {} "// (\n\x7d[".toList).map (Record.moved (· + byteLength ")(]/ \x22x\n".toList)) =
      [.point (encode "unexpected closing \x60\x7d\x60".toList) 13,
        .point (encode "unclosed \x60[\x60".toList) 14] := by decide +kernel
  have happend := scanned_append {} ")(]/ \x22x\n".toList "// (\n\x7d[".toList hm hs hlen
  exact ⟨⟨hm, hs, hlen⟩, happend.1, hno, by rw [(happend.2 hno).1, ht]⟩

end BracketLint
