import Mathlib.Data.List.DropRight
import BracketLint.Proofs.Seam

/-! Closing what is left open. The closing brackets for the records about open brackets, from the
last record to the first, are what a source lacks at its end. With all of them no such record is
left, with some of them the last ones are gone, and the other records stay as they are. -/

namespace BracketLint

/-- Comments do not start with a bracket, nor is there one in what starts them. -/
def ScanOptions.MarksWithoutBracket (o : ScanOptions) : Prop :=
  ∀ m, o.lineComment = some m → ∀ b : Bracket, b.toChar ∉ m.toList

/-- The kind of the bracket that the record says is left open. -/
def Record.opened? (r : Record) : Option BracketKind :=
  BracketKind.all.find? fun d => r.message == Utf8.encode (Problem.unclosed d).message

/-- The closing characters of the brackets that are reported open, the last one first. -/
def completion (rs : List Record) : List Char :=
  (rs.filterMap Record.opened?).reverse.map BracketKind.closing

theorem Record.opened?_eq_none {r : Record} (h : r.isUnclosed = false) : r.opened? = none := by
  unfold isUnclosed at h
  rw [opened?, List.find?_eq_none]
  intro d hd
  simpa using List.any_eq_false.mp h d hd

theorem Finding.opened?_record_unclosed (d : BracketKind) (n : Nat) :
    (⟨.unclosed d, n⟩ : Finding).record.opened? = some d := by
  change (BracketKind.all.find? fun x => Utf8.encode (Problem.unclosed d).message ==
    Utf8.encode (Problem.unclosed x).message) = some d
  cases d <;> decide +kernel

namespace Lexeme

variable {o : ScanOptions}

theorem all_brackets (h : o.MarksWithoutBracket) (bs : List Bracket) :
    all o (bs.map Bracket.toChar) = bs.map fun b => ⟨.bracket b, [b.toChar]⟩ := by
  induction bs with
  | nil => exact all_nil o
  | cons b bs ih =>
    have free : ¬ o.CommentAt (b.toChar :: bs.map Bracket.toChar) := by
      rintro ⟨p, ⟨hne, m, hm, rfl⟩, hp⟩
      obtain ⟨c, q, hq⟩ := List.exists_cons_of_ne_nil hne
      rw [hq] at hp
      obtain ⟨rfl, -⟩ := List.cons_prefix_cons.mp hp
      exact h m hm b (hq ▸ List.mem_cons_self)
    have hfirst := (At.bracket free).first?
    rw [List.map_cons, all_of_some hfirst, List.map_cons, ← ih]
    rfl

end Lexeme

namespace Scan

/-- The closing brackets that the innermost open ones lack close them, and report nothing. -/
theorem findings_closings (inner opened : List Opener) (n : Nat) :
    findings (inner ++ opened) (Lexeme.place n (inner.map fun x =>
      ⟨.bracket (.closing x.kind), [x.kind.closing]⟩)) = leftOpen opened := by
  induction inner generalizing n with
  | nil => rfl
  | cons x inner ih =>
    rw [List.map_cons, Lexeme.place_cons, List.cons_append, findings_cons, step_of_closing rfl,
      close, if_pos rfl]
    exact ih _

theorem leftOpen_drop (opened : List Opener) (i : Nat) :
    leftOpen (opened.drop i) = (leftOpen opened).rdrop i := by
  rw [leftOpen, leftOpen, List.reverse_drop, List.map_take, List.rdrop, List.length_map,
    List.length_reverse]

end Scan

section Records

variable {o : ScanOptions} {s : List Char}

theorem filter_isUnclosed_scanned (o : ScanOptions) (s : List Char) :
    (scanned o s).filter (·.isUnclosed) =
      (Scan.leftOpen (Scan.after [] (tokens o s))).map Finding.record := by
  have hreported : ((Scan.reported [] (tokens o s)).map Finding.record).filter (·.isUnclosed) = [] :=
    List.filter_eq_nil_iff.mpr fun r hr => by simp [isUnclosed_of_mem_map_reported hr]
  have hopen : ((Scan.leftOpen (Scan.after [] (tokens o s))).map Finding.record).filter
      (·.isUnclosed) = (Scan.leftOpen (Scan.after [] (tokens o s))).map Finding.record :=
    List.filter_eq_self.mpr fun r hr => isUnclosed_of_mem_map_leftOpen hr
  rw [scanned_split, List.filter_append, hreported, hopen, List.nil_append]

/-- What completes a source is read off the stack at its end. -/
theorem completion_scanned (o : ScanOptions) (s : List Char) :
    completion (scanned o s) = (Scan.after [] (tokens o s)).map (·.kind.closing) := by
  have hreported : ((Scan.reported [] (tokens o s)).map Finding.record).filterMap Record.opened? =
      [] :=
    List.filterMap_eq_nil_iff.mpr fun r hr =>
      Record.opened?_eq_none (isUnclosed_of_mem_map_reported hr)
  have hone : (Record.opened? ∘ Finding.record) ∘ (fun x : Opener => ⟨.unclosed x.kind, x.offset⟩) =
      some ∘ Opener.kind := funext fun x => Finding.opened?_record_unclosed x.kind x.offset
  have hopen (opened : List Opener) :
      ((Scan.leftOpen opened).map Finding.record).filterMap Record.opened? =
        opened.reverse.map Opener.kind := by
    rw [Scan.leftOpen, List.filterMap_map, List.filterMap_map, hone, List.filterMap_eq_map]
  rw [completion, scanned_split, List.filterMap_append, hreported, hopen, List.nil_append,
    ← List.map_reverse, List.reverse_reverse, List.map_map]
  rfl

/-- Closing brackets behind a source take the brackets that are open there from the top. -/
theorem scan_append_closings {opened : List Opener} (hm : o.MarksWithinLine)
    (hb : o.MarksWithoutBracket) (hs : o.EndsLine s) (ho : Scan.after [] (tokens o s) = opened)
    (i : Nat) :
    scan o (s ++ (opened.take i).map (·.kind.closing)) =
      Scan.reported [] (tokens o s) ++ (Scan.leftOpen opened).rdrop i := by
  have hall : Lexeme.all o ((opened.take i).map (·.kind.closing)) =
      (opened.take i).map fun x => ⟨.bracket (.closing x.kind), [x.kind.closing]⟩ := by
    have hh := Lexeme.all_brackets hb ((opened.take i).map fun x => .closing x.kind)
    rwa [List.map_map, List.map_map] at hh
  have hseam : scan o (s ++ (opened.take i).map (·.kind.closing)) =
      Scan.reported [] (tokens o s) ++ Scan.findings (Scan.after [] (tokens o s))
        (Lexeme.place (0 + Utf8.byteLength s)
          (Lexeme.all o ((opened.take i).map (·.kind.closing)))) :=
    Scan.findings_seam hm hs [] 0
  have hclose := Scan.findings_closings (opened.take i) (opened.drop i) (0 + Utf8.byteLength s)
  rw [List.take_append_drop, Scan.leftOpen_drop] at hclose
  rw [hseam, ho, hall, hclose]

end Records

/-- With what completes a source behind it, only the records about open brackets are gone, and with
the first part of that, as many of them as it has brackets, from the last one on. -/
theorem scanned_completed (o : ScanOptions) (s : List Char) (hm : o.MarksWithinLine)
    (hb : o.MarksWithoutBracket) (hs : o.EndsLine s) :
    scanned o (s ++ completion (scanned o s)) = (scanned o s).filter (!·.isUnclosed) ∧
    ∀ c, c <+: completion (scanned o s) →
      scanned o (s ++ c) = (scanned o s).filter (!·.isUnclosed) ++
        ((scanned o s).filter (·.isUnclosed)).rdrop c.length := by
  have hpart : ∀ c, c <+: completion (scanned o s) →
      scanned o (s ++ c) = (scanned o s).filter (!·.isUnclosed) ++
        ((scanned o s).filter (·.isUnclosed)).rdrop c.length := by
    intro c hc
    rw [completion_scanned] at hc
    have htake := List.prefix_iff_eq_take.mp hc
    rw [← List.map_take] at htake
    have hscan := scan_append_closings hm hb hs rfl c.length
    rw [← htake] at hscan
    rw [scanned_eq o (s ++ c), hscan, List.map_append, filter_not_isUnclosed_scanned,
      filter_isUnclosed_scanned]
    simp only [List.rdrop, List.map_take, List.length_map]
  refine ⟨?_, hpart⟩
  have hlen : ((scanned o s).filter (·.isUnclosed)).length = (completion (scanned o s)).length := by
    rw [filter_isUnclosed_scanned, completion_scanned]
    simp [Scan.leftOpen]
  rw [hpart _ List.prefix_rfl, ← hlen, List.rdrop, Nat.sub_self, List.take_zero, List.append_nil]

/-- A bracket that a wrong one has closed is not closed again. -/
theorem scanned_completed_mismatched :
    (({} : ScanOptions).MarksWithinLine ∧ ({} : ScanOptions).MarksWithoutBracket ∧
      ({} : ScanOptions).EndsLine "\x7b(]\n[(/\n".toList) ∧
    completion (scanned {} "\x7b(]\n[(/\n".toList) = ")]\x7d".toList ∧
    ")]".toList <+: completion (scanned {} "\x7b(]\n[(/\n".toList) ∧
    scanned {} ("\x7b(]\n[(/\n".toList ++ ")]".toList) =
      [.point (Utf8.encode "mismatched closing \x60]\x60, expected \x60)\x60".toList) 2,
        .point (Utf8.encode "unclosed \x60\x7b\x60".toList) 0] := by
  have hm : ({} : ScanOptions).MarksWithinLine := by
    intro m hm
    obtain rfl := Option.some.inj hm
    decide
  have hb : ({} : ScanOptions).MarksWithoutBracket := by
    intro m hm b
    obtain rfl := Option.some.inj hm
    rcases b with d | d <;> cases d <;> decide
  have hs : ({} : ScanOptions).EndsLine "\x7b(]\n[(/\n".toList := .inr ⟨by decide, by decide +kernel⟩
  have hc : completion (scanned {} "\x7b(]\n[(/\n".toList) = ")]\x7d".toList := by decide +kernel
  have hp : ")]".toList <+: completion (scanned {} "\x7b(]\n[(/\n".toList) := by
    rw [hc]
    exact ⟨['\x7d'], by decide⟩
  refine ⟨⟨hm, hb, hs⟩, hc, hp, ?_⟩
  rw [(scanned_completed {} _ hm hb hs).2 _ hp]
  decide +kernel

end BracketLint
