import Mathlib.Data.List.Basic
import BracketLint.Proofs.Encoding
import BracketLint.Proofs.ReportLimit

/-! Reading one-line reports back. The path is known, a number ends where its digits do, and the
message comes last, so a line says which record it was made from, whatever the message and the
path look like. -/

namespace BracketLint

open Utf8

/-- The number at the head of a text, and what comes after its digits. -/
def readNumber (s : List Char) : Nat × List Char :=
  (Nat.ofDigitChars 10 (s.takeWhile Char.isDigit) 0, s.dropWhile Char.isDigit)

theorem readNumber_toString (n : Nat) (s : List Char) :
    readNumber ((toString n).toList ++ ':' :: s) = (n, ':' :: s) := by
  have hdigits : (toString n).toList = Nat.toDigits 10 n := by
    rw [Nat.toString_eq_ofList_toDigits, String.toList_ofList]
  have hall : ∀ c ∈ Nat.toDigits 10 n, c.isDigit := fun c hc =>
    Nat.isDigit_of_mem_toDigits (by decide) (by decide) hc
  rw [readNumber, hdigits, List.takeWhile_append_of_pos hall, List.dropWhile_append_of_pos hall]
  have hcolon : Char.isDigit ':' = false := by decide
  rw [List.takeWhile_cons_of_neg (by simp [hcolon]), List.dropWhile_cons_of_neg (by simp [hcolon]),
    List.append_nil, Nat.ofDigitChars_ten_toDigits]

theorem dropPrefix?_append (before s : List Char) : (before ++ s).dropPrefix? before = some s :=
  List.dropPrefix?_append_of_beq s (beq_self_eq_true before)

theorem dropPrefix?_cons (c : Char) (s : List Char) : (c :: s).dropPrefix? [c] = some s :=
  dropPrefix?_append [c] s

namespace LineColumn

def read? (s : List Char) : Option (LineColumn × List Char) := do
  let (line, s) := readNumber s
  let s ← s.dropPrefix? [':']
  let (column, s) := readNumber s
  some (⟨line, UInt32.ofNat (column - 1)⟩, s)

theorem read?_text (p : LineColumn) (s : List Char) :
    read? (p.text.toList ++ ':' :: s) = some (p, ':' :: s) := by
  have htext : p.text.toList ++ ':' :: s = (toString p.line).toList ++
      ':' :: ((toString (p.column.toNat + 1)).toList ++ ':' :: s) := by
    simp [text]
  rw [read?, htext, readNumber_toString]
  simp only [dropPrefix?_cons, Option.bind_eq_bind, Option.bind_some, readNumber_toString,
    Nat.add_sub_cancel, UInt32.ofNat_toNat]

end LineColumn

/-- The offset in a column of a line, also past the end of the line. -/
def LineMap.offset? (x : LineMap) (p : LineColumn) : Option UInt32 :=
  x.starts[p.line - 1]?.map (· + p.column)

theorem LineMap.offset?_location (x : LineMap) (offset : UInt32) :
    x.offset? (x.location offset) = some offset := by
  have hline : x.line offset - 1 < x.starts.size := by
    have hle := x.line_le offset
    have hpos := x.size_pos
    unfold lineCount at hle
    omega
  simp only [offset?, location, Array.getElem?_eq_getElem hline, Option.map_some]
  -- the column was counted from this start, so it does not matter which one it is
  rw [UInt32.add_comm, UInt32.sub_add_cancel]

namespace ShortReport

def printer (handler : Handler) (path : String) : Printer := ⟨handler, ⟨.short, none⟩, path⟩

/-- The position and the text of the record that a line was printed for. -/
def readLine? (path source line : String) : Option (UInt32 × List Char) := do
  let s ← line.toList.dropPrefix? (path.toList ++ [':'])
  let (place, s) ← LineColumn.read? s
  let text ← s.dropPrefix? [':', ' ']
  let position ← (LineMap.ofBytes (encode source.toList)).offset? place
  some (position, text)

def read? (path source : String) (lines : List String) : Option (List (UInt32 × List Char)) :=
  lines.mapM (readLine? path source)

variable (handler : Handler) (path source : String)

theorem readLine?_recordLine (r : Record) :
    readLine? path source (Printer.recordLine .short handler path source r) =
      some (r.start, r.text) := by
  let x := LineMap.ofBytes (encode source.toList)
  have hline : (Printer.recordLine .short handler path source r).toList =
      (path.toList ++ [':']) ++
        ((x.location r.start).text.toList ++ ':' :: ([' '] ++ r.text)) := by
    simp [Printer.recordLine, Printer.item, Printer.short, x]
  have htext : (':' :: ([' '] ++ r.text)).dropPrefix? [':', ' '] = some r.text :=
    dropPrefix?_append [':', ' '] r.text
  rw [readLine?, hline, dropPrefix?_append]
  simp only [Option.bind_eq_bind, Option.bind_some, LineColumn.read?_text, htext, x,
    LineMap.offset?_location]

theorem print_eq (l : RecordList) : (printer handler path).print (.check (.rejected l) source) =
    l.toList.map (Printer.recordLine .short handler path source) :=
  (printer handler path).print_unlimited_rejected l source

theorem read?_print (l : RecordList) :
    read? path source ((printer handler path).print (.check (.rejected l) source)) =
      some (l.toList.map fun r => (r.start, r.text)) := by
  have hread : readLine? path source ∘ Printer.recordLine .short handler path source =
      fun r => pure (r.start, r.text) :=
    funext fun r => readLine?_recordLine handler path source r
  rw [print_eq, read?, List.mapM_map, hread, List.mapM_pure]
  rfl

end ShortReport

/-- A record of a text at one position. -/
def Record.IsText (r : Record) : Prop := ∃ text position, r = .point (encode text) position

theorem Record.IsText.point_text {r : Record} (h : r.IsText) :
    .point (encode r.text) r.start = r := by
  obtain ⟨text, position, rfl⟩ := h
  exact congrArg (fun s => Record.point (encode s) position) (lossy_encode text)

theorem map_point_of_isText {l : List Record} (h : ∀ r ∈ l, r.IsText) :
    (l.map fun r => (r.start, r.text)).map (fun x => .point (encode x.2) x.1) = l := by
  rw [List.map_map]
  exact (List.map_congr_left fun r hr => (h r hr).point_text).trans l.map_id

namespace ShortReport

/-- The report of a rejected source can be read back, with the source and the path at hand, into
the positions and the texts of its records. Two lists of texts get the same report only if they
are equal. -/
theorem report_determines_records (handler : Handler) (path source : String) :
    let report (l : RecordList) := (printer handler path).print (.check (.rejected l) source)
    (∀ l, read? path source (report l) = some (l.toList.map fun r => (r.start, r.text))) ∧
    ∀ l m : RecordList, (∀ r ∈ l.toList, r.IsText) → (∀ r ∈ m.toList, r.IsText) →
      (report l = report m ↔ l == m) := by
  intro report
  have hread := read?_print handler path source
  refine ⟨hread, fun l m hl hm => ⟨fun h => ?_, fun h => ?_⟩⟩
  · have hmap : l.toList.map (fun r => (r.start, r.text)) =
        m.toList.map fun r => (r.start, r.text) :=
      Option.some.inj ((hread l).symm.trans ((congrArg _ h).trans (hread m)))
    rw [RecordList.beq_eq, beq_iff_eq, ← map_point_of_isText hl, hmap, map_point_of_isText hm]
  · rw [RecordList.beq_eq, beq_iff_eq] at h
    simp only [report, print_eq, h]

/-- A message that looks like a place, at the greatest offset and at the one before it, in a source
of two bytes. -/
theorem report_determines_records_past_end :
    let message := ['1', ':', '2', ':', ' ', '\n']
    let l := RecordList.empty.push (.point (encode message) 4294967295)
    let m := RecordList.empty.push (.point (encode message) 4294967294)
    let report (l : RecordList) := (printer .ascii "a:1").print (.check (.rejected l) ")\n")
    (∀ r ∈ l.toList, r.IsText) ∧ (∀ r ∈ m.toList, r.IsText) ∧
      read? "a:1" ")\n" (report l) = some [(4294967295, message)] ∧ report l ≠ report m := by
  intro message l m report
  obtain ⟨hread, hequal⟩ := report_determines_records .ascii "a:1" ")\n"
  have hpoint : ∀ i, ∀ r ∈ (RecordList.empty.push (.point (encode message) i)).toList,
      r.IsText := by
    intro i r hr
    obtain rfl : r = .point (encode message) i := by simpa using hr
    exact ⟨message, i, rfl⟩
  refine ⟨hpoint _, hpoint _, ?_, fun h => ?_⟩
  · rw [hread]
    simp [l, Record.text, Record.point, lossy_encode]
  · have hlm := (hequal l m (hpoint _) (hpoint _)).mp h
    rw [RecordList.beq_eq] at hlm
    simp [l, m, Record.point] at hlm

end ShortReport

end BracketLint
