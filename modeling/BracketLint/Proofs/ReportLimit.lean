import BracketLint.Report.Printer

/-! A limit on reports. What is printed under one is a first part of what is printed without, and a
note that counts the rest. Without one each record gives a line of its own, whatever the others
are. An error that comes with no records is limited like one record. -/

namespace BracketLint

/-- How many things an error gives to report. -/
def LintError.reportCount : LintError → Nat
  | check (.rejected l) _ => l.size
  | _ => 1

theorem LintError.length_items (e : LintError) : e.items.length = e.reportCount := by
  unfold items
  split <;> simp [reportCount]

namespace Printer

def unlimited (p : Printer) : Printer := { p with settings := { p.settings with limit := none } }

variable (p : Printer) (e : LintError)

theorem item_unlimited : p.unlimited.item = p.item := by
  funext x
  cases hs : p.settings.style <;> cases x <;> simp [item, unlimited, hs, fancy, short]

theorem print_unlimited : p.unlimited.print e = e.items.map p.item := by
  have hshown : p.unlimited.shown e.items.length = e.items.length := rfl
  simp [print, hshown, item_unlimited]

theorem shown_eq (total : Nat) : p.shown total = p.settings.limit.elim total (min · total) := by
  cases hl : p.settings.limit <;> simp [shown, hl]

theorem print_eq_take : p.print e = (p.unlimited.print e).take (p.shown e.reportCount) ++
    if p.shown e.reportCount < e.reportCount then
      [note (e.reportCount - p.shown e.reportCount)] else [] := by
  rw [print_unlimited, print, e.length_items, List.map_take]

/-- Under the limit zero there is only the note. -/
theorem print_of_limit_zero (h : p.settings.limit = some 0) (he : 0 < e.reportCount) :
    p.print e = [note e.reportCount] := by
  have hshown : p.shown e.reportCount = 0 := by
    rw [shown_eq, h]
    exact Nat.zero_min _
  rw [print_eq_take, hshown, List.take_zero, if_pos he, List.nil_append, Nat.sub_zero]

/-- The line of a record, told what else matters to it. -/
def recordLine (style : ReportStyle) (handler : Handler) (path source : String) (r : Record) :
    String :=
  let place := (LineMap.ofBytes (Utf8.encode source.toList)).location r.start
  item ⟨handler, ⟨style, none⟩, path⟩ (.record r source place)

/-- The line of an error that is not about a place. -/
def errorLine (style : ReportStyle) (handler : Handler) (path : String) (e : LintError) : String :=
  item ⟨handler, ⟨style, none⟩, path⟩ (.error e)

theorem print_unlimited_rejected (l : RecordList) (source : String) :
    p.unlimited.print (.check (.rejected l) source) =
      l.toList.map (recordLine p.settings.style p.handler p.path source) := by
  rw [print_unlimited, LintError.items, List.map_map, ← item_unlimited]
  rfl

/-- Under a limit the first reports are printed as without one, and the others are counted in a
note, if there are any. Without a limit there is a line for each record, which is settled by that
record, the source, the path, the style and the handler, and one line for any other error. -/
theorem print_cut_at_limit :
    (∀ (p : Printer) (e : LintError),
      let n := e.reportCount
      let k := p.settings.limit.elim n (min · n)
      p.print e = (p.unlimited.print e).take k ++
          (if k < n then [toString (n - k) ++ " more diagnostics not shown"] else []) ∧
        (p.unlimited.print e).length = n) ∧
    ∃ (record : ReportStyle → Handler → String → String → Record → String)
      (error : ReportStyle → Handler → String → LintError → String),
      ∀ (p : Printer) (e : LintError), p.unlimited.print e = match e with
        | .check (.rejected l) source =>
          l.toList.map (record p.settings.style p.handler p.path source)
        | e => [error p.settings.style p.handler p.path e] := by
  refine ⟨fun p e => ⟨?_, ?_⟩, recordLine, errorLine, fun p e => ?_⟩
  · rw [← shown_eq]
    exact p.print_eq_take e
  · rw [print_unlimited, List.length_map, e.length_items]
  · split
    · exact p.print_unlimited_rejected _ _
    · rw [print_unlimited, ← item_unlimited, LintError.items]
      · rfl
      · assumption

end Printer

/-- The error comes with all that a scan found wrong. -/
def LintError.IsRejection (e : LintError) : Prop := ∃ l source, e = check (.rejected l) source

theorem LintError.items_of_not_isRejection {e : LintError} (h : ¬ e.IsRejection) :
    e.items = [.error e] := by
  unfold items
  split
  · exact absurd ⟨_, _, rfl⟩ h
  · rfl

namespace Printer

variable (p : Printer) {e : LintError}

theorem errorLine_short (handler : Handler) (path : String) (e : LintError) :
    errorLine .short handler path e = path ++ ": " ++ e.message := rfl

theorem colon_mem_named (path text : String) : ':' ∈ (path ++ ": " ++ text).toList := by simp

/-- A note has neither the colon of a one-line report nor the line end of a drawn one. -/
theorem errorLine_ne_note (style : ReportStyle) (handler : Handler) (path : String)
    (e : LintError) : errorLine style handler path e ≠ note 1 := by
  have hcolon (text : String) : path ++ ": " ++ text ≠ note 1 := by
    intro h
    have hm := colon_mem_named path text
    rw [h] at hm
    revert hm
    decide
  cases style with
  | fancy =>
    cases hd : handler.draw (.error e) with
    | none =>
      have hline : errorLine .fancy handler path e = path ++ ": " ++ e.message := by
        simp [errorLine, item, fancy, hd, ReportItem.text]
      rw [hline]
      exact hcolon e.message
    | some s =>
      have hline : errorLine .fancy handler path e = s := by simp [errorLine, item, fancy, hd]
      have hm := handler.newline_mem hd
      rw [hline]
      rintro rfl
      revert hm
      decide
  | short => exact hcolon e.message

theorem print_of_not_isRejection (h : ¬ e.IsRejection) :
    p.print e = if p.settings.limit = some 0 then [note 1]
      else [errorLine p.settings.style p.handler p.path e] := by
  have hline : p.item (.error e) = errorLine p.settings.style p.handler p.path e := by
    rw [← item_unlimited]
    rfl
  rw [print, e.items_of_not_isRejection h, List.length_singleton, shown_eq]
  cases hl : p.settings.limit with
  | none => simp [hline]
  | some limit =>
    cases limit with
    | zero => simp
    | succ limit => simp [hline]

/-- An error that is no rejection gives one string: its own line, unless the limit is zero. Then
the error is counted in a note, as if it were a record that is left out. -/
theorem print_alone_iff_limit_ne_zero (p : Printer) (e : LintError) (h : ¬ e.IsRejection) :
    (p.print e = [errorLine p.settings.style p.handler p.path e] ↔ p.settings.limit ≠ some 0) ∧
    (p.print e = ["1 more diagnostics not shown"] ↔ p.settings.limit = some 0) ∧
    errorLine .short p.handler p.path e = p.path ++ ": " ++ e.message := by
  have hne := errorLine_ne_note p.settings.style p.handler p.path e
  have hnote : ["1 more diagnostics not shown"] = [note 1] := by decide
  rw [p.print_of_not_isRejection h, hnote]
  refine ⟨?_, ?_, errorLine_short ..⟩
  · by_cases hl : p.settings.limit = some 0
    · simp [hl, hne.symm]
    · simp [hl]
  · by_cases hl : p.settings.limit = some 0
    · simp [hl]
    · simp [hl, hne]

theorem print_alone_iff_limit_ne_zero_abandoned :
    ¬ (LintError.check (.outOfMemory ⟨2, .message 27⟩) "x \x22open").IsRejection ∧
    (⟨.unicode, ⟨.short, some 1⟩, "f"⟩ : Printer).print
        (.check (.outOfMemory ⟨2, .message 27⟩) "x \x22open") =
      ["f: out of memory while recording diagnostic at offset 2"] := by
  have hno : ¬ (LintError.check (.outOfMemory ⟨2, .message 27⟩) "x \x22open").IsRejection := by
    rintro ⟨l, source, h⟩
    cases h
  refine ⟨hno, ?_⟩
  have hprint := (print_alone_iff_limit_ne_zero ⟨.unicode, ⟨.short, some 1⟩, "f"⟩ _ hno).1.mpr
    (by decide)
  rw [hprint]
  decide

/-- Under a limit of zero nothing is said of a file that cannot be read. -/
theorem print_unreadable_limit_zero :
    ¬ (LintError.io "missing").IsRejection ∧
    (⟨.unicode, ⟨.short, some 0⟩, "f"⟩ : Printer).print (.io "missing") =
      ["1 more diagnostics not shown"] ∧
    (⟨.unicode, ⟨.short, some 0⟩, "f"⟩ : Printer).print (.io "missing") ≠
      ["f: I/O error: missing"] := by
  refine ⟨?_, by decide, by decide⟩
  rintro ⟨l, source, h⟩
  cases h

end Printer

end BracketLint
