import BracketLint.Proofs.Placement

/-! The verdict on a source is that of one scan into an empty list, whatever memory is refused.
Nothing is lost on the way: neither a record, nor the refusal, nor the source. What is shown of a
rejection is its first record and how many follow. -/

namespace BracketLint

section Check

variable {o : ScanOptions} {s : List Char} {memory : Nat → Memory} {l : RecordList}

theorem value_check (o : ScanOptions) (s : List Char) (memory : Nat → Memory) :
    (check o s memory).value =
      match (scanInto o s memory .empty).value with
      | (.error e, _) => .error (.outOfMemory e)
      | (.ok (), l) => if l.toList = [] then .ok () else .error (.rejected l) := by
  rcases hd : (scanInto o s memory .empty).value with ⟨e | ⟨⟩, l⟩
  · simp only [check, Logged.value_bind, hd, Logged.value_pure]
  · simp only [check, Logged.value_bind, hd, RecordList.isEmpty_eq, List.isEmpty_iff]
    split <;> rfl

theorem check_eq_ok_iff : (check o s memory).value = .ok () ↔
    (scanInto o s memory .empty).value.1 = .ok () ∧
      (scanInto o s memory .empty).value.2.toList = [] := by
  rw [value_check]
  rcases (scanInto o s memory .empty).value with ⟨e | ⟨⟩, l⟩ <;> simp

theorem check_eq_rejected_iff : (check o s memory).value = .error (.rejected l) ↔
    ((scanInto o s memory .empty).value.1 = .ok () ∧
      (scanInto o s memory .empty).value.2.toList ≠ []) ∧
    l = (scanInto o s memory .empty).value.2 := by
  rw [value_check]
  rcases (scanInto o s memory .empty).value with ⟨e | ⟨⟩, m⟩
  · simp
  · by_cases hm : m.toList = [] <;> simp [hm, eq_comm]

theorem check_eq_outOfMemory_iff {e : OutOfMemory} :
    (check o s memory).value = .error (.outOfMemory e) ↔
      (scanInto o s memory .empty).value.1 = .error e := by
  rw [value_check]
  rcases (scanInto o s memory .empty).value with ⟨e' | ⟨⟩, m⟩
  · simp
  · by_cases hm : m.toList = [] <;> simp [hm]

/-- A rejection has a first record, with the words for a problem. -/
theorem exists_first_of_check_eq_rejected (h : (check o s memory).value = .error (.rejected l)) :
    ∃ first rest, l.toList = first :: rest ∧ ∃ p : Problem, first.text = p.message := by
  obtain ⟨⟨-, hne⟩, rfl⟩ := check_eq_rejected_iff.mp h
  obtain ⟨first, rest, hl⟩ := List.exists_cons_of_ne_nil hne
  have hscanned := toList_of_scanInto_eq_ok (scanInto_of_check_eq_rejected h)
  rw [hl, RecordList.toList_empty, List.nil_append, scanned_eq] at hscanned
  obtain ⟨f, -, hf⟩ := List.mem_map.mp (hscanned ▸ List.mem_cons_self)
  refine ⟨first, rest, hl, f.problem, ?_⟩
  rw [← hf]
  exact Utf8.lossy_encode f.problem.message

end Check

section Lint

variable {settings : Settings} {source : String} {memory : Nat → Memory}

theorem lint_eq_ok_iff : (lint settings source memory).value = .ok () ↔
    (check settings.scan source.toList memory).value = .ok () := by
  rw [value_lint]
  rcases (check settings.scan source.toList memory).value with e | ⟨⟩ <;> simp

theorem lint_eq_error_iff {x : LintError} : (lint settings source memory).value = .error x ↔
    ∃ e, (check settings.scan source.toList memory).value = .error e ∧ x = .check e source := by
  rw [value_lint]
  rcases (check settings.scan source.toList memory).value with e | ⟨⟩ <;> simp [eq_comm]

theorem lint_eq_check_iff {e : CheckError} {src : String} :
    (lint settings source memory).value = .error (.check e src) ↔
      (check settings.scan source.toList memory).value = .error e ∧ src = source := by
  rw [lint_eq_error_iff]
  constructor
  · rintro ⟨e', he, h⟩
    cases h
    exact ⟨he, rfl⟩
  · rintro ⟨he, rfl⟩
    exact ⟨e, he, rfl⟩

end Lint

theorem SpeaksOf.head? {text : List Char} {c : Char} (h : SpeaksOf text c) :
    text.head? = some 'u' ∨ text.head? = some 'm' := by
  cases h with
  | unexpectedClosing =>
    rw [List.head?_append_of_ne_nil _ (by decide)]
    exact .inl (by decide)
  | mismatchedClosing e =>
    rw [List.append_assoc, List.append_assoc, List.head?_append_of_ne_nil _ (by decide)]
    exact .inr (by decide)
  | unterminatedString => exact .inl (by decide)
  | unclosed =>
    rw [List.head?_append_of_ne_nil _ (by decide)]
    exact .inl (by decide)

namespace CheckError

variable {l : RecordList} {first : Record} {rest : List Record}

theorem message_rejected (h : l.toList = first :: rest) :
    (rejected l).message = String.ofList first.text ++
      if rest = [] then "" else " (+" ++ toString rest.length ++ " more)" := by
  have hfirst : l.first? = some first := by rw [RecordList.first?_eq, h, List.head?_cons]
  have hsize : l.size = rest.length + 1 := by rw [← l.length_toList, h, List.length_cons]
  simp only [message, summary, hfirst, hsize, Nat.add_sub_cancel]
  cases rest <;> simp

/-- No problem is worded like a list without records. -/
theorem message_rejected_ne {p : Problem} (h : l.toList = first :: rest)
    (hp : first.text = p.message) : (rejected l).message ≠ "no diagnostics recorded" := by
  intro he
  have hn : (rejected l).message.toList.head? = some 'n' := by
    rw [he]
    decide
  have hne : p.message ≠ [] := by
    intro hnil
    have hhead := p.speaksOf.head?
    simp [hnil] at hhead
  rw [message_rejected h, String.toList_append, String.toList_ofList, hp,
    List.head?_append_of_ne_nil _ hne] at hn
  rcases p.speaksOf.head? with hu | hm
  · rw [hn] at hu
    cases hu
  · rw [hn] at hm
    cases hm

theorem message_outOfMemory_ne (e : OutOfMemory) :
    (outOfMemory e).message ≠ "no diagnostics recorded" := by
  intro he
  have hhead : (outOfMemory e).message.toList.head? = some 'o' := by
    change ("out of memory while recording diagnostic at offset " ++
      toString e.position.toNat).toList.head? = _
    rw [String.toList_append, List.head?_append_of_ne_nil _ (by simp)]
    simp
  rw [he] at hhead
  revert hhead
  decide

end CheckError

/-- A source is accepted if scanning it into an empty list records nothing, and else rejected with
that list. A scan that is given up is passed on, and no other error comes about. The error keeps the
source. A rejection is shown by its first record and the number of the others, and never as one
without records. -/
theorem lint_settled_by_scan (settings : Settings) (source : String) (memory : Nat → Memory) :
    let done := (scanInto ⟨settings.scan.strings, settings.scan.lineComment⟩ source.toList memory
      .empty).value
    ((lint settings source memory).value = .ok () ↔ done.1 = .ok () ∧ done.2.toList = []) ∧
    (∀ l src, (lint settings source memory).value = .error (.check (.rejected l) src) ↔
      ((done.1 = .ok () ∧ done.2.toList ≠ []) ∧ l = done.2) ∧ src = source) ∧
    (∀ e src, (lint settings source memory).value = .error (.check (.outOfMemory e) src) ↔
      done.1 = .error e ∧ src = source) ∧
    (∀ x, (lint settings source memory).value = .error x → ∃ e, x = .check e source) ∧
    (∀ l src, (lint settings source memory).value = .error (.check (.rejected l) src) →
      ∃ first rest, l.toList = first :: rest ∧ (LintError.check (.rejected l) src).message =
        String.ofList first.text ++
          if rest = [] then "" else " (+" ++ toString rest.length ++ " more)") ∧
    ∀ x, (lint settings source memory).value = .error x → x.message ≠ "no diagnostics recorded" := by
  refine ⟨lint_eq_ok_iff.trans check_eq_ok_iff,
    fun l src => lint_eq_check_iff.trans (and_congr_left' check_eq_rejected_iff),
    fun e src => lint_eq_check_iff.trans (and_congr_left' check_eq_outOfMemory_iff), ?_, ?_, ?_⟩
  · intro x h
    obtain ⟨e, -, hx⟩ := lint_eq_error_iff.mp h
    exact ⟨e, hx⟩
  · intro l src h
    obtain ⟨first, rest, hl, -⟩ := exists_first_of_check_eq_rejected (lint_eq_check_iff.mp h).1
    exact ⟨first, rest, hl, CheckError.message_rejected hl⟩
  · intro x h
    obtain ⟨e, he, rfl⟩ := lint_eq_error_iff.mp h
    cases e with
    | rejected l =>
      obtain ⟨first, rest, hl, p, hp⟩ := exists_first_of_check_eq_rejected he
      exact CheckError.message_rejected_ne hl hp
    | outOfMemory e => exact CheckError.message_outOfMemory_ne e

/-- Without strings a quote hides no brackets, and after a sharp they are hidden. If the second
record is refused, only its place is told. -/
theorem lint_settled_by_scan_quoted :
    (∃ l, (lint { scan := ⟨false, some "#"⟩ } "\x22)( # [" fun _ => .plenty).value =
        .error (.check (.rejected l) "\x22)( # [") ∧
      (LintError.check (.rejected l) "\x22)( # [").message =
        "unexpected closing \x60)\x60 (+1 more)") ∧
    ∃ e, (lint { scan := ⟨false, some "#"⟩ } "\x22)( # [" fun i _ => i != 1).value =
        .error (.check (.outOfMemory e) "\x22)( # [") ∧ e.position = 2 := by
  have hscanned : scanned ⟨false, some "#"⟩ "\x22)( # [".toList =
      [.point (Utf8.encode "unexpected closing \x60)\x60".toList) 1,
        .point (Utf8.encode "unclosed \x60(\x60".toList) 2] := by decide +kernel
  constructor
  · obtain ⟨l, he, -⟩ := scanInto_granted ⟨false, some "#"⟩ "\x22)( # [".toList .empty
    have hl : l.toList = _ := (congrArg (·.2.toList) he).symm.trans hscanned
    obtain ⟨-, hrejected, -, -, hmessage, -⟩ :=
      lint_settled_by_scan { scan := ⟨false, some "#"⟩ } "\x22)( # [" fun _ => .plenty
    have hne : l.toList ≠ [] := hl.trans_ne (List.cons_ne_nil _ _)
    have h := (hrejected l "\x22)( # [").mpr ⟨⟨⟨congrArg Prod.fst he,
      (congrArg (·.2.toList) he).trans_ne hne⟩, (congrArg Prod.snd he).symm⟩, rfl⟩
    obtain ⟨first, rest, hcons, hm⟩ := hmessage _ _ h
    obtain ⟨rfl, rfl⟩ := List.cons.inj (hcons.symm.trans hl)
    exact ⟨l, h, hm.trans (by decide)⟩
  · have hfirst : Refusal.First (fun i _ => i != 1) .empty
        (scanned ⟨false, some "#"⟩ "\x22)( # [".toList) 1 := by
      rw [Refusal.first_all_or_nothing fun _ => message_ne_nil_of_mem_scanned, hscanned]
      decide
    obtain ⟨e, l, r, he, hr, hp, -⟩ := scanInto_of_first hfirst
    obtain ⟨-, -, houtOfMemory, -⟩ :=
      lint_settled_by_scan { scan := ⟨false, some "#"⟩ } "\x22)( # [" fun i _ => i != 1
    rw [hscanned] at hr
    obtain rfl := Option.some.inj hr
    exact ⟨e, (houtOfMemory e _).mpr ⟨congrArg Prod.fst he, rfl⟩, hp⟩

end BracketLint
