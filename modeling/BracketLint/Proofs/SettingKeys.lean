import BracketLint.Proofs.GroupFields
import BracketLint.Proofs.Placement

/-! Each setting is what its own key says, or the usual one. The other keys of a document do not
change it, and neither do keys that are no settings. But all values are read, and a document with a
number beyond the doubles is refused, whatever the key of the number is. -/

namespace BracketLint

open Toml

namespace Settings

section Tells

variable {v : Value}

-- What a value says about each setting.

def TellsStrings (v : Value) (strings : Bool) : Prop := ∃ span, v = .boolean span strings

def TellsLineComment (v : Value) (lineComment : Option String) : Prop :=
  ∃ span mark, v = .string span mark ∧ lineComment = some mark

def TellsStyle (v : Value) (style : ReportStyle) : Prop := ∃ span, v = .string span style.name

def TellsLimit (v : Value) (limit : Option Nat) : Prop :=
  ∃ span, ∃ n : Nat, v = .integer span n ∧ limit = some n

theorem toBool_eq_ok_iff {strings : Bool} : v.toBool = .ok strings ↔ TellsStrings v strings := by
  cases v <;> simp [Value.toBool, TellsStrings]

theorem toText_eq_ok_iff {lineComment : Option String} :
    v.toText.map some = .ok lineComment ↔ TellsLineComment v lineComment := by
  cases v <;> simp [Value.toText, TellsLineComment, Except.map, eq_comm]

theorem toVariant_eq_ok_iff {style : ReportStyle} (h : ∃ span s, v = .string span s) :
    v.toVariant (ReportStyle.all.map fun s => (s.name, s)) = .ok style ↔ TellsStyle v style := by
  obtain ⟨span, s, rfl⟩ := h
  have hchoose : Value.toVariant (ReportStyle.all.map fun s => (s.name, s)) (.string span s) =
      Value.choose [("fancy", .fancy), ("short", .short)] ⟨s, span⟩ := rfl
  rw [hchoose, Value.choose]
  by_cases hfancy : s = "fancy"
  · subst hfancy
    cases style <;> simp [TellsStyle, ReportStyle.name]
  · by_cases hshort : s = "short"
    · subst hshort
      cases style <;> simp [TellsStyle, ReportStyle.name, List.lookup_cons]
    · cases style <;> simp [TellsStyle, ReportStyle.name, List.lookup_cons, beq_false_of_ne hfancy,
        beq_false_of_ne hshort, hfancy, hshort]

theorem toCount_eq_ok_iff {limit : Option Nat} (h : v.IntegerFits) :
    (v.toCount "usize").map some = .ok limit ↔ TellsLimit v limit := by
  cases v with
  | integer span n =>
    obtain ⟨hlow, hhigh⟩ := h
    by_cases hn : 0 ≤ n
    · have hfits : 0 ≤ n ∧ n < Int.pow 2 64 := ⟨hn, hhigh.trans (by decide)⟩
      lift n to Nat using hn
      rw [Value.toCount, if_pos hfits]
      simp [TellsLimit, Except.map, eq_comm]
    · have hnegative : -Int.pow 2 63 ≤ n ∧ n < 0 := ⟨hlow, not_le.mp hn⟩
      rw [Value.toCount, if_neg (fun hfits => hn hfits.1), if_pos hnegative]
      refine iff_of_false nofun ?_
      rintro ⟨_, k, h, -⟩
      cases h
      exact hn (Int.natCast_nonneg k)
  | _ => simp [Value.toCount, TellsLimit, Except.map]

theorem plain_tellsStrings : Plain TellsStrings where
  unplaced v b := by cases v <;> simp [TellsStrings, Value.unplaced]
  unique := by
    rintro v b b' ⟨span, rfl⟩ ⟨span', h⟩
    cases h
    rfl
  fits := by
    rintro v b ⟨span, rfl⟩
    exact (Value.everywhere_of_isSingle rfl).mpr trivial

theorem plain_tellsLineComment : Plain TellsLineComment where
  unplaced v b := by cases v <;> simp [TellsLineComment, Value.unplaced]
  unique := by
    rintro v b b' ⟨span, mark, rfl, rfl⟩ ⟨span', mark', h, rfl⟩
    cases h
    rfl
  fits := by
    rintro v b ⟨span, mark, rfl, -⟩
    exact (Value.everywhere_of_isSingle rfl).mpr trivial

theorem plain_tellsStyle : Plain TellsStyle where
  unplaced v b := by cases v <;> simp [TellsStyle, Value.unplaced]
  unique := by
    rintro v b b' ⟨span, rfl⟩ ⟨span', h⟩
    cases b <;> cases b' <;> simp_all [ReportStyle.name]
  fits := by
    rintro v b ⟨span, rfl⟩
    exact (Value.everywhere_of_isSingle rfl).mpr trivial

theorem plain_tellsLimit : Plain TellsLimit where
  unplaced v b := by cases v <;> simp [TellsLimit, Value.unplaced]
  unique := by
    rintro v b b' ⟨span, n, rfl, rfl⟩ ⟨span', n', h, rfl⟩
    simp_all
  fits := by
    rintro v b ⟨span, n, rfl, -⟩
    exact (Value.everywhere_of_isSingle rfl).mpr trivial

end Tells

section Sections

variable {t : Table}

theorem scan_ofValue_eq_ok_iff {o : ScanOptions} (ht : t.Ordered)
    (hintegers : t.toValue.Everywhere Value.IntegerFits) :
    ScanOptions.ofValue t.toValue = .ok o ↔
      (Said TellsStrings true (t.get? "strings") o.strings ∧
        Said TellsLineComment (some "//") (t.get? "line_comment") o.lineComment) ∧
      t.toValue.Everywhere Value.FloatFits := by
  rw [← Said.congr fun v _ _ => toBool_eq_ok_iff, ← Said.congr fun v _ _ => toText_eq_ok_iff]
  apply toGroup_eq_ok_iff ScanOptions.mk _ _ _ (by decide) _ _ ht hintegers
  · exact fun v b _ h => plain_tellsStrings.fits v b (toBool_eq_ok_iff.mp h)
  · exact fun v c _ h => plain_tellsLineComment.fits v c (toText_eq_ok_iff.mp h)
  · rintro ⟨strings, lineComment⟩ b c
    simp
  · intro v b c
    cases v.toBool <;> rfl
  · intro v b c
    cases v.toText <;> rfl

theorem report_ofValue_eq_ok_iff {r : ReportSettings} (ht : t.Ordered)
    (hintegers : t.toValue.Everywhere Value.IntegerFits)
    (hstyle : ∀ v, t.get? "style" = some v → ∃ span s, v = .string span s) :
    ReportSettings.ofValue t.toValue = .ok r ↔
      (Said TellsStyle .fancy (t.get? "style") r.style ∧
        Said TellsLimit none (t.get? "limit") r.limit) ∧
      t.toValue.Everywhere Value.FloatFits := by
  have hlimit : ∀ v, t.get? "limit" = some v → v.IntegerFits := fun v hv =>
    t.everywhere_get? hintegers hv v (.self v)
  rw [← Said.congr fun v hv _ => toVariant_eq_ok_iff (hstyle v hv),
    ← Said.congr fun v hv _ => toCount_eq_ok_iff (hlimit v hv)]
  apply toGroup_eq_ok_iff ReportSettings.mk _ _ _ (by decide) _ _ ht hintegers
  · exact fun v b hv h => plain_tellsStyle.fits v b ((toVariant_eq_ok_iff (hstyle v hv)).mp h)
  · exact fun v c hv h => plain_tellsLimit.fits v c ((toCount_eq_ok_iff (hlimit v hv)).mp h)
  · rintro ⟨style, limit⟩ b c
    simp
  · intro v b c
    cases v.toVariant (ReportStyle.all.map fun s => (s.name, s)) <;> rfl
  · intro v b c
    cases v.toCount "usize" <;> rfl

end Sections

/-- A document whose sections are tables, whose style is a string and whose integers fit in 64
bits. -/
structure Regular (document : Table) : Prop where
  scan : ∀ v, document.get? "scan" = some v → ∃ t : Table, v = t.toValue
  report : ∀ v, document.get? "report" = some v → ∃ t : Table, v = t.toValue
  style : ∀ v, document.setting? "report" "style" = some v → ∃ span s, v = .string span s
  integers : document.toValue.Everywhere Value.IntegerFits

/-- Each setting is what its own key says, or the usual one. -/
structure Describes (document : Table) (settings : Settings) : Prop where
  strings : Said TellsStrings true (document.setting? "scan" "strings") settings.scan.strings
  lineComment : Said TellsLineComment (some "//") (document.setting? "scan" "line_comment")
    settings.scan.lineComment
  style : Said TellsStyle .fancy (document.setting? "report" "style") settings.report.style
  limit : Said TellsLimit none (document.setting? "report" "limit") settings.report.limit

section Document

variable {document : Table} {settings : Settings} {v : Value}

theorem scan_eq_ok_iff {o : ScanOptions} (ho : document.Ordered) (h : Regular document)
    (hscan : document.get? "scan" = some v) :
    ScanOptions.ofValue v = .ok o ↔
      (Said TellsStrings true (document.setting? "scan" "strings") o.strings ∧
        Said TellsLineComment (some "//") (document.setting? "scan" "line_comment") o.lineComment) ∧
      v.Everywhere Value.FloatFits := by
  obtain ⟨t, rfl⟩ := h.scan v hscan
  simp only [Table.setting?_of_some hscan]
  exact scan_ofValue_eq_ok_iff (Table.ordered_iff.mp (ho.get? hscan))
    (Table.everywhere_get? h.integers hscan)

theorem report_eq_ok_iff {r : ReportSettings} (ho : document.Ordered) (h : Regular document)
    (hreport : document.get? "report" = some v) :
    ReportSettings.ofValue v = .ok r ↔
      (Said TellsStyle .fancy (document.setting? "report" "style") r.style ∧
        Said TellsLimit none (document.setting? "report" "limit") r.limit) ∧
      v.Everywhere Value.FloatFits := by
  obtain ⟨t, rfl⟩ := h.report v hreport
  have hstyle := h.style
  simp only [Table.setting?_of_some hreport] at hstyle ⊢
  exact report_ofValue_eq_ok_iff (Table.ordered_iff.mp (ho.get? hreport))
    (Table.everywhere_get? h.integers hreport) hstyle

theorem said_scan_iff {o : ScanOptions} (ho : document.Ordered) (h : Regular document)
    (hfits : document.toValue.Everywhere Value.FloatFits) :
    Said (ScanOptions.ofValue · = .ok ·) {} (document.get? "scan") o ↔
      Said TellsStrings true (document.setting? "scan" "strings") o.strings ∧
        Said TellsLineComment (some "//") (document.setting? "scan" "line_comment") o.lineComment := by
  cases hscan : document.get? "scan" with
  | none =>
    simp only [Table.setting?_of_none hscan]
    cases o
    simp [Said]
  | some v =>
    exact (scan_eq_ok_iff ho h hscan).trans (and_iff_left (Table.everywhere_get? hfits hscan))

theorem said_report_iff {r : ReportSettings} (ho : document.Ordered) (h : Regular document)
    (hfits : document.toValue.Everywhere Value.FloatFits) :
    Said (ReportSettings.ofValue · = .ok ·) {} (document.get? "report") r ↔
      Said TellsStyle .fancy (document.setting? "report" "style") r.style ∧
        Said TellsLimit none (document.setting? "report" "limit") r.limit := by
  cases hreport : document.get? "report" with
  | none =>
    simp only [Table.setting?_of_none hreport]
    cases r
    simp [Said]
  | some v =>
    exact (report_eq_ok_iff ho h hreport).trans (and_iff_left (Table.everywhere_get? hfits hreport))

theorem ofValue_eq_ok_iff (ho : document.Ordered) (h : Regular document) :
    ofValue document.toValue = .ok settings ↔
      Describes document settings ∧ document.toValue.Everywhere Value.FloatFits := by
  have hgroup : ofValue document.toValue = .ok settings ↔
      (Said (ScanOptions.ofValue · = .ok ·) {} (document.get? "scan") settings.scan ∧
        Said (ReportSettings.ofValue · = .ok ·) {} (document.get? "report") settings.report) ∧
      document.toValue.Everywhere Value.FloatFits := by
    apply toGroup_eq_ok_iff Settings.mk _ _ _ (by decide) _ _ ho h.integers
    · exact fun v o hscan hv => ((scan_eq_ok_iff ho h hscan).mp hv).2
    · exact fun v r hreport hv => ((report_eq_ok_iff ho h hreport).mp hv).2
    · rintro ⟨scan, report⟩ b c
      simp
    · intro v b c
      cases ScanOptions.ofValue v <;> rfl
    · intro v b c
      cases ReportSettings.ofValue v <;> rfl
  refine hgroup.trans (and_congr_left fun hfits => ?_)
  rw [said_scan_iff ho h hfits, said_report_iff ho h hfits]
  constructor
  · rintro ⟨⟨hstrings, hlineComment⟩, hstyle, hlimit⟩
    exact ⟨hstrings, hlineComment, hstyle, hlimit⟩
  · rintro ⟨hstrings, hlineComment, hstyle, hlimit⟩
    exact ⟨⟨hstrings, hlineComment⟩, hstyle, hlimit⟩

theorem ofText_eq_ok_iff {text : String} (hparse : Document.parse text = .ok document)
    (h : Regular document) : ofText text = .ok settings ↔
      Describes document settings ∧ document.toValue.Everywhere Value.FloatFits := by
  rw [← ofValue_eq_ok_iff (Document.ordered_parse text document hparse) h]
  simp only [ofText, hparse]
  cases ofValue document.toValue <;> simp

/-- The settings of a document have values of their kinds. -/
structure Valid (document : Table) : Prop where
  strings : ∀ v, document.setting? "scan" "strings" = some v → ∃ span b, v = .boolean span b
  lineComment : ∀ v, document.setting? "scan" "line_comment" = some v → ∃ span s, v = .string span s
  style : ∀ v, document.setting? "report" "style" = some v →
    ∃ span, v = .string span "fancy" ∨ v = .string span "short"
  limit : ∀ v, document.setting? "report" "limit" = some v → ∃ span n, v = .integer span n ∧ 0 ≤ n

theorem exists_describes_iff : (∃ settings, Describes document settings) ↔ Valid document := by
  constructor
  · rintro ⟨settings, h⟩
    refine ⟨fun v hv => ?_, fun v hv => ?_, fun v hv => ?_, fun v hv => ?_⟩
    · obtain ⟨b, span, rfl⟩ := exists_said_iff.mp ⟨_, h.strings⟩ v hv
      exact ⟨span, b, rfl⟩
    · obtain ⟨_, span, s, rfl, -⟩ := exists_said_iff.mp ⟨_, h.lineComment⟩ v hv
      exact ⟨span, s, rfl⟩
    · obtain ⟨style, span, rfl⟩ := exists_said_iff.mp ⟨_, h.style⟩ v hv
      cases style with
      | fancy => exact ⟨span, .inl rfl⟩
      | short => exact ⟨span, .inr rfl⟩
    · obtain ⟨_, span, n, rfl, -⟩ := exists_said_iff.mp ⟨_, h.limit⟩ v hv
      exact ⟨span, n, rfl, Int.natCast_nonneg n⟩
  · intro h
    obtain ⟨strings, hstrings⟩ : ∃ b, Said TellsStrings true _ b :=
      exists_said_iff.mpr fun v hv => by
        obtain ⟨span, b, rfl⟩ := h.strings v hv
        exact ⟨b, span, rfl⟩
    obtain ⟨lineComment, hlineComment⟩ : ∃ b, Said TellsLineComment (some "//") _ b :=
      exists_said_iff.mpr fun v hv => by
        obtain ⟨span, s, rfl⟩ := h.lineComment v hv
        exact ⟨some s, span, s, rfl, rfl⟩
    obtain ⟨style, hstyle⟩ : ∃ b, Said TellsStyle .fancy _ b := exists_said_iff.mpr fun v hv => by
        obtain ⟨span, rfl | rfl⟩ := h.style v hv
        · exact ⟨.fancy, span, rfl⟩
        · exact ⟨.short, span, rfl⟩
    obtain ⟨limit, hlimit⟩ : ∃ b, Said TellsLimit none _ b := exists_said_iff.mpr fun v hv => by
        obtain ⟨span, n, rfl, hn⟩ := h.limit v hv
        lift n to Nat using hn
        exact ⟨some n, span, n, rfl, rfl⟩
    exact ⟨⟨⟨strings, lineComment⟩, ⟨style, limit⟩⟩, hstrings, hlineComment, hstyle, hlimit⟩

/-- Two documents say the same for a key, wherever they say it. -/
def SameSetting (document document' : Table) (group key : String) : Prop :=
  (document'.setting? group key).map Value.unplaced = (document.setting? group key).map Value.unplaced

end Document

/-- A document is accepted if each setting has a value of its kind and no number is beyond the
doubles. Each setting is then what its own key says, or the usual one, and it stays so when anything
else in the document changes. The scan runs under the two settings that are about it. -/
theorem ofText_settled_by_keys {text : String} {document : Table}
    (hparse : Document.parse text = .ok document) (h : Regular document) :
    ((∃ settings, ofText text = .ok settings) ↔
      Valid document ∧ document.toValue.Everywhere Value.FloatFits) ∧
    (∀ settings, ofText text = .ok settings → Describes document settings ∧
      ∀ source memory, (lint settings source memory).value =
        match (check ⟨settings.scan.strings, settings.scan.lineComment⟩ source.toList memory).value with
        | .ok () => .ok ()
        | .error e => .error (.check e source)) ∧
    ∀ text' document', Document.parse text' = .ok document' → Regular document' →
      ∀ settings, ofText text = .ok settings →
        (∀ settings', ofText text' = .ok settings' →
          (SameSetting document document' "scan" "strings" →
            settings'.scan.strings = settings.scan.strings) ∧
          (SameSetting document document' "scan" "line_comment" →
            settings'.scan.lineComment = settings.scan.lineComment) ∧
          (SameSetting document document' "report" "style" →
            settings'.report.style = settings.report.style) ∧
          (SameSetting document document' "report" "limit" →
            settings'.report.limit = settings.report.limit)) ∧
        (SameSetting document document' "scan" "strings" →
          SameSetting document document' "scan" "line_comment" →
          SameSetting document document' "report" "style" →
          SameSetting document document' "report" "limit" →
          document'.toValue.Everywhere Value.FloatFits → ofText text' = .ok settings) := by
  refine ⟨?_, fun settings hs => ⟨((ofText_eq_ok_iff hparse h).mp hs).1, value_lint settings⟩, ?_⟩
  · simp only [ofText_eq_ok_iff hparse h, exists_and_right, exists_describes_iff]
  · intro text' document' hparse' h' settings hs
    obtain ⟨hd, -⟩ := (ofText_eq_ok_iff hparse h).mp hs
    constructor
    · intro settings' hs'
      obtain ⟨hd', -⟩ := (ofText_eq_ok_iff hparse' h').mp hs'
      exact ⟨fun hsame => hd'.strings.unique plain_tellsStrings
          ((Said.congr_unplaced plain_tellsStrings hsame).mpr hd.strings),
        fun hsame => hd'.lineComment.unique plain_tellsLineComment
          ((Said.congr_unplaced plain_tellsLineComment hsame).mpr hd.lineComment),
        fun hsame => hd'.style.unique plain_tellsStyle
          ((Said.congr_unplaced plain_tellsStyle hsame).mpr hd.style),
        fun hsame => hd'.limit.unique plain_tellsLimit
          ((Said.congr_unplaced plain_tellsLimit hsame).mpr hd.limit)⟩
    · intro hstrings hlineComment hstyle hlimit hfits
      refine (ofText_eq_ok_iff hparse' h').mpr ⟨⟨?_, ?_, ?_, ?_⟩, hfits⟩
      · exact (Said.congr_unplaced plain_tellsStrings hstrings).mpr hd.strings
      · exact (Said.congr_unplaced plain_tellsLineComment hlineComment).mpr hd.lineComment
      · exact (Said.congr_unplaced plain_tellsStyle hstyle).mpr hd.style
      · exact (Said.congr_unplaced plain_tellsLimit hlimit).mpr hd.limit

/-- Neither a number for a key that is no setting nor a setting in another table changes the
style. -/
theorem ofText_settled_by_keys_short :
    ofText "[report]\nstyle = \x22short\x22\n" = .ok { report := { style := .short } } ∧
      ofText "x = 0.5\n[report]\nstyle = \x22short\x22\n[other]\nlimit = -1\n" =
        .ok { report := { style := .short } } := by
  have htext : ofText "[report]\nstyle = \x22short\x22\n" =
      .ok { report := { style := .short } } := by decide +kernel
  have hparse : Document.parse "[report]\nstyle = \x22short\x22\n" =
      .ok ⟨⟨0, 25⟩, .header, [(⟨"report", ⟨1, 7⟩⟩, .table ⟨0, 8⟩ .header
        [(⟨"style", ⟨9, 14⟩⟩, .string ⟨17, 24⟩ "short")])]⟩ := by decide +kernel
  have hparse' : Document.parse
      "x = 0.5\n[report]\nstyle = \x22short\x22\n[other]\nlimit = -1\n" =
      .ok ⟨⟨0, 52⟩, .header, [(⟨"other", ⟨34, 39⟩⟩, .table ⟨33, 40⟩ .header
          [(⟨"limit", ⟨41, 46⟩⟩, .integer ⟨49, 51⟩ (-1))]),
        (⟨"report", ⟨9, 15⟩⟩, .table ⟨8, 16⟩ .header
          [(⟨"style", ⟨17, 22⟩⟩, .string ⟨25, 32⟩ "short")]),
        (⟨"x", ⟨0, 1⟩⟩, .float ⟨4, 7⟩ (.finite ⟨false, 5, -1⟩))]⟩ := by decide +kernel
  have hnear : (5 : ℚ) * 10 ^ (-1 : Int) < Double.overflow :=
    lt_of_lt_of_le (by norm_num) Double.one_le_overflow
  refine ⟨htext, ((ofText_settled_by_keys hparse ⟨?_, ?_, ?_, ?_⟩).2.2 _ _ hparse'
    ⟨?_, ?_, ?_, ?_⟩ _ htext).2 rfl rfl rfl rfl ?_⟩
  · rintro _ ⟨⟩
  · rintro _ ⟨⟩
    exact ⟨⟨_, _, _⟩, rfl⟩
  · rintro _ ⟨⟩
    exact ⟨_, _, rfl⟩
  · simp [Table.toValue, Value.everywhere_table, Value.IntegerFits,
      Value.everywhere_of_isSingle (v := .string _ _) rfl]
  · rintro _ ⟨⟩
  · rintro _ ⟨⟩
    exact ⟨⟨_, _, _⟩, rfl⟩
  · rintro _ ⟨⟩
    exact ⟨_, _, rfl⟩
  · simp [Table.toValue, Value.everywhere_table, Value.IntegerFits,
      Value.everywhere_of_isSingle (v := .string _ _) rfl,
      Value.everywhere_of_isSingle (v := .integer _ _) rfl,
      Value.everywhere_of_isSingle (v := .float _ _) rfl]
  · simpa [Table.toValue, Value.everywhere_table, Value.FloatFits,
      Value.everywhere_of_isSingle (v := .string _ _) rfl,
      Value.everywhere_of_isSingle (v := .integer _ _) rfl,
      Value.everywhere_of_isSingle (v := .float _ _) rfl] using hnear

/-- A number beyond the doubles is refused also for a key that is no setting. -/
theorem ofText_beyond_doubles : ∃ document, Document.parse "x = 1e999\n" = .ok document ∧
    Regular document ∧ Valid document ∧ ¬ ∃ settings, ofText "x = 1e999\n" = .ok settings := by
  refine ⟨⟨⟨0, 10⟩, .header, [(⟨"x", ⟨0, 1⟩⟩, .float ⟨4, 9⟩ (.finite ⟨false, 1, 999⟩))]⟩,
    by decide +kernel, ⟨nofun, nofun, nofun, ?_⟩, ⟨nofun, nofun, nofun, nofun⟩, ?_⟩
  · simp [Table.toValue, Value.everywhere_table, Value.IntegerFits,
      Value.everywhere_of_isSingle (v := .float _ _) rfl]
  · rintro ⟨settings, h⟩
    have hrefused : (ofText "x = 1e999\n").toOption = none := by decide +kernel
    rw [h] at hrefused
    cases hrefused

end Settings

end BracketLint
