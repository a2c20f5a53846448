import Mathlib.Data.List.Find
import BracketLint.Proofs.DecidingFile

/-! What a document says about the scan does not depend on what it says about reports. Neither
depends on where in the document it is said. -/

namespace BracketLint

open Toml

namespace Toml.Value

/-- The place of a value that has none. -/
def nowhere : Span := ⟨0, 0⟩

mutual

/-- A value without the places where it and its parts stand. -/
def unplaced : Value → Value
  | string _ s => string nowhere s
  | integer _ n => integer nowhere n
  | float _ x => float nowhere x
  | boolean _ b => boolean nowhere b
  | illegible _ => illegible nowhere
  | dateTime _ => dateTime nowhere
  | array _ ofTables items => array nowhere ofTables (unplacedItems items)
  | table _ origin entries => table nowhere origin (unplacedEntries entries)

def unplacedItems : List Value → List Value
  | [] => []
  | v :: rest => unplaced v :: unplacedItems rest

def unplacedEntries : List (Name × Value) → List (Name × Value)
  | [] => []
  | (key, v) :: rest => (⟨key.text, nowhere⟩, unplaced v) :: unplacedEntries rest

end

theorem unplacedItems_eq (items : List Value) : unplacedItems items = items.map unplaced := by
  induction items with
  | nil => rfl
  | cons v rest ih => rw [unplacedItems, ih, List.map_cons]

theorem unplacedEntries_eq (entries : List (Name × Value)) :
    unplacedEntries entries = entries.map fun e => (⟨e.1.text, nowhere⟩, e.2.unplaced) := by
  induction entries with
  | nil => rfl
  | cons e rest ih => rw [unplacedEntries, ih, List.map_cons]

mutual

theorem isSome_unreadable?_unplaced (v : Value) :
    (unreadable? v.unplaced).isSome = (unreadable? v).isSome := by
  cases v with
  | array p ofTables items => exact isSome_firstUnreadable?_unplaced items
  | table p origin entries => exact isSome_firstUnreadableValue?_unplaced entries
  | integer p n =>
    have h : described? (integer nowhere n) = described? (integer p n) := rfl
    simp only [unplaced, unreadable?, h]
    split <;> rfl
  | float p x =>
    have h : described? (float nowhere x) = described? (float p x) := by cases x <;> rfl
    simp only [unplaced, unreadable?, h]
    split <;> rfl
  | string p s => rfl
  | boolean p b => rfl
  | illegible p => rfl
  | dateTime p => rfl

theorem isSome_firstUnreadable?_unplaced (items : List Value) :
    (firstUnreadable? (unplacedItems items)).isSome = (firstUnreadable? items).isSome := by
  cases items with
  | nil => rfl
  | cons v rest =>
    have hv := isSome_unreadable?_unplaced v
    have hrest := isSome_firstUnreadable?_unplaced rest
    simp only [unplacedItems, firstUnreadable?, Option.orElse_eq_orElse, Option.orElse_eq_or,
      Option.isSome_or, hv, hrest]

theorem isSome_firstUnreadableValue?_unplaced (entries : List (Name × Value)) :
    (firstUnreadableValue? (unplacedEntries entries)).isSome =
      (firstUnreadableValue? entries).isSome := by
  cases entries with
  | nil => rfl
  | cons e rest =>
    have hv := isSome_unreadable?_unplaced e.2
    have hrest := isSome_firstUnreadableValue?_unplaced rest
    simp only [unplacedEntries, firstUnreadableValue?, Option.orElse_eq_orElse, Option.orElse_eq_or,
      Option.isSome_or, hv, hrest]

end

theorem toOption_ignore (v : Value) :
    v.ignore.toOption = if v.unreadable?.isSome then none else some () := by
  unfold ignore
  split <;> simp_all [Except.toOption]

theorem toOption_ignore_unplaced (v : Value) : v.unplaced.ignore.toOption = v.ignore.toOption := by
  rw [toOption_ignore, toOption_ignore, isSome_unreadable?_unplaced]

theorem toOption_toBool_unplaced (v : Value) : v.unplaced.toBool.toOption = v.toBool.toOption := by
  cases v <;> rfl

theorem toOption_toText_unplaced (v : Value) : v.unplaced.toText.toOption = v.toText.toOption := by
  cases v <;> rfl

end Toml.Value

section Fold

variable {α β γ ε : Type} {xs : List α} {f g : β → α → Except ε β}

/-- One part of what is being changed, if each step says what becomes of it. -/
theorem map_toOption_foldlM (part : β → γ) (step : γ → α → Option γ)
    (h : ∀ x ∈ xs, ∀ b, (f b x).toOption.map part = step (part b) x) (b : β) :
    (xs.foldlM f b).toOption.map part = xs.foldlM step (part b) := by
  induction xs generalizing b with
  | nil => rfl
  | cons x xs ih =>
    have hx := h x List.mem_cons_self b
    rw [List.foldlM_cons, List.foldlM_cons, ← hx]
    cases f b x with
    | error e => rfl
    | ok c => exact ih (fun y hy => h y (List.mem_cons_of_mem x hy)) c

theorem toOption_foldlM_congr (h : ∀ x ∈ xs, ∀ b, (f b x).toOption = (g b x).toOption) (b : β) :
    (xs.foldlM f b).toOption = (xs.foldlM g b).toOption := by
  induction xs generalizing b with
  | nil => rfl
  | cons x xs ih =>
    have hx := h x List.mem_cons_self b
    rw [List.foldlM_cons, List.foldlM_cons]
    cases hf : f b x with
    | error e =>
      cases hg : g b x with
      | error e' => rfl
      | ok c => rw [hf, hg] at hx; cases hx
    | ok c =>
      cases hg : g b x with
      | error e' => rw [hf, hg] at hx; cases hx
      | ok c' =>
        rw [hf, hg] at hx
        obtain rfl := Option.some.inj hx
        exact ih (fun y hy => h y (List.mem_cons_of_mem x hy)) c

end Fold

theorem toOption_bind_congr {α β ε : Type} {x y : Except ε α} (k : α → Except ε β)
    (h : x.toOption = y.toOption) : (x >>= k).toOption = (y >>= k).toOption := by
  cases x with
  | error e =>
    cases y with
    | error e' => rfl
    | ok a => cases h
  | ok a =>
    cases y with
    | error e' => cases h
    | ok b =>
      obtain rfl := Option.some.inj h
      rfl

namespace Toml.Value

/-- What a field makes of a value does not depend on places. -/
def Unplaceable {α : Type} (set : Value → α → Except (Placed Mismatch) α) : Prop :=
  ∀ v a, (set v.unplaced a).toOption = (set v a).toOption

theorem toOption_toGroup_unplaced {α : Type} {name : String} {usual : α}
    {fields : List (String × (Value → α → Except (Placed Mismatch) α))}
    (h : ∀ f ∈ fields, Unplaceable f.2) (v : Value) :
    (toGroup name fields usual v.unplaced).toOption = (toGroup name fields usual v).toOption := by
  cases v with
  | table p origin entries =>
    simp only [unplaced, toGroup, unplacedEntries_eq]
    rw [List.foldlM_map]
    apply toOption_foldlM_congr
    intro e _ a
    cases hset : fields.lookup e.1.text with
    | some set =>
      obtain ⟨before, after, rfl, -⟩ := List.lookup_eq_some_iff.mp hset
      exact h (e.1.text, set) (by simp) e.2 a
    | none => exact toOption_bind_congr (fun _ => pure a) (toOption_ignore_unplaced e.2)
  | array p ofTables items =>
    simp only [unplaced, toGroup, unplacedItems_eq]
    rw [List.zip_map_right, List.foldlM_map]
    apply toOption_foldlM_congr
    intro f hf a
    exact h f.1 (List.of_mem_zip hf).1 f.2 a
  | string p s => rfl
  | integer p n => rfl
  | float p x => rfl
  | boolean p b => rfl
  | illegible p => rfl
  | dateTime p => rfl

end Toml.Value

theorem ScanOptions.toOption_ofValue_unplaced (v : Value) :
    (ScanOptions.ofValue v.unplaced).toOption = (ScanOptions.ofValue v).toOption := by
  apply Value.toOption_toGroup_unplaced
  intro f hf v o
  simp only [List.mem_cons, List.not_mem_nil, or_false] at hf
  rcases hf with rfl | rfl
  · exact toOption_bind_congr _ v.toOption_toBool_unplaced
  · exact toOption_bind_congr _ v.toOption_toText_unplaced

namespace Settings

/-- The entries of a document that are not about reports, without the places where they stand. -/
def outsideReport (document : Table) : List (Name × Value) :=
  Value.unplacedEntries (document.entries.filter (·.1.text != "report"))

/-- What a document says about reports can be read. -/
def ReportReads (document : Table) : Prop :=
  ∀ e ∈ document.entries, e.1.text = "report" → ∃ r, ReportSettings.ofValue e.2 = .ok r

/-- What an entry that is not about reports makes of the scan settings. -/
def scanStep (o : ScanOptions) (e : Name × Value) : Option ScanOptions :=
  if e.1.text = "scan" then (ScanOptions.ofValue e.2).toOption
  else e.2.ignore.toOption.map fun _ => o

theorem scanStep_unplaced (o : ScanOptions) (e : Name × Value) :
    scanStep o (⟨e.1.text, Value.nowhere⟩, e.2.unplaced) = scanStep o e := by
  simp only [scanStep, ScanOptions.toOption_ofValue_unplaced, Value.toOption_ignore_unplaced]

/-- What is said about the scan is read off the rest of the document. -/
theorem scan_ofValue {document : Table} (h : ReportReads document) :
    (ofValue document.toValue).toOption.map (·.scan) =
      (outsideReport document).foldlM scanStep {} := by
  rw [outsideReport, Value.unplacedEntries_eq, List.foldlM_map, List.foldlM_filter]
  apply map_toOption_foldlM Settings.scan
  intro e he s
  rw [scanStep_unplaced]
  by_cases hreport : e.1.text = "report"
  · obtain ⟨r, hr⟩ := h e he hreport
    simp only [List.lookup_cons, hreport, String.reduceBEq, BEq.rfl, bind_pure_comp, hr,
      Except.map_ok, bne_self_eq_false, Bool.false_eq_true, if_false]
    rfl
  · have hnotReport : (e.1.text == "report") = false := by simpa using hreport
    have hkept : (e.1.text != "report") = true := by simpa using hreport
    by_cases hscan : e.1.text = "scan"
    · simp only [List.lookup_cons, hscan, BEq.rfl, bind_pure_comp, String.reduceBNe, if_true,
        scanStep]
      cases ScanOptions.ofValue e.2 <;> rfl
    · have hnotScan : (e.1.text == "scan") = false := by simpa using hscan
      simp only [List.lookup_cons, List.lookup_nil, hnotScan, hnotReport, bind_pure_comp, hkept,
        if_true, scanStep, if_neg hscan]
      cases e.2.ignore <;> rfl

variable {files files' : Files} {systemPath explicitPath : Option String}

/-- A file at a path is the same for both, or says the same about everything but reports. -/
inductive SameButReport (files files' : Files) (path : String) : Prop where
  | same (h : SameAt files files' path)
  | documents {text text' : String} {document document' : Table}
      (hread : files.read path = .ok text) (hread' : files'.read path = .ok text')
      (hparse : Document.parse text = .ok document)
      (hparse' : Document.parse text' = .ok document')
      (houtside : outsideReport document = outsideReport document')
      (hreport : ReportReads document) (hreport' : ReportReads document')
  | broken {text text' : String} {why why' : Placed Malformed}
      (hread : files.read path = .ok text) (hread' : files'.read path = .ok text')
      (hparse : Document.parse text = .error why) (hparse' : Document.parse text' = .error why')

theorem SameButReport.symm {path : String} (h : SameButReport files files' path) :
    SameButReport files' files path := by
  cases h with
  | same h => exact .same h.symm
  | documents hread hread' hparse hparse' houtside hreport hreport' =>
    exact .documents hread' hread hparse' hparse houtside.symm hreport' hreport
  | broken hread hread' hparse hparse' => exact .broken hread' hread hparse' hparse

theorem SameButReport.contains {path : String} (h : SameButReport files files' path) :
    files'.contains path = files.contains path := by
  cases h with
  | same h => exact h.contains
  | documents hread hread' => rw [Files.contains_of_read hread, Files.contains_of_read hread']
  | broken hread hread' => rw [Files.contains_of_read hread, Files.contains_of_read hread']

theorem scan_ofFile_of_document {path text : String} {document : Table}
    (hread : files.read path = .ok text) (hparse : Document.parse text = .ok document)
    (hreport : ReportReads document) :
    (ofFile files path).toOption.map (·.scan) = (outsideReport document).foldlM scanStep {} := by
  rw [← scan_ofValue hreport, ofFile_of_read hread]
  simp only [ofText, hparse]
  cases ofValue document.toValue <;> rfl

theorem toOption_ofFile_of_malformed {path text : String} {why : Placed Malformed}
    (hread : files.read path = .ok text) (hparse : Document.parse text = .error why) :
    (ofFile files path).toOption = none := by
  rw [ofFile_of_read hread]
  simp only [ofText, hparse]
  rfl

theorem SameButReport.scan_ofFile {path : String} (h : SameButReport files files' path) :
    (ofFile files' path).toOption.map (·.scan) = (ofFile files path).toOption.map (·.scan) := by
  cases h with
  | same h => rw [ofFile_congr h]
  | documents hread hread' hparse hparse' houtside hreport hreport' =>
    rw [scan_ofFile_of_document hread hparse hreport,
      scan_ofFile_of_document hread' hparse' hreport', houtside]
  | broken hread hread' hparse hparse' =>
    rw [toOption_ofFile_of_malformed hread hparse, toOption_ofFile_of_malformed hread' hparse']

/-- The places where a configuration file may be found. -/
def sources (systemPath : Option String) : Option String → List String
  | some path => [path]
  | none => candidates systemPath

theorem deciding?_mem_sources {path : String}
    (h : deciding? files systemPath explicitPath = some path) :
    path ∈ sources systemPath explicitPath := by
  cases explicitPath with
  | some p =>
    obtain rfl : p = path := Option.some.inj h
    exact List.mem_singleton_self p
  | none => exact List.mem_of_find?_eq_some h

theorem deciding?_congr
    (h : ∀ path ∈ sources systemPath explicitPath, files'.contains path = files.contains path) :
    deciding? files' systemPath explicitPath = deciding? files systemPath explicitPath := by
  cases explicitPath with
  | some path => rfl
  | none => exact List.find?_congr h

/-- Reports play no part in what is loaded for the scan, nor in whether anything is. -/
theorem scan_load_congr
    (h : ∀ path ∈ sources systemPath explicitPath, SameButReport files files' path) :
    (load files' systemPath explicitPath).value.toOption.map (·.scan) =
      (load files systemPath explicitPath).value.toOption.map (·.scan) := by
  have hdeciding : deciding? files' systemPath explicitPath =
      deciding? files systemPath explicitPath := deciding?_congr fun path hpath =>
    (h path hpath).contains
  cases hd : deciding? files systemPath explicitPath with
  | none =>
    rw [hd] at hdeciding
    rw [load_of_no_deciding hd, load_of_no_deciding hdeciding]
  | some path =>
    rw [hd] at hdeciding
    obtain ⟨origin, he⟩ := load_of_deciding hd
    obtain ⟨origin', he'⟩ := load_of_deciding hdeciding
    rw [he, he']
    exact (h path (deciding?_mem_sources hd)).scan_ofFile

end Settings

end BracketLint
