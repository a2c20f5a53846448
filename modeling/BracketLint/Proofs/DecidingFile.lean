import Mathlib.Data.List.TakeWhile
import BracketLint.Proofs.Encoding
import BracketLint.Settings.Discovery

/-! Which file the settings come from. One file decides alone: the others may be anything, and what
is wrong with it is what loading reports. -/

namespace BracketLint

namespace Files

variable {files : Files} {path : String}

theorem contains_of_ok {entry : Entry} (h : files path = .ok entry) :
    files.contains path = true := by
  rw [contains, h]
  rfl

theorem contains_of_error {e : FileError} (h : files path = .error e) :
    files.contains path = false := by
  rw [contains, h]
  rfl

theorem read_of_directory (h : files path = .ok .directory) :
    files.read path = .error .isADirectory := by
  simp only [read, h]

theorem read_of_unreadable {why : FileError} (h : files path = .ok (.unreadable why)) :
    files.read path = .error why := by
  simp only [read, h]

theorem read_of_text {text : String} (h : files path = .ok (.file (Utf8.encode text.toList))) :
    files.read path = .ok text := by
  simp only [read, h, Utf8.strict?_encode, String.ofList_toList]

theorem read_of_not_text {bytes : List UInt8} (h : files path = .ok (.file bytes))
    (hb : ∀ text, bytes ≠ Utf8.encode text) : files.read path = .error .notUtf8 := by
  simp only [read, h, Utf8.strict?_eq_none_iff.mpr hb]

theorem read_eq_ok_iff {text : String} :
    files.read path = .ok text ↔ files path = .ok (.file (Utf8.encode text.toList)) := by
  constructor
  · intro h
    unfold read at h
    split at h
    · cases h
    · cases h
    · cases h
    · rename_i bytes hfile
      split at h
      · rename_i source hs
        cases h
        rw [hfile, Utf8.strict?_eq_some_iff.mp hs, String.toList_ofList]
      · cases h
  · exact read_of_text

theorem contains_of_read {text : String} (h : files.read path = .ok text) :
    files.contains path = true :=
  contains_of_ok (read_eq_ok_iff.mp h)

end Files

namespace Settings

/-- The places that are looked at when no file is asked for, the first one first. -/
def candidates (systemPath : Option String) : List String := projectPath :: systemPath.toList

def deciding? (files : Files) (systemPath explicitPath : Option String) : Option String :=
  explicitPath <|> (candidates systemPath).find? files.contains

/-- The places that are passed over because nothing is there. -/
def passedOver (files : Files) (systemPath : Option String) : Option String → List String
  | some _ => []
  | none => (candidates systemPath).takeWhile fun path => !files.contains path

/-- What one file makes of the settings. -/
inductive FileGives (files : Files) (path : String) : Except LintError Settings → Prop where
  | missing {e : FileError} (h : files path = .error e) :
    FileGives files path (.error (.config (.missingFile path)))
  | directory (h : files path = .ok .directory) :
    FileGives files path (.error (.io FileError.isADirectory.message))
  | unreadable {why : FileError} (h : files path = .ok (.unreadable why)) :
    FileGives files path (.error (.io why.message))
  | notUtf8 {bytes : List UInt8} (h : files path = .ok (.file bytes))
      (hb : ∀ text, bytes ≠ Utf8.encode text) :
    FileGives files path (.error (.io FileError.notUtf8.message))
  | malformed {text : String} {cause : Toml.Error}
      (h : files path = .ok (.file (Utf8.encode text.toList))) (ht : ofText text = .error cause) :
    FileGives files path (.error (.config (.malformed path cause)))
  | decoded {text : String} {settings : Settings}
      (h : files path = .ok (.file (Utf8.encode text.toList))) (ht : ofText text = .ok settings) :
    FileGives files path (.ok settings)

variable {files files' : Files} {path : String} {systemPath explicitPath : Option String}

theorem ofFile_of_error {e : FileError} (h : files path = .error e) :
    ofFile files path = .error (.config (.missingFile path)) := by
  rw [ofFile, Files.contains_of_error h, if_neg Bool.false_ne_true]

/-- What is there and cannot be read is an error of its own. -/
theorem ofFile_of_read_error {entry : Entry} {e : FileError} (h : files path = .ok entry)
    (hread : files.read path = .error e) : ofFile files path = .error (.io e.message) := by
  simp only [ofFile, Files.contains_of_ok h, if_true, hread]

theorem ofFile_of_read {text : String} (h : files.read path = .ok text) :
    ofFile files path =
      match ofText text with
      | .error cause => .error (.config (.malformed path cause))
      | .ok settings => .ok settings := by
  have hthere := Files.contains_of_read h
  cases htext : ofText text with
  | error cause => simp only [ofFile, hthere, if_true, h, htext]
  | ok settings => simp only [ofFile, hthere, if_true, h, htext]

theorem fileGives_ofFile (files : Files) (path : String) :
    FileGives files path (ofFile files path) := by
  cases h : files path with
  | error e =>
    rw [ofFile_of_error h]
    exact .missing h
  | ok entry =>
    cases entry with
    | directory =>
      rw [ofFile_of_read_error h (Files.read_of_directory h)]
      exact .directory h
    | unreadable why =>
      rw [ofFile_of_read_error h (Files.read_of_unreadable h)]
      exact .unreadable h
    | file bytes =>
      by_cases hb : ∃ text, bytes = Utf8.encode text
      · obtain ⟨text, rfl⟩ := hb
        rw [← String.toList_ofList (l := text)] at h
        rw [ofFile_of_read (Files.read_of_text h)]
        cases ht : ofText (String.ofList text) with
        | error cause => exact .malformed h ht
        | ok settings => exact .decoded h ht
      · have hno : ∀ text, bytes ≠ Utf8.encode text := fun text he => hb ⟨text, he⟩
        rw [ofFile_of_read_error h (Files.read_of_not_text h hno)]
        exact .notUtf8 h hno

theorem FileGives.ofFile_eq {r : Except LintError Settings} (h : FileGives files path r) :
    ofFile files path = r := by
  cases h with
  | missing h => exact ofFile_of_error h
  | directory h => exact ofFile_of_read_error h (Files.read_of_directory h)
  | unreadable h => exact ofFile_of_read_error h (Files.read_of_unreadable h)
  | notUtf8 h hb => exact ofFile_of_read_error h (Files.read_of_not_text h hb)
  | malformed h ht => rw [ofFile_of_read (Files.read_of_text h), ht]
  | decoded h ht => rw [ofFile_of_read (Files.read_of_text h), ht]

theorem ofFile_eq_iff {r : Except LintError Settings} :
    ofFile files path = r ↔ FileGives files path r := by
  constructor
  · rintro rfl
    exact fileGives_ofFile files path
  · exact FileGives.ofFile_eq

/-- The same thing is at a path, or nothing at all. -/
def SameAt (files files' : Files) (path : String) : Prop :=
  (files path).toOption = (files' path).toOption

theorem SameAt.ok {entry : Entry} (h : SameAt files files' path) (he : files path = .ok entry) :
    files' path = .ok entry := by
  unfold SameAt at h
  rw [he] at h
  cases he' : files' path with
  | error e => rw [he'] at h; cases h
  | ok entry' =>
    rw [he'] at h
    cases h
    rfl

theorem SameAt.symm (h : SameAt files files' path) : SameAt files' files path := Eq.symm h

theorem SameAt.error {e : FileError} (h : SameAt files files' path) (he : files path = .error e) :
    ∃ e', files' path = .error e' := by
  cases he' : files' path with
  | error e' => exact ⟨e', rfl⟩
  | ok entry =>
    rw [h.symm.ok he'] at he
    cases he

theorem SameAt.contains (h : SameAt files files' path) :
    files'.contains path = files.contains path := by
  cases he : files path with
  | error e =>
    obtain ⟨e', he'⟩ := h.error he
    rw [Files.contains_of_error he, Files.contains_of_error he']
  | ok entry => rw [Files.contains_of_ok he, Files.contains_of_ok (h.ok he)]

theorem FileGives.congr {r : Except LintError Settings} (hs : SameAt files files' path)
    (h : FileGives files path r) : FileGives files' path r := by
  cases h with
  | missing h =>
    obtain ⟨e', he'⟩ := hs.error h
    exact .missing he'
  | directory h => exact .directory (hs.ok h)
  | unreadable h => exact .unreadable (hs.ok h)
  | notUtf8 h hb => exact .notUtf8 (hs.ok h) hb
  | malformed h ht => exact .malformed (hs.ok h) ht
  | decoded h ht => exact .decoded (hs.ok h) ht

theorem ofFile_congr (h : SameAt files files' path) : ofFile files' path = ofFile files path :=
  ofFile_eq_iff.mpr ((fileGives_ofFile files path).congr h)

theorem load_explicit (files : Files) (systemPath : Option String) (path : String) :
    load files systemPath (some path) =
      ⟨[.loadingConfig .explicit path], ofFile files path⟩ := rfl

theorem load_project (systemPath : Option String) (h : files.contains projectPath = true) :
    load files systemPath none =
      ⟨[.loadingConfig .project projectPath], ofFile files projectPath⟩ := by
  simp only [load, h]
  rfl

theorem load_system (hp : files.contains projectPath = false) (h : files.contains path = true) :
    load files (some path) none = ⟨[.loadingConfig .system path], ofFile files path⟩ := by
  simp only [load, hp, h]
  rfl

/-- The note about the place of the system's file when nothing is there. -/
def noSystemFile : Option String → Event
  | some path => .noSystemConfig path
  | none => .noSystemDirectory

theorem load_usual (h : ∀ path ∈ candidates systemPath, files.contains path = false) :
    load files systemPath none = ⟨[noSystemFile systemPath, .defaultConfig], .ok {}⟩ := by
  have hp : files.contains projectPath = false := h projectPath List.mem_cons_self
  cases systemPath with
  | none =>
    simp only [load, hp]
    rfl
  | some path =>
    have hs : files.contains path = false := h path (by simp [candidates])
    simp only [load, hp, hs]
    rfl

theorem deciding?_of_project (systemPath : Option String) (h : files.contains projectPath = true) :
    deciding? files systemPath none = some projectPath := by
  simp [deciding?, candidates, h]

theorem deciding?_of_system (h : files.contains projectPath = false) :
    deciding? files systemPath none = systemPath.filter files.contains := by
  cases systemPath with
  | none => simp [deciding?, candidates, h]
  | some path =>
    cases hs : files.contains path <;> simp [deciding?, candidates, h, hs, Option.filter_some]

theorem deciding?_eq_none_iff : deciding? files systemPath explicitPath = none ↔
    explicitPath = none ∧ ∀ path ∈ candidates systemPath, files.contains path = false := by
  cases explicitPath <;> simp [deciding?]

theorem load_of_deciding (h : deciding? files systemPath explicitPath = some path) :
    ∃ origin, load files systemPath explicitPath =
      ⟨[.loadingConfig origin path], ofFile files path⟩ := by
  cases explicitPath with
  | some p =>
    obtain rfl : p = path := Option.some.inj h
    exact ⟨.explicit, load_explicit files systemPath p⟩
  | none =>
    by_cases hp : files.contains projectPath = true
    · rw [deciding?_of_project systemPath hp] at h
      obtain rfl := Option.some.inj h
      exact ⟨.project, load_project systemPath hp⟩
    · have hp' := Bool.eq_false_iff.mpr hp
      rw [deciding?_of_system hp'] at h
      obtain ⟨rfl, hs⟩ := Option.filter_eq_some_iff.mp h
      exact ⟨.system, load_system hp' hs⟩

theorem load_of_no_deciding (h : deciding? files systemPath explicitPath = none) :
    load files systemPath explicitPath = ⟨[noSystemFile systemPath, .defaultConfig], .ok {}⟩ := by
  obtain ⟨rfl, hno⟩ := deciding?_eq_none_iff.mp h
  exact load_usual hno

/-- Files that are passed over and files after the one that decides play no part. -/
theorem load_congr
    (hpassed : ∀ path ∈ passedOver files systemPath explicitPath, files'.contains path = false)
    (hsame : ∀ path, deciding? files systemPath explicitPath = some path →
      SameAt files files' path) :
    load files' systemPath explicitPath = load files systemPath explicitPath := by
  cases explicitPath with
  | some path => rw [load_explicit, load_explicit, ofFile_congr (hsame path rfl)]
  | none =>
    by_cases hp : files.contains projectPath = true
    · have hs := hsame projectPath (deciding?_of_project systemPath hp)
      have hp' : files'.contains projectPath = true := by rw [hs.contains, hp]
      rw [load_project systemPath hp, load_project systemPath hp', ofFile_congr hs]
    · have hp0 := Bool.eq_false_iff.mpr hp
      have hp' : files'.contains projectPath = false :=
        hpassed projectPath (by simp [passedOver, candidates, hp0])
      by_cases hno : ∃ path, systemPath = some path ∧ files.contains path = true
      · obtain ⟨path, rfl, hpath⟩ := hno
        have hs := hsame path (by rw [deciding?_of_system hp0, Option.filter_some, if_pos hpath])
        have hpath' : files'.contains path = true := by rw [hs.contains, hpath]
        rw [load_system hp0 hpath, load_system hp' hpath', ofFile_congr hs]
      · have habsent : ∀ path ∈ candidates systemPath, files.contains path = false := by
          intro path hpath
          rcases List.mem_cons.mp hpath with rfl | hpath
          · exact hp0
          · apply Bool.eq_false_iff.mpr
            intro hthere
            exact hno ⟨path, Option.mem_toList.mp hpath, hthere⟩
        have hall : passedOver files systemPath none = candidates systemPath :=
          List.takeWhile_eq_self_iff.mpr fun path hpath => by simp [habsent path hpath]
        rw [load_usual habsent, load_usual fun path hpath => hpassed path (hall ▸ hpath)]

/-- One file decides: the one that is asked for, or else the first one that is there. It gives the
settings or the error, and the usual settings are taken when there is no such file and only then.
Loading is the same for any files that have the same one there, and nothing before it. -/
theorem load_decided_by_one_file (files : Files) (systemPath explicitPath : Option String) :
    (∀ path, explicitPath = some path → deciding? files systemPath explicitPath = some path) ∧
    (explicitPath = none →
      (files.contains projectPath = true →
        deciding? files systemPath explicitPath = some projectPath) ∧
      (files.contains projectPath = false →
        deciding? files systemPath explicitPath = systemPath.filter files.contains)) ∧
    (∀ path, deciding? files systemPath explicitPath = some path → ∀ r,
      (load files systemPath explicitPath).value = r ↔ FileGives files path r) ∧
    (deciding? files systemPath explicitPath = none →
      (load files systemPath explicitPath).value = .ok {}) ∧
    (Event.defaultConfig ∈ (load files systemPath explicitPath).events ↔
      explicitPath = none ∧ files.contains projectPath = false ∧
        ∀ path ∈ systemPath, files.contains path = false) ∧
    ∀ files' : Files,
      (∀ path ∈ passedOver files systemPath explicitPath, files'.contains path = false) →
      (∀ path, deciding? files systemPath explicitPath = some path → SameAt files files' path) →
      load files' systemPath explicitPath = load files systemPath explicitPath := by
  refine ⟨?_, ?_, ?_, ?_, ?_, fun files' => load_congr⟩
  · rintro path rfl
    rfl
  · rintro rfl
    exact ⟨deciding?_of_project systemPath, deciding?_of_system⟩
  · intro path h r
    obtain ⟨origin, he⟩ := load_of_deciding h
    rw [he]
    exact ofFile_eq_iff
  · intro h
    rw [load_of_no_deciding h]
  · have hnone : deciding? files systemPath explicitPath = none ↔ explicitPath = none ∧
        files.contains projectPath = false ∧ ∀ path ∈ systemPath, files.contains path = false := by
      rw [deciding?_eq_none_iff, candidates, List.forall_mem_cons]
      simp only [Option.mem_toList, Option.mem_def]
    rw [← hnone]
    cases h : deciding? files systemPath explicitPath with
    | none => simp [load_of_no_deciding h]
    | some path =>
      obtain ⟨origin, he⟩ := load_of_deciding h
      simp [he]

/-- A project file that may not be read is an error, whether or not the system has a file of its
own, and so is one that is not text. -/
theorem load_decided_by_one_file_broken :
    let files (others : Except FileError Entry) : Files := fun path =>
      if path = projectPath then .ok (.unreadable .permissionDenied) else others
    let tree : FileTree := ⟨[(["quire", "config.toml"], [0xFF]), (["etc", "quire.toml"], [])], []⟩
    let loaded (files : Files) : Except LintError Settings :=
      (load files (some "/w/etc/quire.toml") none).value
    deciding? (files (.ok (.file []))) (some "/w/etc/quire.toml") none = some projectPath ∧
    SameAt (files (.ok (.file []))) (files (.error .notFound)) projectPath ∧
    loaded (files (.ok (.file []))) = .error (.io "Permission denied (os error 13)") ∧
    loaded (files (.error .notFound)) = .error (.io "Permission denied (os error 13)") ∧
    deciding? (tree.toFiles "/w") (some "/w/etc/quire.toml") none = some projectPath ∧
    loaded (tree.toFiles "/w") = .error (.io "stream did not contain valid UTF-8") := by
  intro files tree loaded
  have hdeciding : deciding? (files (.ok (.file []))) (some "/w/etc/quire.toml") none =
      some projectPath := rfl
  have htree : deciding? (tree.toFiles "/w") (some "/w/etc/quire.toml") none =
      some projectPath := rfl
  have hsame : SameAt (files (.ok (.file []))) (files (.error .notFound)) projectPath := rfl
  have hpassed : passedOver (files (.ok (.file []))) (some "/w/etc/quire.toml") none = [] := rfl
  have hproject : files (.ok (.file [])) projectPath = .ok (.unreadable .permissionDenied) := rfl
  have hnotText : ∀ text, [0xFF] ≠ Utf8.encode text := Utf8.strict?_eq_none_iff.mp rfl
  obtain ⟨-, -, hgives, -, -, hcongr⟩ := load_decided_by_one_file (files (.ok (.file [])))
    (some "/w/etc/quire.toml") none
  obtain ⟨-, -, hgives', -⟩ := load_decided_by_one_file (tree.toFiles "/w")
    (some "/w/etc/quire.toml") none
  have hload : loaded (files (.ok (.file []))) = .error (.io "Permission denied (os error 13)") :=
    (hgives _ hdeciding _).mpr (.unreadable hproject)
  refine ⟨hdeciding, hsame, hload, ?_, htree, (hgives' _ htree _).mpr (.notUtf8 rfl hnotText)⟩
  rw [← hload]
  refine congrArg Logged.value (hcongr _ (fun path hpath => ?_) fun path hpath => ?_)
  · rw [hpassed] at hpath
    cases hpath
  · rw [hdeciding] at hpath
    obtain rfl := Option.some.inj hpath
    exact hsame

end Settings

end BracketLint
