import BracketLint.Proofs.DecidingFile

/-! Looking paths up in a tree of files. A path spelled with the names of a file leads to it, and
goes on leading there when the tree gains files. So the settings stay what they are when there are
more files than the one that decides. -/

namespace BracketLint

namespace FileTree

variable {t t' : FileTree} {root path : String} {names : List String} {bytes : List UInt8}

/-- What is in one tree is in the other one, too. -/
def Within (t t' : FileTree) : Prop :=
  ∀ names e, t.entryAt names = some e → t'.entryAt names = some e

theorem entryAt_of_file (h : t.files.lookup names = some bytes) :
    t.entryAt names = some (.file bytes) := by
  simp only [entryAt, h]

/-- What is on the way to a file is a directory, unless it is a file itself. -/
theorem entryAt_of_prefix {way : List String} (h : t.files.lookup names = some bytes)
    (hway : way <+: names) (hno : t.files.lookup way = none) : t.entryAt way = some .directory := by
  obtain ⟨before, after, hfiles, -⟩ := List.lookup_eq_some_iff.mp h
  have hmem : (names, bytes) ∈ t.files := by simp [hfiles]
  have hany : t.files.any (fun f => way.isPrefixOf f.1) = true :=
    List.any_eq_true.mpr ⟨_, hmem, List.isPrefixOf_iff_prefix.mpr hway⟩
  simp only [entryAt, hno, hany, Bool.or_true, if_true]

/-- A tree stays in the one that has more files, where there was nothing at their names. -/
theorem within_of_more_files {more : List (List String × List UInt8)}
    (h : ∀ f ∈ more, t.entryAt f.1 = none) : t.Within ⟨t.files ++ more, t.directories⟩ := by
  intro names e he
  cases hfile : t.files.lookup names with
  | some bytes =>
    rw [entryAt_of_file hfile] at he
    rw [← he]
    apply entryAt_of_file
    rw [List.lookup_append, hfile, Option.some_or]
  | none =>
    have hmore : more.lookup names = none := by
      apply Option.eq_none_iff_forall_ne_some.mpr
      intro bytes hb
      obtain ⟨before, after, rfl, -⟩ := List.lookup_eq_some_iff.mp hb
      rw [h (names, bytes) (by simp)] at he
      cases he
    simp only [entryAt, hfile] at he
    simp only [entryAt, List.lookup_append, hfile, hmore, Option.none_or, List.any_append]
    split at he
    · rename_i hdirectory
      rw [if_pos, ← he]
      simp only [Bool.or_eq_true] at hdirectory ⊢
      rcases hdirectory with hdirectory | hdirectory
      · exact .inl hdirectory
      · exact .inr (.inl hdirectory)
    · cases he

section Within

variable (h : t.Within t')

include h

theorem Within.find {p : Place} {e : Entry} (he : t.find p = .ok e) : t'.find p = .ok e := by
  cases p with
  | outside => exact he
  | inside names =>
    simp only [FileTree.find] at he
    split at he
    · rename_i e' hentry
      cases he
      simp only [FileTree.find, h _ _ hentry]
    · cases he

theorem Within.follow {p q : Place} {name : String} (hq : t.follow p name = .ok q) :
    t'.follow p name = .ok q := by
  cases hp : t.find p with
  | error e =>
    simp only [FileTree.follow, hp] at hq
    cases hq
  | ok e =>
    simp only [FileTree.follow, hp] at hq
    simp only [FileTree.follow, h.find hp]
    exact hq

theorem Within.foldlM_follow {p q : Place} (hq : names.foldlM t.follow p = .ok q) :
    names.foldlM t'.follow p = .ok q := by
  induction names generalizing p with
  | nil => exact hq
  | cons name rest ih =>
    rw [List.foldlM_cons] at hq ⊢
    cases hp : t.follow p name with
    | error e =>
      rw [hp] at hq
      cases hq
    | ok p' =>
      rw [hp] at hq
      rw [h.follow hp]
      exact ih hq

theorem Within.resolve {p : Place} (hp : t.resolve root path = .ok p) :
    t'.resolve root path = .ok p := by
  simp only [FileTree.resolve] at hp ⊢
  split_ifs at hp ⊢
  · exact hp
  · exact h.foldlM_follow hp
  · exact h.foldlM_follow hp
  · exact h.foldlM_follow hp

/-- What a path leads to stays where it is when the tree grows. -/
theorem Within.toFiles {e : Entry} (he : t.toFiles root path = .ok e) :
    t'.toFiles root path = .ok e := by
  simp only [FileTree.toFiles] at he ⊢
  split at he
  · cases he
  · rename_i p hp
    rw [h.resolve hp]
    exact h.find he

end Within

/-- A name that leads away from where one is. -/
def IsStep (name : String) : Prop := name ≠ "" ∧ name ≠ "."

instance (name : String) : Decidable (IsStep name) := inferInstanceAs (Decidable (_ ∧ _))

/-- A path relative to the tree that goes forward only, is short enough to be followed, and ends
with a name. -/
structure Forward (root path : String) : Prop where
  noZero : '\x00' ∉ path.toList
  nonempty : path ≠ ""
  length_le : path.utf8ByteSize ≤ longestPath
  ne_root : path ≠ root
  below : ¬ root.toList ++ ['/'] <+: path.toList
  relative : ¬ ['/'] <+: path.toList
  forward : ∀ name ∈ namesIn path, name ≠ ".." ∧ name.utf8ByteSize ≤ longestName
  last : ∀ name ∈ (namesIn path).getLast?, IsStep name

theorem follow_inside {name : String} (hdir : t.entryAt names = some .directory)
    (hback : name ≠ "..") (hlen : name.utf8ByteSize ≤ longestName) :
    t.follow (.inside names) name =
      .ok (.inside (names ++ if IsStep name then [name] else [])) := by
  have hfind : t.find (.inside names) = .ok .directory := by simp only [find, hdir]
  simp only [follow, hfind]
  by_cases hstay : name = "" ∨ name = "."
  · have hno : ¬ IsStep name := fun hk => hstay.elim hk.1 hk.2
    rw [if_pos hstay, if_neg hno, List.append_nil]
  · have hstep : IsStep name := not_or.mp hstay
    rw [if_neg hstay, if_neg (Nat.not_lt.mpr hlen), if_pos hback, if_pos hstep]

/-- Directories all the way are walked through. -/
theorem foldlM_follow_inside {walked : List String}
    (hforward : ∀ name ∈ names, name ≠ ".." ∧ name.utf8ByteSize ≤ longestName)
    (hdir : ∀ way, way <+: names.filter IsStep → t.entryAt (walked ++ way) = some .directory) :
    names.foldlM t.follow (.inside walked) = .ok (.inside (walked ++ names.filter IsStep)) := by
  induction names generalizing walked with
  | nil =>
    rw [List.filter_nil, List.append_nil]
    rfl
  | cons name rest ih =>
    obtain ⟨hback, hlen⟩ := hforward name List.mem_cons_self
    have hhere : t.entryAt walked = some .directory := by
      simpa using hdir [] List.nil_prefix
    have hsplit : (name :: rest).filter IsStep =
        (if IsStep name then [name] else []) ++ rest.filter IsStep := by
      by_cases hs : IsStep name <;> simp [hs]
    rw [List.foldlM_cons, follow_inside hhere hback hlen, hsplit, ← List.append_assoc]
    apply ih fun n hn => hforward n (List.mem_cons_of_mem _ hn)
    intro way hway
    rw [List.append_assoc]
    apply hdir
    rw [hsplit]
    exact (List.prefix_append_right_inj _).mpr hway

theorem resolve_of_forward (hp : Forward root path) :
    t.resolve root path = (namesIn path).foldlM t.follow (.inside []) := by
  simp only [resolve, hp.noZero, hp.nonempty, Nat.not_lt.mpr hp.length_le, hp.ne_root, hp.below,
    hp.relative, if_false]

/-- Directories up to the last name are walked through, too. -/
theorem foldlM_follow_concat {name : String}
    (hforward : ∀ n ∈ names ++ [name], n ≠ ".." ∧ n.utf8ByteSize ≤ longestName)
    (hstep : IsStep name)
    (hdir : ∀ way, way <+: names.filter IsStep → t.entryAt way = some .directory) :
    (names ++ [name]).foldlM t.follow (.inside []) =
      .ok (.inside ((names ++ [name]).filter IsStep)) := by
  have hbefore : names.foldlM t.follow (.inside []) = .ok (.inside (names.filter IsStep)) :=
    foldlM_follow_inside (fun n hn => hforward n (List.mem_append_left _ hn)) hdir
  obtain ⟨hback, hlen⟩ := hforward name (by simp)
  have hlast := follow_inside (hdir _ (List.prefix_refl _)) hback hlen
  rw [if_pos hstep] at hlast
  rw [List.foldlM_append, hbefore, List.filter_append]
  change t.follow _ name >>= pure = _
  rw [hlast, List.filter_cons_of_pos (by simpa using hstep), List.filter_nil]
  rfl

/-- A path spelled with the names of a file leads to it. -/
theorem toFiles_of_file (hp : Forward root path)
    (hfile : t.files.lookup (namesOf path) = some bytes)
    (hway : ∀ way, way <+: namesOf path → way ≠ namesOf path → t.files.lookup way = none) :
    t.toFiles root path = .ok (.file bytes) := by
  have hnamesOf : namesOf path = (namesIn path).filter IsStep := rfl
  have hresolve : t.resolve root path = .ok (.inside (namesOf path)) := by
    rw [resolve_of_forward hp]
    rcases List.eq_nil_or_concat (namesIn path) with hnil | ⟨before, name, hnames⟩
    · rw [hnamesOf, hnil]
      rfl
    · rw [List.concat_eq_append] at hnames
      have hstep : IsStep name := hp.last name (by simp [hnames])
      have hall : namesOf path = before.filter IsStep ++ [name] := by simp [hnamesOf, hnames, hstep]
      rw [hnamesOf, hnames]
      apply foldlM_follow_concat (hnames ▸ hp.forward) hstep
      intro way hprefix
      have hshort := hprefix.length_le
      have hto : way <+: namesOf path := hall ▸ hprefix.trans (List.prefix_append _ _)
      refine entryAt_of_prefix hfile hto (hway way hto fun he => ?_)
      rw [he, hall, List.length_append, List.length_singleton] at hshort
      omega
  simp only [toFiles, hresolve, find, entryAt_of_file hfile]

example : (⟨[(["quire", "config.toml"], bytes)], []⟩ : FileTree).toFiles "/w" "quire//config.toml" =
    .ok (.file bytes) := rfl

end FileTree

namespace Settings

/-- When a tree gains files, and none of them at a place that was passed over, the settings stay
what they were, or the error does. -/
theorem load_of_within {t t' : FileTree} {root path : String}
    {systemPath explicitPath : Option String} (h : t.Within t')
    (hd : deciding? (t.toFiles root) systemPath explicitPath = some path)
    (hthere : (t.toFiles root).contains path = true)
    (hpassed : ∀ p ∈ passedOver (t.toFiles root) systemPath explicitPath,
      (t'.toFiles root).contains p = false) :
    load (t'.toFiles root) systemPath explicitPath =
      load (t.toFiles root) systemPath explicitPath := by
  apply load_congr hpassed
  intro p hp
  obtain rfl := Option.some.inj (hd.symm.trans hp)
  cases he : t.toFiles root path with
  | error e =>
    rw [Files.contains_of_error he] at hthere
    cases hthere
  | ok e => rw [SameAt, he, h.toFiles he]

end Settings

end BracketLint
