import BracketLint.Check

/-! Scans whose requests for memory are all granted. The list gains one record for each
finding, in the order of the findings, and the verdict on a source says whether there is any. -/

namespace BracketLint

namespace RecordList

theorem append_granted (l : RecordList) (message : List UInt8) (position : UInt32) :
    ∃ m, l.append message position .plenty = (.ok (), m) ∧
      m.toList = l.toList ++ [.point message position] := by
  have he : l.append message position .plenty =
      (.ok (), (l.append message position .plenty).2) :=
    Prod.ext (append_plenty l message position) rfl
  exact ⟨_, he, append_of_ok he⟩

end RecordList

theorem Finding.recordAll_granted (attempt : Nat) (l : RecordList) (fs : List Finding) :
    ∃ m, (recordAll (fun _ => .plenty) attempt l fs).value = (.ok (), m) ∧
      m.toList = l.toList ++ fs.map record := by
  induction fs generalizing attempt l with
  | nil => exact ⟨l, rfl, by simp⟩
  | cons f rest ih =>
    obtain ⟨m, he, hm⟩ := l.append_granted f.message f.position
    obtain ⟨n, he', hn⟩ := ih (attempt + 1) m
    refine ⟨n, ?_, ?_⟩
    · simp only [recordAll, RecordList.value_appendLogged, he, he']
    · simp only [hn, hm, List.map_cons, List.append_assoc, List.singleton_append, record]

theorem value_scanInto (o : ScanOptions) (s : List Char) (memory : Nat → Memory) (l : RecordList) :
    (scanInto o s memory l).value = (Finding.recordAll memory 0 l (scan o s)).value := by
  simp only [scanInto, Logged.value_bind, scan]
  split <;> rfl

theorem scanInto_granted (o : ScanOptions) (s : List Char) (l : RecordList) :
    ∃ m, (scanInto o s (fun _ => .plenty) l).value = (.ok (), m) ∧
      m.toList = l.toList ++ (scan o s).map Finding.record := by
  rw [value_scanInto]
  exact Finding.recordAll_granted 0 l (scan o s)

/-- The records that a scan puts into an empty list when all memory is granted. -/
def scanned (o : ScanOptions) (s : List Char) : List Record :=
  (scanInto o s (fun _ => .plenty) .empty).value.2.toList

theorem scanned_eq (o : ScanOptions) (s : List Char) :
    scanned o s = (scan o s).map Finding.record := by
  obtain ⟨m, he, hm⟩ := scanInto_granted o s .empty
  rw [scanned, he]
  simpa using hm

theorem check_granted (o : ScanOptions) (s : List Char) :
    (scan o s = [] ∧ (check o s (fun _ => .plenty)).value = .ok ()) ∨
      (scan o s ≠ [] ∧ ∃ l, (check o s (fun _ => .plenty)).value = .error (.rejected l) ∧
        l.toList = (scan o s).map Finding.record) := by
  obtain ⟨m, he, hm⟩ := scanInto_granted o s .empty
  rw [RecordList.toList_empty, List.nil_append] at hm
  have hempty : m.isEmpty = (scan o s).isEmpty := by
    rw [RecordList.isEmpty_eq, hm, List.isEmpty_map]
  by_cases hs : scan o s = []
  · refine .inl ⟨hs, ?_⟩
    simp only [check, Logged.value_bind, he, hempty, hs, List.isEmpty_nil, if_true,
      Logged.value_pure]
  · refine .inr ⟨hs, m, ?_, hm⟩
    have hf : m.isEmpty = false := by simpa [hempty] using hs
    simp only [check, Logged.value_bind, he, hf, Bool.false_eq_true, if_false, Logged.value_pure]

end BracketLint
