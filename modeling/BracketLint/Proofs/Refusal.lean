import Mathlib.Data.List.Basic
import BracketLint.Proofs.Granted

/-! Scans that may be refused memory. Up to the first refusal a scan records what it records
when all memory is granted. There it stops, and asks for nothing more. -/

namespace BracketLint

namespace RecordList

variable {l : RecordList} {message : List UInt8} {position : UInt32} {memory : Memory}

/-- What an append asks for: slots if the list is full, and a copy of the message unless that is
empty. -/
def requests (l : RecordList) (message : List UInt8) : List Request :=
  (if l.size < l.capacity then [] else [.slots (grown l.capacity)]) ++
    if message = [] then [] else [.message message.length]

theorem copies_of_granted (h : ∀ q ∈ l.requests message, memory q = true) :
    copies message memory = true := by
  by_cases hm : message = []
  · simp [copies, hm]
  · have hq := h (.message message.length) (by simp [requests, hm])
    simp [copies, hq]

theorem reserve?_of_granted (h : ∀ q ∈ l.requests message, memory q = true) :
    l.reserve? memory = l.reserve? .plenty := by
  by_cases hc : l.size < l.capacity
  · simp only [reserve?, if_pos hc]
  · have hq := h (.slots (grown l.capacity)) (by simp [requests, hc])
    simp only [reserve?, if_neg hc, hq, Memory.plenty]

/-- An append that gets all it asks for does what it does with plenty of memory. -/
theorem append_of_granted (h : ∀ q ∈ l.requests message, memory q = true) :
    l.append message position memory = l.append message position .plenty := by
  have hp : copies message .plenty = true := copies_of_granted (l := l) fun _ _ => rfl
  simp only [append, reserve?_of_granted h, copies_of_granted h, hp]

theorem append_of_reserve?_eq_none (h : l.reserve? memory = none) :
    l.append message position memory = (.error ⟨position, .slots (grown l.capacity)⟩, l) := by
  simp only [append, h]

theorem append_of_reserve?_eq_some {m : RecordList} (h : l.reserve? memory = some m) :
    l.append message position memory = if copies message memory then
      (.ok (), m.push (.point message position))
      else (.error ⟨position, .message message.length⟩, m) := by
  simp only [append, h]

theorem append_of_refused (position : UInt32)
    (h : ¬ ∀ q ∈ l.requests message, memory q = true) :
    ∃ e m, l.append message position memory = (.error e, m) := by
  cases hr : l.reserve? memory with
  | none => exact ⟨_, _, append_of_reserve?_eq_none hr⟩
  | some r =>
    have hcopy : copies message memory = false := by
      apply Bool.eq_false_iff.mpr
      intro hcopy
      apply h
      intro q hq
      rcases List.mem_append.mp hq with hq | hq
      · by_cases hc : l.size < l.capacity
        · simp [hc] at hq
        · obtain rfl : q = .slots (grown l.capacity) := by simpa [hc] using hq
          by_contra hno
          simp [reserve?, hc, hno] at hr
      · by_cases hm : message = []
        · simp [hm] at hq
        · obtain rfl : q = .message message.length := by simpa [hm] using hq
          simpa [copies, hm] using hcopy
    refine ⟨⟨position, .message message.length⟩, r, ?_⟩
    simp only [append_of_reserve?_eq_some hr, hcopy, Bool.false_eq_true, if_false]

/-- The list with one more record, all memory granted. -/
def keep (l : RecordList) (r : Record) : RecordList := (l.append r.message r.start .plenty).2

theorem append_plenty_eq (l : RecordList) (r : Record) :
    l.append r.message r.start .plenty = (.ok (), l.keep r) :=
  Prod.ext (append_plenty l r.message r.start) rfl

theorem toList_keep (l : RecordList) (r : Record) :
    (l.keep r).toList = l.toList ++ [.point r.message r.start] :=
  append_of_ok (append_plenty_eq l r)

end RecordList

namespace Refusal

/-- Of the attempts to keep the records `rs` in `l`, the one numbered `k` is granted all that it
asks for once those before it have succeeded. -/
def Granted (memory : Nat → Memory) (l : RecordList) (rs : List Record) (k : Nat) : Prop :=
  ∀ r, rs[k]? = some r → ∀ q ∈ ((rs.take k).foldl .keep l).requests r.message, memory k q = true

/-- The attempt numbered `k` is the first that is refused something. -/
structure First (memory : Nat → Memory) (l : RecordList) (rs : List Record) (k : Nat) : Prop where
  granted : ∀ i, i < k → Granted memory l rs i
  refused : ¬ Granted memory l rs k

variable {memory : Nat → Memory} {l : RecordList} {r : Record} {rs : List Record} {k : Nat}

theorem granted_zero :
    Granted memory l (r :: rs) 0 ↔ ∀ q ∈ l.requests r.message, memory 0 q = true := by
  constructor
  · exact fun h => h r rfl
  · intro h x hx
    obtain rfl := Option.some.inj hx
    exact h

theorem granted_succ :
    Granted memory l (r :: rs) (k + 1) ↔ Granted (fun i => memory (i + 1)) (l.keep r) rs k := by
  unfold Granted
  simp only [List.getElem?_cons_succ, List.take_succ_cons, List.foldl_cons]

theorem First.lt_length (h : First memory l rs k) : k < rs.length := by
  by_contra hk
  refine h.refused fun r hr => ?_
  rw [List.getElem?_eq_none (Nat.le_of_not_lt hk)] at hr
  cases hr

theorem First.tail (h : First memory l (r :: rs) (k + 1)) :
    First (fun i => memory (i + 1)) (l.keep r) rs k :=
  ⟨fun i hi => granted_succ.mp (h.granted (i + 1) (by omega)),
    fun hk => h.refused (granted_succ.mpr hk)⟩

theorem granted_all_or_nothing {g : Nat → Bool} (hne : ∀ r ∈ rs, r.message ≠ []) :
    Granted (fun i _ => g i) l rs k ↔ (k < rs.length → g k = true) := by
  constructor
  · intro h hk
    -- whatever the list, the attempt asks for a copy, since the message is not empty
    have hr : rs[k]? = some rs[k] := List.getElem?_eq_getElem hk
    have hm := hne rs[k] (List.getElem_mem hk)
    exact h _ hr (.message rs[k].message.length) (by simp [RecordList.requests, hm])
  · intro h r hr q _
    exact h (List.getElem?_eq_some_iff.mp hr).1

theorem first_all_or_nothing {g : Nat → Bool} (hne : ∀ r ∈ rs, r.message ≠ []) :
    First (fun i _ => g i) l rs k ↔
      k < rs.length ∧ (∀ i, i < k → g i = true) ∧ g k = false := by
  constructor
  · intro h
    have hk := h.lt_length
    refine ⟨hk, fun i hi => (granted_all_or_nothing hne).mp (h.granted i hi) (by omega), ?_⟩
    have hno := (not_congr (granted_all_or_nothing hne)).mp h.refused
    simpa [hk] using hno
  · rintro ⟨hk, hbefore, hno⟩
    refine ⟨fun i hi => (granted_all_or_nothing hne).mpr fun _ => hbefore i hi, fun h => ?_⟩
    have hyes := (granted_all_or_nothing hne).mp h hk
    rw [hno] at hyes
    cases hyes

theorem granted_refusing {n : Nat} (hne : ∀ r ∈ rs, r.message ≠ []) :
    Granted (fun _ => .refusing n) l rs k ↔ ∀ r, rs[k]? = some r → r.message.length ≠ n := by
  constructor
  · intro h r hr
    have hm := hne r (List.mem_of_getElem? hr)
    have hq := h r hr (.message r.message.length) (by simp [RecordList.requests, hm])
    simpa [Memory.refusing] using hq
  · intro h r hr q hq
    have hn := h r hr
    rcases List.mem_append.mp hq with hq | hq
    · split at hq
      · cases hq
      · obtain rfl := List.mem_singleton.mp hq
        rfl
    · split at hq
      · cases hq
      · obtain rfl := List.mem_singleton.mp hq
        simpa [Memory.refusing] using hn

theorem first_refusing {n : Nat} (hne : ∀ r ∈ rs, r.message ≠ []) :
    First (fun _ => .refusing n) l rs k ↔
      ∃ r, rs[k]? = some r ∧ r.message.length = n ∧ ∀ r' ∈ rs.take k, r'.message.length ≠ n := by
  constructor
  · intro h
    have hno := (not_congr (granted_refusing hne)).mp h.refused
    simp only [not_forall, not_not] at hno
    obtain ⟨r, hr, hn⟩ := hno
    refine ⟨r, hr, hn, fun r' hr' => ?_⟩
    obtain ⟨i, hi, he⟩ := List.mem_take_iff_getElem.mp hr'
    exact (granted_refusing hne).mp (h.granted i (by omega)) r' (he ▸ List.getElem?_eq_getElem _)
  · rintro ⟨r, hr, hn, hbefore⟩
    refine ⟨fun i hi => (granted_refusing hne).mpr fun r' hr' => ?_, fun h => ?_⟩
    · have hmem : (rs.take k)[i]? = some r' := by rw [List.getElem?_take_of_lt hi, hr']
      exact hbefore r' (List.mem_of_getElem? hmem)
    · exact (granted_refusing hne).mp h r hr hn

end Refusal

open Refusal

namespace Finding

variable {memory : Nat → Memory} {l : RecordList} {fs : List Finding} {k : Nat}

theorem toList_foldl_keep (l : RecordList) (fs : List Finding) :
    ((fs.map record).foldl .keep l).toList = l.toList ++ fs.map record := by
  induction fs generalizing l with
  | nil => simp
  | cons f fs ih =>
    rw [List.map_cons, List.foldl_cons, ih, RecordList.toList_keep, List.append_assoc]
    rfl

theorem recordAll_succ (memory : Nat → Memory) (n : Nat) (l : RecordList) (fs : List Finding) :
    recordAll memory (n + 1) l fs = recordAll (fun i => memory (i + 1)) n l fs := by
  induction fs generalizing n l with
  | nil => rfl
  | cons f fs ih => simp only [recordAll, ih]

section Value

variable {m : RecordList} {f : Finding} {e : OutOfMemory}

theorem value_recordAll_cons_of_ok (h : l.append f.message f.position (memory 0) = (.ok (), m)) :
    (recordAll memory 0 l (f :: fs)).value =
      (recordAll (fun i => memory (i + 1)) 0 m fs).value := by
  simp only [recordAll, RecordList.value_appendLogged, h, recordAll_succ]

theorem value_recordAll_cons_of_error
    (h : l.append f.message f.position (memory 0) = (.error e, m)) :
    (recordAll memory 0 l (f :: fs)).value = (.error e, m) := by
  simp only [recordAll, RecordList.value_appendLogged, h]

theorem toList_of_recordAll_eq_ok (h : (recordAll memory 0 l fs).value = (.ok (), m)) :
    m.toList = l.toList ++ fs.map record := by
  induction fs generalizing memory l with
  | nil =>
    obtain rfl : l = m := congrArg Prod.snd h
    simp
  | cons f fs ih =>
    rcases hd : l.append f.message f.position (memory 0) with ⟨e | ⟨⟩, n⟩
    · rw [value_recordAll_cons_of_error hd] at h
      cases h
    · rw [value_recordAll_cons_of_ok hd] at h
      rw [ih h, RecordList.append_of_ok hd, List.append_assoc]
      rfl

end Value

/-- A granted attempt is followed by the other attempts, on a list with one more record. -/
theorem recordAll_cons_of_granted {f : Finding} (h : ∀ q ∈ l.requests f.message, memory 0 q = true) :
    recordAll memory 0 l (f :: fs) =
      let after := recordAll (fun i => memory (i + 1)) 0 (l.keep f.record) fs
      ⟨f.events ++ .recorded f.position f.message.length :: after.events, after.value⟩ := by
  have happend : l.append f.message f.position (memory 0) = (.ok (), l.keep f.record) := by
    rw [RecordList.append_of_granted h]
    exact RecordList.append_plenty_eq l f.record
  have hlogged : l.appendLogged f.message f.position (memory 0) =
      ⟨[.recorded f.position f.message.length], (.ok (), l.keep f.record)⟩ := by
    simp only [RecordList.appendLogged, happend]
  simp only [recordAll, hlogged, Nat.zero_add, ← recordAll_succ, List.append_assoc,
    List.singleton_append]

/-- An attempt that is refused something is the last one. -/
theorem recordAll_cons_of_refused {f : Finding} (fs : List Finding)
    (h : ¬ ∀ q ∈ l.requests f.message, memory 0 q = true) :
    ∃ e m, recordAll memory 0 l (f :: fs) = ⟨f.events, (.error e, m)⟩ ∧
      l.append f.message f.position (memory 0) = (.error e, m) := by
  obtain ⟨e, m, happend⟩ := RecordList.append_of_refused f.position h
  have hlogged : l.appendLogged f.message f.position (memory 0) = ⟨[], (.error e, m)⟩ := by
    simp only [RecordList.appendLogged, happend]
  refine ⟨e, m, ?_, happend⟩
  simp only [recordAll, hlogged, List.append_nil]

theorem recordAll_of_granted (h : ∀ k, Granted memory l (fs.map record) k) :
    (recordAll memory 0 l fs).value = (.ok (), (fs.map record).foldl .keep l) := by
  induction fs generalizing memory l with
  | nil => rfl
  | cons f fs ih =>
    rw [recordAll_cons_of_granted (granted_zero.mp (h 0))]
    exact ih fun k => granted_succ.mp (h (k + 1))

theorem recordAll_of_first (h : First memory l (fs.map record) k) :
    ∃ e m f, (recordAll memory 0 l fs).value = (.error e, m) ∧ fs[k]? = some f ∧
      e.position = f.position ∧ m.toList = l.toList ++ (fs.take k).map record := by
  induction fs generalizing memory l k with
  | nil => exact absurd h.lt_length (Nat.not_lt_zero k)
  | cons f fs ih =>
    cases k with
    | zero =>
      obtain ⟨e, m, he, happend⟩ := recordAll_cons_of_refused fs fun hg =>
        h.refused (granted_zero.mpr hg)
      obtain ⟨hp, hm⟩ := RecordList.append_of_error happend
      exact ⟨e, m, f, by rw [he], rfl, hp, by simpa using hm⟩
    | succ k =>
      have hzero := granted_zero.mp (h.granted 0 (by omega))
      -- for the rest, on a list with one more record, the first refusal comes one attempt sooner
      obtain ⟨e, m, g, he, hg, hp, hm⟩ := ih h.tail
      refine ⟨e, m, g, ?_, hg, hp, ?_⟩
      · rw [recordAll_cons_of_granted hzero, ← he]
      · rw [hm, RecordList.toList_keep, List.append_assoc]
        rfl

/-- What happens up to the first refusal does not depend on the memory there is after it. -/
theorem recordAll_congr_of_first {memory' : Nat → Memory} (h : First memory l (fs.map record) k)
    (hm : ∀ i, i ≤ k → memory' i = memory i) :
    recordAll memory' 0 l fs = recordAll memory 0 l fs := by
  induction fs generalizing memory memory' l k with
  | nil => rfl
  | cons f fs ih =>
    have h0 := hm 0 (Nat.zero_le k)
    cases k with
    | zero =>
      have hno : ¬ ∀ q ∈ l.requests f.message, memory 0 q = true := fun hg =>
        h.refused (granted_zero.mpr hg)
      have hno' : ¬ ∀ q ∈ l.requests f.message, memory' 0 q = true := by rwa [h0]
      obtain ⟨e, m, he, happend⟩ := recordAll_cons_of_refused fs hno
      obtain ⟨e', m', he', happend'⟩ := recordAll_cons_of_refused fs hno'
      rw [h0, happend] at happend'
      cases happend'
      rw [he, he']
    | succ k =>
      have hzero := granted_zero.mp (h.granted 0 (by omega))
      rw [recordAll_cons_of_granted hzero, recordAll_cons_of_granted (by rwa [h0]),
        ih h.tail fun i hi => hm (i + 1) (by omega)]

theorem message_ne_nil (f : Finding) : f.message ≠ [] := by
  have htext : f.problem.message ≠ [] := by
    cases f.problem with
    | unexpectedClosing d => exact List.append_ne_nil_of_right_ne_nil _ (List.cons_ne_nil _ _)
    | mismatchedClosing d e n => exact List.append_ne_nil_of_right_ne_nil _ (List.cons_ne_nil _ _)
    | unterminatedString => decide
    | unclosed d => exact List.append_ne_nil_of_right_ne_nil _ (List.cons_ne_nil _ _)
  have hpos := Utf8.byteLength_pos htext
  rw [← Utf8.length_encode] at hpos
  exact List.length_pos_iff.mp hpos

end Finding

theorem message_ne_nil_of_mem_scanned {o : ScanOptions} {s : List Char} {r : Record}
    (h : r ∈ scanned o s) : r.message ≠ [] := by
  rw [scanned_eq] at h
  obtain ⟨f, -, rfl⟩ := List.mem_map.mp h
  exact f.message_ne_nil

section Scan

variable {o : ScanOptions} {s : List Char} {memory : Nat → Memory} {l : RecordList} {k : Nat}

theorem scanInto_of_granted (h : ∀ k, Granted memory l (scanned o s) k) :
    ∃ m, (scanInto o s memory l).value = (.ok (), m) ∧ m.toList = l.toList ++ scanned o s := by
  rw [scanned_eq] at h ⊢
  rw [value_scanInto, Finding.recordAll_of_granted h]
  exact ⟨_, rfl, Finding.toList_foldl_keep l (scan o s)⟩

theorem scanInto_of_first (h : First memory l (scanned o s) k) :
    ∃ e m r, (scanInto o s memory l).value = (.error e, m) ∧ (scanned o s)[k]? = some r ∧
      e.position = r.start ∧ m.toList = l.toList ++ (scanned o s).take k := by
  rw [scanned_eq] at h ⊢
  obtain ⟨e, m, f, he, hf, hp, hm⟩ := Finding.recordAll_of_first h
  refine ⟨e, m, f.record, by rw [value_scanInto, he], ?_, hp, by rw [hm, List.map_take]⟩
  rw [List.getElem?_map, hf, Option.map_some]

theorem toList_of_scanInto_eq_ok {m : RecordList} (h : (scanInto o s memory l).value = (.ok (), m)) :
    m.toList = l.toList ++ scanned o s := by
  rw [value_scanInto] at h
  rw [Finding.toList_of_recordAll_eq_ok h, scanned_eq]

theorem scanInto_congr_of_first {memory' : Nat → Memory} (h : First memory l (scanned o s) k)
    (hm : ∀ i, i ≤ k → memory' i = memory i) : scanInto o s memory' l = scanInto o s memory l := by
  rw [scanned_eq] at h
  have he := Finding.recordAll_congr_of_first h hm
  change Finding.recordAll memory' 0 l (Scan.findings [] (tokens o s)) =
    Finding.recordAll memory 0 l (Scan.findings [] (tokens o s)) at he
  simp only [scanInto, he]

theorem check_of_first (h : First memory .empty (scanned o s) k) :
    ∃ e r, (check o s memory).value = .error (.outOfMemory e) ∧ (scanned o s)[k]? = some r ∧
      e.position = r.start := by
  obtain ⟨e, m, r, he, hr, hp, -⟩ := scanInto_of_first h
  refine ⟨e, r, ?_, hr, hp⟩
  simp only [check, Logged.value_bind, he, Logged.value_pure]

end Scan

/-- What a scan adds does not depend on the list. It adds all of it if no attempt is refused
memory. At the first refusal it fails at the position of that record, having added the records
before it, and memory for later attempts plays no part. -/
theorem scanInto_stops_at_first_refusal (o : ScanOptions) (s : List Char) (memory : Nat → Memory)
    (l : RecordList) :
    (∃ m, (scanInto o s (fun _ => .plenty) l).value = (.ok (), m) ∧
      m.toList = l.toList ++ scanned o s) ∧
    ((∀ k, Granted memory l (scanned o s) k) →
      ∃ m, (scanInto o s memory l).value = (.ok (), m) ∧ m.toList = l.toList ++ scanned o s) ∧
    (∀ k, First memory l (scanned o s) k →
      (∃ e m r, (scanInto o s memory l).value = (.error e, m) ∧ (scanned o s)[k]? = some r ∧
        e.position = r.start ∧ m.toList = l.toList ++ (scanned o s).take k) ∧
      ∀ memory', (∀ i, i ≤ k → memory' i = memory i) →
        scanInto o s memory' l = scanInto o s memory l) ∧
    (∀ k, First memory .empty (scanned o s) k →
      ∃ e r, (check o s memory).value = .error (.outOfMemory e) ∧ (scanned o s)[k]? = some r ∧
        e.position = r.start ∧ (CheckError.outOfMemory e).records? = none) ∧
    (∀ (g : Nat → Bool) k, First (fun i _ => g i) l (scanned o s) k ↔
      k < (scanned o s).length ∧ (∀ i, i < k → g i = true) ∧ g k = false) ∧
    ∀ n k, First (fun _ => .refusing n) l (scanned o s) k ↔
      ∃ r, (scanned o s)[k]? = some r ∧ r.message.length = n ∧
        ∀ r' ∈ (scanned o s).take k, r'.message.length ≠ n := by
  have hne : ∀ r ∈ scanned o s, r.message ≠ [] := fun r => message_ne_nil_of_mem_scanned
  refine ⟨scanInto_of_granted fun _ _ _ _ _ => rfl, scanInto_of_granted, fun k h => ?_, fun k h => ?_,
    fun g k => first_all_or_nothing hne, fun n k => first_refusing hne⟩
  · exact ⟨scanInto_of_first h, fun memory' => scanInto_congr_of_first h⟩
  · obtain ⟨e, r, he, hr, hp⟩ := check_of_first h
    exact ⟨e, r, he, hr, hp, rfl⟩

/-- Refused among the brackets left open at the end, on a list that has a record already. -/
theorem scanInto_stops_at_first_refusal_unclosed :
    First (fun i _ => i != 2) (RecordList.empty.keep ⟨0, 0, [97]⟩) (scanned {} "a)(\n\x22x\n[".toList) 2 ∧
    (∃ e m, (scanInto {} "a)(\n\x22x\n[".toList (fun i _ => i != 2)
        (RecordList.empty.keep ⟨0, 0, [97]⟩)).value = (.error e, m) ∧
      e.position = 2 ∧
      m.toList = [⟨0, 0, [97]⟩, .point (Utf8.encode "unexpected closing \x60)\x60".toList) 1,
        .point (Utf8.encode "unterminated string literal".toList) 4]) ∧
    ∃ e, (check {} "a)(\n\x22x\n[".toList (fun i _ => i != 2)).value = .error (.outOfMemory e) ∧
      e.position = 2 := by
  have hs : scanned {} "a)(\n\x22x\n[".toList =
      [.point (Utf8.encode "unexpected closing \x60)\x60".toList) 1,
        .point (Utf8.encode "unterminated string literal".toList) 4,
        .point (Utf8.encode "unclosed \x60(\x60".toList) 2,
        .point (Utf8.encode "unclosed \x60[\x60".toList) 7] := by decide +kernel
  have hall := fun l => scanInto_stops_at_first_refusal {} "a)(\n\x22x\n[".toList (fun i _ => i != 2) l
  rw [hs] at hall ⊢
  have hfirst : ∀ l, First (fun i _ => i != 2) l _ 2 := fun l =>
    ((hall l).2.2.2.2.1 (fun i => i != 2) 2).mpr (by decide)
  refine ⟨hfirst _, ?_, ?_⟩
  · obtain ⟨⟨e, m, r, he, hr, hp, hm⟩, -⟩ := (hall _).2.2.1 2 (hfirst _)
    obtain rfl := Option.some.inj hr
    exact ⟨e, m, he, hp, hm⟩
  · obtain ⟨e, r, he, hr, hp, -⟩ := (hall .empty).2.2.2.1 2 (hfirst _)
    obtain rfl := Option.some.inj hr
    exact ⟨e, he, hp⟩

end BracketLint
