import Mathlib.Data.List.Basic
import BracketLint.Proofs.Placement

/-! What a scan notes down. From the events alone one can read which records were added, which
closing brackets met an open one of another kind, and whether the scan came to its end, also when
memory was refused on the way. -/

namespace BracketLint

open PlacedToken Pairing

/-- The events with this message, in order. -/
def Logged.entries {α : Type} (x : Logged α) (message : String) : List Event :=
  x.events.filter (·.message = message)

/-- The places of two brackets of which one closes the other, but not as one of its kind. -/
structure MismatchedPair where
  openedAt : Nat
  offset : Nat
  deriving DecidableEq

def MismatchedPair.event (p : MismatchedPair) : Event :=
  .mismatchedPair (Offset.ofNat p.openedAt) (Offset.ofNat p.offset)

def Record.event (r : Record) : Event := .recorded r.start r.message.length

namespace Pairing

/-- The token numbered `j` and its partner, if that is of another kind. -/
def mismatchAt (ts : List PlacedToken) (j : Nat) : Option MismatchedPair :=
  (opener? ts j).bind fun i =>
    if kindAt ts i = kindAt ts j then none
    else ts[i]?.bind fun t => ts[j]?.map fun u => ⟨t.start, u.start⟩

/-- The number of faulty tokens before the one numbered `j`. -/
def faultsBefore (ts : List PlacedToken) (j : Nat) : Nat :=
  ((List.range j).filterMap (faultAt ts)).length

/-- The mismatches of the tokens that are read when each faulty token adds a record and `n` records
are added: there may be a faulty token after that, and none after that one. -/
def mismatchesRead (ts : List PlacedToken) (n : Nat) : List MismatchedPair :=
  ((List.range ts.length).filter (faultsBefore ts · ≤ n)).filterMap (mismatchAt ts)

variable {ts : List PlacedToken} {i j : Nat} {t u : PlacedToken} {d e : BracketKind}

theorem mismatchAt_of_unpaired (h : ∀ i, ¬ Partners ts i j) : mismatchAt ts j = none := by
  rw [mismatchAt, opener?_eq_none h, Option.bind_none]

theorem mismatchAt_of_not_closing (hj : ts[j]? = some t)
    (hno : ∀ d, t.token ≠ .bracket (.closing d)) : mismatchAt ts j = none := by
  refine mismatchAt_of_unpaired fun i hi => ?_
  obtain ⟨d, hd⟩ := hi.closing
  rw [bracketAt_of_get hj] at hd
  cases ht : t.token <;> rw [ht] at hd <;> cases hd
  exact hno d ht

theorem mismatchAt_of_partners (h : Partners ts i j) (hi : ts[i]? = some t)
    (ht : t.token = .bracket (.opening e)) (hj : ts[j]? = some u)
    (hu : u.token = .bracket (.closing d)) :
    mismatchAt ts j = if e = d then none else some ⟨t.start, u.start⟩ := by
  have hkind : kindAt ts i = kindAt ts j ↔ e = d := by
    rw [kindAt_of_token hi ht, kindAt_of_token hj hu, Option.some_inj]
    rfl
  simp only [mismatchAt, opener?_eq_some h, Option.bind_some, hi, hj, Option.map_some, hkind]

theorem exists_partners_of_mismatchAt {p : MismatchedPair} (h : mismatchAt ts j = some p) :
    ∃ i t u, ts[i]? = some t ∧ ts[j]? = some u ∧ i < j ∧ p = ⟨t.start, u.start⟩ := by
  obtain ⟨i, ho, h⟩ := Option.bind_eq_some_iff.mp h
  have hp : Partners ts i j := by simpa using List.find?_some ho
  split at h
  · cases h
  · obtain ⟨t, ht, h⟩ := Option.bind_eq_some_iff.mp h
    obtain ⟨u, hu, rfl⟩ := Option.map_eq_some_iff.mp h
    exact ⟨i, t, u, ht, hu, hp.lt, rfl⟩

@[simp] theorem faultsBefore_zero : faultsBefore ts 0 = 0 := rfl

theorem faultsBefore_succ :
    faultsBefore ts (j + 1) = faultsBefore ts j + (faultAt ts j).toList.length := by
  rw [faultsBefore, List.range_succ, List.filterMap_append, List.length_append, faultsBefore]
  cases hf : faultAt ts j <;> simp [hf]

theorem faultsBefore_succ_of_none (h : faultAt ts j = none) :
    faultsBefore ts (j + 1) = faultsBefore ts j := by
  rw [faultsBefore_succ, h, Option.toList_none, List.length_nil, Nat.add_zero]

theorem faultsBefore_succ_of_some {n : Notice} (h : faultAt ts j = some n) :
    faultsBefore ts (j + 1) = faultsBefore ts j + 1 := by
  rw [faultsBefore_succ, h, Option.toList_some, List.length_singleton]

theorem faultsBefore_mono (h : i ≤ j) : faultsBefore ts i ≤ faultsBefore ts j := by
  induction h with
  | refl => exact Nat.le_refl _
  | step h ih =>
    rw [faultsBefore_succ]
    omega

theorem filter_faultsBefore_lt (ts : List PlacedToken) (j m : Nat) :
    (List.range' j m).filter (faultsBefore ts · < faultsBefore ts j) = [] := by
  rw [List.filter_eq_nil_iff]
  intro i hi
  have hle : faultsBefore ts j ≤ faultsBefore ts i := faultsBefore_mono (List.mem_range'_1.mp hi).1
  simpa using hle

end Pairing

namespace Finding

variable {f : Finding} {fs : List Finding}

/-- The two places that a finding is about if it is a mismatch. -/
def mismatch? (f : Finding) : Option MismatchedPair :=
  match f.problem with
  | .mismatchedClosing _ _ openedAt => some ⟨openedAt, f.offset⟩
  | .unexpectedClosing _ | .unterminatedString | .unclosed _ => none

theorem events_eq (f : Finding) : f.events = f.mismatch?.toList.map MismatchedPair.event := by
  obtain ⟨problem, offset⟩ := f
  cases problem <;> rfl

theorem of_events_eq {before rest : List Event} {a p : UInt32}
    (h : f.events = before ++ .mismatchedPair a p :: rest) : rest = [] ∧ f.position = p := by
  rw [events_eq] at h
  obtain ⟨problem, offset⟩ := f
  cases problem with
  | mismatchedClosing d e n =>
    cases before with
    | nil => cases h; exact ⟨rfl, rfl⟩
    | cons b before => simp [mismatch?] at h
  | unexpectedClosing d => simp [mismatch?] at h
  | unterminatedString => simp [mismatch?] at h
  | unclosed d => simp [mismatch?] at h

/-- The events of a finding that is recorded. -/
def kept (f : Finding) : List Event := f.events ++ [f.record.event]

theorem recordAll_cons_of_kept {memory : Nat → Memory} {l : RecordList} (fs : List Finding)
    (h : ∀ q ∈ l.requests f.message, memory 0 q = true) :
    recordAll memory 0 l (f :: fs) =
      let after := recordAll (fun i => memory (i + 1)) 0 (l.keep f.record) fs
      ⟨f.kept ++ after.events, after.value⟩ := by
  simp only [recordAll_cons_of_granted h, kept, List.append_assoc]
  rfl

/-- Findings are recorded up to the end or up to the first one that is refused memory. Of that one
there is at most the event that comes before its record. -/
theorem recordAll_cases (memory : Nat → Memory) (l : RecordList) (fs : List Finding) :
    (∃ m, recordAll memory 0 l fs = ⟨fs.flatMap kept, (.ok (), m)⟩ ∧
      m.toList = l.toList ++ fs.map record) ∨
    ∃ done f rest e m, fs = done ++ f :: rest ∧
      recordAll memory 0 l fs = ⟨done.flatMap kept ++ f.events, (.error e, m)⟩ ∧
      e.position = f.position ∧ m.toList = l.toList ++ done.map record := by
  induction fs generalizing memory l with
  | nil => exact .inl ⟨l, rfl, by simp⟩
  | cons f fs ih =>
    by_cases hg : ∀ q ∈ l.requests f.message, memory 0 q = true
    · have hcons := recordAll_cons_of_kept fs hg
      have hkeep (rs : List Record) :
          (l.keep f.record).toList ++ rs = l.toList ++ f.record :: rs := by
        rw [RecordList.toList_keep, List.append_assoc]
        rfl
      rcases ih (fun i => memory (i + 1)) (l.keep f.record) with
        ⟨m, he, hm⟩ | ⟨done, g, rest, e, m, hfs, he, hp, hm⟩
      · refine .inl ⟨m, ?_, by rw [hm, hkeep, List.map_cons]⟩
        rw [hcons, he, List.flatMap_cons]
      · refine .inr ⟨f :: done, g, rest, e, m, by rw [hfs, List.cons_append], ?_, hp,
          by rw [hm, hkeep, List.map_cons]⟩
        rw [hcons, he, List.flatMap_cons, List.append_assoc]
    · obtain ⟨e, m, he, happend⟩ := recordAll_cons_of_refused fs hg
      obtain ⟨hp, hm⟩ := RecordList.append_of_error happend
      exact .inr ⟨[], f, fs, e, m, rfl, he, hp, by simpa using hm⟩

section Messages

theorem filter_events_of_ne {message : String} (h : message ≠ "Mismatched bracket pair") :
    f.events.filter (·.message = message) = [] := by
  rw [List.filter_eq_nil_iff]
  intro e he
  rw [events_eq] at he
  obtain ⟨p, -, rfl⟩ := List.mem_map.mp he
  exact fun hm => h (of_decide_eq_true hm).symm

theorem filter_events_mismatched :
    f.events.filter (·.message = "Mismatched bracket pair") = f.events := by
  rw [events_eq, List.filter_eq_self]
  intro e he
  obtain ⟨p, -, rfl⟩ := List.mem_map.mp he
  rfl

theorem kept_recorded (f : Finding) :
    f.kept.filter (·.message = "Recorded diagnostic") = [f.record.event] := by
  rw [kept, List.filter_append, filter_events_of_ne (by decide)]
  rfl

theorem kept_mismatched (f : Finding) :
    f.kept.filter (·.message = "Mismatched bracket pair") =
      f.mismatch?.toList.map MismatchedPair.event := by
  rw [kept, List.filter_append, filter_events_mismatched, events_eq]
  exact List.append_nil _

theorem kept_finished (f : Finding) : f.kept.filter (·.message = "Scan finished") = [] := by
  rw [kept, List.filter_append, filter_events_of_ne (by decide)]
  rfl

theorem filter_kept_recorded (fs : List Finding) :
    (fs.flatMap kept).filter (·.message = "Recorded diagnostic") =
      (fs.map record).map Record.event := by
  simp only [List.filter_flatMap, kept_recorded]
  rw [List.map_map, List.map_eq_flatMap]
  rfl

theorem filter_kept_mismatched (fs : List Finding) :
    (fs.flatMap kept).filter (·.message = "Mismatched bracket pair") =
      (fs.filterMap mismatch?).map MismatchedPair.event := by
  simp only [List.filter_flatMap, kept_mismatched, List.filterMap_eq_flatMap_toList,
    List.map_flatMap]

theorem filter_kept_finished (fs : List Finding) :
    (fs.flatMap kept).filter (·.message = "Scan finished") = [] := by
  rw [List.filter_flatMap, List.flatMap_eq_nil_iff]
  exact fun f _ => f.kept_finished

end Messages

end Finding

section Findings

variable {st : List Opener} {ts : List PlacedToken} {t : PlacedToken} {k : Nat}

theorem Scan.mismatch?_of_mem_leftOpen {f : Finding} (h : f ∈ Scan.leftOpen st) :
    f.mismatch? = none := by
  obtain ⟨o, -, rfl⟩ := List.mem_map.mp h
  rfl

theorem Scan.mismatch?_step_of_not_closing (h : ∀ d, t.token ≠ .bracket (.closing d)) :
    (Scan.step st t).2.bind Finding.mismatch? = none := by
  obtain ⟨token, start, stop⟩ := t
  cases token with
  | bracket b =>
    cases b with
    | opening d => rfl
    | closing d => exact absurd rfl (h d)
  | string terminated => cases terminated <;> rfl
  | comment body => rfl
  | text run => rfl

/-- What a token reports as a mismatch is that of the token and its partner. -/
theorem Standing.mismatch?_step (h : Standing ts k st) (hg : ts[k]? = some t) :
    (Scan.step st t).2.bind Finding.mismatch? = mismatchAt ts k := by
  by_cases hc : ∃ d, t.token = .bracket (.closing d)
  · obtain ⟨d, ht⟩ := hc
    have hb := bracketAt_of_token hg ht
    rw [Scan.step_of_closing ht]
    cases st with
    | nil =>
      rw [mismatchAt_of_unpaired (h.close_ground hb).1]
      rfl
    | cons o st =>
      obtain ⟨⟨i, u, hu, ho, hstart, hi⟩, -⟩ := h.pop hb
      rw [mismatchAt_of_partners hi hu ho hg ht, Scan.close, hstart]
      by_cases he : o.kind = d
      · rw [if_pos he, if_pos he]
        rfl
      · rw [if_neg he, if_neg he]
        rfl
  · have hno : ∀ d, t.token ≠ .bracket (.closing d) := fun d hd => hc ⟨d, hd⟩
    rw [mismatchAt_of_not_closing hg hno, Scan.mismatch?_step_of_not_closing hno]

/-- From any point on, the mismatches among the first `n` reports are those of the tokens up to the
one that makes the last of these reports. -/
theorem Standing.mismatches_eq (h : Standing ts k st) (hk : k ≤ ts.length) (n : Nat) :
    ((Scan.reported st (ts.drop k)).take n).filterMap Finding.mismatch? =
      ((List.range' k (ts.length - k)).filter fun i =>
        faultsBefore ts i < faultsBefore ts k + n).filterMap (mismatchAt ts) := by
  obtain ⟨left, hleft⟩ : ∃ left, left = ts.length - k := ⟨_, rfl⟩
  induction left generalizing k st n with
  | zero =>
    obtain rfl : k = ts.length := by omega
    rw [List.drop_length, Nat.sub_self]
    simp [Scan.reported]
  | succ left ih =>
    have hlt : k < ts.length := by omega
    have hg : ts[k]? = some ts[k] := List.getElem?_eq_getElem hlt
    obtain ⟨hs, hf⟩ := h.step hg
    have hm := h.mismatch?_step hg
    rw [List.drop_eq_getElem_cons hlt, Scan.reported]
    cases hstep : (Scan.step st ts[k]).2 with
    | none =>
      rw [hstep, Option.map_none] at hf
      rw [hstep, Option.bind_none] at hm
      rw [Option.toList_none, List.nil_append, ih hs hlt n (by omega),
        faultsBefore_succ_of_none hf.symm, range'_sub_of_lt hlt, List.filter_cons]
      split
      · rw [List.filterMap_cons_none hm.symm]
      · rfl
    | some f =>
      rw [hstep, Option.map_some] at hf
      rw [hstep, Option.bind_some] at hm
      cases n with
      | zero =>
        rw [List.take_zero, Nat.add_zero, filter_faultsBefore_lt]
        rfl
      | succ n =>
        have hlast : faultsBefore ts (k + 1) + n = faultsBefore ts k + (n + 1) := by
          rw [faultsBefore_succ_of_some hf.symm]
          omega
        rw [Option.toList_some, List.singleton_append, List.take_succ_cons, List.filterMap_cons, hm,
          ih hs hlt n (by omega), hlast, range'_sub_of_lt hlt, List.filter_cons_of_pos (by simp),
          List.filterMap_cons]

theorem mismatches_scan (o : ScanOptions) (s : List Char) (n : Nat) :
    ((scan o s).take (n + 1)).filterMap Finding.mismatch? = mismatchesRead (tokens o s) n := by
  have hopen (m : Nat) : ((Scan.leftOpen (Scan.after [] (tokens o s))).take m).filterMap
      Finding.mismatch? = [] :=
    List.filterMap_eq_nil_iff.mpr fun f hf =>
      Scan.mismatch?_of_mem_leftOpen (List.mem_of_mem_take hf)
  have hread := (Standing.start (tokens o s)).mismatches_eq (Nat.zero_le _) (n + 1)
  simp only [List.drop_zero, Nat.sub_zero, ← List.range_eq_range', faultsBefore_zero, Nat.zero_add,
    Nat.lt_succ_iff] at hread
  rw [scan, Scan.findings_eq, List.take_append, List.filterMap_append, hopen, List.append_nil, hread]
  rfl

end Findings

/-- The events of a scan of the tokens `ts` into `l` say what it did: which records it added, which
mismatches it met, each before its record, and that it came to its end if it did. -/
structure Replay (ts : List PlacedToken) (l : RecordList) (x : Logged Recorded)
    (added : List Record) : Prop where
  records : x.value.2.toList = l.toList ++ added
  recorded : x.entries "Recorded diagnostic" = added.map Record.event
  mismatched :
    x.entries "Mismatched bracket pair" = (mismatchesRead ts added.length).map MismatchedPair.event
  order : ∀ before a p rest, x.events = before ++ .mismatchedPair a p :: rest →
    (∃ n after, rest = .recorded p n :: after) ∨
      rest = [] ∧ ∃ e, x.value.1 = .error e ∧ e.position = p
  finished : x.value.1 = .ok () →
    x.events.getLast? = some (.scanFinished ts.length added.length) ∧
      x.entries "Scan finished" = [.scanFinished ts.length added.length]
  unfinished : ∀ e, x.value.1 = .error e → x.entries "Scan finished" = []

/-- The values that a scan of the tokens `ts` notes down, each under its name. -/
structure NamedValues (ts : List PlacedToken) (x : Logged Recorded) (added : List Record) : Prop where
  recorded : (x.entries "Recorded diagnostic").map Event.fields = added.map fun r =>
    [("position", toString r.start.toNat), ("message_len", toString r.message.length)]
  mismatched : (x.entries "Mismatched bracket pair").map Event.fields =
    (mismatchesRead ts added.length).map fun p =>
      [("opened_at", toString (Offset.ofNat p.openedAt).toNat),
        ("pos", toString (Offset.ofNat p.offset).toNat)]
  finished : x.value.1 = .ok () → (x.entries "Scan finished").map Event.fields =
    [[("tokens_len", toString ts.length), ("diagnostics_len", toString added.length)]]

theorem Replay.namedValues {ts : List PlacedToken} {l : RecordList} {x : Logged Recorded}
    {added : List Record} (h : Replay ts l x added) : NamedValues ts x added := by
  refine ⟨?_, ?_, fun hok => ?_⟩
  · rw [h.recorded, List.map_map]
    rfl
  · rw [h.mismatched, List.map_map]
    rfl
  · rw [(h.finished hok).2]
    rfl

section Scan

open Finding

variable {o : ScanOptions} {s : List Char}

theorem scanInto_cases (o : ScanOptions) (s : List Char) (memory : Nat → Memory) (l : RecordList) :
    (∃ m, scanInto o s memory l = ⟨(scan o s).flatMap kept ++
        [.scanFinished (tokens o s).length (scan o s).length], (.ok (), m)⟩ ∧
      m.toList = l.toList ++ (scan o s).map record) ∨
    ∃ done f rest e m, scan o s = done ++ f :: rest ∧
      scanInto o s memory l = ⟨done.flatMap kept ++ f.events, (.error e, m)⟩ ∧
      e.position = f.position ∧ m.toList = l.toList ++ done.map record := by
  rcases recordAll_cases memory l (scan o s) with ⟨m, he, hm⟩ | ⟨done, f, rest, e, m, hs, he, hp, hm⟩
  · have hsize : m.size - l.size = (scan o s).length := by
      rw [← m.length_toList, hm, List.length_append, l.length_toList, List.length_map]
      omega
    refine .inl ⟨m, ?_, hm⟩
    change (recordAll memory 0 l (scan o s) >>= _) = _
    rw [he, ← hsize]
    rfl
  · refine .inr ⟨done, f, rest, e, m, hs, ?_, hp, hm⟩
    change (recordAll memory 0 l (scan o s) >>= _) = _
    rw [he]
    change (⟨done.flatMap kept ++ f.events ++ [], (.error e, m)⟩ : Logged Recorded) = _
    rw [List.append_nil]

theorem kept_order {fs : List Finding} {before rest tail : List Event} {a p : UInt32}
    (h : fs.flatMap kept ++ tail = before ++ .mismatchedPair a p :: rest) :
    (∃ n after, rest = .recorded p n :: after) ∨
      ∃ before', tail = before' ++ .mismatchedPair a p :: rest := by
  induction fs generalizing before with
  | nil => exact .inr ⟨before, h⟩
  | cons f fs ih =>
    have hlater {before : List Event} (hb : f.record.event :: (fs.flatMap kept ++ tail) =
        before ++ .mismatchedPair a p :: rest) :
        (∃ n after, rest = .recorded p n :: after) ∨
          ∃ before', tail = before' ++ .mismatchedPair a p :: rest := by
      cases before with
      | nil => cases hb
      | cons e before => exact ih (List.cons.inj hb).2
    rw [List.flatMap_cons, kept, List.append_assoc, List.append_assoc, List.singleton_append] at h
    rcases List.append_eq_append_iff.mp h with ⟨before', -, hb⟩ | ⟨mine, he, hb⟩
    · exact hlater hb
    · cases mine with
      | nil => exact hlater (hb.symm.trans (List.nil_append _).symm)
      | cons e mine =>
        obtain ⟨rfl, rfl⟩ := List.cons.inj hb
        obtain ⟨rfl, rfl⟩ := of_events_eq he
        exact .inl ⟨f.message.length, _, rfl⟩

theorem filter_kept_events_mismatched {fs : List Finding} {f : Finding} :
    (fs.flatMap kept ++ f.events).filter (·.message = "Mismatched bracket pair") =
      ((fs ++ [f]).filterMap mismatch?).map MismatchedPair.event := by
  rw [List.filter_append, filter_kept_mismatched, filter_events_mismatched, events_eq,
    List.filterMap_append, List.map_append, List.filterMap_cons]
  cases f.mismatch? <;> rfl

theorem replay_of_ok {x : Logged Recorded} {l m : RecordList}
    (hx : x = ⟨(scan o s).flatMap kept ++
      [.scanFinished (tokens o s).length (scan o s).length], (.ok (), m)⟩)
    (hm : m.toList = l.toList ++ (scan o s).map record) :
    Replay (tokens o s) l x ((scan o s).map record) := by
  subst hx
  have hlen : ((scan o s).map record).length = (scan o s).length := List.length_map _
  refine ⟨hm, ?_, ?_, ?_, ?_, fun e he => by cases he⟩
  · rw [Logged.entries, List.filter_append, filter_kept_recorded]
    exact List.append_nil _
  · rw [Logged.entries, List.filter_append, filter_kept_mismatched, hlen, ← mismatches_scan,
      List.take_of_length_le (Nat.le_succ _)]
    exact List.append_nil _
  · intro before a p rest h
    rcases kept_order h with h | ⟨before', h⟩
    · exact .inl h
    · have hmem : Event.mismatchedPair a p ∈ before' ++ .mismatchedPair a p :: rest :=
        List.mem_append_right _ List.mem_cons_self
      rw [← h] at hmem
      cases List.mem_singleton.mp hmem
  · intro _
    refine ⟨by rw [hlen, List.getLast?_concat], ?_⟩
    rw [Logged.entries, List.filter_append, filter_kept_finished, hlen]
    rfl

theorem replay_of_error {x : Logged Recorded} {l m : RecordList} {done rest : List Finding}
    {f : Finding} {e : OutOfMemory} (hs : scan o s = done ++ f :: rest)
    (hx : x = ⟨done.flatMap kept ++ f.events, (.error e, m)⟩) (hp : e.position = f.position)
    (hm : m.toList = l.toList ++ done.map record) :
    Replay (tokens o s) l x (done.map record) := by
  subst hx
  refine ⟨hm, ?_, ?_, ?_, fun he => (by cases he), fun _ _ => ?_⟩
  · rw [Logged.entries, List.filter_append, filter_kept_recorded, filter_events_of_ne (by decide),
      List.append_nil]
  · have htake : (scan o s).take (done.length + 1) = done ++ [f] := by
      rw [hs, List.take_length_add_append]
      rfl
    rw [Logged.entries, filter_kept_events_mismatched, List.length_map, ← mismatches_scan, htake]
  · intro before a p rest' h
    rcases kept_order h with h | ⟨before', h⟩
    · exact .inl h
    · right
      obtain ⟨hrest, hpos⟩ := of_events_eq h
      exact ⟨hrest, e, rfl, hp.trans hpos⟩
  · rw [Logged.entries, List.filter_append, filter_kept_finished, filter_events_of_ne (by decide)]
    rfl

end Scan

theorem offsets_of_mem_mismatchesRead {o : ScanOptions} {s : List Char} {n : Nat} {p : MismatchedPair}
    (h : p ∈ mismatchesRead (tokens o s) n) :
    p.openedAt < p.offset ∧ p.offset < Utf8.byteLength s := by
  obtain ⟨j, -, hj⟩ := List.mem_filterMap.mp h
  obtain ⟨i, t, u, ht, hu, hij, rfl⟩ := exists_partners_of_mismatchAt hj
  have htiles := (Lexeme.tokenizes_tokens o s).tiles
  exact ⟨start_lt_of_lt htiles.pairwise_start ht hu hij,
    htiles.start_lt u (List.mem_of_getElem? hu)⟩

/-- The events of a scan replay it, whatever the list holds and whatever memory is granted. -/
theorem scanInto_events_replay (o : ScanOptions) (s : List Char) (memory : Nat → Memory)
    (l : RecordList) :
    (∃ added, Replay (tokens o s) l (scanInto o s memory l) added ∧
      NamedValues (tokens o s) (scanInto o s memory l) added) ∧
    (Utf8.byteLength s ≤ Offset.greatest → ∀ a p,
      .mismatchedPair a p ∈ (scanInto o s memory l).events → a < p) := by
  have hreplay : ∃ added, Replay (tokens o s) l (scanInto o s memory l) added := by
    rcases scanInto_cases o s memory l with ⟨m, hx, hm⟩ | ⟨done, f, rest, e, m, hs, hx, hp, hm⟩
    · exact ⟨_, replay_of_ok hx hm⟩
    · exact ⟨_, replay_of_error hs hx hp hm⟩
  obtain ⟨added, hr⟩ := hreplay
  refine ⟨⟨added, hr, hr.namedValues⟩, fun hlen a p hmem => ?_⟩
  have hentry : .mismatchedPair a p ∈ (scanInto o s memory l).entries "Mismatched bracket pair" :=
    List.mem_filter.mpr ⟨hmem, rfl⟩
  rw [hr.mismatched] at hentry
  obtain ⟨q, hq, he⟩ := List.mem_map.mp hentry
  obtain ⟨hlt, hend⟩ := offsets_of_mem_mismatchesRead hq
  cases he
  rw [UInt32.lt_iff_toNat_lt, Offset.toNat_ofNat_of_le (by omega), Offset.toNat_ofNat_of_le (by omega)]
  exact hlt

/-- Two mismatched pairs, the record of the second one refused, on a list that has a record. -/
theorem scanInto_events_replay_refused :
    Utf8.byteLength "[)(]]".toList ≤ Offset.greatest ∧
    ∃ x added, x = scanInto {} "[)(]]".toList (fun i _ => i != 1)
        (RecordList.empty.keep ⟨0, 0, [97]⟩) ∧
      x.value.2.toList = ⟨0, 0, [97]⟩ :: added ∧ added.map Record.start = [1] ∧
      x.entries "Mismatched bracket pair" = [.mismatchedPair 0 1, .mismatchedPair 2 3] ∧
      (x.entries "Mismatched bracket pair").map Event.fields =
        [[("opened_at", "0"), ("pos", "1")], [("opened_at", "2"), ("pos", "3")]] ∧
      x.entries "Scan finished" = [] ∧
      .mismatchedPair 0 1 ∈ x.events ∧ (0 : UInt32) < 1 := by
  have hlen : Utf8.byteLength "[)(]]".toList ≤ Offset.greatest := by decide
  have hstarts : (scanInto {} "[)(]]".toList (fun i _ => i != 1)
      (RecordList.empty.keep ⟨0, 0, [97]⟩)).value.2.toList.map Record.start = [0, 1] := by
    decide +kernel
  have hfailed : (scanInto {} "[)(]]".toList (fun i _ => i != 1)
      (RecordList.empty.keep ⟨0, 0, [97]⟩)).value.1.isOk = false := by decide +kernel
  have hpairs : mismatchesRead (tokens {} "[)(]]".toList) 1 = [⟨0, 1⟩, ⟨2, 3⟩] := by decide +kernel
  obtain ⟨⟨added, hr, hnamed⟩, horder⟩ := scanInto_events_replay {} "[)(]]".toList (fun i _ => i != 1)
    (RecordList.empty.keep ⟨0, 0, [97]⟩)
  generalize scanInto {} "[)(]]".toList (fun i _ => i != 1)
    (RecordList.empty.keep ⟨0, 0, [97]⟩) = x at hstarts hfailed hr hnamed horder
  have hadded : added.map Record.start = [1] := by
    rw [hr.records, List.map_append] at hstarts
    exact (List.cons.inj hstarts).2
  have hmismatched := hr.mismatched
  rw [← List.length_map (f := Record.start), hadded, List.length_singleton, hpairs] at hmismatched
  have hmem : .mismatchedPair 0 1 ∈ x.entries "Mismatched bracket pair" := by
    rw [hmismatched]
    exact List.mem_cons_self
  have hevent := (List.mem_filter.mp hmem).1
  have hvalues := hnamed.mismatched
  rw [← List.length_map (f := Record.start), hadded, List.length_singleton, hpairs] at hvalues
  refine ⟨hlen, x, added, rfl, hr.records, hadded, hmismatched, hvalues, ?_, hevent,
    horder hlen 0 1 hevent⟩
  cases he : x.value.1 with
  | error e => exact hr.unfinished e he
  | ok u =>
    rw [he] at hfailed
    cases hfailed

end BracketLint
