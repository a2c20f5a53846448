import BracketLint.Proofs.History

/-! Cursors moved from both ends, in any order. What one has given from the front, what is still
to come and what it has given from the back, turned around, make up the list. Clones go their own
ways. -/

namespace BracketLint

/-- What is done with cursors, by their numbers. A clone gets the next number. -/
inductive Move where
  | next (i : Nat)
  | nextBack (i : Nat)
  | clone (i : Nat)

/-- The number of the cursor that is moved. -/
def Move.moved? : Move → Option Nat
  | next i => some i
  | nextBack i => some i
  | clone _ => none

/-- A cursor and the records it has given from each end, in the order it gave them. -/
structure Walker where
  cursor : Cursor
  front : List Record
  back : List Record

namespace Walker

def start (c : Cursor) : Walker := ⟨c, [], []⟩

def next (w : Walker) : Walker :=
  let (answer, c) := w.cursor.next
  ⟨c, w.front ++ answer.toList, w.back⟩

def nextBack (w : Walker) : Walker :=
  let (answer, c) := w.cursor.nextBack
  ⟨c, w.front, w.back ++ answer.toList⟩

/-- What becomes of the walker numbered `i`. -/
def after (i : Nat) (w : Walker) : Move → Walker
  | .next j => if j = i then w.next else w
  | .nextBack j => if j = i then w.nextBack else w
  | .clone _ => w

/-- The records of a walk, given and still to come. -/
def records (w : Walker) : List Record := w.front ++ w.cursor.remaining ++ w.back.reverse

theorem next_of_nil {w : Walker} (h : w.cursor.remaining = []) : w.next = w := by
  simp [next, Cursor.next_of_remaining_eq_nil h]

theorem nextBack_of_nil {w : Walker} (h : w.cursor.remaining = []) : w.nextBack = w := by
  simp [nextBack, Cursor.nextBack_of_remaining_eq_nil h]

theorem records_next (w : Walker) : w.next.records = w.records := by
  cases hrs : w.cursor.remaining with
  | nil => rw [next_of_nil hrs]
  | cons r rs =>
    obtain ⟨c, hnext, hrest⟩ := Cursor.next_of_remaining_eq_cons hrs
    simp [next, records, hnext, hrest, hrs]

theorem records_nextBack (w : Walker) : w.nextBack.records = w.records := by
  rcases List.eq_nil_or_concat w.cursor.remaining with hrs | ⟨rs, r, hrs⟩
  · rw [nextBack_of_nil hrs]
  · rw [List.concat_eq_append] at hrs
    obtain ⟨c, hnext, hrest⟩ := Cursor.nextBack_of_remaining_eq_concat hrs
    simp [nextBack, records, hnext, hrest, hrs]

variable {i : Nat} {w : Walker}

theorem records_after (i : Nat) (w : Walker) (m : Move) : (w.after i m).records = w.records := by
  cases m with
  | next j => by_cases hj : j = i <;> simp [after, hj, records_next]
  | nextBack j => by_cases hj : j = i <;> simp [after, hj, records_nextBack]
  | clone j => rfl

theorem after_of_nil (h : w.cursor.remaining = []) (m : Move) : w.after i m = w := by
  cases m <;> simp [after, next_of_nil h, nextBack_of_nil h]

theorem after_of_not_moved {m : Move} (h : m.moved? ≠ some i) : w.after i m = w := by
  cases m with
  | next j => exact if_neg fun hj => h (congrArg some hj)
  | nextBack j => exact if_neg fun hj => h (congrArg some hj)
  | clone j => rfl

theorem records_foldl (ms : List Move) : (ms.foldl (after i) w).records = w.records := by
  induction ms generalizing w with
  | nil => rfl
  | cons m ms ih => rw [List.foldl_cons, ih, records_after]

theorem foldl_of_nil (h : w.cursor.remaining = []) (ms : List Move) :
    ms.foldl (after i) w = w := by
  induction ms with
  | nil => rfl
  | cons m ms ih => rw [List.foldl_cons, after_of_nil h, ih]

theorem foldl_of_not_moved {ms : List Move} (h : ∀ m ∈ ms, m.moved? ≠ some i) :
    ms.foldl (after i) w = w := by
  induction ms with
  | nil => rfl
  | cons m ms ih =>
    rw [List.foldl_cons, after_of_not_moved (h m List.mem_cons_self),
      ih fun m' hm => h m' (List.mem_cons_of_mem _ hm)]

theorem length_remaining_eq {l : RecordList} (h : w.records = l.toList) :
    w.cursor.remaining.length = l.size - (w.front.length + w.back.length) := by
  have hlen := congrArg List.length h
  simp only [records, List.length_append, List.length_reverse, RecordList.length_toList] at hlen
  omega

end Walker

namespace Move

def run (ws : List Walker) : Move → List Walker
  | next i => ws.modify i Walker.next
  | nextBack i => ws.modify i Walker.nextBack
  | clone i => ws ++ (ws[i]?.map fun w => Walker.start w.cursor).toList

def runAll (ws : List Walker) (ms : List Move) : List Walker := ms.foldl run ws

variable {ws : List Walker} {i : Nat} {w : Walker}

/-- What is done with the others does not touch a walker. -/
theorem getElem?_run (h : ws[i]? = some w) (m : Move) : (m.run ws)[i]? = some (w.after i m) := by
  cases m with
  | next j =>
    rw [run, List.getElem?_modify, h]
    rfl
  | nextBack j =>
    rw [run, List.getElem?_modify, h]
    rfl
  | clone j =>
    obtain ⟨hi, -⟩ := List.getElem?_eq_some_iff.mp h
    rw [run, List.getElem?_append_left hi, h]
    rfl

theorem getElem?_runAll (h : ws[i]? = some w) (ms : List Move) :
    (runAll ws ms)[i]? = some (ms.foldl (Walker.after i) w) := by
  induction ms generalizing ws w with
  | nil => exact h
  | cons m ms ih => exact ih (getElem?_run h m)

theorem getElem?_runAll_append (ms later : List Move) (h : (runAll ws ms)[i]? = some w) :
    (runAll ws (ms ++ later))[i]? = some (later.foldl (Walker.after i) w) := by
  rw [runAll, List.foldl_append]
  exact getElem?_runAll h later

/-- A clone comes last and goes on from where the other one is. -/
theorem getElem?_runAll_clone {ms : List Move} (h : (runAll ws ms)[i]? = some w) :
    (runAll ws (ms ++ [clone i]))[(runAll ws ms).length]? = some (.start w.cursor) := by
  have hrun : runAll ws (ms ++ [clone i]) = (clone i).run (runAll ws ms) := by
    simp [runAll, List.foldl_append]
  simp [hrun, run, h]

end Move

namespace Cursor

variable {c : Cursor}

theorem next_eq_none_iff : c.next.1 = none ↔ c.remaining = [] := by
  cases hrs : c.remaining with
  | nil => simp [next_of_remaining_eq_nil hrs]
  | cons r rs =>
    obtain ⟨c', hnext, -⟩ := next_of_remaining_eq_cons hrs
    simp [hnext]

theorem nextBack_eq_none_iff : c.nextBack.1 = none ↔ c.remaining = [] := by
  rcases List.eq_nil_or_concat c.remaining with hrs | ⟨rs, r, hrs⟩
  · simp [hrs, nextBack_of_remaining_eq_nil hrs]
  · rw [List.concat_eq_append] at hrs
    obtain ⟨c', hnext, -⟩ := nextBack_of_remaining_eq_concat hrs
    simp [hrs, hnext]

/-- Everything a cursor tells says that so many records are to come. -/
structure Tells (c : Cursor) (r : Nat) : Prop where
  sizeHint : c.sizeHint = (r, some r)
  length : c.length = r
  next : c.next.1 = none ↔ r = 0
  nextBack : c.nextBack.1 = none ↔ r = 0

theorem tells_length_remaining (c : Cursor) : c.Tells c.remaining.length := by
  refine ⟨?_, c.length_remaining.symm, ?_, ?_⟩
  · rw [sizeHint, length_remaining]
  · rw [next_eq_none_iff, List.length_eq_zero_iff]
  · rw [nextBack_eq_none_iff, List.length_eq_zero_iff]

/-- The answers to so many steps from the front, and the cursor after them. -/
def nexts (c : Cursor) : Nat → List (Option Record) × Cursor
  | 0 => ([], c)
  | k + 1 =>
    let (answer, c') := c.next
    let (answers, c'') := nexts c' k
    (answer :: answers, c'')

theorem nexts_spec (c : Cursor) (k : Nat) :
    (c.nexts k).1 = (c.remaining.take k).map some ++ List.replicate (k - c.length) none ∧
      (c.nexts k).2.remaining = c.remaining.drop k := by
  induction k generalizing c with
  | zero => simp [nexts]
  | succ k ih =>
    cases hrs : c.remaining with
    | nil =>
      have hlen : c.length = 0 := by rw [← c.length_remaining, hrs, List.length_nil]
      obtain ⟨hanswers, hrest⟩ := ih c
      rw [hrs] at hanswers hrest
      simp [nexts, next_of_remaining_eq_nil hrs, hanswers, hrest, hlen, List.replicate_succ]
    | cons r rs =>
      obtain ⟨c', hnext, hc'⟩ := next_of_remaining_eq_cons hrs
      have hlen : c.length = c'.length + 1 := by
        rw [← c.length_remaining, ← c'.length_remaining, hrs, hc', List.length_cons]
      obtain ⟨hanswers, hrest⟩ := ih c'
      simp [nexts, hnext, hanswers, hrest, hc', hlen]

/-- Stepping from the front alone gives the first records, and none once they have run out. -/
theorem nexts_ofList (l : RecordList) (k : Nat) :
    ∃ c, (ofList l).nexts k =
        ((l.toList.take k).map some ++ List.replicate (k - l.size) none, c) ∧
      c.Tells (l.size - min k l.size) ∧
      (l.size ≤ k → ∀ j, (c.nexts j).1 = List.replicate j none) := by
  obtain ⟨hanswers, hrest⟩ := (ofList l).nexts_spec k
  have hsize : (ofList l).length = l.size := by
    rw [← length_remaining, remaining_ofList, RecordList.length_toList]
  rw [remaining_ofList] at hanswers hrest
  rw [hsize] at hanswers
  have hlen : ((ofList l).nexts k).2.remaining.length = l.size - min k l.size := by
    rw [hrest, List.length_drop, RecordList.length_toList]
    omega
  refine ⟨_, Prod.ext hanswers rfl, hlen ▸ tells_length_remaining _, fun hk j => ?_⟩
  have hnil : ((ofList l).nexts k).2.remaining = [] := by
    rw [hrest, List.drop_eq_nil_iff, RecordList.length_toList]
    exact hk
  rw [(nexts_spec _ j).1, ← length_remaining, hnil]
  simp

end Cursor

namespace OwningCursor

/-- Everything an owning cursor tells says that so many records are to come. -/
structure Tells (c : OwningCursor) (r : Nat) : Prop where
  sizeHint : c.sizeHint = (r, some r)
  length : c.length = r
  next : c.next.1 = none ↔ r = 0

theorem tells_length (rs : List Record) : (⟨rs⟩ : OwningCursor).Tells rs.length := by
  refine ⟨rfl, rfl, ?_⟩
  cases rs <;> simp [next]

/-- The answers to so many steps, and the cursor after them. -/
def nexts (c : OwningCursor) : Nat → List (Option Record) × OwningCursor
  | 0 => ([], c)
  | k + 1 =>
    let (answer, c') := c.next
    let (answers, c'') := nexts c' k
    (answer :: answers, c'')

theorem nexts_eq (rs : List Record) (k : Nat) : (⟨rs⟩ : OwningCursor).nexts k =
    ((rs.take k).map some ++ List.replicate (k - rs.length) none, ⟨rs.drop k⟩) := by
  induction k generalizing rs with
  | zero => simp [nexts]
  | succ k ih =>
    cases rs with
    | nil => simp [nexts, next, ih, List.replicate_succ]
    | cons r rs => simp [nexts, next, ih]

/-- Giving records away gives the first ones, and none once they have run out. -/
theorem nexts_ofList (l : RecordList) (k : Nat) :
    ∃ c, (ofList l).nexts k =
        ((l.toList.take k).map some ++ List.replicate (k - l.size) none, c) ∧
      c.Tells (l.size - min k l.size) ∧
      (l.size ≤ k → ∀ j, (c.nexts j).1 = List.replicate j none) := by
  have hlen : (l.toList.drop k).length = l.size - min k l.size := by
    rw [List.length_drop, l.length_toList]
    omega
  refine ⟨⟨l.toList.drop k⟩, ?_, hlen ▸ tells_length _, fun hk j => ?_⟩
  · rw [ofList, nexts_eq, l.length_toList]
  · have hnil : l.toList.drop k = [] := by rwa [List.drop_eq_nil_iff, l.length_toList]
    rw [hnil, nexts_eq]
    simp

end OwningCursor

/-- Whatever is done with a cursor and its clones, what the cursor gave from the front, what a clone
of it would give and what it gave from the back, turned around, make up the list. It tells how much
is to come, gives nothing from when that is nothing, and is not moved with its clones. Stepping from
the front alone gives the first records and then none, and so does giving the records away. -/
theorem walk_between_ends (l : RecordList) :
    let walked := Move.runAll [.start (.ofList l)]
    (∀ ms : List Move, ∃ w rest, (walked ms)[0]? = some w ∧
      (∃ c, (walked (ms ++ [.clone 0]))[(walked ms).length]? = some (.start c) ∧ c.Yields rest) ∧
      w.front ++ rest ++ w.back.reverse = l.toList ∧
      let r := l.size - (w.front.length + w.back.length)
      w.cursor.Tells r ∧
      (r = 0 → ∀ later, ∃ w', (walked (ms ++ later))[0]? = some w' ∧ w'.cursor.Tells 0) ∧
      ∀ later, (∀ m ∈ later, m.moved? ≠ some 0) → (walked (ms ++ later))[0]? = some w) ∧
    (∀ k, ∃ c, (Cursor.ofList l).nexts k =
        ((l.toList.take k).map some ++ List.replicate (k - l.size) none, c) ∧
      c.Tells (l.size - min k l.size) ∧
      (l.size ≤ k → ∀ j, (c.nexts j).1 = List.replicate j none)) ∧
    ∀ k, ∃ c, (OwningCursor.ofList l).nexts k =
        ((l.toList.take k).map some ++ List.replicate (k - l.size) none, c) ∧
      c.Tells (l.size - min k l.size) ∧
      (l.size ≤ k → ∀ j, (c.nexts j).1 = List.replicate j none) := by
  intro walked
  refine ⟨fun ms => ?_, Cursor.nexts_ofList l, OwningCursor.nexts_ofList l⟩
  have hstart : [Walker.start (.ofList l)][0]? = some (.start (.ofList l)) := rfl
  have hw := Move.getElem?_runAll hstart ms
  obtain ⟨w, hwalk⟩ : ∃ w, ms.foldl (Walker.after 0) (.start (.ofList l)) = w := ⟨_, rfl⟩
  have hrecords : w.records = l.toList := by
    rw [← hwalk, Walker.records_foldl]
    simp [Walker.start, Walker.records, Cursor.remaining_ofList]
  have hrest := Walker.length_remaining_eq hrecords
  rw [hwalk] at hw
  refine ⟨w, w.cursor.remaining, hw, ⟨w.cursor, ?_, w.cursor.yields_remaining⟩, hrecords,
    hrest ▸ w.cursor.tells_length_remaining, fun hr later => ?_, fun later hlater => ?_⟩
  · exact Move.getElem?_runAll_clone hw
  · have hnil : w.cursor.remaining = [] := by rw [← List.length_eq_zero_iff, hrest, hr]
    have htells := w.cursor.tells_length_remaining
    rw [hnil, List.length_nil] at htells
    refine ⟨w, ?_, htells⟩
    rw [Move.getElem?_runAll_append ms later hw, Walker.foldl_of_nil hnil]
  · rw [Move.getElem?_runAll_append ms later hw, Walker.foldl_of_not_moved hlater]

/-- One of three records is taken from each end, and a clone goes past its end. -/
theorem walk_between_ends_three :
    let l := RecordList.empty.runAll [.append [97] 0 .plenty, .append [98] 5 .plenty,
      .append [99] 9 .plenty]
    let walked := Move.runAll [.start (.ofList l)]
    let ms := [.next 0, .clone 0, .next 1, .nextBack 0, .next 1, .next 1]
    (∃ w, (walked ms)[0]? = some w ∧ w.front = [.point [97] 0] ∧ w.back = [.point [99] 9] ∧
      (∃ c, (walked (ms ++ [.clone 0]))[2]? = some (.start c) ∧ c.Yields [.point [98] 5]) ∧
      w.cursor.Tells 1 ∧ (walked (ms ++ [.clone 0, .nextBack 2]))[0]? = some w) ∧
    (∃ w, (walked (ms ++ [.next 0] ++ [.next 0, .nextBack 0]))[0]? = some w ∧ w.cursor.Tells 0) ∧
    (∃ c, (Cursor.ofList l).nexts 4 = ([some (.point [97] 0), some (.point [98] 5),
      some (.point [99] 9), none], c) ∧ c.Tells 0) ∧
    ∃ c, (OwningCursor.ofList l).nexts 2 = ([some (.point [97] 0), some (.point [98] 5)], c) ∧
      c.Tells 1 := by
  intro l walked ms
  obtain ⟨hmoves, hnexts, howning⟩ := walk_between_ends l
  have hl : l.toList = [.point [97] 0, .point [98] 5, .point [99] 9] := by decide
  have hsize : l.size = 3 := by decide
  have given : ∀ {ms w} {front back : List Record}, (walked ms)[0]? = some w →
      (walked ms)[0]?.map (fun w => (w.front, w.back)) = some (front, back) →
      w.front = front ∧ w.back = back := by
    intro ms w front back hw h
    rw [hw] at h
    exact Prod.mk.inj (Option.some.inj h)
  refine ⟨?_, ?_, ?_, ?_⟩
  · obtain ⟨w, rest, hw, hclone, hrecords, htells, -, hclones⟩ := hmoves ms
    obtain ⟨hfront, hback⟩ := given hw
      (show _ = some ([.point [97] 0], [.point [99] 9]) by decide)
    rw [hfront, hback] at hrecords htells
    have hrest : rest = [.point [98] 5] := by
      rw [hl] at hrecords
      exact List.append_cancel_left (List.append_cancel_right hrecords)
    rw [hrest] at hclone
    rw [hsize] at htells
    exact ⟨w, hw, hfront, hback, hclone, htells, hclones _ (by decide)⟩
  · obtain ⟨w, rest, hw, -, -, -, hended, -⟩ := hmoves (ms ++ [.next 0])
    obtain ⟨hfront, hback⟩ := given hw
      (show _ = some ([.point [97] 0, .point [98] 5], [.point [99] 9]) by decide)
    refine hended ?_ _
    rw [hfront, hback, hsize]
    rfl
  · obtain ⟨c, hanswers, htells, -⟩ := hnexts 4
    rw [hl, hsize] at hanswers
    rw [hsize] at htells
    exact ⟨c, hanswers, htells⟩
  · obtain ⟨c, hanswers, htells, -⟩ := howning 2
    rw [hl, hsize] at hanswers
    rw [hsize] at htells
    exact ⟨c, hanswers, htells⟩

end BracketLint
