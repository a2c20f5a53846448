import Mathlib.Data.List.Induction
import Mathlib.Order.Bounds.Defs
import BracketLint.LineMap
import BracketLint.Proofs.Encoding

/-! Looking a place up in a line map. It is on the line whose number counts the newlines before
it, in the column that counts the bytes after the last of them. That is the piece of the text,
split at its newlines, that the place lies in. -/

namespace BracketLint

/-- What comes before a place is `whole` lines, each with its end, and then `part` of a line. -/
structure LineCut {α : Type} (newline : α) (before whole part : List α) : Prop where
  eq : before = whole ++ part
  whole : whole = [] ∨ ∃ lines, whole = lines ++ [newline]
  part : newline ∉ part

theorem exists_lineCut {α : Type} (newline : α) (before : List α) :
    ∃ whole part, LineCut newline before whole part := by
  induction before using List.reverseRecOn with
  | nil => exact ⟨[], [], rfl, .inl rfl, List.not_mem_nil⟩
  | append_singleton before x ih =>
    by_cases hx : x = newline
    · exact ⟨before ++ [x], [], by rw [List.append_nil], .inr ⟨before, by rw [hx]⟩,
        List.not_mem_nil⟩
    · obtain ⟨whole, part, h⟩ := ih
      refine ⟨whole, part ++ [x], by rw [h.eq, List.append_assoc], h.whole, fun hm => ?_⟩
      rcases List.mem_append.mp hm with hm | hm
      · exact h.part hm
      · exact hx (List.mem_singleton.mp hm).symm

/-- The whole lines reach just past the last newline, or nowhere if there is none. -/
theorem LineCut.isGreatest {α : Type} {newline : α} {before whole part : List α}
    (h : LineCut newline before whole part) :
    IsGreatest {n | n = 0 ∨ ∃ i, before[i]? = some newline ∧ n = i + 1} whole.length := by
  constructor
  · rcases h.whole with rfl | ⟨lines, rfl⟩
    · exact .inl rfl
    · refine .inr ⟨lines.length, ?_, List.length_append⟩
      rw [h.eq, List.append_assoc, List.getElem?_append_right (Nat.le_refl _), Nat.sub_self]
      rfl
  · rintro n (rfl | ⟨i, hi, rfl⟩)
    · exact Nat.zero_le _
    · by_contra hlt
      rw [h.eq, List.getElem?_append_right (by omega)] at hi
      exact h.part (List.mem_of_getElem? hi)

section Split

variable {α : Type} [DecidableEq α] {newline : α}

theorem length_splitOn (xs : List α) : (xs.splitOn newline).length = xs.count newline + 1 := by
  induction xs with
  | nil => rfl
  | cons x xs ih =>
    rw [List.splitOn_cons_eq_if_modifyHead, List.count_cons]
    split <;> simp [ih]

theorem sum_length_splitOn (xs : List α) :
    ((xs.splitOn newline).map (·.length + 1)).sum = xs.length + 1 := by
  induction xs with
  | nil => rfl
  | cons x xs ih =>
    rw [List.splitOn_cons_eq_if_modifyHead]
    split
    · simp [ih]
      omega
    · obtain ⟨piece, pieces, hs⟩ := List.exists_cons_of_ne_nil (List.splitOn_ne_nil newline xs)
      rw [hs] at ih ⊢
      simp only [List.modifyHead_cons, List.map_cons, List.sum_cons, List.length_cons] at ih ⊢
      omega

theorem splitOn_append_of_not_mem {part : List α} (h : newline ∉ part) (rest : List α) :
    (part ++ rest).splitOn newline = (rest.splitOn newline).modifyHead (part ++ ·) := by
  induction part with
  | nil =>
    cases hs : rest.splitOn newline <;> simp [hs]
  | cons x part ih =>
    have hx : (x == newline) = false := by simpa using fun he => h (by simp [he])
    rw [List.cons_append, List.splitOn_cons_eq_if_modifyHead, hx,
      ih fun hm => h (List.mem_cons_of_mem _ hm)]
    cases hs : rest.splitOn newline <;> simp

/-- The pieces of a text are those of the whole lines before a place, and then the one that the
place lies in, which starts with the part of the line before it. -/
theorem LineCut.splitOn_append {before whole part : List α}
    (h : LineCut newline before whole part) (rest : List α) :
    ∃ earlier, (before ++ rest).splitOn newline =
        earlier ++ (rest.splitOn newline).modifyHead (part ++ ·) ∧
      earlier.length = whole.count newline ∧
      (earlier.map (·.length + 1)).sum = whole.length := by
  rw [← splitOn_append_of_not_mem h.part, h.eq, List.append_assoc]
  rcases h.whole with rfl | ⟨lines, rfl⟩
  · exact ⟨[], rfl, rfl, rfl⟩
  · refine ⟨lines.splitOn newline, ?_, ?_, ?_⟩
    · rw [List.append_assoc, List.singleton_append, List.splitOn_append_cons_self]
    · rw [length_splitOn, List.count_append, List.count_singleton_self]
    · rw [sum_length_splitOn, List.length_append, List.length_singleton]

/-- The piece that a place lies in starts with the part of the line before it. -/
theorem LineCut.getElem?_splitOn {before whole part : List α} {c : α}
    (h : LineCut newline before whole part) (hc : c ≠ newline) (rest : List α) :
    ∃ rest', ((before ++ c :: rest).splitOn newline)[whole.count newline]? =
      some (part ++ c :: rest') := by
  obtain ⟨earlier, hsplit, hlen, -⟩ := h.splitOn_append (c :: rest)
  have hfirst : (c :: rest).splitOn newline = (rest.splitOn newline).modifyHead (c :: ·) := by
    rw [List.splitOn_cons_eq_if_modifyHead, if_neg (by simpa using hc)]
  obtain ⟨piece, pieces, hpieces⟩ := List.exists_cons_of_ne_nil (List.splitOn_ne_nil newline rest)
  refine ⟨piece, ?_⟩
  rw [hsplit, hfirst, hpieces, List.getElem?_append_right (by omega), hlen, Nat.sub_self]
  rfl

end Split

namespace LineMap

/-- Halving finds where the starts that are not after the offset end. -/
theorem firstAfter_eq {starts : Array UInt32} {offset : UInt32} {n low high : Nat}
    {h : high ≤ starts.size} (hsplit : ∀ i (hi : i < starts.size), starts[i] ≤ offset ↔ i < n)
    (hlow : low ≤ n) (hhigh : n ≤ high) : firstAfter starts offset low high h = n := by
  fun_induction firstAfter starts offset low high h with
  | case1 low high h hlt hmid hle ih => exact ih ((hsplit _ hmid).mp hle) hhigh
  | case2 low high h hlt hmid hle ih =>
    have hn := mt (hsplit _ hmid).mpr hle
    exact ih hlow (by omega)
  | case3 low high h hlt => omega

section Starts

variable {n : Nat} {bytes bytes' : List UInt8}

theorem afterNewlines_append (n : Nat) (bytes bytes' : List UInt8) :
    afterNewlines n (bytes ++ bytes') =
      afterNewlines n bytes ++ afterNewlines (n + bytes.length) bytes' := by
  induction bytes generalizing n with
  | nil => rfl
  | cons b bytes ih =>
    have hlen : n + (b :: bytes).length = n + 1 + bytes.length := by
      rw [List.length_cons]
      omega
    rw [List.cons_append, hlen]
    by_cases hb : b = 10 <;> simp [afterNewlines, hb, ih]

theorem length_afterNewlines (n : Nat) (bytes : List UInt8) :
    (afterNewlines n bytes).length = bytes.count 10 := by
  induction bytes generalizing n with
  | nil => rfl
  | cons b bytes ih => by_cases hb : b = 10 <;> simp [afterNewlines, hb, ih]

theorem afterNewlines_eq_nil (h : 10 ∉ bytes) : afterNewlines n bytes = [] := by
  rw [← List.length_eq_zero_iff, length_afterNewlines, List.count_eq_zero]
  exact h

theorem mem_afterNewlines {x : UInt32} (h : x ∈ afterNewlines n bytes) :
    ∃ k, n < k ∧ k ≤ n + bytes.length ∧ x = Offset.ofNat k := by
  induction bytes generalizing n with
  | nil => cases h
  | cons b bytes ih =>
    rw [List.length_cons]
    have hlater : x ∈ afterNewlines (n + 1) bytes →
        ∃ k, n < k ∧ k ≤ n + (bytes.length + 1) ∧ x = Offset.ofNat k := by
      intro hx
      obtain ⟨k, hk, hle, rfl⟩ := ih hx
      exact ⟨k, by omega, by omega, rfl⟩
    by_cases hb : b = 10
    · rw [afterNewlines, if_pos hb] at h
      rcases List.mem_cons.mp h with rfl | h
      · exact ⟨n + 1, by omega, by omega, rfl⟩
      · exact hlater h
    · rw [afterNewlines, if_neg hb] at h
      exact hlater h

end Starts

section Location

variable {bytes whole part : List UInt8} {offset : UInt32}

/-- The lines that start up to a place come first, and then those that start after it. -/
theorem starts_ofBytes (h : LineCut 10 (bytes.take offset.toNat) whole part) :
    (ofBytes bytes).starts.toList = (0 :: afterNewlines 0 whole) ++
      afterNewlines (bytes.take offset.toNat).length (bytes.drop offset.toNat) := by
  have hsplit := afterNewlines_append 0 (bytes.take offset.toNat) (bytes.drop offset.toNat)
  have htake : afterNewlines 0 (bytes.take offset.toNat) = afterNewlines 0 whole := by
    rw [h.eq, afterNewlines_append, afterNewlines_eq_nil h.part, List.append_nil]
  rw [List.take_append_drop, htake, Nat.zero_add] at hsplit
  rw [List.cons_append, ← hsplit]
  rfl

theorem le_of_mem_starts (h : LineCut 10 (bytes.take offset.toNat) whole part) {x : UInt32}
    (hx : x ∈ 0 :: afterNewlines 0 whole) : x ≤ offset := by
  have hlen : whole.length + part.length ≤ offset.toNat := by
    rw [← List.length_append, ← h.eq]
    exact List.length_take_le _ _
  rw [UInt32.le_iff_toNat_le]
  rcases List.mem_cons.mp hx with rfl | hx
  · exact Nat.zero_le _
  · obtain ⟨k, -, hk, rfl⟩ := mem_afterNewlines hx
    rw [Offset.toNat_ofNat]
    omega

theorem lt_of_mem_starts (hlen : bytes.length ≤ Offset.greatest) {x : UInt32}
    (hx : x ∈ afterNewlines (bytes.take offset.toNat).length (bytes.drop offset.toNat)) :
    offset < x := by
  obtain ⟨k, hk, hk', rfl⟩ := mem_afterNewlines hx
  rw [List.length_take] at hk hk'
  rw [List.length_drop] at hk'
  rw [UInt32.lt_iff_toNat_lt, Offset.toNat_ofNat_of_le (by omega)]
  omega

/-- The line of a place starts after the whole lines before it. -/
theorem getLast?_starts (h : whole = [] ∨ ∃ lines, whole = lines ++ [10]) :
    (0 :: afterNewlines 0 whole).getLast? = some (Offset.ofNat whole.length) := by
  rcases h with rfl | ⟨lines, rfl⟩
  · rfl
  · have hlast : afterNewlines (0 + lines.length) [10] = [Offset.ofNat (lines.length + 1)] := by
      simp [afterNewlines]
    rw [afterNewlines_append, hlast, ← List.cons_append, List.getLast?_concat, List.length_append,
      List.length_singleton]

theorem getElem?_starts (h : LineCut 10 (bytes.take offset.toNat) whole part) (i : Nat) :
    (ofBytes bytes).starts[i]? = ((0 :: afterNewlines 0 whole) ++
      afterNewlines (bytes.take offset.toNat).length (bytes.drop offset.toNat))[i]? := by
  rw [← starts_ofBytes h, Array.getElem?_toList]

theorem line_ofBytes (hlen : bytes.length ≤ Offset.greatest)
    (h : LineCut 10 (bytes.take offset.toNat) whole part) :
    (ofBytes bytes).line offset = whole.count 10 + 1 := by
  have hcount : whole.count 10 + 1 = (0 :: afterNewlines 0 whole).length := by
    rw [List.length_cons, length_afterNewlines]
  rw [hcount]
  refine firstAfter_eq (fun i hi => ?_) (Nat.zero_le _) ?_
  · have hget := getElem?_starts h i
    rw [Array.getElem?_eq_getElem hi] at hget
    constructor
    · intro hle
      by_contra hge
      rw [List.getElem?_append_right (by omega)] at hget
      have hlt := lt_of_mem_starts hlen (List.mem_of_getElem? hget.symm)
      rw [UInt32.lt_iff_toNat_lt] at hlt
      rw [UInt32.le_iff_toNat_le] at hle
      omega
    · intro hlt
      rw [List.getElem?_append_left hlt] at hget
      exact le_of_mem_starts h (List.mem_of_getElem? hget.symm)
  · rw [← Array.length_toList, starts_ofBytes h, List.length_append]
    exact Nat.le_add_right _ _

theorem lineCount_ofBytes (bytes : List UInt8) : (ofBytes bytes).lineCount = 1 + bytes.count 10 := by
  have hstarts : (ofBytes bytes).lineCount = (0 :: afterNewlines 0 bytes).length := rfl
  rw [hstarts, List.length_cons, length_afterNewlines, Nat.add_comm]

theorem length_whole_le (h : LineCut 10 (bytes.take offset.toNat) whole part) :
    whole.length ≤ bytes.length := by
  have hle : whole.length + part.length ≤ bytes.length := by
    rw [← List.length_append, ← h.eq]
    exact List.length_take_le' _ _
  omega

theorem start_of_line_ofBytes (hlen : bytes.length ≤ Offset.greatest)
    (h : LineCut 10 (bytes.take offset.toNat) whole part) :
    (ofBytes bytes).starts[(ofBytes bytes).line offset - 1]? = some (Offset.ofNat whole.length) := by
  have hlast : whole.count 10 = (0 :: afterNewlines 0 whole).length - 1 := by
    rw [List.length_cons, length_afterNewlines, Nat.add_sub_cancel]
  rw [line_ofBytes hlen h, Nat.add_sub_cancel, getElem?_starts h, hlast,
    List.getElem?_append_left (by simp), ← List.getLast?_eq_getElem?]
  exact getLast?_starts h.whole

theorem start_le_offset (h : LineCut 10 (bytes.take offset.toNat) whole part) :
    Offset.ofNat whole.length ≤ offset :=
  le_of_mem_starts h (List.mem_of_getLast? (getLast?_starts h.whole))

/-- A place is on the line after the whole ones, and its column is counted from where that starts. -/
theorem location_ofBytes (hlen : bytes.length ≤ Offset.greatest)
    (h : LineCut 10 (bytes.take offset.toNat) whole part) :
    ((ofBytes bytes).location offset).line = whole.count 10 + 1 ∧
      ((ofBytes bytes).location offset).column.toNat = offset.toNat - whole.length := by
  obtain ⟨hi, hstart⟩ := Array.getElem?_eq_some_iff.mp (start_of_line_ofBytes hlen h)
  refine ⟨line_ofBytes hlen h, ?_⟩
  simp only [location, hstart]
  rw [UInt32.toNat_sub_of_le _ _ (start_le_offset h),
    Offset.toNat_ofNat_of_le (Nat.le_trans (length_whole_le h) hlen)]

end Location

/-- The line found by halving is the one that counting newlines leads to, and the column counts from
just after the last newline. The start that is looked up is there and not after the offset. -/
theorem location_counts_newlines (bytes : List UInt8) (offset : UInt32)
    (hlen : bytes.length < 2 ^ 32) :
    let x := ofBytes bytes
    let before := bytes.take offset.toNat
    (x.location offset).line = 1 + before.count 10 ∧
    (∃ start, x.starts[(x.location offset).line - 1]? = some start ∧ start ≤ offset ∧
      IsGreatest {n | n = 0 ∨ ∃ i, before[i]? = some 10 ∧ n = i + 1} start.toNat ∧
      (x.location offset).column.toNat = offset.toNat - start.toNat) ∧
    x.lineCount = 1 + bytes.count 10 ∧
    1 ≤ (x.location offset).line ∧ (x.location offset).line ≤ x.lineCount := by
  intro x before
  have hlen' : bytes.length ≤ Offset.greatest := Nat.le_of_lt_succ hlen
  obtain ⟨whole, part, h⟩ := exists_lineCut 10 before
  have hline : (x.location offset).line = whole.count 10 + 1 := (location_ofBytes hlen' h).1
  have hcolumn : (x.location offset).column.toNat = offset.toNat - whole.length :=
    (location_ofBytes hlen' h).2
  have hstart : (Offset.ofNat whole.length).toNat = whole.length :=
    Offset.toNat_ofNat_of_le (Nat.le_trans (length_whole_le h) hlen')
  have hcount : before.count 10 = whole.count 10 := by
    rw [h.eq, List.count_append, List.count_eq_zero.mpr h.part, Nat.add_zero]
  refine ⟨by rw [hline, hcount, Nat.add_comm], ?_, lineCount_ofBytes bytes, ?_, x.line_le offset⟩
  · refine ⟨_, start_of_line_ofBytes hlen' h, start_le_offset h, ?_, by rw [hcolumn, hstart]⟩
    rw [hstart]
    exact h.isGreatest
  · rw [hline]
    exact Nat.le_add_left 1 _

/-- Past the end, after an empty line. -/
theorem location_counts_newlines_past_end :
    ([97, 10, 10, 98] : List UInt8).length < 2 ^ 32 ∧
      (ofBytes [97, 10, 10, 98]).location 40 = ⟨3, 37⟩ ∧
      (ofBytes [97, 10, 10, 98]).lineCount = 3 := by
  have hlen : ([97, 10, 10, 98] : List UInt8).length < 2 ^ 32 := by decide
  obtain ⟨hline, ⟨start, hget, -, -, hcolumn⟩, hcount, -⟩ :=
    location_counts_newlines [97, 10, 10, 98] 40 hlen
  have hthree : ((ofBytes [97, 10, 10, 98]).location 40).line = 3 := hline
  rw [hthree] at hget
  obtain rfl : 3 = start := Option.some.inj hget
  refine ⟨hlen, ?_, hcount⟩
  rcases hp : (ofBytes [97, 10, 10, 98]).location 40 with ⟨line, column⟩
  rw [hp] at hthree hcolumn
  obtain rfl : line = 3 := hthree
  obtain rfl : column = 37 := UInt32.toNat_inj.mp hcolumn
  rfl

end LineMap

section Text

open Utf8

variable {s before whole part rest : List Char} {c : Char} {offset : UInt32}

theorem LineCut.encode (h : LineCut '\n' before whole part) :
    LineCut 10 (encode before) (encode whole) (encode part) := by
  refine ⟨by rw [h.eq, encode_append], ?_, mt newline_mem_encode.mp h.part⟩
  rcases h.whole with rfl | ⟨lines, rfl⟩
  · exact .inl rfl
  · exact .inr ⟨Utf8.encode lines, by rw [encode_append]; rfl⟩

theorem take_encode (s : List Char) (h : offset.toNat = byteLength before) :
    (encode (before ++ s)).take offset.toNat = encode before := by
  rw [encode_append, h, ← length_encode, List.take_left]

/-- The line map leads from a place in a text to the character there: it stands in the piece of
that line, behind as many bytes as the column says. -/
theorem LineMap.location_encode (hlen : byteLength (before ++ c :: rest) ≤ Offset.greatest)
    (hoffset : offset.toNat = byteLength before) (hc : c ≠ '\n') :
    ∃ line left right, ((ofBytes (encode (before ++ c :: rest))).location offset).line = line + 1 ∧
      ((before ++ c :: rest).splitOn '\n')[line]? = some (left ++ c :: right) ∧
      ((ofBytes (encode (before ++ c :: rest))).location offset).column.toNat = byteLength left := by
  obtain ⟨whole, part, h⟩ := exists_lineCut '\n' before
  have hcut := h.encode
  rw [← take_encode (c :: rest) hoffset] at hcut
  rw [← length_encode] at hlen
  obtain ⟨hline, hcolumn⟩ := location_ofBytes hlen hcut
  obtain ⟨right, hpiece⟩ := h.getElem?_splitOn hc rest
  refine ⟨whole.count '\n', part, right, ?_, hpiece, ?_⟩
  · rw [hline, count_newline_encode]
  · rw [hcolumn, hoffset, length_encode, h.eq, byteLength_append, Nat.add_sub_cancel_left]

end Text

end BracketLint
