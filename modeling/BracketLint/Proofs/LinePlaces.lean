import Mathlib.Data.Prod.Lex
import Mathlib.Data.Set.Function
import BracketLint.Proofs.LineLookup

/-! Offsets and places name each other. Places come in the order of their offsets, first by line
and then by column. The offsets of a text, its end with them, lead to the columns of its lines,
the end of each line with them, and a place leads back by the lengths of the lines before it. -/

namespace BracketLint

section Split

variable {α : Type} {newline : α} {before whole part : List α}

theorem LineCut.take (h : LineCut newline before whole part) (n : Nat) :
    LineCut newline (whole ++ part.take n) whole (part.take n) :=
  ⟨rfl, h.whole, fun hm => h.part (List.mem_of_mem_take hm)⟩

/-- A newline is put in front, or a character that makes the first line longer. -/
theorem LineCut.cons {x : α} (h : LineCut newline before whole part)
    (hx : whole ≠ [] ∨ x = newline) : LineCut newline (x :: before) (x :: whole) part := by
  refine ⟨by rw [h.eq, List.cons_append], .inr ?_, h.part⟩
  rcases h.whole with rfl | ⟨lines, rfl⟩
  · exact ⟨[], by simpa using hx⟩
  · exact ⟨x :: lines, rfl⟩

variable [DecidableEq α]

theorem LineCut.whole_eq_nil (h : LineCut newline before whole part)
    (hcount : whole.count newline = 0) : whole = [] := by
  rcases h.whole with hnil | ⟨lines, rfl⟩
  · exact hnil
  · simp at hcount

/-- Each piece stands after the whole lines before it. -/
theorem exists_lineCut_of_getElem?_splitOn {xs piece : List α} {i : Nat}
    (h : (xs.splitOn newline)[i]? = some piece) :
    ∃ whole rest, xs = whole ++ piece ++ rest ∧
      LineCut newline (whole ++ piece) whole piece ∧ whole.count newline = i := by
  induction xs generalizing i piece with
  | nil =>
    obtain ⟨rfl, rfl⟩ : i = 0 ∧ piece = [] := by
      cases i <;> simp at h
      exact ⟨rfl, h⟩
    exact ⟨[], [], rfl, ⟨rfl, .inl rfl, List.not_mem_nil⟩, rfl⟩
  | cons x xs ih =>
    obtain ⟨first, pieces, hs⟩ := List.exists_cons_of_ne_nil (List.splitOn_ne_nil newline xs)
    by_cases hx : x = newline
    · have hsplit : (x :: xs).splitOn newline = [] :: xs.splitOn newline := by
        rw [List.splitOn_cons_eq_if_modifyHead, if_pos (by simpa using hx)]
      cases i with
      | zero =>
        obtain rfl : [] = piece := by simpa [hsplit] using h
        exact ⟨[], x :: xs, rfl, ⟨rfl, .inl rfl, List.not_mem_nil⟩, rfl⟩
      | succ i =>
        rw [hsplit, List.getElem?_cons_succ] at h
        obtain ⟨whole, rest, rfl, hcut, hcount⟩ := ih h
        exact ⟨x :: whole, rest, rfl, hcut.cons (.inr hx), by simp [hx, hcount]⟩
    · have hsplit : (x :: xs).splitOn newline = (x :: first) :: pieces := by
        rw [List.splitOn_cons_eq_if_modifyHead, if_neg (by simpa using hx), hs]
        rfl
      cases i with
      | zero =>
        obtain rfl : x :: first = piece := by simpa [hsplit] using h
        obtain ⟨whole, rest, rfl, hcut, hcount⟩ :=
          ih (show (xs.splitOn newline)[0]? = some first by rw [hs]; rfl)
        obtain rfl := hcut.whole_eq_nil hcount
        refine ⟨[], rest, rfl, ⟨rfl, .inl rfl, ?_⟩, rfl⟩
        simpa [Ne.symm hx] using hcut.part
      | succ i =>
        rw [hsplit, List.getElem?_cons_succ] at h
        obtain ⟨whole, rest, rfl, hcut, hcount⟩ :=
          ih (show (xs.splitOn newline)[i + 1]? = some piece by rw [hs]; exact h)
        have hne : whole ≠ [] := by
          rintro rfl
          simp at hcount
        exact ⟨x :: whole, rest, rfl, hcut.cons (.inl hne), by simp [hx, hcount]⟩

end Split

namespace LineColumn

/-- Places in reading order. -/
def key (p : LineColumn) : Nat ×ₗ Nat := toLex (p.line, p.column.toNat)

/-- A line of a text and a column of it, up to the one just after its last byte. -/
structure IsIn (p : LineColumn) (bytes : List UInt8) : Prop where
  line_pos : 1 ≤ p.line
  line_le : p.line ≤ (LineMap.ofBytes bytes).lineCount
  column_le : ∃ piece, (bytes.splitOn 10)[p.line - 1]? = some piece ∧
    p.column.toNat ≤ piece.length

/-- The lengths of the lines before a place, each with its newline, and its column. -/
def offsetIn (bytes : List UInt8) (p : LineColumn) : Nat :=
  (((bytes.splitOn 10).take (p.line - 1)).map (·.length + 1)).sum + p.column.toNat

theorem offsetIn_of_lineCut {bytes before whole part rest : List UInt8} {p : LineColumn}
    (h : LineCut 10 before whole part) (hbytes : bytes = before ++ rest)
    (hline : p.line = whole.count 10 + 1) : p.offsetIn bytes = whole.length + p.column.toNat := by
  obtain ⟨earlier, hsplit, hlen, hsum⟩ := h.splitOn_append rest
  rw [offsetIn, hbytes, hsplit, hline, Nat.add_sub_cancel, ← hlen, List.take_left, hsum]

end LineColumn

namespace LineMap

open LineColumn

variable {bytes : List UInt8}

/-- The end of a first part of a text, cut into whole lines and a part of one, is at that part. -/
theorem location_of_lineCut {before whole part rest : List UInt8} (hbytes : bytes = before ++ rest)
    (hlen : bytes.length ≤ Offset.greatest) (h : LineCut 10 before whole part) :
    ((ofBytes bytes).location (UInt32.ofNat before.length)).line = whole.count 10 + 1 ∧
      ((ofBytes bytes).location (UInt32.ofNat before.length)).column.toNat = part.length := by
  have hle : before.length ≤ bytes.length := by
    rw [hbytes, List.length_append]
    omega
  have hnat : (UInt32.ofNat before.length).toNat = before.length :=
    UInt32.toNat_ofNat_of_lt' (Nat.lt_succ_of_le (Nat.le_trans hle hlen))
  have htake : bytes.take (UInt32.ofNat before.length).toNat = before := by
    rw [hnat, hbytes, List.take_left]
  rw [← htake] at h
  obtain ⟨hline, hcolumn⟩ := location_ofBytes hlen h
  refine ⟨hline, ?_⟩
  have hlength := congrArg List.length h.eq
  rw [htake, List.length_append] at hlength
  rw [hcolumn, hnat]
  omega

theorem whole_length_eq (hlen : bytes.length ≤ Offset.greatest) {a b : UInt32}
    {whole part whole' part' : List UInt8} (ha : LineCut 10 (bytes.take a.toNat) whole part)
    (hb : LineCut 10 (bytes.take b.toNat) whole' part')
    (hcount : whole.count 10 = whole'.count 10) : whole.length = whole'.length := by
  have hget := start_of_line_ofBytes hlen ha
  have hget' := start_of_line_ofBytes hlen hb
  rw [line_ofBytes hlen ha, hcount] at hget
  rw [line_ofBytes hlen hb, hget] at hget'
  have hnat := congrArg UInt32.toNat (Option.some.inj hget')
  rwa [Offset.toNat_ofNat_of_le (Nat.le_trans (length_whole_le ha) hlen),
    Offset.toNat_ofNat_of_le (Nat.le_trans (length_whole_le hb) hlen)] at hnat

theorem key_location_lt (hlen : bytes.length ≤ Offset.greatest) {a b : UInt32} (hab : a < b) :
    ((ofBytes bytes).location a).key < ((ofBytes bytes).location b).key := by
  obtain ⟨whole, part, ha⟩ := exists_lineCut 10 (bytes.take a.toNat)
  obtain ⟨whole', part', hb⟩ := exists_lineCut 10 (bytes.take b.toNat)
  have hab' : a.toNat < b.toNat := UInt32.lt_iff_toNat_lt.mp hab
  have hcount : whole.count 10 ≤ whole'.count 10 := by
    have hsub : (bytes.take a.toNat).Sublist (bytes.take b.toNat) :=
      (List.take_prefix_take_left (Nat.le_of_lt hab')).sublist
    have hle := hsub.count_le 10
    simpa [ha.eq, hb.eq, List.count_eq_zero.mpr ha.part, List.count_eq_zero.mpr hb.part] using hle
  obtain ⟨hline, hcolumn⟩ := location_ofBytes hlen ha
  obtain ⟨hline', hcolumn'⟩ := location_ofBytes hlen hb
  rw [key, key, Prod.Lex.toLex_lt_toLex]
  by_cases heq : whole.count 10 = whole'.count 10
  · -- on one line the columns are counted from one start
    have hstart := whole_length_eq hlen ha hb heq
    have hle : whole.length ≤ a.toNat := by
      have := List.length_take_le a.toNat bytes
      rw [ha.eq, List.length_append] at this
      omega
    refine .inr ⟨by rw [hline, hline', heq], ?_⟩
    rw [hcolumn, hcolumn', hstart]
    omega
  · exact .inl (by rw [hline, hline']; omega)

theorem location_injective (hlen : bytes.length ≤ Offset.greatest) :
    Function.Injective (ofBytes bytes).location := by
  intro a b hab
  by_contra hne
  rcases UInt32.lt_or_lt_of_ne hne with hlt | hlt
  · have hkey := key_location_lt hlen hlt
    rw [hab] at hkey
    exact lt_irrefl _ hkey
  · have hkey := key_location_lt hlen hlt
    rw [hab] at hkey
    exact lt_irrefl _ hkey

theorem location_isIn (hlen : bytes.length ≤ Offset.greatest) {n : Nat} (hn : n ≤ bytes.length) :
    ((ofBytes bytes).location (UInt32.ofNat n)).IsIn bytes ∧
      ((ofBytes bytes).location (UInt32.ofNat n)).offsetIn bytes = n := by
  obtain ⟨whole, part, h⟩ := exists_lineCut 10 (bytes.take n)
  have hbytes : bytes = bytes.take n ++ bytes.drop n := (List.take_append_drop _ _).symm
  have hlength : (bytes.take n).length = n := by rw [List.length_take, Nat.min_eq_left hn]
  obtain ⟨hline, hcolumn⟩ := location_of_lineCut hbytes hlen h
  rw [hlength] at hline hcolumn
  constructor
  · refine ⟨by omega, line_le _ _, ?_⟩
    obtain ⟨earlier, hsplit, hearlier, -⟩ := h.splitOn_append (bytes.drop n)
    obtain ⟨piece, pieces, hpieces⟩ :=
      List.exists_cons_of_ne_nil (List.splitOn_ne_nil (10 : UInt8) (bytes.drop n))
    refine ⟨part ++ piece, ?_, by rw [hcolumn, List.length_append]; omega⟩
    rw [← hbytes, hpieces] at hsplit
    rw [hsplit, hline, Nat.add_sub_cancel, List.getElem?_append_right (by omega), hearlier,
      Nat.sub_self]
    rfl
  · rw [offsetIn_of_lineCut h hbytes hline, hcolumn, ← List.length_append, ← h.eq, hlength]

theorem location_offsetIn (hlen : bytes.length ≤ Offset.greatest) {p : LineColumn}
    (hp : p.IsIn bytes) : p.offsetIn bytes ≤ bytes.length ∧
      (ofBytes bytes).location (UInt32.ofNat (p.offsetIn bytes)) = p := by
  obtain ⟨piece, hget, hcolumn⟩ := hp.column_le
  obtain ⟨whole, rest, hbytes, hcut, hcount⟩ := exists_lineCut_of_getElem?_splitOn hget
  have hline : p.line = whole.count 10 + 1 := by
    have := hp.line_pos
    omega
  have hpart := hcut.take p.column.toNat
  have hsplit : bytes = whole ++ piece.take p.column.toNat ++
      (piece.drop p.column.toNat ++ rest) := by
    rw [hbytes, List.append_assoc, List.append_assoc, ← List.append_assoc (List.take _ piece),
      List.take_append_drop]
  have hlength : (piece.take p.column.toNat).length = p.column.toNat := by
    rw [List.length_take, Nat.min_eq_left hcolumn]
  have hoffset : (whole ++ piece.take p.column.toNat).length = p.offsetIn bytes := by
    rw [offsetIn_of_lineCut hpart hsplit hline, List.length_append, hlength]
  obtain ⟨hline', hcolumn'⟩ := location_of_lineCut hsplit hlen hpart
  rw [← hline, hoffset] at hline'
  rw [hlength, hoffset] at hcolumn'
  constructor
  · rw [← hoffset]
    conv_rhs => rw [hsplit, List.length_append]
    exact Nat.le_add_right _ _
  · generalize (ofBytes bytes).location (UInt32.ofNat (p.offsetIn bytes)) = q at hline' hcolumn'
    cases p
    cases q
    exact congrArg₂ LineColumn.mk hline' (UInt32.toNat_inj.mp hcolumn')

/-- Later offsets have later places, also past the end. The offsets of a text and its end stand
one to one for the places in it, and the lengths of the lines before a place lead back. -/
theorem location_bijOn_places (bytes : List UInt8) (hlen : bytes.length < 2 ^ 32) :
    let x := ofBytes bytes
    let place (n : Nat) := x.location (UInt32.ofNat n)
    (∀ a b : UInt32, a < b → (x.location a).key < (x.location b).key) ∧
    Function.Injective x.location ∧
    Set.BijOn place (Set.Iic bytes.length) {p | p.IsIn bytes} ∧
    Set.InvOn (offsetIn bytes) place (Set.Iic bytes.length) {p | p.IsIn bytes} := by
  intro x place
  have hlen' : bytes.length ≤ Offset.greatest := Nat.le_of_lt_succ hlen
  have hinv : Set.InvOn (offsetIn bytes) place (Set.Iic bytes.length) {p | p.IsIn bytes} :=
    ⟨fun n hn => (location_isIn hlen' hn).2, fun p hp => (location_offsetIn hlen' hp).2⟩
  refine ⟨fun a b hab => key_location_lt hlen' hab, location_injective hlen', ?_, hinv⟩
  exact hinv.bijOn (fun n hn => (location_isIn hlen' hn).1)
    fun p hp => (location_offsetIn hlen' hp).1

/-- An empty line between two others. The end of the last one is a place, and then come offsets that
are past it. -/
theorem location_bijOn_places_empty_line :
    ([97, 10, 10, 98] : List UInt8).length < 2 ^ 32 ∧
      (ofBytes [97, 10, 10, 98]).location 1 = ⟨1, 1⟩ ∧
      (ofBytes [97, 10, 10, 98]).location 2 = ⟨2, 0⟩ ∧
      (ofBytes [97, 10, 10, 98]).location 4 = ⟨3, 1⟩ ∧
      ((ofBytes [97, 10, 10, 98]).location 4).key < ((ofBytes [97, 10, 10, 98]).location 40).key ∧
      (ofBytes [97, 10, 10, 98]).location 40 ≠ (ofBytes [97, 10, 10, 98]).location 41 := by
  have hlen : ([97, 10, 10, 98] : List UInt8).length < 2 ^ 32 := by decide
  obtain ⟨hlt, hinj, -, -, hback⟩ := location_bijOn_places [97, 10, 10, 98] hlen
  refine ⟨hlen, hback (x := ⟨1, 1⟩) ?_, hback (x := ⟨2, 0⟩) ?_, hback (x := ⟨3, 1⟩) ?_,
    hlt 4 40 (by decide), fun h => absurd (hinj h) (by decide)⟩
  · exact ⟨by decide, by decide, [97], rfl, by decide⟩
  · exact ⟨by decide, by decide, [], rfl, by decide⟩
  · exact ⟨by decide, by decide, [98], rfl, by decide⟩

end LineMap

end BracketLint
