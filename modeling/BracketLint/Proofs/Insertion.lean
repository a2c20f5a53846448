import BracketLint.Proofs.LiteralEnd
import BracketLint.Proofs.Nesting
import BracketLint.Proofs.Placement
import BracketLint.Proofs.Seam

/-! Accepted text put in between two lines. Its tokens nest, so it leaves the brackets open that
are open before it. What is reported around it stays as it was, the part after it further on. -/

namespace BracketLint

open Utf8

/-- Where an offset goes when `count` bytes are put in at the offset `place`. -/
def shiftFrom (place count n : Nat) : Nat := if n < place then n else n + count

namespace Scan

theorem step_congr {opened : List Opener} {t u : PlacedToken} (ht : t.token = u.token)
    (hs : t.start = u.start) : step opened t = step opened u := by
  obtain ⟨token, start, stop⟩ := t
  obtain ⟨token', start', stop'⟩ := u
  obtain rfl : token = token' := ht
  obtain rfl : start = start' := hs
  rfl

/-- Where tokens end plays no part. -/
theorem findings_congr {opened : List Opener} {ts us : List PlacedToken}
    (h : ts.map (fun t => (t.token, t.start)) = us.map fun t => (t.token, t.start)) :
    findings opened ts = findings opened us := by
  induction ts generalizing opened us with
  | nil =>
    obtain rfl : us = [] := List.map_eq_nil_iff.mp h.symm
    rfl
  | cons t ts ih =>
    obtain ⟨u, us, rfl, hu, hus⟩ := List.map_eq_cons_iff.mp h.symm
    have hstep : step opened t = step opened u :=
      step_congr (congrArg Prod.fst hu).symm (congrArg Prod.snd hu).symm
    rw [findings_cons, findings_cons, hstep, ih hus.symm]

end Scan

section Insertion

variable {o : ScanOptions} {u w v : List Char}

theorem nested_of_check_ok (h : (check o w (fun _ => .plenty)).value = .ok ()) :
    Nested ((tokens o w).map (·.token)) := by
  apply scan_eq_nil_iff.mp
  rcases check_granted o w with ⟨hs, -⟩ | ⟨-, l, he, -⟩
  · exact hs
  · rw [h] at he
    cases he

/-- A terminated string ends with its quote, and an accepted source has no other strings. -/
theorem endsLine_of_nested (hw : w = [] ∨ w.getLast? = some '\n')
    (hn : Nested ((tokens o w).map (·.token))) : o.EndsLine w := by
  rcases hw with hw | hw
  · exact .inl hw
  · refine .inr ⟨hw, ?_⟩
    intro b hb
    obtain ⟨t, ht, htoken⟩ := Option.map_eq_some_iff.mp hb
    have hmem : t ∈ tokens o w := List.mem_of_getLast? ht
    have htrue : b = true := by
      by_contra hfalse
      have hne := hn.string_terminated _ (List.mem_map_of_mem hmem)
      apply hne
      rw [htoken, Bool.eq_false_iff.mpr hfalse]
    obtain ⟨before, l, after, hcut⟩ := (Lexeme.tokenizes_tokens o w).cuts t hmem
    -- nothing comes after the last token
    have hafter : after = [] := by
      have hstop := (Lexeme.tokenizes_tokens o w).tiles.stop_of_getLast? ht
      by_contra hne
      have hpos := byteLength_pos hne
      rw [hcut.stop, congrArg byteLength hcut.split, byteLength_append (before ++ l.source)] at hstop
      omega
    have hlast : l.source.getLast? = some '"' := by
      have hstring : l.token = .string true := by rw [← hcut.token, htoken, htrue]
      obtain ⟨body, tail, close, -, -, hend, hsource⟩ := hcut.head.literalEnd hstring
      cases hend
      rw [hsource, ← List.cons_append]
      exact List.getLast?_concat
    have hquote : w.getLast? = some '"' := by
      rw [hcut.split, hafter, List.append_nil, List.getLast?_append, hlast]
      rfl
    rw [hw] at hquote
    cases hquote

/-- Whatever is open before accepted text is open after it. -/
theorem findings_insert (hm : o.MarksWithinLine) (hw : o.EndsLine w)
    (hn : Nested ((tokens o w).map (·.token))) (opened : List Opener) (n : Nat) :
    Scan.findings opened (Lexeme.place n (Lexeme.all o (w ++ v))) =
      Scan.findings opened (Lexeme.place (n + byteLength w) (Lexeme.all o v)) := by
  rw [Scan.findings_seam hm hw, ← Scan.findings_append]
  have htokens : (Lexeme.place n (Lexeme.all o w)).map (·.token) = (tokens o w).map (·.token) := by
    rw [tokens, Lexeme.map_token_place, Lexeme.map_token_place]
  exact Scan.findings_of_nested hn htokens _

theorem scan_append_eq_findings (hm : o.MarksWithinLine) (hu : o.EndsLine u) :
    scan o (u ++ v) =
      Scan.findings [] (tokens o u ++ Lexeme.place (byteLength u) (Lexeme.all o v)) := by
  have hseam := Scan.findings_seam (t := v) hm hu [] 0
  rw [Nat.zero_add] at hseam
  rw [Scan.findings_append]
  exact hseam

theorem scan_insert_eq_findings (hm : o.MarksWithinLine) (hu : o.EndsLine u) (hw : o.EndsLine w)
    (hn : Nested ((tokens o w).map (·.token))) :
    scan o (u ++ w ++ v) = Scan.findings []
      (tokens o u ++ Lexeme.place (byteLength u + byteLength w) (Lexeme.all o v)) := by
  rw [List.append_assoc, scan_append_eq_findings hm hu, Scan.findings_append,
    findings_insert hm hw hn, ← Scan.findings_append]

/-- The tokens before the place stay where they are, and those after it are moved. -/
theorem findings_shiftFrom (o : ScanOptions) (u v : List Char) (k : Nat) :
    Scan.findings [] (tokens o u ++ Lexeme.place (byteLength u + k) (Lexeme.all o v)) =
      (Scan.findings [] (tokens o u ++ Lexeme.place (byteLength u) (Lexeme.all o v))).map
        (Finding.moved (shiftFrom (byteLength u) k)) := by
  have hmoved := Scan.findings_moved (shiftFrom (byteLength u) k) []
    (tokens o u ++ Lexeme.place (byteLength u) (Lexeme.all o v))
  rw [List.map_nil] at hmoved
  rw [← hmoved]
  apply Scan.findings_congr
  rw [Lexeme.place_add, List.map_append, List.map_append, List.map_append, List.map_map,
    List.map_map, List.map_map]
  refine congrArg₂ (· ++ ·) (List.map_congr_left ?_) (List.map_congr_left ?_)
  · intro t ht
    have hlt : t.start < byteLength u := (Lexeme.tokenizes_tokens o u).tiles.start_lt t ht
    simp only [Function.comp, PlacedToken.moved, shiftFrom, if_pos hlt]
  · intro t ht
    have hle := (Lexeme.tiles_place_all o v (byteLength u)).le_start t ht
    simp only [Function.comp, PlacedToken.moved, shiftFrom, if_neg (Nat.not_lt.mpr hle)]

theorem scan_insert (hm : o.MarksWithinLine) (hu : o.EndsLine u) (hw : o.EndsLine w)
    (hn : Nested ((tokens o w).map (·.token))) :
    scan o (u ++ w ++ v) =
      (scan o (u ++ v)).map (Finding.moved (shiftFrom (byteLength u) (byteLength w))) := by
  rw [scan_insert_eq_findings hm hu hw hn, scan_append_eq_findings hm hu, findings_shiftFrom]

end Insertion

theorem shiftFrom_le (place count n : Nat) : shiftFrom place count n ≤ n + count := by
  unfold shiftFrom
  split <;> omega

/-- Lines of accepted text between two lines change no report but its place: those before the
text stay where they are, and those after it are further on by its length. -/
theorem scanned_insert_accepted (o : ScanOptions) (u w v : List Char) (hm : o.MarksWithinLine)
    (hu : o.EndsLine u) (hw : w = [] ∨ w.getLast? = some '\n')
    (hcheck : (check o w (fun _ => .plenty)).value = .ok ())
    (hlen : byteLength (u ++ w ++ v) ≤ Offset.greatest) :
    (scanned o (u ++ w ++ v)).map (fun r => (r.message, r.start.toNat, r.stop.toNat)) =
      (scanned o (u ++ v)).map fun r => (r.message,
        shiftFrom (byteLength u) (byteLength w) r.start.toNat,
        shiftFrom (byteLength u) (byteLength w) r.stop.toNat) := by
  have hn := nested_of_check_ok hcheck
  have hscan := scan_insert (v := v) hm hu (endsLine_of_nested hw hn) hn
  rw [scanned_eq, scanned_eq, hscan, List.map_map, List.map_map, List.map_map]
  apply List.map_congr_left
  intro f hf
  rw [byteLength_append, byteLength_append] at hlen
  have hle := offset_le_of_mem_scan hf
  rw [byteLength_append] at hle
  have hmoved : shiftFrom (byteLength u) (byteLength w) f.offset ≤ Offset.greatest := by
    have := shiftFrom_le (byteLength u) (byteLength w) f.offset
    omega
  have hold : f.position.toNat = f.offset := Offset.toNat_ofNat_of_le (by omega)
  have hnew : (f.moved (shiftFrom (byteLength u) (byteLength w))).position.toNat =
      shiftFrom (byteLength u) (byteLength w) f.offset := Offset.toNat_ofNat_of_le hmoved
  simp only [Function.comp, Finding.record, Record.point, hold, hnew]
  rw [Finding.message, Finding.moved, Problem.message_moved]
  rfl

/-- A bracket that is left open, and one that a wrong one closes, on both sides of a string. -/
theorem scanned_insert_accepted_string :
    (({} : ScanOptions).MarksWithinLine ∧ ({} : ScanOptions).EndsLine ")((\n".toList ∧
      "[\x22(\x22]\n".toList.getLast? = some '\n' ∧
      (check {} "[\x22(\x22]\n".toList (fun _ => .plenty)).value = .ok () ∧
      byteLength (")((\n".toList ++ "[\x22(\x22]\n".toList ++ "]\x7b".toList) ≤
        Offset.greatest) ∧
    (scanned {} (")((\n".toList ++ "]\x7b".toList)).map (·.start.toNat) = [0, 4, 1, 5] ∧
    (scanned {} (")((\n".toList ++ "[\x22(\x22]\n".toList ++ "]\x7b".toList)).map
      (fun r => (r.message, r.start.toNat, r.stop.toNat)) =
        [(encode "unexpected closing \x60)\x60".toList, 0, 0),
          (encode "mismatched closing \x60]\x60, expected \x60)\x60".toList, 10, 10),
          (encode "unclosed \x60(\x60".toList, 1, 1),
          (encode "unclosed \x60\x7b\x60".toList, 11, 11)] := by
  have hm : ({} : ScanOptions).MarksWithinLine := by
    intro m hm
    obtain rfl := Option.some.inj hm
    decide
  have hu : ({} : ScanOptions).EndsLine ")((\n".toList := .inr ⟨by decide, by decide +kernel⟩
  have hw : "[\x22(\x22]\n".toList.getLast? = some '\n' := by decide
  have hcheck : (check {} "[\x22(\x22]\n".toList (fun _ => .plenty)).value = .ok () := by
    rcases check_granted {} "[\x22(\x22]\n".toList with ⟨-, he⟩ | ⟨hne, -⟩
    · exact he
    · exact absurd (by decide +kernel) hne
  have hlen : byteLength (")((\n".toList ++ "[\x22(\x22]\n".toList ++ "]\x7b".toList) ≤
      Offset.greatest := by decide
  refine ⟨⟨hm, hu, hw, hcheck, hlen⟩, by decide +kernel, ?_⟩
  rw [scanned_insert_accepted {} _ _ _ hm hu (.inr hw) hcheck hlen]
  decide +kernel

end BracketLint
