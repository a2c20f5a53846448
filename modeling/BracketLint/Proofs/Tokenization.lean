import BracketLint.Proofs.Reading

/-! The tokens of a source are the only ones that cover it without a gap and stand, each where
it starts, as the rules for lexemes say. Reading one token after the other finds them all and
stops at the end of the source. -/

namespace BracketLint

open Utf8

/-- Reading tokens until that fails: from the offset and the rest of the source where it starts,
the tokens read and the rest that is left. -/
inductive Calls (o : ScanOptions) : Nat → List Char → List PlacedToken → List Char → Prop where
  | fail {n : Nat} {s : List Char} (h : Lexeme.first? o s = none) : Calls o n s [] s
  | read {n : Nat} {s rest : List Char} {l : Lexeme} {ts : List PlacedToken}
      (h : Lexeme.first? o s = some l)
      (next : Calls o (n + byteLength l.source) (s.drop l.source.length) ts rest) :
      Calls o n s (⟨l.token, n, n + byteLength l.source⟩ :: ts) rest

/-- Spans that are not empty and cover the bytes from `n` to `stop`, each once. -/
inductive Tiles (stop : Nat) : Nat → List PlacedToken → Prop where
  | nil : Tiles stop stop []
  | cons {t : PlacedToken} {ts : List PlacedToken} (ne : t.start < t.stop)
      (next : Tiles stop t.stop ts) : Tiles stop t.start (t :: ts)

/-- The token covers a lexeme that stands where the token starts, after the characters `before`. -/
structure Cuts (o : ScanOptions) (s : List Char) (t : PlacedToken) (before : List Char) (l : Lexeme)
    (after : List Char) : Prop where
  split : s = before ++ l.source ++ after
  head : l.At o (l.source ++ after)
  token : t.token = l.token
  start : t.start = byteLength before
  stop : t.stop = byteLength (before ++ l.source)

structure Tokenizes (o : ScanOptions) (s : List Char) (ts : List PlacedToken) : Prop where
  tiles : Tiles (byteLength s) 0 ts
  cuts : ∀ t ∈ ts, ∃ before l after, Cuts o s t before l after

theorem prefix_eq_of_byteLength_eq {a b c d : List Char} (h : a ++ b = c ++ d)
    (hl : byteLength a = byteLength c) : a = c := by
  induction a generalizing c with
  | nil =>
    cases c with
    | nil => rfl
    | cons x c =>
      have := byteLength_pos (List.cons_ne_nil x c)
      rw [byteLength_nil] at hl
      omega
  | cons x a ih =>
    cases c with
    | nil =>
      have := byteLength_pos (List.cons_ne_nil x a)
      rw [byteLength_nil] at hl
      omega
    | cons y c =>
      obtain ⟨rfl, ht⟩ := List.cons.inj h
      rw [byteLength_cons, byteLength_cons] at hl
      rw [ih ht (by omega)]

namespace Lexeme

variable {o : ScanOptions} {s : List Char}

theorem split_of_first? {l : Lexeme} (h : first? o s = some l) :
    l.source ++ s.drop l.source.length = s :=
  List.prefix_iff_eq_append.mp (source_of_first? h).1

theorem tiles_place_all (o : ScanOptions) (s : List Char) (n : Nat) :
    Tiles (n + byteLength s) n (place n (all o s)) := by
  fun_induction all o s generalizing n with
  | case1 s h =>
    obtain rfl := first?_eq_none_iff.mp h
    exact .nil
  | case2 s l h ih =>
    have hpos := byteLength_pos (source_of_first? h).2
    have hlen : n + byteLength s =
        n + byteLength l.source + byteLength (s.drop l.source.length) := by
      rw [Nat.add_assoc, ← byteLength_append, split_of_first? h]
    rw [place_cons, hlen]
    exact Tiles.cons (t := ⟨l.token, n, n + byteLength l.source⟩) (Nat.lt_add_of_pos_right hpos)
      (ih (n + byteLength l.source))

theorem cuts_place_all (o : ScanOptions) (done s : List Char) :
    ∀ t ∈ place (byteLength done) (all o s), ∃ before l after, Cuts o (done ++ s) t before l after := by
  fun_induction all o s generalizing done with
  | case1 s h => simp
  | case2 s l h ih =>
    have hsplit := split_of_first? h
    intro t ht
    rw [place_cons] at ht
    rcases List.mem_cons.mp ht with rfl | ht
    · refine ⟨done, l, s.drop l.source.length, ?_, ?_, rfl, rfl, ?_⟩
      · rw [List.append_assoc, hsplit]
      · rw [hsplit]
        exact first?_eq_some_iff.mp h
      · rw [byteLength_append]
    · rw [← byteLength_append] at ht
      have hh := ih (done ++ l.source) t ht
      rwa [List.append_assoc, hsplit] at hh

theorem tokenizes_tokens (o : ScanOptions) (s : List Char) : Tokenizes o s (tokens o s) := by
  have htiles := tiles_place_all o s 0
  have hcuts := cuts_place_all o [] s
  rw [Nat.zero_add] at htiles
  exact ⟨htiles, hcuts⟩

/-- Spans that tile leave no choice where a token starts, and its lexeme none where it stops. -/
theorem eq_place_all_of_tiles {ts : List PlacedToken} {done : List Char}
    (ht : Tiles (byteLength (done ++ s)) (byteLength done) ts)
    (hc : ∀ t ∈ ts, ∃ before l after, Cuts o (done ++ s) t before l after) :
    ts = place (byteLength done) (all o s) := by
  induction ts generalizing done s with
  | nil =>
    obtain ⟨n, hn⟩ : ∃ n, n = byteLength done := ⟨_, rfl⟩
    rw [← hn] at ht
    cases ht
    rw [byteLength_append] at hn
    have hs : s = [] := by
      by_cases hs : s = []
      · exact hs
      · have := byteLength_pos hs
        omega
    rw [hs, all_nil, place_nil]
  | cons t ts ih =>
    obtain ⟨n, hn⟩ : ∃ n, n = byteLength done := ⟨_, rfl⟩
    rw [← hn] at ht
    cases ht with
    | cons ne next =>
      obtain ⟨before, l, after, hcut⟩ := hc t List.mem_cons_self
      have hsplit : before ++ (l.source ++ after) = done ++ s := by
        rw [← List.append_assoc, hcut.split]
      obtain rfl := prefix_eq_of_byteLength_eq hsplit (hcut.start.symm.trans hn)
      obtain rfl := List.append_cancel_left hsplit
      have hfirst := hcut.head.first?
      rw [all_of_some hfirst, List.drop_left, place_cons, ← byteLength_append, ← hcut.start,
        ← hcut.stop, ← hcut.token]
      have hrest : before ++ (l.source ++ after) = before ++ l.source ++ after := by
        rw [List.append_assoc]
      rw [hrest, hcut.stop] at next
      refine congrArg (t :: ·) ?_
      rw [hcut.stop]
      refine ih next fun t' ht' => ?_
      have hh := hc t' (List.mem_cons_of_mem t ht')
      rwa [hrest] at hh

theorem calls_place_all (o : ScanOptions) (s : List Char) (n : Nat) :
    Calls o n s (place n (all o s)) [] := by
  fun_induction all o s generalizing n with
  | case1 s h =>
    obtain rfl := first?_eq_none_iff.mp h
    exact .fail h
  | case2 s l h ih => exact .read h (ih (n + byteLength l.source))

theorem eq_place_all_of_calls {n : Nat} {ts : List PlacedToken} {rest : List Char}
    (h : Calls o n s ts rest) : ts = place n (all o s) ∧ rest = [] := by
  induction h with
  | fail h => exact ⟨by rw [all_of_none h, place_nil], first?_eq_none_iff.mp h⟩
  | read h _ ih => exact ⟨by rw [all_of_some h, place_cons, ih.1], ih.2⟩

end Lexeme

theorem Tiles.le {stop n : Nat} {ts : List PlacedToken} (h : Tiles stop n ts) : n ≤ stop := by
  induction h with
  | nil => exact Nat.le_refl _
  | cons ne _ ih => omega

/-- After each of the tokens the spans go on to the end. -/
theorem Tiles.after {stop n : Nat} {ts us : List PlacedToken} {t : PlacedToken}
    (h : Tiles stop n (ts ++ t :: us)) : t.start < t.stop ∧ Tiles stop t.stop us := by
  induction ts generalizing n with
  | nil => cases h with | cons ne next => exact ⟨ne, next⟩
  | cons u ts ih => cases h with | cons ne next => exact ih next

theorem Tiles.stop_of_getLast? {stop n : Nat} {ts : List PlacedToken} {t : PlacedToken}
    (h : Tiles stop n ts) (ht : ts.getLast? = some t) : t.stop = stop := by
  obtain ⟨us, rfl⟩ := List.getLast?_eq_some_iff.mp ht
  obtain ⟨-, hlast⟩ := h.after
  generalize t.stop = m at hlast
  cases hlast
  rfl

/-- The bytes that a token spans. -/
def PlacedToken.slice (bytes : List UInt8) (t : PlacedToken) : List UInt8 :=
  (bytes.take t.stop).drop t.start

theorem Tiles.flatMap_slice {bytes : List UInt8} {stop n : Nat} {ts : List PlacedToken}
    (h : Tiles stop n ts) : ts.flatMap (PlacedToken.slice bytes) = (bytes.take stop).drop n := by
  induction h with
  | nil =>
    rw [List.flatMap_nil, List.drop_eq_nil_of_le]
    exact List.length_take_le _ _
  | @cons t ts ne next ih =>
    have hle := next.le
    have htake : bytes.take t.stop = (bytes.take stop).take t.stop := by
      rw [List.take_take, Nat.min_eq_left hle]
    have hdrop : (bytes.take stop).drop t.stop =
        ((bytes.take stop).drop t.start).drop (t.stop - t.start) := by
      rw [List.drop_drop, show t.start + (t.stop - t.start) = t.stop by omega]
    rw [List.flatMap_cons, ih, PlacedToken.slice, htake, List.drop_take, hdrop, List.take_append_drop]

/-- Reading until it fails ends at the end of every source, with the only tokens that tile it
and stand where the rules for lexemes put them. -/
theorem tokens_unique (o : ScanOptions) (s : List Char) :
    (∀ ts rest, Calls o 0 s ts rest ↔ ts = tokens o s ∧ rest = []) ∧
    (∀ ts, Tokenizes o s ts ↔ ts = tokens o s) ∧
    (tokens o s).flatMap (PlacedToken.slice (encode s)) = encode s := by
  refine ⟨fun ts rest => ⟨Lexeme.eq_place_all_of_calls, ?_⟩, fun ts => ⟨fun h => ?_, ?_⟩, ?_⟩
  · rintro ⟨rfl, rfl⟩
    exact Lexeme.calls_place_all o s 0
  · exact Lexeme.eq_place_all_of_tiles (show Tiles (byteLength ([] ++ s)) (byteLength []) ts from h.tiles)
      h.cuts
  · rintro rfl
    exact Lexeme.tokenizes_tokens o s
  · rw [(Lexeme.tokenizes_tokens o s).tiles.flatMap_slice, List.drop_zero, ← length_encode,
      List.take_length]

end BracketLint
