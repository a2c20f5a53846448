import BracketLint.Proofs.Tokenization

/-! Where a string ends, by looking back. A character is escaped if the run of backslashes before
it is odd, and a string ends at the first quote or newline that is not. Reading takes the escapes
in pairs from the left, and both come to the same. -/

namespace BracketLint

open Utf8

/-- How many backslashes a text ends with. -/
def backslashesAtEnd (s : List Char) : Nat := (s.reverse.takeWhile (· == '\\')).length

def EscapedAt (s : List Char) (i : Nat) : Prop := backslashesAtEnd (s.take i) % 2 = 1

/-- The character at an index could end a string whose opening quote stands before `s`. -/
def CouldEnd (s : List Char) (i : Nat) : Prop :=
  (s[i]? = some '"' ∨ s[i]? = some '\n') ∧ ¬ EscapedAt s i

instance (s : List Char) (i : Nat) : Decidable (EscapedAt s i) :=
  inferInstanceAs (Decidable (_ % 2 = 1))

instance (s : List Char) (i : Nat) : Decidable (CouldEnd s i) := inferInstanceAs (Decidable (_ ∧ _))

structure FirstEnd (s : List Char) (i : Nat) : Prop where
  ends : CouldEnd s i
  first : ∀ k, k < i → ¬ CouldEnd s k

variable {s b u : List Char} {c : Char} {i j : Nat}

theorem FirstEnd.unique (hi : FirstEnd s i) (hj : FirstEnd s j) : i = j := by
  rcases Nat.lt_trichotomy i j with h | h | h
  · exact absurd hi.ends (hj.first i h)
  · exact h
  · exact absurd hj.ends (hi.first j h)

theorem backslashesAtEnd_le (s : List Char) : backslashesAtEnd s ≤ s.length := by
  have h := (List.takeWhile_prefix (· == '\\') (l := s.reverse)).length_le
  rwa [List.length_reverse] at h

theorem backslashesAtEnd_cons (c : Char) (s : List Char) :
    backslashesAtEnd (c :: s) =
      if backslashesAtEnd s = s.length ∧ c = '\\' then s.length + 1 else backslashesAtEnd s := by
  have hrun : (s.reverse.takeWhile (· == '\\')).length = backslashesAtEnd s := rfl
  rw [backslashesAtEnd, List.reverse_cons, List.takeWhile_append, List.length_reverse, hrun]
  by_cases hs : backslashesAtEnd s = s.length
  · by_cases hc : c = '\\'
    · rw [if_pos hs, if_pos ⟨hs, hc⟩, hc]
      simp
    · rw [if_pos hs, if_neg fun h => hc h.2]
      simp [hc, hs]
  · rw [if_neg hs, if_neg fun h => hs h.1]
    rfl

theorem backslashesAtEnd_plain (hc : c ≠ '\\') : backslashesAtEnd (c :: s) = backslashesAtEnd s := by
  rw [backslashesAtEnd_cons, if_neg fun h => hc h.2]

/-- An escape in front lengthens the run by two or not at all. -/
theorem backslashesAtEnd_escape (c : Char) (s : List Char) :
    backslashesAtEnd ('\\' :: c :: s) % 2 = backslashesAtEnd s % 2 := by
  have hle := backslashesAtEnd_le s
  by_cases hall : backslashesAtEnd s = s.length ∧ c = '\\'
  · have hrest : backslashesAtEnd (c :: s) = (c :: s).length := by
      rw [backslashesAtEnd_cons, if_pos hall, List.length_cons]
    rw [backslashesAtEnd_cons, if_pos ⟨hrest, rfl⟩, List.length_cons, hall.1]
    omega
  · have hrest : backslashesAtEnd (c :: s) = backslashesAtEnd s := by
      rw [backslashesAtEnd_cons, if_neg hall]
    rw [backslashesAtEnd_cons, if_neg, hrest]
    intro h
    rw [hrest, List.length_cons] at h
    omega

namespace LiteralBody

theorem backslashesAtEnd_append (h : LiteralBody b) (s : List Char) :
    backslashesAtEnd (b ++ s) % 2 = backslashesAtEnd s % 2 := by
  induction h with
  | nil => rfl
  | escape c _ ih => rw [List.cons_append, List.cons_append, backslashesAtEnd_escape, ih]
  | plain hq he hn _ ih => rw [List.cons_append, backslashesAtEnd_plain he, ih]

theorem backslashesAtEnd_even (h : LiteralBody b) : backslashesAtEnd b % 2 = 0 := by
  have hh := h.backslashesAtEnd_append []
  rwa [List.append_nil] at hh

/-- Each quote and each newline within a body is escaped. -/
theorem escaped {x y : List Char} (h : LiteralBody (x ++ c :: y)) (hc : c = '"' ∨ c = '\n') :
    backslashesAtEnd x % 2 = 1 := by
  generalize hb : x ++ c :: y = b at h
  induction h generalizing x with
  | nil => simp at hb
  | @escape d b hbody ih =>
    cases x with
    | nil =>
      obtain rfl : c = '\\' := (List.cons.inj hb).1
      rcases hc with hc | hc <;> cases hc
    | cons e x =>
      obtain ⟨rfl, hrest⟩ := List.cons.inj hb
      cases x with
      | nil => rfl
      | cons e x =>
        rw [backslashesAtEnd_escape]
        exact ih (List.cons.inj hrest).2
  | @plain d b hq he hn hbody ih =>
    cases x with
    | nil =>
      obtain rfl : c = d := (List.cons.inj hb).1
      exact absurd hc (not_or.mpr ⟨hq, hn⟩)
    | cons e x =>
      obtain ⟨rfl, hrest⟩ := List.cons.inj hb
      rw [backslashesAtEnd_plain he]
      exact ih hrest

theorem not_couldEnd (h : LiteralBody b) (hi : i < b.length) : ¬ CouldEnd (b ++ u) i := by
  rintro ⟨hc, hfree⟩
  apply hfree
  have hsplit : b.take i ++ b[i] :: b.drop (i + 1) = b := by
    rw [← List.drop_eq_getElem_cons hi, List.take_append_drop]
  rw [List.getElem?_append_left hi, List.getElem?_eq_getElem hi] at hc
  rw [EscapedAt, List.take_append_of_le_length (Nat.le_of_lt hi)]
  rw [← hsplit] at h
  exact h.escaped (hc.imp Option.some.inj Option.some.inj)

/-- A quote or a newline right after a body is not escaped. -/
theorem firstEnd (h : LiteralBody b) (hc : c = '"' ∨ c = '\n') :
    FirstEnd (b ++ c :: u) b.length := by
  refine ⟨⟨?_, ?_⟩, fun k hk => h.not_couldEnd hk⟩
  · rw [List.getElem?_append_right (Nat.le_refl _), Nat.sub_self]
    exact hc.imp (congrArg some) (congrArg some)
  · rw [EscapedAt, List.take_left, h.backslashesAtEnd_even]
    decide

theorem eq_of_firstEnd (h : LiteralBody b) (hc : c = '"' ∨ c = '\n')
    (hj : FirstEnd (b ++ c :: u) j) :
    (b ++ c :: u)[j]? = some c ∧ (b ++ c :: u).take j = b := by
  obtain rfl := hj.unique (h.firstEnd hc)
  rw [List.getElem?_append_right (Nat.le_refl _), Nat.sub_self, List.take_left]
  exact ⟨rfl, rfl⟩

theorem no_firstEnd (h : LiteralBody b) (ht : ∀ c ∈ u, c ≠ '"' ∧ c ≠ '\n') (j : Nat) :
    ¬ FirstEnd (b ++ u) j := by
  intro hj
  by_cases hlt : j < b.length
  · exact h.not_couldEnd hlt hj.ends
  · have hget : (b ++ u)[j]? = u[j - b.length]? :=
      List.getElem?_append_right (Nat.not_lt.mp hlt)
    rcases hj.ends.1 with hc | hc
    · exact (ht _ (List.mem_of_getElem? (hget ▸ hc))).1 rfl
    · exact (ht _ (List.mem_of_getElem? (hget ▸ hc))).2 rfl

end LiteralBody

/-- The ways in which the text after an opening quote goes on once the body is read: what comes
next, whether the string is terminated, and what it covers after its body. -/
inductive LiteralEnd : List Char → Bool → List Char → Prop where
  | quote (rest : List Char) : LiteralEnd ('"' :: rest) true ['"']
  | newline (rest : List Char) : LiteralEnd ('\n' :: rest) false []
  | exhausted : LiteralEnd [] false []
  | backslash : LiteralEnd ['\\'] false []

theorem LongestBody.literalEnd (h : LongestBody b (b ++ u)) (ht : ∀ c ∈ u.head?, c ≠ '"') :
    LiteralEnd u false [] := by
  rcases h.stops with rfl | rfl | ⟨c, rest, rfl, hc⟩
  · exact .exhausted
  · exact .backslash
  · have hq : c ≠ '"' := ht c rfl
    obtain rfl := hc.resolve_left hq
    exact .newline rest

/-- A body cannot go on where a string stops. -/
theorem LiteralBody.longest {b tail close : List Char} {terminated : Bool} (h : LiteralBody b)
    (hend : LiteralEnd tail terminated close) : LongestBody b (b ++ tail) := by
  refine Lexeme.longestBody_iff.mpr ?_
  induction h with
  | nil => cases hend <;> rfl
  | escape c _ ih => rw [List.cons_append, List.cons_append, Lexeme.literalBody, ← ih]
  | @plain c b hq he hn _ ih =>
    rw [List.cons_append, Lexeme.literalBody, if_neg (by simp [hq, he, hn]), ← ih]
    exact fun _ _ h _ => he h

theorem Lexeme.At.literalEnd {o : ScanOptions} {l : Lexeme} {terminated : Bool} (h : l.At o s)
    (ht : l.token = .string terminated) : ∃ b tail close, s = '"' :: (b ++ tail) ∧ LiteralBody b ∧
      LiteralEnd tail terminated close ∧ l.source = '"' :: (b ++ close) := by
  cases h with
  | @terminated b tail free strings body =>
    cases ht
    exact ⟨b, _, _, rfl, body.body, .quote tail, rfl⟩
  | @unterminated b tail free strings body ends =>
    cases ht
    exact ⟨b, tail, [], rfl, body.body, body.literalEnd ends, by rw [List.append_nil]⟩
  | comment mark line ends => cases ht
  | bracket free => cases ht
  | run free ne plain ends => cases ht
  | single free noString noBracket stop => cases ht

/-- One byte is left for one token. -/
theorem Tiles.singleton {n : Nat} {ts : List PlacedToken} (h : Tiles (n + 1) n ts) :
    ∃ t, ts = [t] ∧ t.start = n ∧ t.stop = n + 1 := by
  generalize hm : n + 1 = m at h
  cases h with
  | nil => omega
  | @cons t us ne next =>
    have hle := next.le
    have hstop : t.stop = m := by omega
    rw [hstop] at next
    generalize hk : m = k at next
    cases next with
    | nil => exact ⟨t, rfl, rfl, by omega⟩
    | cons ne' next' =>
      have hle' := next'.le
      omega

/-- A string ends at the first quote or newline after it that is not escaped. If there is none it
goes on to the end of the source, less a backslash that has nothing to escape. -/
theorem string_ends_at_first_unescaped (o : ScanOptions) (s : List Char) (t : PlacedToken)
    (terminated : Bool) (ht : t ∈ tokens o s) (htoken : t.token = .string terminated) :
    ∃ before rest, s = before ++ '"' :: rest ∧ t.start = byteLength before ∧
      (∀ j, FirstEnd rest j → rest[j]? = some '"' →
        terminated = true ∧ t.stop = t.start + 1 + byteLength (rest.take j) + 1) ∧
      (∀ j, FirstEnd rest j → rest[j]? = some '\n' →
        terminated = false ∧ t.stop = t.start + 1 + byteLength (rest.take j)) ∧
      ((∀ j, ¬ FirstEnd rest j) → terminated = false ∧
        (backslashesAtEnd rest % 2 = 0 → t.stop = byteLength s) ∧
        (backslashesAtEnd rest % 2 = 1 → t.stop + 1 = byteLength s ∧
          ∃ ts u, tokens o s = ts ++ [t, u] ∧ u.start = t.stop ∧ u.stop = byteLength s)) := by
  have htiles := (Lexeme.tokenizes_tokens o s).tiles
  obtain ⟨before, l, after, hcut⟩ := (Lexeme.tokenizes_tokens o s).cuts t ht
  obtain ⟨b, tail, close, hsource, hbody, hend, hl⟩ :=
    hcut.head.literalEnd (hcut.token.symm.trans htoken)
  have hs : s = before ++ '"' :: (b ++ tail) := by
    rw [hcut.split, List.append_assoc, hsource]
  have hquote : '"'.utf8Size = 1 := rfl
  have hlen : byteLength s = t.start + 1 + byteLength b + byteLength tail := by
    rw [hs, byteLength_append, byteLength_cons, byteLength_append, hquote, hcut.start]
    omega
  have hstop : t.stop = t.start + 1 + byteLength b + byteLength close := by
    rw [hcut.stop, hl, byteLength_append, byteLength_cons, byteLength_append, hquote, hcut.start]
    omega
  refine ⟨before, b ++ tail, hs, hcut.start, ?_⟩
  cases hend with
  | quote rest =>
    have hfirst : FirstEnd (b ++ '"' :: rest) b.length := hbody.firstEnd (.inl rfl)
    refine ⟨fun j hj hc => ⟨rfl, ?_⟩, fun j hj hc => ?_, fun hno => absurd hfirst (hno _)⟩
    · rw [hstop, (hbody.eq_of_firstEnd (.inl rfl) hj).2]
      rfl
    · rw [(hbody.eq_of_firstEnd (.inl rfl) hj).1] at hc
      cases hc
  | newline rest =>
    have hfirst : FirstEnd (b ++ '\n' :: rest) b.length := hbody.firstEnd (.inr rfl)
    refine ⟨fun j hj hc => ?_, fun j hj hc => ⟨rfl, ?_⟩, fun hno => absurd hfirst (hno _)⟩
    · rw [(hbody.eq_of_firstEnd (.inr rfl) hj).1] at hc
      cases hc
    · rw [hstop, (hbody.eq_of_firstEnd (.inr rfl) hj).2]
      rfl
  | exhausted =>
    have hno := hbody.no_firstEnd (u := []) (by simp)
    refine ⟨fun j hj => absurd hj (hno j), fun j hj => absurd hj (hno j), fun _ => ⟨rfl, ?_, ?_⟩⟩
    · intro
      rw [hlen, hstop]
    · intro hodd
      have heven := hbody.backslashesAtEnd_even
      rw [List.append_nil] at hodd
      omega
  | backslash =>
    have hno := hbody.no_firstEnd (u := ['\\']) (by simp)
    have hodd := hbody.backslashesAtEnd_append ['\\']
    have hlast : backslashesAtEnd ['\\'] = 1 := rfl
    have hone : byteLength s = t.stop + 1 := by
      rw [hlen, hstop]
      rfl
    refine ⟨fun j hj => absurd hj (hno j), fun j hj => absurd hj (hno j), fun _ => ⟨rfl, ?_, ?_⟩⟩
    · intro heven
      omega
    · intro
      -- the backslash is a token of its own, the last one
      obtain ⟨ts, us, hts⟩ := List.append_of_mem ht
      rw [hts, hone] at htiles
      obtain ⟨u, rfl, hstart, hu⟩ := htiles.after.2.singleton
      exact ⟨hone.symm, ts, u, hts, hstart, by rw [hu, hone]⟩

/-- An escaped newline within a string that the source cuts off after a lone backslash. -/
theorem string_ends_at_first_unescaped_backslash :
    (⟨.string false, 3, 11⟩ ∈ tokens {} "é \x22a\\\né\\\\\\".toList ∧
      (⟨.string false, 3, 11⟩ : PlacedToken).token = .string false) ∧
    (∀ j, ¬ FirstEnd "a\\\né\\\\\\".toList j) ∧
    backslashesAtEnd "a\\\né\\\\\\".toList % 2 = 1 ∧
    ∃ ts u, tokens {} "é \x22a\\\né\\\\\\".toList = ts ++ [⟨.string false, 3, 11⟩, u] ∧
      u.start = 11 ∧ u.stop = 12 := by
  have ht : ⟨.string false, 3, 11⟩ ∈ tokens {} "é \x22a\\\né\\\\\\".toList := by decide +kernel
  have hno : ∀ j, ¬ FirstEnd "a\\\né\\\\\\".toList j := by
    intro j hj
    have hall : ∀ k, k < 7 → ¬ CouldEnd "a\\\né\\\\\\".toList k := by decide
    by_cases hlt : j < 7
    · exact hall j hlt hj.ends
    · have hnone : "a\\\né\\\\\\".toList[j]? = none :=
        List.getElem?_eq_none (Nat.not_lt.mp hlt)
      rcases hj.ends.1 with hc | hc <;> rw [hnone] at hc <;> cases hc
  have hodd : backslashesAtEnd "a\\\né\\\\\\".toList % 2 = 1 := by decide
  obtain ⟨before, rest, hs, hstart, -, -, hend⟩ :=
    string_ends_at_first_unescaped {} _ _ false ht rfl
  -- the quote stands after three bytes, so what comes before it and after it is known
  have hsplit : "é ".toList ++ '"' :: "a\\\né\\\\\\".toList = before ++ '"' :: rest := hs
  obtain rfl : "é ".toList = before := prefix_eq_of_byteLength_eq hsplit hstart
  obtain rfl := (List.cons.inj (List.append_cancel_left hsplit)).2
  obtain ⟨ts, u, htokens, hu, hu'⟩ := ((hend hno).2.2 hodd).2
  exact ⟨⟨ht, rfl⟩, hno, hodd, ts, u, htokens, hu, hu'⟩

end BracketLint
