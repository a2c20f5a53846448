import Mathlib.Tactic.IntervalCases
import Mathlib.Tactic.SplitIfs
import BracketLint.Text.Utf8

/-! Encoded text reads back as itself, no other bytes read as text, and the newline bytes of a text
are its newlines. -/

namespace BracketLint.Utf8

section Decode

variable {p : Partial} {b : UInt8} {bs : List UInt8} {n k : Nat}

theorem decodeFrom_of_lead (h : start b = .lead p) :
    decodeFrom none (b :: bs) = decodeFrom (some p) bs := by
  simp only [decodeFrom, h]

theorem decodeFrom_of_next (h : p.accepts b = true) (hk : p.after = k + 1) :
    decodeFrom (some p) (b :: bs) = decodeFrom (some ⟨p.push b, k, 0x80, 0xBF⟩) bs := by
  simp only [decodeFrom, h, if_true, hk]

theorem decodeFrom_of_last (h : p.accepts b = true) (hk : p.after = 0) :
    decodeFrom (some p) (b :: bs) = some (Char.ofNat (p.push b)) :: decodeFrom none bs := by
  simp only [decodeFrom, h, if_true, hk]

theorem toNat_ofNat_of_lt (h : n < 256) : (UInt8.ofNat n).toNat = n := by
  rw [UInt8.toNat_ofNat', Nat.mod_eq_of_lt h]

theorem accepts_ofNat (hlow : p.low.toNat ≤ n) (hhigh : n ≤ p.high.toNat) :
    p.accepts (UInt8.ofNat n) = true := by
  have hn : n < 256 := Nat.lt_of_le_of_lt hhigh p.high.toNat_lt
  simp only [Partial.accepts, Bool.and_eq_true, decide_eq_true_eq, UInt8.le_iff_toNat_le,
    toNat_ofNat_of_lt hn]
  exact ⟨hlow, hhigh⟩

/-- Six bits are accepted wherever any continuation byte is. -/
theorem accepts_six_bits {value : Nat} (h : n < 64) :
    (⟨value, k, 0x80, 0xBF⟩ : Partial).accepts (UInt8.ofNat (n + 0x80)) = true :=
  accepts_ofNat (Nat.le_add_left _ _) (show n + 0x80 ≤ 0xBF by omega)

theorem push_ofNat (h : n < 64) : p.push (UInt8.ofNat (n + 0x80)) = p.value * 64 + n := by
  have hb : (UInt8.ofNat (n + 0x80)).toNat = n + 0x80 := toNat_ofNat_of_lt (by omega)
  unfold Partial.push
  rw [hb]
  omega

theorem start_one (h : n < 0x80) : start (UInt8.ofNat n) = .whole (Char.ofNat n) := by
  rw [start, toNat_ofNat_of_lt (by omega)]
  exact if_pos h

theorem start_two (hlow : 2 ≤ n) (hhigh : n < 32) :
    start (UInt8.ofNat (n + 0xC0)) = .lead ⟨n, 0, 0x80, 0xBF⟩ := by
  interval_cases n <;> rfl

theorem start_three (h : n < 16) : start (UInt8.ofNat (n + 0xE0)) =
    .lead ⟨n, 1, if n = 0 then 0xA0 else 0x80, if n = 13 then 0x9F else 0xBF⟩ := by
  interval_cases n <;> rfl

theorem start_four (h : n < 5) : start (UInt8.ofNat (n + 0xF0)) =
    .lead ⟨n, 2, if n = 0 then 0x90 else 0x80, if n = 4 then 0x8F else 0xBF⟩ := by
  interval_cases n <;> rfl

end Decode

/-- A character is read back, whatever follows it. -/
theorem decodeFrom_utf8EncodeChar (c : Char) (bs : List UInt8) :
    decodeFrom none (String.utf8EncodeChar c ++ bs) = some c :: decodeFrom none bs := by
  obtain ⟨n, hn⟩ : ∃ n, n = c.val.toNat := ⟨_, rfl⟩
  have hc : Char.ofNat n = c := by rw [hn]; exact Char.ofNat_toNat c
  have hvalid : n < 0xD800 ∨ 0xDFFF < n ∧ n < 0x110000 := by rw [hn]; exact c.valid
  simp only [String.utf8EncodeChar, ← hn]
  split_ifs with h1 h2 h3
  · simp only [List.cons_append, List.nil_append, decodeFrom, start_one (show n < 0x80 by omega), hc]
  · rw [show n / 64 % 0x20 = n / 64 by omega]
    simp only [List.cons_append, List.nil_append]
    rw [decodeFrom_of_lead (start_two (by omega) (by omega)),
      decodeFrom_of_last (accepts_six_bits (by omega)) rfl, push_ofNat (by omega)]
    simp only [show n / 64 * 64 + n % 0x40 = n by omega, hc]
  · rw [show n / 4096 % 0x10 = n / 4096 by omega]
    simp only [List.cons_append, List.nil_append]
    -- the second byte is held off overlong forms and surrogates, which no character has
    have hlow : (if n / 4096 = 0 then (0xA0 : UInt8) else 0x80).toNat ≤ n / 64 % 0x40 + 0x80 := by
      split
      · change 0xA0 ≤ _
        omega
      · exact Nat.le_add_left _ _
    have hhigh : n / 64 % 0x40 + 0x80 ≤ (if n / 4096 = 13 then (0x9F : UInt8) else 0xBF).toNat := by
      split
      · change _ ≤ 0x9F
        omega
      · change _ ≤ 0xBF
        omega
    rw [decodeFrom_of_lead (start_three (by omega)),
      decodeFrom_of_next (accepts_ofNat hlow hhigh) rfl, push_ofNat (by omega),
      decodeFrom_of_last (accepts_six_bits (by omega)) rfl, push_ofNat (by omega)]
    simp only [show (n / 4096 * 64 + n / 64 % 0x40) * 64 + n % 0x40 = n by omega, hc]
  · rw [show n / 262144 % 0x08 = n / 262144 by omega]
    simp only [List.cons_append, List.nil_append]
    -- here it is held off overlong forms and values past the last character
    have hlow : (if n / 262144 = 0 then (0x90 : UInt8) else 0x80).toNat ≤ n / 4096 % 0x40 + 0x80 := by
      split
      · change 0x90 ≤ _
        omega
      · exact Nat.le_add_left _ _
    have hhigh : n / 4096 % 0x40 + 0x80 ≤ (if n / 262144 = 4 then (0x8F : UInt8) else 0xBF).toNat := by
      split
      · change _ ≤ 0x8F
        omega
      · change _ ≤ 0xBF
        omega
    rw [decodeFrom_of_lead (start_four (by omega)),
      decodeFrom_of_next (accepts_ofNat hlow hhigh) rfl, push_ofNat (by omega),
      decodeFrom_of_next (accepts_six_bits (by omega)) rfl, push_ofNat (by omega),
      decodeFrom_of_last (accepts_six_bits (by omega)) rfl, push_ofNat (by omega)]
    simp only [show ((n / 262144 * 64 + n / 4096 % 0x40) * 64 + n / 64 % 0x40) * 64 + n % 0x40 = n by
      omega, hc]

theorem decode_encode (s : List Char) : decode (encode s) = s.map some := by
  induction s with
  | nil => rfl
  | cons c s ih =>
    rw [decode, encode, List.flatMap_cons, decodeFrom_utf8EncodeChar, List.map_cons]
    exact congrArg (some c :: ·) ih

theorem lossy_encode (s : List Char) : lossy (encode s) = s := by
  simp [lossy, decode_encode, Function.comp_def]

theorem strict?_encode (s : List Char) : strict? (encode s) = some s := by
  rw [strict?, decode_encode]
  induction s with
  | nil => rfl
  | cons c s ih =>
    rw [List.map_cons, List.mapM_cons, ih]
    rfl

section Complete

variable {p : Partial} {b : UInt8} {bs more : List UInt8} {c : Char} {s : List Char} {n k : Nat}

/-- With these bytes after those that have been read, a character is complete. -/
inductive Partial.Completes : Partial → List UInt8 → Char → Prop where
  | last {p : Partial} {b : UInt8} (h : p.accepts b = true) (hk : p.after = 0) :
    Completes p [b] (Char.ofNat (p.push b))
  | next {p : Partial} {b : UInt8} {k : Nat} {more : List UInt8} {c : Char}
      (h : p.accepts b = true) (hk : p.after = k + 1)
      (hc : Completes ⟨p.push b, k, 0x80, 0xBF⟩ more c) : Completes p (b :: more) c

namespace Partial.Completes

theorem of_last (h : p.Completes more c) (hk : p.after = 0) :
    ∃ b, p.accepts b = true ∧ more = [b] ∧ c = Char.ofNat (p.push b) := by
  cases h with
  | last hb => exact ⟨_, hb, rfl, rfl⟩
  | next _ hk' => omega

theorem of_next (h : p.Completes more c) (hk : p.after = k + 1) :
    ∃ b more', p.accepts b = true ∧ more = b :: more' ∧
      Completes ⟨p.push b, k, 0x80, 0xBF⟩ more' c := by
  cases h with
  | last _ hk' => omega
  | @next _ _ k' _ _ hb hk' hc =>
    obtain rfl : k' = k := by omega
    exact ⟨_, _, hb, rfl, hc⟩

end Partial.Completes

theorem exists_completes (h : decodeFrom (some p) bs = s.map some) :
    ∃ more rest c s', bs = more ++ rest ∧ s = c :: s' ∧ p.Completes more c ∧
      decodeFrom none rest = s'.map some := by
  induction bs generalizing p with
  | nil => cases s <;> simp [decodeFrom] at h
  | cons b bs ih =>
    by_cases hb : p.accepts b = true
    · cases hk : p.after with
      | zero =>
        rw [decodeFrom_of_last hb hk] at h
        cases s with
        | nil => cases h
        | cons c s =>
          obtain ⟨hc, hs⟩ := List.cons.inj h
          obtain rfl := Option.some.inj hc
          exact ⟨[b], bs, _, s, rfl, rfl, .last hb hk, hs⟩
      | succ k =>
        rw [decodeFrom_of_next hb hk] at h
        obtain ⟨more, rest, c, s', rfl, hs, hc, hrest⟩ := ih h
        exact ⟨b :: more, rest, c, s', rfl, hs, .next hb hk hc, hrest⟩
    · have hbad : decodeFrom (some p) (b :: bs) = none :: (decodeFrom (some p) (b :: bs)).tail := by
        simp only [decodeFrom, if_neg hb, List.tail_cons]
      rw [hbad] at h
      cases s <;> cases h

theorem eq_ofNat_of_toNat (h : b.toNat = n) : b = UInt8.ofNat n := by
  rw [← h, UInt8.ofNat_toNat]

theorem toNat_val_ofNat (h : n < 0xD800 ∨ 0xDFFF < n ∧ n < 0x110000) :
    (Char.ofNat n).val.toNat = n := by
  rw [Char.ofNat, dif_pos h]
  rfl

theorem utf8EncodeChar_of_whole (h : start b = .whole c) : String.utf8EncodeChar c = [b] := by
  have hb : b.toNat < 0x80 := by
    by_contra hb
    grind [start]
  have hwhole : start b = .whole (Char.ofNat b.toNat) := if_pos hb
  obtain rfl := Start.whole.inj (h.symm.trans hwhole)
  have hval := toNat_val_ofNat (n := b.toNat) (by omega)
  simp only [String.utf8EncodeChar, hval]
  rw [if_pos (by omega), ← eq_ofNat_of_toNat rfl]

/-- A byte that leads other bytes has one of three forms. -/
theorem start_eq_lead (h : start b = .lead p) :
    (∃ n, 2 ≤ n ∧ n < 32 ∧ b = UInt8.ofNat (n + 0xC0) ∧ p = ⟨n, 0, 0x80, 0xBF⟩) ∨
    (∃ n, n < 16 ∧ b = UInt8.ofNat (n + 0xE0) ∧
      p = ⟨n, 1, if n = 0 then 0xA0 else 0x80, if n = 13 then 0x9F else 0xBF⟩) ∨
    ∃ n, n < 5 ∧ b = UInt8.ofNat (n + 0xF0) ∧
      p = ⟨n, 2, if n = 0 then 0x90 else 0x80, if n = 4 then 0x8F else 0xBF⟩ := by
  have hb := b.toNat_lt
  by_cases h2 : 0xC2 ≤ b.toNat ∧ b.toNat < 0xE0
  · have he : b = UInt8.ofNat (b.toNat - 0xC0 + 0xC0) := eq_ofNat_of_toNat (by omega)
    rw [he, start_two (by omega) (by omega)] at h
    exact .inl ⟨_, by omega, by omega, he, (Start.lead.inj h).symm⟩
  by_cases h3 : 0xE0 ≤ b.toNat ∧ b.toNat < 0xF0
  · have he : b = UInt8.ofNat (b.toNat - 0xE0 + 0xE0) := eq_ofNat_of_toNat (by omega)
    rw [he, start_three (by omega)] at h
    exact .inr (.inl ⟨_, by omega, he, (Start.lead.inj h).symm⟩)
  by_cases h4 : 0xF0 ≤ b.toNat ∧ b.toNat < 0xF5
  · have he : b = UInt8.ofNat (b.toNat - 0xF0 + 0xF0) := eq_ofNat_of_toNat (by omega)
    rw [he, start_four (by omega)] at h
    exact .inr (.inr ⟨_, by omega, he, (Start.lead.inj h).symm⟩)
  -- any other byte stands alone or is stray
  exfalso
  grind [start]

/-- A byte in a range between continuation bytes carries six bits. -/
theorem exists_of_accepts (h : p.accepts b = true) (hlow : 0x80 ≤ p.low.toNat)
    (hhigh : p.high.toNat ≤ 0xBF) :
    ∃ m, m < 64 ∧ b = UInt8.ofNat (m + 0x80) ∧ p.low.toNat ≤ m + 0x80 ∧ m + 0x80 ≤ p.high.toNat := by
  have hb : p.low.toNat ≤ b.toNat ∧ b.toNat ≤ p.high.toNat := by
    simpa [Partial.accepts, UInt8.le_iff_toNat_le] using h
  exact ⟨b.toNat - 0x80, by omega, eq_ofNat_of_toNat (by omega), by omega, by omega⟩

theorem accepts_continuation (h : (⟨n, k, 0x80, 0xBF⟩ : Partial).accepts b = true) :
    ∃ m, m < 64 ∧ b = UInt8.ofNat (m + 0x80) := by
  obtain ⟨m, hm, hb, -⟩ := exists_of_accepts h (Nat.le_refl 0x80) (Nat.le_refl 0xBF)
  exact ⟨m, hm, hb⟩

section Bytes

variable {m m₂ m₃ : Nat}

theorem utf8EncodeChar_two (hlow : 2 ≤ n) (hhigh : n < 32) (hm : m < 64) :
    String.utf8EncodeChar (Char.ofNat (n * 64 + m)) =
      [UInt8.ofNat (n + 0xC0), UInt8.ofNat (m + 0x80)] := by
  have hval := toNat_val_ofNat (n := n * 64 + m) (by omega)
  simp only [String.utf8EncodeChar, hval]
  rw [if_neg (by omega), if_pos (by omega), show (n * 64 + m) / 64 % 0x20 = n by omega,
    show (n * 64 + m) % 0x40 = m by omega]

/-- The bounds on the first six bits leave out overlong forms and surrogates. -/
theorem utf8EncodeChar_three (hn : n < 16) (hm : m < 64) (hm₂ : m₂ < 64)
    (hshort : n = 0 → 0x20 ≤ m) (hsurrogate : n = 13 → m < 0x20) :
    String.utf8EncodeChar (Char.ofNat ((n * 64 + m) * 64 + m₂)) =
      [UInt8.ofNat (n + 0xE0), UInt8.ofNat (m + 0x80), UInt8.ofNat (m₂ + 0x80)] := by
  have hval := toNat_val_ofNat (n := (n * 64 + m) * 64 + m₂) (by omega)
  simp only [String.utf8EncodeChar, hval]
  rw [if_neg (by omega), if_neg (by omega), if_pos (by omega),
    show ((n * 64 + m) * 64 + m₂) / 4096 % 0x10 = n by omega,
    show ((n * 64 + m) * 64 + m₂) / 64 % 0x40 = m by omega,
    show ((n * 64 + m) * 64 + m₂) % 0x40 = m₂ by omega]

theorem utf8EncodeChar_four (hn : n < 5) (hm : m < 64) (hm₂ : m₂ < 64) (hm₃ : m₃ < 64)
    (hshort : n = 0 → 0x10 ≤ m) (hlarge : n = 4 → m < 0x10) :
    String.utf8EncodeChar (Char.ofNat (((n * 64 + m) * 64 + m₂) * 64 + m₃)) =
      [UInt8.ofNat (n + 0xF0), UInt8.ofNat (m + 0x80), UInt8.ofNat (m₂ + 0x80),
        UInt8.ofNat (m₃ + 0x80)] := by
  have hval := toNat_val_ofNat (n := ((n * 64 + m) * 64 + m₂) * 64 + m₃) (by omega)
  simp only [String.utf8EncodeChar, hval]
  rw [if_neg (by omega), if_neg (by omega), if_neg (by omega),
    show (((n * 64 + m) * 64 + m₂) * 64 + m₃) / 262144 % 0x08 = n by omega,
    show (((n * 64 + m) * 64 + m₂) * 64 + m₃) / 4096 % 0x40 = m by omega,
    show (((n * 64 + m) * 64 + m₂) * 64 + m₃) / 64 % 0x40 = m₂ by omega,
    show (((n * 64 + m) * 64 + m₂) * 64 + m₃) % 0x40 = m₃ by omega]

end Bytes

/-- A first byte and the bytes that complete it are the bytes of the character. -/
theorem utf8EncodeChar_of_completes (h : start b = .lead p) (hc : p.Completes more c) :
    String.utf8EncodeChar c = b :: more := by
  rcases start_eq_lead h with ⟨n, hlow, hhigh, rfl, hp⟩ | ⟨n, hn, rfl, hp⟩ | ⟨n, hn, rfl, hp⟩
  · obtain ⟨b₁, hb, rfl, hchar⟩ := hc.of_last (by rw [hp])
    rw [hp] at hb hchar
    obtain ⟨m, hm, rfl⟩ := accepts_continuation hb
    rw [hchar, push_ofNat hm, utf8EncodeChar_two hlow hhigh hm]
  · obtain ⟨b₁, _, hb, rfl, hc₁⟩ := hc.of_next (k := 0) (by rw [hp])
    obtain ⟨b₂, hb₂, rfl, hchar⟩ := hc₁.of_last rfl
    obtain ⟨m, hm, rfl, hlow, hhigh⟩ := exists_of_accepts hb
      (by rw [hp]; dsimp only; split <;> decide) (by rw [hp]; dsimp only; split <;> decide)
    obtain ⟨m₂, hm₂, rfl⟩ := accepts_continuation hb₂
    rw [hp] at hlow hhigh hchar
    rw [hchar, push_ofNat hm, push_ofNat hm₂, utf8EncodeChar_three hn hm hm₂]
    · rintro rfl
      change 0xA0 ≤ _ at hlow
      omega
    · rintro rfl
      change _ ≤ 0x9F at hhigh
      omega
  · obtain ⟨b₁, _, hb, rfl, hc₁⟩ := hc.of_next (k := 1) (by rw [hp])
    obtain ⟨b₂, _, hb₂, rfl, hc₂⟩ := hc₁.of_next (k := 0) rfl
    obtain ⟨b₃, hb₃, rfl, hchar⟩ := hc₂.of_last rfl
    obtain ⟨m, hm, rfl, hlow, hhigh⟩ := exists_of_accepts hb
      (by rw [hp]; dsimp only; split <;> decide) (by rw [hp]; dsimp only; split <;> decide)
    obtain ⟨m₂, hm₂, rfl⟩ := accepts_continuation hb₂
    obtain ⟨m₃, hm₃, rfl⟩ := accepts_continuation hb₃
    rw [hp] at hlow hhigh hchar
    rw [hchar, push_ofNat hm, push_ofNat hm₂, push_ofNat hm₃, utf8EncodeChar_four hn hm hm₂ hm₃]
    · rintro rfl
      change 0x90 ≤ _ at hlow
      omega
    · rintro rfl
      change _ ≤ 0x8F at hhigh
      omega

end Complete

theorem eq_map_some_of_mapM_id {α : Type} {xs : List (Option α)} {ys : List α}
    (h : xs.mapM id = some ys) : xs = ys.map some := by
  induction xs generalizing ys with
  | nil =>
    cases h
    rfl
  | cons x xs ih =>
    simp only [List.mapM_cons, Option.bind_eq_bind, Option.bind_eq_some_iff, Option.pure_def,
      Option.some.injEq, id] at h
    obtain ⟨y, rfl, zs, hzs, rfl⟩ := h
    rw [ih hzs, List.map_cons]

theorem eq_encode_of_decodeFrom {s : List Char} {bs : List UInt8}
    (h : decodeFrom none bs = s.map some) : bs = encode s := by
  induction s generalizing bs with
  | nil =>
    cases bs with
    | nil => rfl
    | cons b bs =>
      cases hb : start b with
      | whole c => simp [decodeFrom, hb] at h
      | stray => simp [decodeFrom, hb] at h
      | lead p =>
        rw [decodeFrom_of_lead hb] at h
        obtain ⟨_, _, c, s', -, hs, -⟩ := exists_completes h
        cases hs
  | cons c s ih =>
    cases bs with
    | nil => cases h
    | cons b bs =>
      rw [encode, List.flatMap_cons, ← encode]
      cases hb : start b with
      | whole c' =>
        simp only [decodeFrom, hb, List.map_cons, List.cons.injEq, Option.some.injEq] at h
        obtain ⟨rfl, hbs⟩ := h
        rw [← ih hbs, utf8EncodeChar_of_whole hb, List.singleton_append]
      | stray => simp [decodeFrom, hb] at h
      | lead p =>
        rw [decodeFrom_of_lead hb] at h
        obtain ⟨more, rest, c', s', rfl, hs, hc, hrest⟩ := exists_completes h
        obtain ⟨rfl, rfl⟩ := List.cons.inj hs
        rw [utf8EncodeChar_of_completes hb hc, ← ih hrest, List.cons_append]

/-- Bytes are a text exactly if they are its encoding. -/
theorem strict?_eq_some_iff {bytes : List UInt8} {s : List Char} :
    strict? bytes = some s ↔ bytes = encode s := by
  constructor
  · intro h
    apply eq_encode_of_decodeFrom
    exact eq_map_some_of_mapM_id h
  · rintro rfl
    exact strict?_encode s

/-- Bytes that cannot be read as text are the encoding of none. -/
theorem strict?_eq_none_iff {bytes : List UInt8} : strict? bytes = none ↔ ∀ s, bytes ≠ encode s := by
  rw [Option.eq_none_iff_forall_ne_some]
  exact forall_congr' fun s => not_congr strict?_eq_some_iff

theorem eq_of_newline_mem {c : Char} (h : 10 ∈ String.utf8EncodeChar c) : c = '\n' := by
  obtain ⟨n, hn⟩ : ∃ n, n = c.val.toNat := ⟨_, rfl⟩
  have hvalid : n < 0xD800 ∨ 0xDFFF < n ∧ n < 0x110000 := by rw [hn]; exact c.valid
  have hbyte : ∀ {m}, m < 256 → 10 = UInt8.ofNat m → m = 10 := by
    intro m hm hb
    rw [← toNat_ofNat_of_lt hm, ← hb]
    rfl
  have h10 : n = 10 := by
    simp only [String.utf8EncodeChar, ← hn] at h
    split_ifs at h with h1 h2 h3 <;> simp only [List.mem_cons, List.not_mem_nil, or_false] at h
    · exact hbyte (by omega) h
    -- the bytes of longer characters are at least 128
    · rcases h with h | h <;> exact absurd (hbyte (by omega) h) (by omega)
    · rcases h with h | h | h <;> exact absurd (hbyte (by omega) h) (by omega)
    · rcases h with h | h | h | h <;> exact absurd (hbyte (by omega) h) (by omega)
  rw [← Char.ofNat_toNat c]
  change Char.ofNat c.val.toNat = _
  rw [← hn, h10]

theorem count_newline_utf8EncodeChar (c : Char) :
    (String.utf8EncodeChar c).count 10 = if c = '\n' then 1 else 0 := by
  by_cases hc : c = '\n'
  · rw [if_pos hc, hc]
    rfl
  · rw [if_neg hc, List.count_eq_zero]
    exact fun h => hc (eq_of_newline_mem h)

/-- Bytes of other characters are never taken for newlines. -/
theorem count_newline_encode (s : List Char) : (encode s).count 10 = s.count '\n' := by
  induction s with
  | nil => rfl
  | cons c s ih =>
    rw [encode, List.flatMap_cons, List.count_append, count_newline_utf8EncodeChar, List.count_cons,
      Nat.add_comm]
    simp only [beq_iff_eq]
    exact congrArg (· + _) ih

theorem newline_mem_encode {s : List Char} : 10 ∈ encode s ↔ '\n' ∈ s := by
  rw [← List.count_pos_iff, ← List.count_pos_iff, count_newline_encode]

end BracketLint.Utf8
