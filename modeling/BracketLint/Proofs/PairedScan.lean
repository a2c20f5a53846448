import BracketLint.Proofs.Granted
import BracketLint.Proofs.Pairing

/-! A scan reports what the partners say. The stack of a scan holds the opening brackets that
have no partner among the tokens read so far, so a closing bracket meets its partner on top. -/

namespace BracketLint

open PlacedToken Pairing

/-- After `k` tokens the stack is `st`: on the ground the tokens end at a lowest point, and
above it each opening bracket would be the partner of a closing bracket that comes next. -/
inductive Standing (ts : List PlacedToken) : Nat → List Opener → Prop where
  | ground {k : Nat} (lowest : ∀ m, m ≤ k → height ts k ≤ height ts m) : Standing ts k []
  | above {i k : Nat} {t : PlacedToken} {d : BracketKind} {st : List Opener}
      (get : ts[i]? = some t) (token : t.token = .bracket (.opening d)) (lt : i < k)
      (level : height ts k = height ts (i + 1))
      (higher : ∀ m, i < m → m ≤ k → height ts (i + 1) ≤ height ts m)
      (below : Standing ts i st) : Standing ts k (⟨d, t.start⟩ :: st)

variable {ts : List PlacedToken} {i j k : Nat} {t : PlacedToken} {d : BracketKind} {st : List Opener}

theorem bracketAt_of_get (h : ts[i]? = some t) : bracketAt ts i = t.token.bracket? := by
  rw [bracketAt, h, Option.bind_some]

theorem bracketAt_of_token {b : Bracket} (h : ts[i]? = some t) (ht : t.token = .bracket b) :
    bracketAt ts i = some b := by
  rw [bracketAt_of_get h, ht]
  rfl

theorem kindAt_of_token {b : Bracket} (h : ts[i]? = some t) (ht : t.token = .bracket b) :
    kindAt ts i = some b.kind := by
  rw [kindAt, bracketAt_of_token h ht, Option.map_some]

theorem Token.bracket?_of_isPlain {t : Token} (h : t.isPlain = true) : t.bracket? = none := by
  cases t with
  | bracket b => cases h
  | string terminated => rfl
  | comment body => rfl
  | text run => rfl

/-- An opening bracket finds no partner exactly as long as the height stays above it. -/
theorem no_partner_before_iff (ho : bracketAt ts i = some (.opening d)) :
    (∀ j, j < k → ¬ Partners ts i j) ↔
      ∀ m, i < m → m ≤ k → height ts (i + 1) ≤ height ts m := by
  constructor
  · intro hno m him hmk
    obtain ⟨n, rfl⟩ : ∃ n, m = i + 1 + n := ⟨m - (i + 1), by omega⟩
    clear him
    induction n using Nat.strongRecOn with
    | ind n ih =>
      cases n with
      | zero => exact Int.le_refl _
      | succ n =>
        have hh := ih n (by omega) (by omega)
        cases hb : bracketAt ts (i + 1 + n) with
        | none => rwa [← Nat.add_assoc, height_succ_of_none hb]
        | some b =>
          cases b with
          | opening e =>
            rw [← Nat.add_assoc, height_succ_of_opening hb]
            omega
          | closing e =>
            rw [← Nat.add_assoc, height_succ_of_closing hb]
            have hne : height ts (i + 1 + n) ≠ height ts (i + 1) := by
              intro he
              refine hno (i + 1 + n) (by omega) ⟨by omega, ⟨d, ho⟩, ⟨e, hb⟩, ?_⟩
              refine (balanced_between_iff (by omega)).mpr ⟨he, fun m him hm => ?_⟩
              have hhm := ih (m - (i + 1)) (by omega) (by omega)
              rwa [show i + 1 + (m - (i + 1)) = m by omega] at hhm
            omega
  · intro hover j hjk hj
    have := hover (j + 1) (by have := hj.lt; omega) hjk
    have := hj.height_closing
    have := hj.level
    omega

namespace Standing

theorem start (ts : List PlacedToken) : Standing ts 0 [] := .ground fun m hm => by
  obtain rfl := Nat.le_zero.mp hm
  exact Int.le_refl _

/-- A balanced stretch of tokens leaves the stack as it was. -/
theorem extend (h : Standing ts i st) (hik : i ≤ k) (hl : height ts k = height ts i)
    (ho : ∀ m, i ≤ m → m ≤ k → height ts i ≤ height ts m) : Standing ts k st := by
  cases h with
  | ground lowest =>
    refine .ground fun m hm => ?_
    by_cases hmi : m ≤ i
    · have := lowest m hmi
      omega
    · have := ho m (by omega) hm
      omega
  | above get token lt level higher below =>
    refine .above get token (by omega) (by omega) (fun m him hm => ?_) below
    by_cases hmi : m ≤ i
    · exact higher m him hmi
    · have := ho m (by omega) hm
      omega

theorem other (h : Standing ts k st) (hb : bracketAt ts k = none) : Standing ts (k + 1) st := by
  have he := height_succ_of_none hb
  refine h.extend (by omega) he fun m hkm hm => ?_
  rcases Nat.eq_or_lt_of_le hkm with rfl | hlt
  · exact Int.le_refl _
  · have hm' : m = k + 1 := by omega
    exact Int.le_of_eq (by rw [hm', he])

theorem push (h : Standing ts k st) (hg : ts[k]? = some t) (ht : t.token = .bracket (.opening d)) :
    Standing ts (k + 1) (⟨d, t.start⟩ :: st) := by
  refine .above hg ht (by omega) rfl (fun m hkm hm => ?_) h
  have hm' : m = k + 1 := by omega
  exact Int.le_of_eq (by rw [hm'])

theorem close_ground (h : Standing ts k []) (hc : bracketAt ts k = some (.closing d)) :
    (∀ i, ¬ Partners ts i k) ∧ Standing ts (k + 1) [] := by
  cases h with
  | ground lowest =>
    constructor
    · intro i hi
      have := lowest i (Nat.le_of_lt hi.lt)
      have := hi.height_opening
      have := hi.level
      omega
    · refine .ground fun m hm => ?_
      have he := height_succ_of_closing hc
      rcases Nat.eq_or_lt_of_le hm with rfl | hlt
      · exact Int.le_refl _
      · have := lowest m (by omega)
        omega

theorem pop {o : Opener} (h : Standing ts k (o :: st)) (hc : bracketAt ts k = some (.closing d)) :
    (∃ i t, ts[i]? = some t ∧ t.token = .bracket (.opening o.kind) ∧ t.start = o.offset ∧
      Partners ts i k) ∧ Standing ts (k + 1) st := by
  cases h with
  | @above i _ t e _ get token lt level higher below =>
    have hi := bracketAt_of_token get token
    have hp : Partners ts i k :=
      ⟨lt, ⟨e, hi⟩, ⟨d, hc⟩, (balanced_between_iff lt).mpr ⟨level, higher⟩⟩
    refine ⟨⟨i, t, get, token, rfl, hp⟩, below.extend (by omega) ?_ fun m him hm => ?_⟩
    · have := hp.height_opening
      have := hp.height_closing
      omega
    · have := hp.height_opening
      have := hp.height_closing
      rcases Nat.eq_or_lt_of_le him with rfl | hlt
      · exact Int.le_refl _
      · rcases Nat.eq_or_lt_of_le hm with rfl | hlt'
        · omega
        · have := higher m hlt (by omega)
          omega

end Standing

def Finding.notice (f : Finding) : Notice := ⟨f.problem.message, f.offset⟩

theorem Finding.record_notice (f : Finding) : f.notice.record = f.record := rfl

theorem unclosedIf_congr {p q : Prop} [Decidable p] [Decidable q]
    (h : ∀ d, bracketAt ts i = some (.opening d) → (p ↔ q)) :
    unclosedIf ts i p = unclosedIf ts i q := by
  unfold unclosedIf
  cases hg : ts[i]? with
  | none => rfl
  | some t =>
    simp only [Option.bind_some]
    split
    · rename_i d ht
      exact if_congr (h d (bracketAt_of_token hg ht)) rfl rfl
    · rfl

/-- The report of an opening bracket whose partner is not among the first `k` tokens. -/
def unclosedBefore (ts : List PlacedToken) (k i : Nat) : Option Notice :=
  unclosedIf ts i (∀ j, j < k → ¬ Partners ts i j)

theorem unclosedBefore_length : unclosedBefore ts ts.length i = unclosedAt ts i :=
  unclosedIf_congr fun _ _ => ⟨fun h j hj => h j hj.lt_length hj, fun h j _ => h j⟩

theorem unclosedBefore_eq_none (hik : i < k) (hl : height ts k ≤ height ts i) :
    unclosedBefore ts k i = none := by
  have hfalse : unclosedBefore ts k i = unclosedIf ts i False := by
    refine unclosedIf_congr fun d ho => iff_false_intro fun hno => ?_
    have := (no_partner_before_iff ho).mp hno k hik (Nat.le_refl k)
    have := height_succ_of_opening ho
    omega
  rw [hfalse, unclosedIf]
  cases ts[i]? with
  | none => rfl
  | some t =>
    simp only [Option.bind_some, if_false]
    split <;> rfl

theorem range_split (h : i < k) :
    List.range k = List.range i ++ i :: List.range' (i + 1) (k - i - 1) := by
  have hk : k = i + (k - i - 1 + 1) := by omega
  conv => lhs; rw [hk]
  rw [List.range_add, List.range_succ_eq_map, List.map_cons, List.map_map, Nat.add_zero,
    List.range'_eq_map_range]
  congr 3
  funext x
  simp only [Function.comp]
  omega

theorem range'_sub_of_lt (h : i < k) :
    List.range' i (k - i) = i :: List.range' (i + 1) (k - (i + 1)) := by
  rw [show k - i = k - (i + 1) + 1 by omega, List.range'_succ]

theorem message_unexpectedClosing (d : BracketKind) :
    (Problem.unexpectedClosing d).message = "unexpected closing ".toList ++ quoted d.closing := by
  have he : "unexpected closing \x60".toList = "unexpected closing ".toList ++ ['\x60'] := by decide
  change "unexpected closing \x60".toList ++ [d.closing, '\x60'] = _
  rw [he, List.append_assoc]
  rfl

theorem message_mismatchedClosing (d e : BracketKind) (n : Nat) :
    (Problem.mismatchedClosing d e n).message =
      "mismatched closing ".toList ++ quoted d.closing ++ ", expected ".toList ++ quoted e.closing := by
  have he : "mismatched closing \x60".toList = "mismatched closing ".toList ++ ['\x60'] := by decide
  have he' : "\x60, expected \x60".toList = ['\x60'] ++ ", expected ".toList ++ ['\x60'] := by decide
  change "mismatched closing \x60".toList ++ [d.closing] ++ "\x60, expected \x60".toList ++
    [e.closing, '\x60'] = _
  rw [he, he']
  simp only [quoted, List.append_assoc, List.cons_append, List.nil_append]

theorem message_unclosed (d : BracketKind) :
    (Problem.unclosed d).message = "unclosed ".toList ++ quoted d.opening := by
  have he : "unclosed \x60".toList = "unclosed ".toList ++ ['\x60'] := by decide
  change "unclosed \x60".toList ++ [d.opening, '\x60'] = _
  rw [he, List.append_assoc]
  rfl

namespace Standing

/-- The stack is what is open so far, innermost first. -/
theorem leftOpen_eq (h : Standing ts k st) :
    (Scan.leftOpen st).map Finding.notice = (List.range k).filterMap (unclosedBefore ts k) := by
  induction h with
  | ground lowest =>
    symm
    rw [Scan.leftOpen, List.reverse_nil, List.map_nil, List.map_nil, List.filterMap_eq_nil_iff]
    intro i hi
    have hik := List.mem_range.mp hi
    exact unclosedBefore_eq_none hik (lowest i (Nat.le_of_lt hik))
  | @above i k t d st get token lt level higher below ih =>
    have ho := bracketAt_of_token get token
    have hs := height_succ_of_opening ho
    have hself : unclosedBefore ts k i =
        some (⟨.unclosed d, t.start⟩ : Finding).notice := by
      simp only [unclosedBefore, unclosedIf, get, Option.bind_some, token, Finding.notice,
        message_unclosed]
      exact if_pos ((no_partner_before_iff ho).mpr higher)
    have hafter : (List.range' (i + 1) (k - i - 1)).filterMap (unclosedBefore ts k) = [] := by
      rw [List.filterMap_eq_nil_iff]
      intro m hm
      have hmm := List.mem_range'_1.mp hm
      have := higher m (by omega) (by omega)
      exact unclosedBefore_eq_none (by omega) (by omega)
    have hbefore : (List.range i).filterMap (unclosedBefore ts k) =
        (List.range i).filterMap (unclosedBefore ts i) := by
      refine List.filterMap_congr fun m hm => ?_
      have hmi := List.mem_range.mp hm
      refine unclosedIf_congr fun e he => ?_
      rw [no_partner_before_iff he, no_partner_before_iff he]
      constructor
      · exact fun hh n hmn hni => hh n hmn (by omega)
      · intro hh n hmn hnk
        by_cases hni : n ≤ i
        · exact hh n hmn hni
        · have := hh i hmi (Nat.le_refl i)
          have := higher n (by omega) hnk
          omega
    rw [range_split lt, List.filterMap_append, List.filterMap_cons, hself, hafter, hbefore, ← ih]
    simp only [Scan.leftOpen, List.reverse_cons, List.map_append, List.map_cons, List.map_nil]

theorem step_plain (h : Standing ts k st) (hg : ts[k]? = some t) (hp : t.token.isPlain = true) :
    Standing ts (k + 1) (Scan.step st t).1 ∧ (Scan.step st t).2.map Finding.notice = faultAt ts k := by
  rw [Scan.step_of_plain hp, faultAt_of_plain hg hp]
  exact ⟨h.other (by rw [bracketAt_of_get hg, Token.bracket?_of_isPlain hp]), rfl⟩

theorem step_closing (h : Standing ts k st) (hg : ts[k]? = some t)
    (ht : t.token = .bracket (.closing d)) :
    Standing ts (k + 1) (Scan.step st t).1 ∧ (Scan.step st t).2.map Finding.notice = faultAt ts k := by
  have hb := bracketAt_of_token hg ht
  rw [Scan.step_of_closing ht]
  cases st with
  | nil =>
    obtain ⟨hno, hs⟩ := h.close_ground hb
    rw [faultAt_of_unpaired hg ht hno, ← message_unexpectedClosing]
    exact ⟨hs, rfl⟩
  | cons o st =>
    obtain ⟨⟨i, u, hu, ho, -, hi⟩, hs⟩ := h.pop hb
    have hkind : kindAt ts i = some o.kind := kindAt_of_token hu ho
    rw [faultAt_of_partners hg ht hi hkind, Scan.close]
    by_cases he : o.kind = d
    · rw [if_pos he, if_pos he]
      exact ⟨hs, rfl⟩
    · rw [if_neg he, if_neg he, ← message_mismatchedClosing d o.kind o.offset]
      exact ⟨hs, rfl⟩

/-- One token keeps the stack right and is reported if it is faulty. -/
theorem step (h : Standing ts k st) (hg : ts[k]? = some t) :
    Standing ts (k + 1) (Scan.step st t).1 ∧ (Scan.step st t).2.map Finding.notice = faultAt ts k := by
  cases ht : t.token with
  | bracket b =>
    cases b with
    | opening d =>
      rw [Scan.step_of_opening ht, faultAt_of_opening hg ht]
      exact ⟨h.push hg ht, rfl⟩
    | closing d => exact h.step_closing hg ht
  | string terminated =>
    cases terminated with
    | false =>
      have hb : bracketAt ts k = none := by
        rw [bracketAt_of_get hg, ht]
        rfl
      rw [Scan.step_of_unterminated ht, faultAt_of_unterminated hg ht]
      exact ⟨h.other hb, rfl⟩
    | true => exact h.step_plain hg (by rw [ht]; rfl)
  | comment body => exact h.step_plain hg (by rw [ht]; rfl)
  | text run => exact h.step_plain hg (by rw [ht]; rfl)

/-- From any point on, the scan reports the faults of the tokens to come and then all that is
left open. -/
theorem findings_eq (h : Standing ts k st) (hk : k ≤ ts.length) :
    (Scan.findings st (ts.drop k)).map Finding.notice =
      (List.range' k (ts.length - k)).filterMap (faultAt ts) ++
        (List.range ts.length).filterMap (unclosedAt ts) := by
  obtain ⟨n, hn⟩ : ∃ n, n = ts.length - k := ⟨_, rfl⟩
  induction n generalizing k st with
  | zero =>
    have he : k = ts.length := by omega
    subst he
    have hcongr : (List.range ts.length).filterMap (unclosedAt ts) =
        (List.range ts.length).filterMap (unclosedBefore ts ts.length) :=
      List.filterMap_congr fun i _ => unclosedBefore_length.symm
    rw [List.drop_length, Scan.findings_nil, h.leftOpen_eq, Nat.sub_self, hcongr]
    rfl
  | succ n ih =>
    have hlt : k < ts.length := by omega
    have hg : ts[k]? = some ts[k] := List.getElem?_eq_getElem hlt
    obtain ⟨hs, hf⟩ := h.step hg
    rw [List.drop_eq_getElem_cons hlt, Scan.findings_cons, List.map_append, ih hs hlt (by omega),
      range'_sub_of_lt hlt, List.filterMap_cons, ← hf]
    cases (Scan.step st ts[k]).2 <;> rfl

end Standing

theorem findings_eq_notices (ts : List PlacedToken) :
    (Scan.findings [] ts).map Finding.notice = notices ts := by
  have hh := (Standing.start ts).findings_eq (Nat.zero_le _)
  rwa [List.drop_zero, Nat.sub_zero, ← List.range_eq_range'] at hh

/-- The token that a problem is reported at. -/
def Problem.token : Problem → Token
  | unexpectedClosing d | mismatchedClosing d _ _ => .bracket (.closing d)
  | unterminatedString => .string false
  | unclosed d => .bracket (.opening d)

/-- The notice is the report of a problem at a token. -/
structure Notice.Reports (n : Notice) (p : Problem) (t : PlacedToken) : Prop where
  token : t.token = p.token
  text : n.text = p.message
  offset : n.offset = t.start

theorem reports_of_faultAt {n : Notice} (h : faultAt ts i = some n) :
    ∃ t p, ts[i]? = some t ∧ n.Reports p t ∧ p.isUnclosed = false := by
  obtain ⟨t, hg, hn⟩ := Option.bind_eq_some_iff.mp h
  split at hn
  · rename_i d ht
    split at hn
    · cases hn
      exact ⟨t, .unexpectedClosing d, hg, ⟨ht, (message_unexpectedClosing d).symm, rfl⟩, rfl⟩
    · rename_i e he
      split at hn <;> cases hn
      exact ⟨t, .mismatchedClosing d e 0, hg, ⟨ht, (message_mismatchedClosing d e 0).symm, rfl⟩, rfl⟩
  · rename_i ht
    cases hn
    exact ⟨t, .unterminatedString, hg, ⟨ht, rfl, rfl⟩, rfl⟩
  · cases hn

theorem reports_of_unclosedAt {n : Notice} (h : unclosedAt ts i = some n) :
    ∃ t p, ts[i]? = some t ∧ n.Reports p t ∧ p.isUnclosed = true := by
  obtain ⟨t, hg, hn⟩ := Option.bind_eq_some_iff.mp h
  split at hn
  · rename_i d ht
    split at hn <;> cases hn
    exact ⟨t, .unclosed d, hg, ⟨ht, (message_unclosed d).symm, rfl⟩, rfl⟩
  · cases hn

theorem reports_of_mem_notices {n : Notice} (h : n ∈ notices ts) : ∃ t ∈ ts, ∃ p, n.Reports p t := by
  rcases List.mem_append.mp h with h | h
  · obtain ⟨i, -, hi⟩ := List.mem_filterMap.mp h
    obtain ⟨t, p, hg, hn, -⟩ := reports_of_faultAt hi
    exact ⟨t, List.mem_of_getElem? hg, p, hn⟩
  · obtain ⟨i, -, hi⟩ := List.mem_filterMap.mp h
    obtain ⟨t, p, hg, hn, -⟩ := reports_of_unclosedAt hi
    exact ⟨t, List.mem_of_getElem? hg, p, hn⟩

theorem offset_mem_of_notices {n : Notice} (h : n ∈ notices ts) : ∃ t ∈ ts, n.offset = t.start := by
  obtain ⟨t, ht, p, hn⟩ := reports_of_mem_notices h
  exact ⟨t, ht, hn.offset⟩

theorem Lexeme.start_le_of_mem_place {n : Nat} {ls : List Lexeme} (h : t ∈ place n ls) :
    t.start ≤ n + Utf8.byteLength (ls.flatMap source) := by
  induction ls generalizing n with
  | nil => simp at h
  | cons l rest ih =>
    rw [List.flatMap_cons, Utf8.byteLength_append]
    rw [place_cons] at h
    rcases List.mem_cons.mp h with rfl | h
    · exact Nat.le_add_right _ _
    · have := ih h
      omega

/-- Records of a scan, in full: the faults of the tokens in source order, then the opening
brackets without a partner. Positions are exact, and every bracket has one fate. -/
theorem scanInto_appends_notices (o : ScanOptions) (s : List Char) (l : RecordList)
    (h : Utf8.byteLength s ≤ Offset.greatest) :
    (∃ m, (scanInto o s (fun _ => .plenty) l).value = (.ok (), m) ∧
      m.toList = l.toList ++ (notices (tokens o s)).map Notice.record) ∧
    (∀ n ∈ notices (tokens o s), n.record.start.toNat = n.offset ∧ n.record.stop.toNat = n.offset) ∧
    (∀ i j k, Paired (tokens o s) i j → Paired (tokens o s) i k → j = k) ∧
    ∀ i b, bracketAt (tokens o s) i = some b → ∃! f, Fate.Of (tokens o s) i f := by
  refine ⟨?_, fun n hn => ?_, fun i j k => Paired.unique, fun i b => existsUnique_fate⟩
  · obtain ⟨m, he, hm⟩ := scanInto_granted o s l
    have hmap : (notices (tokens o s)).map Notice.record = (scan o s).map Finding.record := by
      rw [← findings_eq_notices, List.map_map]
      exact List.map_congr_left fun f _ => f.record_notice
    refine ⟨m, he, ?_⟩
    rw [hm, hmap]
  · obtain ⟨t, ht, he⟩ := offset_mem_of_notices hn
    have hle := Lexeme.start_le_of_mem_place ht
    rw [Lexeme.flatMap_source_all, Nat.zero_add, ← he] at hle
    have hexact := Offset.toNat_ofNat_of_le (Nat.le_trans hle h)
    exact ⟨hexact, hexact⟩

/-- All four fates in one source: a bracket that is closed by another kind, one that closes
nothing, one that is closed, and one that is left open before a string that does not end. -/
theorem scanInto_appends_notices_mixed :
    Utf8.byteLength "(]) [] \x7b\"x".toList ≤ Offset.greatest ∧
    (∃ m, (scanInto {} "(]) [] \x7b\"x".toList (fun _ => .plenty) .empty).value = (.ok (), m) ∧
      m.toList = [Notice.record ⟨"mismatched closing \x60]\x60, expected \x60)\x60".toList, 1⟩,
        Notice.record ⟨"unexpected closing \x60)\x60".toList, 2⟩,
        Notice.record ⟨"unterminated string literal".toList, 8⟩,
        Notice.record ⟨"unclosed \x60\x7b\x60".toList, 7⟩]) ∧
    (Notice.record ⟨"unclosed \x60\x7b\x60".toList, 7⟩).start.toNat = 7 ∧
    bracketAt (tokens {} "(]) [] \x7b\"x".toList) 1 = some (.closing .bracket) ∧
    ∃! f, Fate.Of (tokens {} "(]) [] \x7b\"x".toList) 1 f := by
  have hlen : Utf8.byteLength "(]) [] \x7b\"x".toList ≤ Offset.greatest := by decide
  have hn : notices (tokens {} "(]) [] \x7b\"x".toList) =
      [⟨"mismatched closing \x60]\x60, expected \x60)\x60".toList, 1⟩,
        ⟨"unexpected closing \x60)\x60".toList, 2⟩, ⟨"unterminated string literal".toList, 8⟩,
        ⟨"unclosed \x60\x7b\x60".toList, 7⟩] := by decide +kernel
  have hb : bracketAt (tokens {} "(]) [] \x7b\"x".toList) 1 = some (.closing .bracket) := by
    decide +kernel
  obtain ⟨⟨m, he, hm⟩, hp, -, hf⟩ := scanInto_appends_notices {} "(]) [] \x7b\"x".toList .empty hlen
  rw [hn] at hm hp
  refine ⟨hlen, ⟨m, he, hm⟩, (hp _ ?_).1, hb, hf 1 _ hb⟩
  exact List.mem_of_getLast? rfl

end BracketLint
