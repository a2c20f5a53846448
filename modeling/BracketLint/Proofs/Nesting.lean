import BracketLint.Proofs.Granted

/-! The language of accepted sources. Nothing is reported exactly when the tokens nest: each
opening bracket is closed by one of its own kind, and what is between them nests again. -/

namespace BracketLint

inductive Nested : List Token → Prop where
  | empty : Nested []
  | plain {t : Token} {ts : List Token} (ht : t.isPlain = true) (h : Nested ts) : Nested (t :: ts)
  | pair {d : BracketKind} {us vs : List Token} (hu : Nested us) (hv : Nested vs) :
      Nested (.bracket (.opening d) :: us ++ .bracket (.closing d) :: vs)

/-- What may follow once brackets of these kinds are open, the innermost one first. -/
def Completes : List BracketKind → List Token → Prop
  | [], ts => Nested ts
  | d :: ds, ts => ∃ us vs, ts = us ++ .bracket (.closing d) :: vs ∧ Nested us ∧ Completes ds vs

theorem Nested.append {us vs : List Token} (hu : Nested us) (hv : Nested vs) : Nested (us ++ vs) := by
  induction hu with
  | empty => exact hv
  | plain ht _ ih => exact .plain ht ih
  | @pair d _ _ hu' _ _ ih =>
    have hh := Nested.pair (d := d) hu' ih
    simpa only [List.append_assoc, List.cons_append] using hh

theorem Nested.string_terminated {ts : List Token} (h : Nested ts) : ∀ t ∈ ts, t ≠ .string false := by
  induction h with
  | empty => simp
  | plain ht _ ih =>
    intro t hm he
    rcases List.mem_cons.mp hm with rfl | hm
    · subst he
      cases ht
    · exact ih t hm he
  | pair _ _ ihu ihv =>
    intro t hm he
    rcases List.mem_append.mp hm with hm | hm
    · rcases List.mem_cons.mp hm with rfl | hm
      · cases he
      · exact ihu t hm he
    · rcases List.mem_cons.mp hm with rfl | hm
      · cases he
      · exact ihv t hm he

theorem Completes.prepend {ds : List BracketKind} {us vs : List Token} (hu : Nested us)
    (hv : Completes ds vs) : Completes ds (us ++ vs) := by
  cases ds with
  | nil => exact hu.append hv
  | cons d ds =>
    obtain ⟨xs, ys, rfl, hx, hy⟩ := hv
    exact ⟨us ++ xs, ys, by rw [List.append_assoc], hu.append hx, hy⟩

namespace Scan

variable {opened : List Opener} {ts : List PlacedToken}

/-- Nested tokens leave any stack as it was and add no findings. -/
theorem findings_of_nested {ws : List Token} (h : Nested ws) (hts : ts.map (·.token) = ws)
    (rest : List PlacedToken) : findings opened (ts ++ rest) = findings opened rest := by
  induction h generalizing ts opened rest with
  | empty => rw [List.map_eq_nil_iff.mp hts, List.nil_append]
  | plain ht _ ih =>
    obtain ⟨t, us, rfl, rfl, hus⟩ := List.map_eq_cons_iff.mp hts
    rw [List.cons_append, findings_cons, step_of_plain ht, Option.toList_none, List.nil_append]
    exact ih hus rest
  | @pair d _ _ _ _ ihu ihv =>
    obtain ⟨as, bs, rfl, has, hbs⟩ := List.map_eq_append_iff.mp hts
    obtain ⟨t, us, rfl, ht, hus⟩ := List.map_eq_cons_iff.mp has
    obtain ⟨c, vs, rfl, hc, hvs⟩ := List.map_eq_cons_iff.mp hbs
    have hclose : step (⟨d, t.start⟩ :: opened) c = (opened, none) := by
      rw [step_of_closing hc, close, if_pos rfl]
    rw [List.append_assoc, List.cons_append, findings_cons, step_of_opening ht, Option.toList_none,
      List.nil_append, ihu hus, List.cons_append, findings_cons, hclose, Option.toList_none,
      List.nil_append, ihv hvs]

/-- A run that reports nothing closes all that is open, and nests in between. -/
theorem completes_of_findings_eq_nil (h : findings opened ts = []) :
    Completes (opened.map Opener.kind) (ts.map (·.token)) := by
  induction ts generalizing opened with
  | nil =>
    have ho : opened = [] := by simpa [leftOpen] using h
    subst ho
    exact .empty
  | cons t ts ih =>
    rw [findings_cons] at h
    obtain ⟨hf, hr⟩ := List.append_eq_nil_iff.mp h
    have hrest := ih hr
    rw [List.map_cons]
    have hplain (hp : t.token.isPlain = true) :
        Completes (opened.map Opener.kind) (t.token :: ts.map (·.token)) := by
      rw [step_of_plain hp] at hrest
      exact hrest.prepend (.plain hp .empty)
    cases ht : t.token with
    | bracket b =>
      cases b with
      | opening d =>
        rw [step_of_opening ht] at hrest
        obtain ⟨us, vs, he, hu, hv⟩ := hrest
        rw [he]
        have hpair : Nested (.bracket (.opening d) :: us ++ [.bracket (.closing d)]) := .pair hu .empty
        simpa only [List.append_assoc, List.cons_append, List.nil_append] using hv.prepend hpair
      | closing d =>
        rw [step_of_closing ht] at hf hrest
        cases opened with
        | nil => simp [close] at hf
        | cons o opened =>
          by_cases hk : o.kind = d
          · rw [close, if_pos hk] at hrest
            exact ⟨[], ts.map (·.token), by rw [List.nil_append, hk], .empty, hrest⟩
          · simp [close, hk] at hf
    | string terminated =>
      cases terminated with
      | false => simp [step_of_unterminated ht] at hf
      | true => exact ht ▸ hplain (by rw [ht]; rfl)
    | comment body => exact ht ▸ hplain (by rw [ht]; rfl)
    | text run => exact ht ▸ hplain (by rw [ht]; rfl)

end Scan

theorem scan_eq_nil_iff {o : ScanOptions} {s : List Char} :
    scan o s = [] ↔ Nested ((tokens o s).map (·.token)) := by
  constructor
  · exact Scan.completes_of_findings_eq_nil
  · intro h
    have hh : Scan.findings [] (tokens o s ++ []) = Scan.findings [] [] :=
      Scan.findings_of_nested h rfl []
    rwa [List.append_nil] at hh

/-- A source is accepted if its strings end and its tokens nest, and rejected if not. -/
theorem check_ok_iff_nested (o : ScanOptions) (s : List Char) :
    ((check o s (fun _ => .plenty)).value = .ok () ↔
      (∀ t ∈ tokens o s, t.token ≠ .string false) ∧ Nested ((tokens o s).map (·.token))) ∧
    ((check o s (fun _ => .plenty)).value = .ok () ∨
      ∃ l, (check o s (fun _ => .plenty)).value = .error (.rejected l)) := by
  rcases check_granted o s with ⟨hs, he⟩ | ⟨hs, l, he, -⟩
  · refine ⟨⟨fun _ => ?_, fun _ => he⟩, .inl he⟩
    have hn := scan_eq_nil_iff.mp hs
    exact ⟨fun t ht => hn.string_terminated _ (List.mem_map_of_mem ht), hn⟩
  · refine ⟨⟨fun h => ?_, fun h => (hs (scan_eq_nil_iff.mpr h.2)).elim⟩, .inr ⟨l, he⟩⟩
    rw [he] at h
    cases h

end BracketLint
