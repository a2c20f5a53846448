import BracketLint.Proofs.DoubleRange
import BracketLint.Proofs.KeyOrder
import BracketLint.Proofs.ScanSettings

/-! A group with two fields is read from a table: each field from its own key, wherever it stands
among the others. Every value of the table is looked at, and all numbers in it have to be legible,
also those for keys of no field. -/

namespace BracketLint.Toml

namespace Value

variable {v : Value}

/-- A number that can be looked at. -/
def Legible : Value → Prop
  | integer p n => (described? (integer p n)).isSome
  | float p x => (described? (float p x)).isSome
  | illegible _ => False
  | _ => True

mutual

theorem unreadable?_eq_none_iff (v : Value) : v.unreadable? = none ↔ v.Everywhere Legible := by
  cases v with
  | array p ofTables items =>
    rw [everywhere_array, and_iff_right (by trivial : Legible (array p ofTables items))]
    exact firstUnreadable?_eq_none_iff items
  | table p origin entries =>
    rw [everywhere_table, and_iff_right (by trivial : Legible (table p origin entries))]
    exact firstUnreadableValue?_eq_none_iff entries
  | integer p n =>
    rw [everywhere_of_isSingle rfl, unreadable?, Legible]
    split <;> simp_all
  | float p x =>
    rw [everywhere_of_isSingle rfl, unreadable?, Legible]
    split <;> simp_all
  | illegible p =>
    rw [everywhere_of_isSingle rfl]
    exact iff_of_false nofun id
  | string p s => exact iff_of_true rfl ((everywhere_of_isSingle rfl).mpr trivial)
  | boolean p b => exact iff_of_true rfl ((everywhere_of_isSingle rfl).mpr trivial)
  | dateTime p => exact iff_of_true rfl ((everywhere_of_isSingle rfl).mpr trivial)

theorem firstUnreadable?_eq_none_iff (items : List Value) :
    firstUnreadable? items = none ↔ ∀ v ∈ items, v.Everywhere Legible := by
  cases items with
  | nil => exact iff_of_true rfl nofun
  | cons v rest =>
    have hv := unreadable?_eq_none_iff v
    have hrest := firstUnreadable?_eq_none_iff rest
    simp only [firstUnreadable?, Option.orElse_eq_orElse, Option.orElse_eq_or, Option.or_eq_none_iff,
      hv, hrest, List.forall_mem_cons]

theorem firstUnreadableValue?_eq_none_iff (entries : List (Name × Value)) :
    firstUnreadableValue? entries = none ↔ ∀ e ∈ entries, e.2.Everywhere Legible := by
  cases entries with
  | nil => exact iff_of_true rfl nofun
  | cons e rest =>
    have hv := unreadable?_eq_none_iff e.2
    have hrest := firstUnreadableValue?_eq_none_iff rest
    simp only [Option.orElse_eq_orElse, Option.orElse_eq_or, firstUnreadableValue?,
      Option.or_eq_none_iff, hv, hrest, List.forall_mem_cons]

end

/-- An integer fits in 64 bits. What is written like one but is none does not. -/
def IntegerFits : Value → Prop
  | integer _ n => -2 ^ 63 ≤ n ∧ n < 2 ^ 63
  | illegible _ => False
  | _ => True

/-- A numeral is near to a double, whatever its sign. -/
def FloatFits : Value → Prop
  | float _ (.finite d) => (d.digits : ℚ) * 10 ^ d.exponent < Double.overflow
  | _ => True

theorem legible_iff (h : v.IntegerFits) : v.Legible ↔ v.FloatFits := by
  cases v with
  | integer p n =>
    refine iff_of_true ?_ trivial
    obtain ⟨hlow, hhigh⟩ := h
    have hfits : -Int.pow 2 63 ≤ n ∧ n < Int.pow 2 64 := ⟨hlow, hhigh.trans (by decide)⟩
    rw [Legible, described?, if_pos hfits]
    rfl
  | float p x =>
    cases x with
    | finite d =>
      rw [Legible, described?, Option.isSome_map, Double.isSome_doubleText?_iff]
      rfl
    | infinite negative => exact iff_of_true rfl trivial
    | nan => exact iff_of_true rfl trivial
  | illegible p => exact h.elim
  | string p s => exact Iff.rfl
  | boolean p b => exact Iff.rfl
  | dateTime p => exact Iff.rfl
  | array p ofTables items => exact Iff.rfl
  | table p origin entries => exact Iff.rfl

theorem ignore_eq_ok_iff (h : v.Everywhere IntegerFits) :
    v.ignore = .ok () ↔ v.Everywhere FloatFits := by
  have hlegible : v.unreadable? = none ↔ v.Everywhere FloatFits :=
    v.unreadable?_eq_none_iff.trans (forall₂_congr fun w hw => legible_iff (h w hw))
  rw [← hlegible, ignore]
  split <;> simp_all

end Value

/-- What is said about something: what a value tells, if there is one, or else the usual. -/
def Said {β : Type} (tells : Value → β → Prop) (usual : β) : Option Value → β → Prop
  | none, b => b = usual
  | some v, b => tells v b

section Said

variable {β : Type} {tells tells' : Value → β → Prop} {usual b b' : β} {o o' : Option Value}

theorem Said.congr (h : ∀ v ∈ o, ∀ b, tells v b ↔ tells' v b) :
    Said tells usual o b ↔ Said tells' usual o b := by
  cases o with
  | none => exact Iff.rfl
  | some v => exact h v rfl b

theorem Said.of_some (h : Said tells usual o b) {v : Value} (hv : o = some v) : tells v b := by
  subst hv
  exact h

/-- What is told does not depend on places, it is one thing, and only legible values tell it. -/
structure Plain (tells : Value → β → Prop) : Prop where
  unplaced : ∀ v b, tells v.unplaced b ↔ tells v b
  unique : ∀ v b b', tells v b → tells v b' → b = b'
  fits : ∀ v b, tells v b → v.Everywhere Value.FloatFits

theorem Said.congr_unplaced (ht : Plain tells) (h : o'.map Value.unplaced = o.map Value.unplaced) :
    Said tells usual o' b ↔ Said tells usual o b := by
  cases o with
  | none =>
    obtain rfl := Option.map_eq_none_iff.mp h
    exact Iff.rfl
  | some v =>
    obtain ⟨v', rfl, hv⟩ := Option.map_eq_some_iff.mp h
    exact (ht.unplaced v' b).symm.trans (hv ▸ ht.unplaced v b)

theorem Said.unique (ht : Plain tells) (h : Said tells usual o b) (h' : Said tells usual o b') :
    b = b' := by
  cases o with
  | none => exact h.trans h'.symm
  | some v => exact ht.unique v b b' h h'

theorem exists_said_iff : (∃ b, Said tells usual o b) ↔ ∀ v ∈ o, ∃ b, tells v b := by
  cases o with
  | none => exact iff_of_true ⟨usual, rfl⟩ nofun
  | some v => simp [Said]

end Said

namespace Table

variable {t : Table} {key : String} {v : Value}

theorem everywhere_get? {P : Value → Prop} (h : t.toValue.Everywhere P) (hv : t.get? key = some v) :
    v.Everywhere P := by
  obtain ⟨e, he, rfl⟩ := Option.map_eq_some_iff.mp hv
  exact (Value.everywhere_table.mp h).2 e (List.mem_of_find?_eq_some he)

theorem Ordered.nodup (h : t.Ordered) : (t.entries.map (·.1.text)).Nodup :=
  h.keys.imp ne_of_lt

theorem Ordered.get?_of_mem (h : t.Ordered) {e : Name × Value} (he : e ∈ t.entries) :
    t.get? e.1.text = some e.2 := by
  obtain ⟨d, hd⟩ : ∃ d, t.entries.find? (·.1.text == e.1.text) = some d :=
    Option.isSome_iff_exists.mp (List.find?_isSome.mpr ⟨e, he, beq_self_eq_true _⟩)
  have hkey : d.1.text = e.1.text := by simpa using List.find?_some hd
  obtain rfl := List.inj_on_of_nodup_map h.nodup (List.mem_of_find?_eq_some hd) he hkey
  rw [Table.get?, hd]
  rfl

/-- The value of a key in a table of a document. -/
def setting? (document : Table) (group key : String) : Option Value :=
  match document.get? group with
  | some (.table span origin entries) => get? ⟨span, origin, entries⟩ key
  | _ => none

theorem setting?_of_none {group : String} (h : t.get? group = none) (key : String) :
    t.setting? group key = none := by
  rw [setting?, h]

theorem setting?_of_some {group : String} {inner : Table} (h : t.get? group = some inner.toValue)
    (key : String) : t.setting? group key = inner.get? key := by
  rw [setting?, h]
  rfl

section Cons

variable {β : Type} {tells : Value → β → Prop} {usual b : β} {span : Span} {origin : Origin}
  {e : Name × Value} {rest : List (Name × Value)}

/-- An entry decides what its key says if the key does not come again. -/
theorem said_cons_self (h : e.1.text ∉ rest.map (·.1.text)) :
    Said tells usual (get? ⟨span, origin, e :: rest⟩ e.1.text) b ↔
      ∃ b', tells e.2 b' ∧ Said tells b' (get? ⟨span, origin, rest⟩ e.1.text) b := by
  have hrest : get? ⟨span, origin, rest⟩ e.1.text = none := by
    rw [get?, Option.map_eq_none_iff, List.find?_eq_none]
    intro d hd heq
    exact h (List.mem_map.mpr ⟨d, hd, by simpa using heq⟩)
  rw [hrest, get?, List.find?_cons_of_pos (by simp)]
  constructor
  · exact fun hb => ⟨b, hb, rfl⟩
  · rintro ⟨b', hb', rfl⟩
    exact hb'

theorem said_cons_of_ne (h : e.1.text ≠ key) :
    Said tells usual (get? ⟨span, origin, e :: rest⟩ key) b ↔
      Said tells usual (get? ⟨span, origin, rest⟩ key) b := by
  rw [get?, List.find?_cons_of_neg (by simpa using h)]
  rfl

end Cons

end Table

section Group

variable {α β γ : Type} {name key₁ key₂ : String} (make : β → γ → α)
  (read₁ : Value → Except (Placed Mismatch) β) (read₂ : Value → Except (Placed Mismatch) γ)
  {set₁ set₂ : Value → α → Except (Placed Mismatch) α} {b : β} {c : γ} {a : α}

/-- Two parts are read one by one, each from the entry with its own key. The other entries are
looked at. -/
theorem foldlM_eq_ok_iff {step : α → Name × Value → Except (Placed Mismatch) α} {span : Span}
    {origin : Origin} {entries : List (Name × Value)} (hkeys : key₁ ≠ key₂)
    (h₁ : ∀ e, e.1.text = key₁ → ∀ b c, step (make b c) e = (read₁ e.2).map (make · c))
    (h₂ : ∀ e, e.1.text = key₂ → ∀ b c, step (make b c) e = (read₂ e.2).map (make b ·))
    (hother : ∀ e, e.1.text ≠ key₁ → e.1.text ≠ key₂ → ∀ a, step a e = e.2.ignore.map fun _ => a)
    (hdistinct : (entries.map (·.1.text)).Nodup) :
    entries.foldlM step (make b c) = .ok a ↔
      ∃ b' c', a = make b' c' ∧
        Said (read₁ · = .ok ·) b (Table.get? ⟨span, origin, entries⟩ key₁) b' ∧
        Said (read₂ · = .ok ·) c (Table.get? ⟨span, origin, entries⟩ key₂) c' ∧
        ∀ e ∈ entries, e.1.text ≠ key₁ → e.1.text ≠ key₂ → e.2.ignore = .ok () := by
  induction entries generalizing b c with
  | nil =>
    constructor
    · rintro ⟨⟩
      exact ⟨b, c, rfl, rfl, rfl, nofun⟩
    · rintro ⟨_, _, rfl, rfl, rfl, -⟩
      rfl
  | cons e rest ih =>
    obtain ⟨hnew, hdistinct⟩ := List.nodup_cons.mp hdistinct
    rw [List.foldlM_cons, List.forall_mem_cons]
    by_cases he₁ : e.1.text = key₁
    · have hne : e.1.text ≠ key₂ := he₁.trans_ne hkeys
      rw [h₁ e he₁]
      subst he₁
      simp only [Table.said_cons_self hnew, Table.said_cons_of_ne hne]
      cases read₁ e.2 with
      | error why => exact iff_of_false nofun (by simp)
      | ok b' =>
        refine (ih hdistinct).trans ?_
        simp
    · by_cases he₂ : e.1.text = key₂
      · rw [h₂ e he₂]
        subst he₂
        simp only [Table.said_cons_self hnew, Table.said_cons_of_ne he₁]
        cases read₂ e.2 with
        | error why => exact iff_of_false nofun (by simp)
        | ok c' =>
          refine (ih hdistinct).trans ?_
          simp
      · rw [hother e he₁ he₂]
        simp only [Table.said_cons_of_ne he₁, Table.said_cons_of_ne he₂]
        cases e.2.ignore with
        | error why => exact iff_of_false nofun (by simp [he₁, he₂])
        | ok u =>
          refine (ih hdistinct).trans ?_
          simp

/-- Where the fields of a group are near to doubles, looking at the other entries is looking at
all. -/
theorem ignored_iff {t : Table} (ht : t.Ordered) (hintegers : t.toValue.Everywhere Value.IntegerFits)
    (h₁ : ∀ v, t.get? key₁ = some v → v.Everywhere Value.FloatFits)
    (h₂ : ∀ v, t.get? key₂ = some v → v.Everywhere Value.FloatFits) :
    (∀ e ∈ t.entries, e.1.text ≠ key₁ → e.1.text ≠ key₂ → e.2.ignore = .ok ()) ↔
      t.toValue.Everywhere Value.FloatFits := by
  refine Iff.trans ?_ (Value.everywhere_table.trans (and_iff_right trivial)).symm
  refine forall₂_congr fun e he => ?_
  have hget := ht.get?_of_mem he
  rw [Value.ignore_eq_ok_iff (Table.everywhere_get? hintegers hget)]
  by_cases he₁ : e.1.text = key₁
  · exact iff_of_true (fun hne => absurd he₁ hne) (h₁ _ (he₁ ▸ hget))
  · by_cases he₂ : e.1.text = key₂
    · exact iff_of_true (fun _ hne => absurd he₂ hne) (h₂ _ (he₂ ▸ hget))
    · exact ⟨fun h => h he₁ he₂, fun h _ _ => h⟩

/-- The fields of a group are set one by one, each by its own key. All entries are read. -/
theorem toGroup_eq_ok_iff {first : α → β} {second : α → γ} {t : Table}
    (hmake : ∀ a b c, a = make b c ↔ first a = b ∧ second a = c) (hkeys : key₁ ≠ key₂)
    (hset₁ : ∀ v b c, set₁ v (make b c) = (read₁ v).map (make · c))
    (hset₂ : ∀ v b c, set₂ v (make b c) = (read₂ v).map (make b ·))
    (ht : t.Ordered) (hintegers : t.toValue.Everywhere Value.IntegerFits)
    (hfits₁ : ∀ v b, t.get? key₁ = some v → read₁ v = .ok b → v.Everywhere Value.FloatFits)
    (hfits₂ : ∀ v c, t.get? key₂ = some v → read₂ v = .ok c → v.Everywhere Value.FloatFits) :
    Value.toGroup name [(key₁, set₁), (key₂, set₂)] (make b c) t.toValue = .ok a ↔
      (Said (read₁ · = .ok ·) b (t.get? key₁) (first a) ∧
        Said (read₂ · = .ok ·) c (t.get? key₂) (second a)) ∧
      t.toValue.Everywhere Value.FloatFits := by
  have hfold : Value.toGroup name [(key₁, set₁), (key₂, set₂)] (make b c) t.toValue = .ok a ↔
      ∃ b' c', a = make b' c' ∧ Said (read₁ · = .ok ·) b (t.get? key₁) b' ∧
        Said (read₂ · = .ok ·) c (t.get? key₂) c' ∧
        ∀ e ∈ t.entries, e.1.text ≠ key₁ → e.1.text ≠ key₂ → e.2.ignore = .ok () := by
    apply foldlM_eq_ok_iff make read₁ read₂ hkeys
    · rintro e rfl b c
      simp only [List.lookup_cons_self, hset₁]
    · rintro e rfl b c
      simp only [List.lookup_cons, beq_false_of_ne hkeys.symm, beq_self_eq_true, hset₂]
    · intro e h₁ h₂ a
      simp only [List.lookup_cons, List.lookup_nil, beq_false_of_ne h₁, beq_false_of_ne h₂]
      rfl
    · exact ht.nodup
  rw [hfold]
  have hothers (hb : Said (read₁ · = .ok ·) b (t.get? key₁) (first a))
      (hc : Said (read₂ · = .ok ·) c (t.get? key₂) (second a)) :=
    ignored_iff ht hintegers (fun v hv => hfits₁ v _ hv (hb.of_some hv))
      fun v hv => hfits₂ v _ hv (hc.of_some hv)
  constructor
  · rintro ⟨b', c', ha, hb, hc, h⟩
    obtain ⟨rfl, rfl⟩ := (hmake a b' c').mp ha
    exact ⟨⟨hb, hc⟩, (hothers hb hc).mp h⟩
  · rintro ⟨⟨hb, hc⟩, h⟩
    exact ⟨_, _, (hmake a _ _).mpr ⟨rfl, rfl⟩, hb, hc, (hothers hb hc).mpr h⟩

end Group

end BracketLint.Toml
