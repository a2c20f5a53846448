import Mathlib.Data.String.Basic
import BracketLint.Toml.Document

/-! The tables of a document, at every level, hold their keys in ascending order. So no key is in a
table twice. -/

namespace BracketLint.Toml

/-- What is computed has a property, if anything is. -/
def Gives {α ε : Type} (x : Except ε α) (P : α → Prop) : Prop := ∀ a, x = .ok a → P a

namespace Gives

variable {α β ε : Type} {P : α → Prop} {Q : β → Prop}

theorem ok {a : α} (h : P a) : Gives (.ok a : Except ε α) P := by
  rintro a' ⟨⟩
  exact h

theorem error (e : ε) : Gives (.error e : Except ε α) P := by
  rintro a ⟨⟩

theorem bind {x : Except ε α} {f : α → Except ε β} (hx : Gives x P) (hf : ∀ a, P a → Gives (f a) Q) :
    Gives (x >>= f) Q := by
  cases x with
  | error e => exact error e
  | ok a => exact hf a (hx a rfl)

theorem map {x : Except ε α} {f : α → β} (hx : Gives x P) (hf : ∀ a, P a → Q (f a)) :
    Gives (f <$> x) Q := by
  cases x with
  | error e => exact error e
  | ok a => exact ok (hf a (hx a rfl))

theorem any (x : Except ε α) : Gives x fun _ => True := fun _ _ => trivial

theorem ite {c : Prop} [Decidable c] {x y : Except ε α} (hx : Gives x P) (hy : Gives y P) :
    Gives (if c then x else y) P := by
  split
  · exact hx
  · exact hy

/-- Each step of a fold keeps an invariant, and so does the fold. -/
theorem foldlM {f : β → α → Except ε β} (hf : ∀ b a, Q b → Gives (f b a) Q) {b : β} (hb : Q b)
    (as : List α) : Gives (as.foldlM f b) Q := by
  induction as generalizing b with
  | nil => exact ok hb
  | cons a as ih => exact (hf b a hb).bind fun _ => ih

end Gives

namespace Value

/-- A value is another one or is somewhere within it. -/
inductive Within : Value → Value → Prop where
  | self (v : Value) : Within v v
  | item {v w : Value} {span : Span} {ofTables : Bool} {items : List Value} (hv : v ∈ items)
      (hw : Within w v) : Within w (.array span ofTables items)
  | entry {e : Name × Value} {w : Value} {span : Span} {origin : Origin}
      {entries : List (Name × Value)} (he : e ∈ entries) (hw : Within w e.2) :
    Within w (.table span origin entries)

def Everywhere (P : Value → Prop) (v : Value) : Prop := ∀ w, Within w v → P w

def isSingle : Value → Bool
  | array .. | table .. => false
  | _ => true

variable {P : Value → Prop} {v : Value}

theorem everywhere_of_isSingle (h : v.isSingle = true) : v.Everywhere P ↔ P v := by
  constructor
  · exact fun hv => hv v (.self v)
  · intro hv w hw
    cases hw with
    | self => exact hv
    | item => cases h
    | entry => cases h

theorem everywhere_array {span : Span} {ofTables : Bool} {items : List Value} :
    (array span ofTables items).Everywhere P ↔
      P (array span ofTables items) ∧ ∀ v ∈ items, v.Everywhere P := by
  constructor
  · exact fun h => ⟨h _ (.self _), fun v hv w hw => h w (.item hv hw)⟩
  · rintro ⟨h, hitems⟩ w hw
    cases hw with
    | self => exact h
    | item hv hw => exact hitems _ hv w hw

theorem everywhere_table {span : Span} {origin : Origin} {entries : List (Name × Value)} :
    (table span origin entries).Everywhere P ↔
      P (table span origin entries) ∧ ∀ e ∈ entries, e.2.Everywhere P := by
  constructor
  · exact fun h => ⟨h _ (.self _), fun e he w hw => h w (.entry he hw)⟩
  · rintro ⟨h, hentries⟩ w hw
    cases hw with
    | self => exact h
    | entry he hw => exact hentries _ he w hw

/-- The keys of a table ascend. -/
def KeysAscend : Value → Prop
  | table _ _ entries => (entries.map (·.1.text)).Pairwise (· < ·)
  | _ => True

/-- The keys of every table in a value ascend. -/
def Ordered (v : Value) : Prop := v.Everywhere KeysAscend

theorem Ordered.of_isSingle (h : v.isSingle = true) : v.Ordered := by
  refine (everywhere_of_isSingle h).mpr ?_
  cases v <;> trivial

theorem ordered_array {span : Span} {ofTables : Bool} {items : List Value} :
    (array span ofTables items).Ordered ↔ ∀ v ∈ items, v.Ordered :=
  everywhere_array.trans (and_iff_right trivial)

end Value

namespace Table

variable {t : Table} {key : Name} {v : Value}

/-- The keys of a table ascend, and so do those of the tables within. -/
structure Ordered (t : Table) : Prop where
  keys : (t.entries.map (·.1.text)).Pairwise (· < ·)
  values : ∀ e ∈ t.entries, e.2.Ordered

theorem ordered_iff {span : Span} {origin : Origin} {entries : List (Name × Value)} :
    (Value.table span origin entries).Ordered ↔ Ordered ⟨span, origin, entries⟩ :=
  Value.everywhere_table.trans ⟨fun h => ⟨h.1, h.2⟩, fun h => ⟨h.keys, h.values⟩⟩

theorem Ordered.toValue (h : t.Ordered) : t.toValue.Ordered := ordered_iff.mpr h

theorem ordered_empty (span : Span) (origin : Origin) : (empty span origin).Ordered :=
  ⟨.nil, fun _ he => absurd he List.not_mem_nil⟩

theorem mem_insertEntry {e : Name × Value} {entries : List (Name × Value)}
    (h : e ∈ insertEntry key v entries) : e ∈ entries ∨ e.1.text = key.text ∧ e.2 = v := by
  induction entries with
  | nil =>
    obtain rfl := List.mem_singleton.mp h
    exact .inr ⟨rfl, rfl⟩
  | cons d rest ih =>
    rw [insertEntry] at h
    split at h
    · rcases List.mem_cons.mp h with rfl | h
      · exact .inr ⟨rfl, rfl⟩
      · exact .inl h
    · split at h
      · rename_i he
        rcases List.mem_cons.mp h with rfl | h
        · exact .inr ⟨he.symm, rfl⟩
        · exact .inl (List.mem_cons_of_mem _ h)
      · rcases List.mem_cons.mp h with rfl | h
        · exact .inl List.mem_cons_self
        · exact (ih h).imp_left (List.mem_cons_of_mem _)

theorem pairwise_insertEntry {entries : List (Name × Value)}
    (h : (entries.map (·.1.text)).Pairwise (· < ·)) :
    ((insertEntry key v entries).map (·.1.text)).Pairwise (· < ·) := by
  induction entries with
  | nil => exact List.pairwise_singleton _ _
  | cons d rest ih =>
    obtain ⟨hd, hrest⟩ := List.pairwise_cons.mp h
    rw [insertEntry]
    split
    · rename_i hlt
      refine List.pairwise_cons.mpr ⟨fun k hk => ?_, h⟩
      rcases List.mem_cons.mp hk with rfl | hk
      · exact hlt
      · exact lt_trans hlt (hd k hk)
    · rename_i hle
      split
      · exact h
      · rename_i hne
        refine List.pairwise_cons.mpr ⟨fun k hk => ?_, ih hrest⟩
        obtain ⟨e, he, rfl⟩ := List.mem_map.mp hk
        rcases mem_insertEntry he with he | ⟨he, -⟩
        · exact hd _ (List.mem_map_of_mem he)
        · rw [he]
          exact lt_of_le_of_ne (not_lt.mp hle) (Ne.symm hne)

theorem Ordered.insert (h : t.Ordered) (hv : v.Ordered) : (t.insert key v).Ordered := by
  refine ⟨pairwise_insertEntry h.keys, fun e he => ?_⟩
  rcases mem_insertEntry he with he | ⟨-, he⟩
  · exact h.values e he
  · exact he ▸ hv

theorem Ordered.erase (h : t.Ordered) (key : String) : (t.erase key).Ordered :=
  ⟨h.keys.sublist (List.filter_sublist.map _), fun e he => h.values e (List.mem_of_mem_filter he)⟩

theorem Ordered.get? (h : t.Ordered) {key : String} (hv : t.get? key = some v) : v.Ordered := by
  obtain ⟨e, he, rfl⟩ := Option.map_eq_some_iff.mp hv
  exact h.values e (List.mem_of_find?_eq_some he)

theorem Ordered.insertNew (h : t.Ordered) (hv : v.Ordered) : Gives (t.insertNew key v) Ordered := by
  rw [Table.insertNew]
  split
  · exact .ok (h.insert hv)
  · exact .error _

/-- Changing the table that a path leads to keeps the order, if what is done there does. -/
theorem Ordered.change {α : Type} {Q : α → Prop} {dotted : Bool}
    {f : Table → Except (Placed Malformed) (α × Table)}
    (hf : ∀ t, Ordered t → Gives (f t) fun r => Q r.1 ∧ r.2.Ordered) (path : List Name)
    (h : t.Ordered) : Gives (t.change dotted f path) fun r => Q r.1 ∧ r.2.Ordered := by
  induction path generalizing t with
  | nil => exact hf t h
  | cons key path ih =>
    rw [Table.change]
    split
    · exact (ih (ordered_empty _ _)).bind fun r hr => .ok ⟨hr.1, h.insert hr.2.toValue⟩
    · rename_i span origin entries hget
      have hinner := ordered_iff.mp (h.get? hget)
      split
      · exact .error _
      · split
        · exact .error _
        · have hpassed : Ordered ⟨span, passed dotted origin, entries⟩ :=
            ⟨hinner.keys, hinner.values⟩
          exact (ih hpassed).bind fun r hr => .ok ⟨hr.1, h.insert hr.2.toValue⟩
    · rename_i span items hget
      have hitems := Value.ordered_array.mp (h.get? hget)
      split
      · rename_i last origin entries hlast
        have hinner := ordered_iff.mp (hitems _ (List.mem_of_getLast? hlast))
        refine (ih hinner).bind fun r hr => .ok ⟨hr.1, h.insert ?_⟩
        refine Value.ordered_array.mpr fun v hv => ?_
        rcases List.mem_append.mp hv with hv | hv
        · exact hitems v ((List.dropLast_sublist items).subset hv)
        · exact List.mem_singleton.mp hv ▸ hr.2.toValue
      · exact .error _
    · exact .error _

theorem Ordered.assign (h : t.Ordered) (path : List Name) (hv : v.Ordered) :
    Gives (t.assign path key v) Ordered := by
  rw [Table.assign]
  split
  · exact h.insertNew hv
  · refine (h.change (Q := fun _ => True) (fun inner hinner => ?_) path).bind fun r hr => .ok hr.2
    dsimp only
    split
    · exact .error _
    · exact (hinner.insertNew hv).bind fun inner' h' => .ok ⟨trivial, h'⟩

end Table

namespace Scalar

variable {span : Span}

/-- What is computed has no parts. -/
abbrev GivesSingle (x : Except (Placed Malformed) Value) : Prop := Gives x (·.isSingle = true)

theorem single_wholeNumber (signLength : Nat) (s : List Char) :
    GivesSingle (wholeNumber span signLength s) :=
  (Gives.any _).bind fun _ _ => (Gives.any _).bind fun _ _ => .ite (.ok rfl) (.ok rfl)

theorem single_float (signLength : Nat) (s : List Char) : GivesSingle (float span signLength s) :=
  (Gives.any _).bind fun _ _ => (Gives.any _).bind fun _ _ => (Gives.any _).bind fun _ _ =>
    .ite ((Gives.any _).bind fun _ _ => .ok rfl) (.error _)

theorem single_moment (s : List Char) : GivesSingle (moment span s) := by
  rw [moment]
  split
  · exact .ok rfl
  · exact .error _

theorem single_numeric (signLength : Nat) (s : List Char) :
    GivesSingle (numeric span signLength s) := by
  rw [numeric]
  split
  · exact single_wholeNumber _ _
  · exact .ite (single_moment s) (.ite (single_float _ _) (.ite (single_wholeNumber _ _) (.error _)))

theorem single_inRadix (signLength : Nat) (letter : Char) (r : Radix) (base : Nat)
    (digits : List Char) : GivesSingle (inRadix span signLength letter r base digits) :=
  .ite (.error _) (.ite (.error _) (.ite (.error _)
    ((Gives.any _).bind fun _ _ => (Gives.any _).bind fun _ _ => .ite (.ok rfl) (.ok rfl))))

theorem single_fromZero (signLength : Nat) (s : List Char) :
    GivesSingle (fromZero span signLength s) := by
  rw [fromZero]
  split
  · split
    · exact single_inRadix _ _ _ _ _
    · exact single_numeric _ _
  · exact single_numeric _ _

theorem single_word {v : Value} (hv : v.isSingle = true) (type known : String) (start : Nat)
    (s : List Char) : GivesSingle (word type known v start s) :=
  .ite (.ok hv) (.error _)

theorem single_afterSign (negative : Bool) (s : List Char) :
    GivesSingle (afterSign span negative s) := by
  rw [afterSign]
  split
  · exact .error _
  · exact .ite (.error _) (.ite (single_fromZero _ _) (.ite (single_numeric _ _)
      (.ite (single_float _ _) (.ite (single_word rfl _ _ _ _)
        (.ite (single_word rfl _ _ _ _) (.error _))))))

theorem single_value (s : List Char) : GivesSingle (value span s) := by
  have hknown : ∀ {v : Value} (type name : String), v.isSingle = true →
      GivesSingle (if s.contains ' ' then unquoted s else word type name v 0 s) :=
    fun _ _ hv => .ite (.error _) (single_word hv _ _ _ _)
  cases s with
  | nil => exact .error _
  | cons c rest =>
    exact .ite (single_afterSign _ _) (.ite (single_fromZero _ _) (.ite (single_numeric _ _)
      (.ite (single_float _ _) (.ite (hknown _ _ rfl) (.ite (hknown _ _ rfl)
        (.ite (hknown _ _ rfl) (.ite (hknown _ _ rfl) (.error _))))))))

end Scalar

theorem Word.gives_atStart {α : Type} {P : α → Prop} {x : Except (Placed Malformed) α} (w : Word)
    (h : Gives x P) : Gives (w.atStart x) P := by
  cases x with
  | ok a => exact .ok (h a rfl)
  | error why => exact .error _

theorem Word.ordered_toValue (w : Word) : Gives w.toValue Value.Ordered := by
  refine w.gives_atStart ?_
  split
  · exact fun v hv => .of_isSingle (Scalar.single_value _ v hv)
  · exact (Gives.any _).map fun _ _ => .of_isSingle rfl

mutual

theorem Node.ordered_toValue (n : Node) : Gives n.toValue Value.Ordered := by
  cases n with
  | single w => exact w.ordered_toValue
  | array span items =>
    rw [Node.toValue]
    exact (Node.ordered_itemValues items).bind fun vs hvs => .ok (Value.ordered_array.mpr hvs)
  | braces span entries =>
    rw [Node.toValue]
    exact (Node.ordered_fill entries (Table.ordered_empty _ _)).bind fun t ht => .ok ht.toValue

theorem Node.ordered_itemValues (items : List Node) :
    Gives (Node.itemValues items) fun vs => ∀ v ∈ vs, v.Ordered := by
  cases items with
  | nil => exact .ok fun v hv => absurd hv List.not_mem_nil
  | cons n rest =>
    rw [Node.itemValues]
    refine (Node.ordered_toValue n).bind fun v hv => (Node.ordered_itemValues rest).bind fun vs hvs => ?_
    exact .ok (List.forall_mem_cons.mpr ⟨hv, hvs⟩)

theorem Node.ordered_fill (entries : List (List Word × Node)) {t : Table} (h : t.Ordered) :
    Gives (Node.fill t entries) Table.Ordered := by
  cases entries with
  | nil => exact .ok h
  | cons e rest =>
    rw [Node.fill]
    refine (Gives.any _).bind fun r _ => ?_
    dsimp only
    refine (Node.ordered_toValue e.2).bind fun v hv => ?_
    exact (h.assign _ hv).bind fun t' h' => Node.ordered_fill rest h'

end

namespace Document

structure State.Ordered (s : State) : Prop where
  root : s.root.Ordered
  current : s.current.Ordered

variable {s : State}

theorem State.Ordered.finish (h : s.Ordered) : Gives s.finish Table.Ordered := by
  rw [State.finish]
  split
  · exact .ok h.current
  · refine (h.root.change (Q := fun _ => True) (fun parent hparent => ?_) _).map fun r hr => hr.2
    dsimp only
    split
    · split
      · refine .ok ⟨trivial, hparent.insert (Value.ordered_array.mpr fun v hv => ?_)⟩
        exact List.mem_singleton.mp hv ▸ h.current.toValue
      · rename_i hrows
        refine .ok ⟨trivial, hparent.insert (Value.ordered_array.mpr fun v hv => ?_)⟩
        rcases List.mem_append.mp hv with hv | hv
        · exact Value.ordered_array.mp (hparent.get? hrows) v hv
        · exact List.mem_singleton.mp hv ▸ h.current.toValue
      · exact .error _
    · exact .ok ⟨trivial, hparent.insert h.current.toValue⟩

theorem State.Ordered.enter (h : s.Ordered) (header : Header) : Gives (s.enter header) Ordered := by
  rw [State.enter]
  refine h.finish.bind fun root hroot => ?_
  refine (hroot.change (Q := Table.Ordered) (fun parent hparent => ?_) _).bind fun r hr =>
    .ok ⟨hr.2, hr.1⟩
  split
  · exact .ok ⟨Table.ordered_empty _ _, hparent⟩
  · exact .ok ⟨Table.ordered_empty _ _, hparent⟩
  · rename_i hheld _
    have hinner := Table.ordered_iff.mp (hparent.get? hheld)
    exact .ok ⟨⟨hinner.keys, hinner.values⟩, hparent.erase _⟩
  · exact .error _

theorem State.Ordered.perform (h : s.Ordered) (st : Statement) : Gives (s.perform st) Ordered := by
  cases st with
  | header span ofArray keys =>
    rw [State.perform]
    exact (Gives.any _).bind fun r _ => h.enter _
  | entry keys v =>
    rw [State.perform]
    refine (Gives.any _).bind fun r _ => (Node.ordered_toValue v).bind fun v hv => ?_
    exact (h.current.assign _ hv).bind fun t ht => .ok ⟨h.root, ht⟩

/-- In a document every table holds its keys in order, each of them once. -/
theorem ordered_parse (text : String) : Gives (parse text) Table.Ordered := by
  refine (Gives.any _).bind fun statements _ => ?_
  have hstart : (State.start ⟨0, text.utf8ByteSize⟩).Ordered :=
    ⟨Table.ordered_empty _ _, Table.ordered_empty _ _⟩
  exact (Gives.foldlM (fun s st h => h.perform st) hstart statements).bind fun s h => h.finish

end Document

end BracketLint.Toml
