import Mathlib.Data.List.Basic
import Mathlib.Logic.Function.Basic
import Mathlib.Tactic.Common

/-! # Reusable cells

A list view has a list of rows and lays some of them out in cells, which are numbered and used again.
Everything that refers to a cell by its number or to a row by its position may be out of date when it
is used.  Three records of a list view are kept apart:

* `Table`: which row a cell shows, and at which position it was laid out.  The list is replaced without
  a new layout; a cell is still current exactly if the newest list delivered since its layout has the
  same row at its position (`Table.Sound.current_iff`).
* `Board`: a mark per cell that observers of one set of keys keep up to date.  An observer belongs to a
  cell and a key, is never removed and gets its first event later.  A mark is what the newest event at
  its cell has set, possibly flipped since (`Board.Sound.value`).
* `Album`: a picture per cell that is loaded for what the cell shows and may arrive after the cell was
  used again (`Album.own_configure_self`, `Album.own_finish`), but not if no cell ever is
  (`Album.Faithful`).

Fields that are called history are written but never read by the operations. -/

namespace Cells

variable {α κ μ : Type}

/-! ### Rows and their positions -/

/-- What a cell shows: the row, and its position at the layout. -/
structure Row (α : Type) where
  tag : ℕ
  shown : α
  /-- History: the newest list delivered since the layout. -/
  newer : Option (List α)
deriving DecidableEq, Repr

structure Table (α : Type) where
  rows : List α
  /-- The visible cells. -/
  cells : ℕ → Option (Row α)

namespace Table

/-- No row and no visible cell. -/
def empty : Table α := ⟨[], fun _ => none⟩

variable (t : Table α)

/-- The list is replaced; the cells stay as they are. -/
def deliver (rows : List α) : Table α :=
  ⟨rows, fun k => (t.cells k).map fun c => { c with newer := some rows }⟩

/-- Cell `k` shows the row at position `i`. -/
def layOut (k i : ℕ) (shown : α) : Table α :=
  { t with cells := Function.update t.cells k (some ⟨i, shown, none⟩) }

/-- Cell `k` is no longer visible. -/
def hide (k : ℕ) : Table α := { t with cells := Function.update t.cells k none }

/-- The list holds the shown row, as far as its key tells, at the position of the cell. -/
def Current (key : α → κ) (c : Row α) : Prop :=
  (t.rows[c.tag]?).map key = some (key c.shown)

/-- Every cell was laid out from the list as it was then. -/
structure Sound : Prop where
  laidOut : ∀ k c, t.cells k = some c → c.newer = none → t.rows[c.tag]? = some c.shown
  newest : ∀ k c l, t.cells k = some c → c.newer = some l → t.rows = l

end Table

/-- The newest list since the layout, if there is one, has the shown row at the same position. -/
def Row.Kept (key : α → κ) (c : Row α) : Prop :=
  ∀ l ∈ c.newer, (l[c.tag]?).map key = some (key c.shown)

instance [DecidableEq κ] (key : α → κ) (c : Row α) : Decidable (c.Kept key) :=
  inferInstanceAs (Decidable (∀ l ∈ c.newer, _))

namespace Table

variable {t : Table α} {k : ℕ} {c : Row α}

theorem sound_empty : (empty : Table α).Sound := by
  constructor
  · intro k c hc
    cases hc
  · intro k c l hc
    cases hc

theorem sound_deliver (t : Table α) (rows : List α) : (t.deliver rows).Sound := by
  constructor
  · intro k c hc hnone
    obtain ⟨c', -, rfl⟩ := Option.map_eq_some_iff.mp hc
    cases hnone
  · intro k c l hc hl
    obtain ⟨c', -, rfl⟩ := Option.map_eq_some_iff.mp hc
    exact Option.some.inj hl

theorem layOut_cells {i : ℕ} {shown : α} {k' : ℕ} (h : (t.layOut k i shown).cells k' = some c) :
    c = ⟨i, shown, none⟩ ∧ k' = k ∨ k' ≠ k ∧ t.cells k' = some c := by
  by_cases hk : k' = k
  · left
    simp only [layOut, hk, Function.update_self] at h
    exact ⟨(Option.some.inj h).symm, hk⟩
  · right
    simp only [layOut, Function.update_of_ne hk] at h
    exact ⟨hk, h⟩

theorem hide_cells {k' : ℕ} (h : (t.hide k).cells k' = some c) : t.cells k' = some c := by
  by_cases hk : k' = k
  · simp only [hide, hk, Function.update_self] at h
    cases h
  · simp only [hide, Function.update_of_ne hk] at h
    exact h

theorem Sound.layOut (ht : t.Sound) {i : ℕ} {shown : α} (hi : t.rows[i]? = some shown) (k : ℕ) :
    (t.layOut k i shown).Sound := by
  constructor
  · intro k' c hc hnone
    rcases layOut_cells hc with ⟨rfl, -⟩ | ⟨-, hc⟩
    · exact hi
    · exact ht.laidOut k' c hc hnone
  · intro k' c l hc hl
    rcases layOut_cells hc with ⟨rfl, -⟩ | ⟨-, hc⟩
    · cases hl
    · exact ht.newest k' c l hc hl

theorem Sound.hide (ht : t.Sound) (k : ℕ) : (t.hide k).Sound := by
  constructor
  · intro k' c hc
    exact ht.laidOut k' c (hide_cells hc)
  · intro k' c l hc
    exact ht.newest k' c l (hide_cells hc)

/-- A cell is current exactly if the newest list since its layout has kept its row. -/
theorem Sound.current_iff (ht : t.Sound) (hc : t.cells k = some c) (key : α → κ) :
    t.Current key c ↔ c.Kept key := by
  unfold Current Row.Kept
  cases hnewer : c.newer with
  | none =>
      rw [ht.laidOut k c hc hnewer]
      simp
  | some l =>
      rw [ht.newest k c l hc hnewer]
      simp

end Table

/-! ### Marks and their observers -/

/-- An observer that marks a cell by whether its key is among the observed ones. -/
structure Observer (κ : Type) where
  cell : ℕ
  key : κ
deriving DecidableEq, Repr

structure Mark (κ : Type) where
  value : Bool
  /-- History: the key of the observer that has set the mark last. -/
  source : Option κ
  /-- History: an odd number of flips since. -/
  flipped : Bool
deriving DecidableEq, Repr

structure Board (κ : Type) where
  /-- The observers that have had their first event, in the order of registration. -/
  observers : List (Observer κ)
  /-- The observers that wait for it. -/
  waiting : List (Observer κ)
  /-- The newest set of keys that was delivered. -/
  snapshot : Option (List κ)
  marks : ℕ → Mark κ

/-- What the newest event at a mark says about it; an event says that its key is in the set. -/
def Mark.reading (contains : κ → Bool) (m : Mark κ) : Bool := xor (m.source.any contains) m.flipped

namespace Board

/-- No observer, no key, and all marks unset. -/
def empty : Board κ := ⟨[], [], none, fun _ => ⟨false, none, false⟩⟩

variable [DecidableEq κ] (b : Board κ)

/-- The newest set of keys has `key`. -/
def contains (key : κ) : Bool := b.snapshot.any (key ∈ ·)

/-- An event at the observer `o`. -/
def fire (keys : List κ) (marks : ℕ → Mark κ) (o : Observer κ) : ℕ → Mark κ :=
  Function.update marks o.cell ⟨decide (o.key ∈ keys), some o.key, false⟩

/-- A new observer waits for its first event. -/
def observe (k : ℕ) (key : κ) : Board κ := { b with waiting := b.waiting ++ [⟨k, key⟩] }

/-- A new set of keys reaches the observers in their order. -/
def deliver (keys : List κ) : Board κ :=
  { b with snapshot := some keys, marks := b.observers.foldl (fire keys) b.marks }

/-- The first event of the oldest observer that waits for one. -/
def first : Option (Board κ) :=
  match b.waiting, b.snapshot with
  | o :: waiting, some keys => some { b with
      observers := b.observers ++ [o], waiting := waiting, marks := fire keys b.marks o }
  | _, _ => none

/-- Mark `k` is set by hand. -/
def press (k : ℕ) (value : Bool) : Board κ :=
  { b with marks := Function.update b.marks k { b.marks k with
      value := value, flipped := xor (b.marks k).flipped (xor (b.marks k).value value) } }

/-- A mark is what the newest event at its cell says, and a cell that had an event keeps getting them. -/
structure Sound : Prop where
  value : ∀ k, (b.marks k).value = (b.marks k).reading b.contains
  observed : ∀ k, (b.marks k).source ≠ none → ∃ o ∈ b.observers, o.cell = k

variable {b}

theorem sound_empty : (empty : Board κ).Sound := by
  constructor
  · intro k
    rfl
  · intro k hk
    exact absurd rfl hk

theorem Sound.observe (hb : b.Sound) (k : ℕ) (key : κ) : (b.observe k key).Sound :=
  ⟨hb.value, hb.observed⟩

theorem marks_deliver (keys : List κ) :
    (b.deliver keys).marks = b.observers.foldl (fire keys) b.marks := rfl

theorem contains_deliver (keys : List κ) : (b.deliver keys).contains = fun key => decide (key ∈ keys) :=
  rfl

theorem foldl_fire (keys : List κ) (k : ℕ) : ∀ (observers : List (Observer κ)) (marks : ℕ → Mark κ),
    (∃ o ∈ observers, o.cell = k ∧
      observers.foldl (fire keys) marks k = ⟨decide (o.key ∈ keys), some o.key, false⟩) ∨
      (∀ o ∈ observers, o.cell ≠ k) ∧ observers.foldl (fire keys) marks k = marks k
  | [], marks => Or.inr ⟨by simp, rfl⟩
  | o :: observers, marks => by
      rw [List.foldl_cons]
      rcases foldl_fire keys k observers (fire keys marks o) with ⟨o', ho', hk, heq⟩ | ⟨hne, heq⟩
      · exact Or.inl ⟨o', List.mem_cons_of_mem o ho', hk, heq⟩
      · by_cases hk : o.cell = k
        · refine Or.inl ⟨o, List.mem_cons_self, hk, ?_⟩
          rw [heq, fire, hk, Function.update_self]
        · refine Or.inr ⟨?_, ?_⟩
          · intro o' ho'
            rcases List.mem_cons.mp ho' with rfl | ho'
            · exact hk
            · exact hne o' ho'
          · rw [heq, fire, Function.update_of_ne (Ne.symm hk)]

theorem Sound.deliver (hb : b.Sound) (keys : List κ) : (b.deliver keys).Sound := by
  constructor
  · intro k
    rw [marks_deliver, contains_deliver]
    rcases foldl_fire keys k b.observers b.marks with ⟨o, -, -, heq⟩ | ⟨hne, heq⟩
    · rw [heq]
      simp [Mark.reading]
    · -- no event has ever reached this cell
      have hsource : (b.marks k).source = none := by
        by_contra hsome
        obtain ⟨o, ho, hk⟩ := hb.observed k hsome
        exact hne o ho hk
      rw [heq, hb.value k]
      unfold Mark.reading
      rw [hsource]
      rfl
  · intro k hk
    rw [marks_deliver] at hk
    rcases foldl_fire keys k b.observers b.marks with ⟨o, ho, hcell, -⟩ | ⟨-, heq⟩
    · exact ⟨o, ho, hcell⟩
    · rw [heq] at hk
      exact hb.observed k hk

theorem Sound.first {b' : Board κ} (hb : b.Sound) (h : b.first = some b') : b'.Sound := by
  unfold Board.first at h
  split at h
  case h_2 => cases h
  case h_1 o waiting keys hwaiting hsnapshot =>
    obtain rfl := Option.some.inj h
    constructor
    · intro k
      unfold Mark.reading contains fire
      by_cases hk : k = o.cell
      · rw [hk]
        simp [hsnapshot]
      · simp only [Function.update_of_ne hk]
        exact hb.value k
    · intro k hk
      unfold fire at hk
      by_cases hcell : k = o.cell
      · exact ⟨o, by simp, hcell.symm⟩
      · simp only [Function.update_of_ne hcell] at hk
        obtain ⟨o', ho', hk'⟩ := hb.observed k hk
        exact ⟨o', List.mem_append_left _ ho', hk'⟩

theorem Sound.press (hb : b.Sound) (k : ℕ) (value : Bool) : (b.press k value).Sound := by
  have hpress : ∀ k', ((b.press k value).marks k').source = (b.marks k').source := by
    intro k'
    unfold Board.press
    by_cases hk : k' = k
    · rw [hk]
      simp
    · simp [Function.update_of_ne hk]
  constructor
  · intro k'
    have hvalue := hb.value k'
    unfold Mark.reading at hvalue ⊢
    by_cases hk : k' = k
    · subst hk
      unfold Board.press contains
      simp only [Function.update_self]
      rw [hvalue]
      unfold contains
      cases (b.marks k').source.any fun key => b.snapshot.any (key ∈ ·) <;>
        cases (b.marks k').flipped <;> cases value <;> rfl
    · unfold Board.press contains
      simp only [Function.update_of_ne hk]
      exact hvalue
  · intro k' hk'
    rw [hpress] at hk'
    exact hb.observed k' hk'

end Board

/-! ### Pictures on their way -/

structure Album (μ : Type) where
  /-- The picture in each cell; `none` is a default picture. -/
  shown : ℕ → Option μ
  /-- The picture of what each cell shows, if it has one. -/
  wanted : ℕ → Option μ
  /-- History: the wanted picture has arrived since the cell was configured. -/
  arrived : ℕ → Bool
  /-- The pictures on their way, with the cells that they will be set in. -/
  loads : List (ℕ × μ)

namespace Album

/-- Default pictures everywhere. -/
def empty : Album μ := ⟨fun _ => none, fun _ => none, fun _ => false, []⟩

variable (a : Album μ)

/-- Cell `k` is configured for something with the picture `u`: without one the default picture is set,
otherwise the loading starts and the old picture stays. -/
def configure (k : ℕ) : Option μ → Album μ
  | none => { a with
      shown := Function.update a.shown k none
      wanted := Function.update a.wanted k none
      arrived := Function.update a.arrived k false }
  | some u => { a with
      wanted := Function.update a.wanted k (some u)
      arrived := Function.update a.arrived k false
      loads := a.loads ++ [(k, u)] }

/-- The picture `x.2` has arrived and is set in the cell `x.1`. -/
def arrive [DecidableEq μ] (x : ℕ × μ) : Album μ :=
  { a with
    shown := Function.update a.shown x.1 (some x.2)
    arrived := Function.update a.arrived x.1 (a.arrived x.1 || decide (a.wanted x.1 = some x.2)) }

/-- The `i`-th loading ends. -/
def finish [DecidableEq μ] (i : ℕ) (ok : Bool) : Option (Album μ) := do
  let x ← a.loads[i]?
  let a := { a with loads := a.loads.eraseIdx i }
  some (if ok then a.arrive x else a)

/-- Cell `k` has the default picture or its own, and its own once that has arrived. -/
structure Own (k : ℕ) : Prop where
  shown : a.shown k = none ∨ a.shown k = a.wanted k
  arrived : a.arrived k = true → a.shown k = a.wanted k

/-- A cell may be configured for a picture while it has the default picture or that one. -/
def MayConfigure (k : ℕ) (u : Option μ) : Prop :=
  ∀ v ∈ u, a.shown k = none ∨ a.shown k = some v

/-- A visible cell may get a picture that it wants. -/
def MayFinish (visible : ℕ → Prop) (i : ℕ) (ok : Bool) : Prop :=
  ok = true → ∀ x ∈ a.loads[i]?, visible x.1 → a.wanted x.1 = some x.2

variable {a} {k : ℕ}

theorem wanted_configure_self {u : Option μ} : (a.configure k u).wanted k = u := by
  cases u <;> simp [configure]

theorem wanted_configure_of_ne {u : Option μ} {k' : ℕ} (hk : k' ≠ k) :
    (a.configure k u).wanted k' = a.wanted k' := by
  cases u <;> simp [configure, hk]

theorem wanted_finish [DecidableEq μ] {a' : Album μ} {i : ℕ} {ok : Bool}
    (h : a.finish i ok = some a') : a'.wanted = a.wanted := by
  obtain ⟨x, -, h⟩ := Option.bind_eq_some_iff.mp h
  obtain rfl := Option.some.inj h
  split_ifs <;> rfl

theorem own_congr {a' : Album μ} (hshown : a'.shown k = a.shown k) (hwanted : a'.wanted k = a.wanted k)
    (harrived : a'.arrived k = a.arrived k) : a'.Own k ↔ a.Own k := by
  constructor
  · intro h
    refine ⟨?_, ?_⟩
    · rw [← hshown, ← hwanted]
      exact h.shown
    · rw [← hshown, ← hwanted, ← harrived]
      exact h.arrived
  · intro h
    refine ⟨?_, ?_⟩
    · rw [hshown, hwanted]
      exact h.shown
    · rw [hshown, hwanted, harrived]
      exact h.arrived

theorem own_configure_self {u : Option μ} : (a.configure k u).Own k ↔ a.MayConfigure k u := by
  unfold MayConfigure
  cases u with
  | none =>
      constructor
      · intro _ v hv
        cases hv
      · intro _
        exact ⟨by simp [configure], by simp [configure]⟩
  | some u =>
      constructor
      · intro h v hv
        obtain rfl := Option.some.inj hv
        simpa [configure] using h.shown
      · intro h
        have hshown := h u rfl
        exact ⟨by simpa [configure] using hshown, by simp [configure]⟩

theorem own_configure_of_ne {u : Option μ} {k' : ℕ} (hk : k' ≠ k) :
    (a.configure k u).Own k' ↔ a.Own k' := by
  cases u <;> exact own_congr (by simp [configure, hk]) (by simp [configure, hk]) (by simp [configure, hk])

theorem own_arrive_self [DecidableEq μ] (x : ℕ × μ) : (a.arrive x).Own x.1 ↔ a.wanted x.1 = some x.2 := by
  constructor
  · intro h
    simpa [arrive, eq_comm] using h.shown
  · intro h
    exact ⟨by simp [arrive, h], by simp [arrive, h]⟩

theorem own_arrive_of_ne [DecidableEq μ] (x : ℕ × μ) (hk : k ≠ x.1) : (a.arrive x).Own k ↔ a.Own k :=
  own_congr (by simp [arrive, hk]) rfl (by simp [arrive, hk])

/-- The end of a loading matters to the cell of a picture that arrives. -/
theorem own_finish [DecidableEq μ] {a' : Album μ} {i : ℕ} {ok : Bool} {x : ℕ × μ}
    (hx : a.loads[i]? = some x) (h : a.finish i ok = some a') :
    a'.Own k ↔ if ok = true ∧ k = x.1 then a.wanted x.1 = some x.2 else a.Own k := by
  have hloads : ∀ loads, ({ a with loads := loads } : Album μ).Own k ↔ a.Own k := by
    intro loads
    exact own_congr rfl rfl rfl
  obtain ⟨y, hy, h⟩ := Option.bind_eq_some_iff.mp h
  obtain rfl := Option.some.inj (hx.symm.trans hy)
  obtain rfl := Option.some.inj h
  cases ok with
  | false => simpa using hloads _
  | true =>
      by_cases hk : k = x.1
      · subst hk
        simpa using own_arrive_self x
      · simp only [if_true, true_and, hk, if_false]
        rw [own_arrive_of_ne x hk, hloads]

/-- Every picture on its way is wanted where it will be set, and every cell has its own. -/
structure Faithful (a : Album μ) : Prop where
  loads : ∀ x ∈ a.loads, a.wanted x.1 = some x.2
  own : ∀ k, a.Own k

theorem Faithful.empty : (empty : Album μ).Faithful where
  loads x hx := by cases hx
  own k := ⟨Or.inl rfl, fun _ => rfl⟩

theorem Faithful.configure (h : a.Faithful) (hshown : a.shown k = none) (hloads : ∀ x ∈ a.loads, x.1 ≠ k)
    (u : Option μ) : (a.configure k u).Faithful := by
  constructor
  · intro x hx
    have hcases : x ∈ a.loads ∨ u = some x.2 ∧ x.1 = k := by
      cases u with
      | none => exact Or.inl hx
      | some v =>
          rcases List.mem_append.mp hx with hx | hx
          · exact Or.inl hx
          · obtain rfl := List.mem_singleton.mp hx
            exact Or.inr ⟨rfl, rfl⟩
    rcases hcases with hx | ⟨rfl, rfl⟩
    · rw [wanted_configure_of_ne (hloads x hx)]
      exact h.loads x hx
    · exact wanted_configure_self
  · intro k'
    by_cases hk : k' = k
    · subst hk
      exact own_configure_self.mpr fun _ _ => Or.inl hshown
    · exact (own_configure_of_ne hk).mpr (h.own k')

theorem Faithful.finish [DecidableEq μ] {a' : Album μ} (h : a.Faithful) {i : ℕ} {ok : Bool}
    (hf : a.finish i ok = some a') : a'.Faithful ∧ ∀ x ∈ a'.loads, x ∈ a.loads := by
  obtain ⟨x, hx, he⟩ := Option.bind_eq_some_iff.mp hf
  have hwanted := wanted_finish hf
  have hloads : a'.loads = a.loads.eraseIdx i := by
    obtain rfl := Option.some.inj he
    cases ok <;> rfl
  have hsub : ∀ y ∈ a'.loads, y ∈ a.loads := by
    intro y hy
    rw [hloads] at hy
    exact List.mem_of_mem_eraseIdx hy
  refine ⟨⟨?_, ?_⟩, hsub⟩
  · intro y hy
    rw [hwanted]
    exact h.loads y (hsub y hy)
  · intro k'
    rw [own_finish hx hf]
    split_ifs
    · exact h.loads x (List.mem_of_getElem? hx)
    · exact h.own k'

end Album

end Cells
