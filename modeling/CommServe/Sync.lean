import CommServe.RecordStore

/-! # A store shared by devices with writes in flight

The server holds one store.  A device issues a write without waiting for it: the write is in
flight until the server applies it (`deliver`) or refuses it (`reject`), and until then the
issuing device sees its own effect already.  `inFlight` lists the writes in flight of all devices
in the order of issue; which one is handled next is free, so a run may reorder them arbitrarily,
and `InOrder` singles out the deliveries that respect the order of issue of each device.

What a device reads is a server state it was sent, current or earlier, with its own writes in
flight applied on top (`view`); `past` keeps the earlier server states for that purpose.

`Net.Sound good ok` says that every record the server has or had satisfies `good` and that every
write in flight satisfies `ok`.  When writes satisfying `ok` keep `good`, everything a device can
read satisfies `good` as well (`Net.Sound.view`). -/

namespace Sync

open RecordStore

variable {κ φ ν : Type}

/-- The server and the writes in flight, each with the device that issued it. -/
structure Net (κ φ ν : Type) where
  db : Store κ φ ν
  past : List (Store κ φ ν)
  inFlight : List (ℕ × Write κ φ ν)

namespace Net

/-- An empty server, nothing in flight. -/
def empty : Net κ φ ν := ⟨Store.empty, [], []⟩

/-- No write is in flight. -/
def Quiescent (n : Net κ φ ν) : Prop := n.inFlight = []

instance (n : Net κ φ ν) : Decidable n.Quiescent :=
  decidable_of_iff (n.inFlight.isEmpty = true) List.isEmpty_iff

/-- Device `c` issues the writes `ws`. -/
def issue (n : Net κ φ ν) (c : ℕ) (ws : List (Write κ φ ν)) : Net κ φ ν :=
  { n with inFlight := n.inFlight ++ ws.map (fun w => (c, w)) }

/-- The writes in flight of device `c`, in the order of issue. -/
def pending (n : Net κ φ ν) (c : ℕ) : List (Write κ φ ν) :=
  n.inFlight.filterMap (fun x => if x.1 = c then some x.2 else none)

/-- The write is in flight. -/
def Flying (n : Net κ φ ν) (x : Write κ φ ν) : Prop := ∃ c, (c, x) ∈ n.inFlight

/-- The server refuses the `i`-th write in flight. -/
def reject (n : Net κ φ ν) (i : ℕ) : Option (Net κ φ ν) :=
  (n.inFlight[i]?).map fun _ => { n with inFlight := n.inFlight.eraseIdx i }

/-- The `i`-th write in flight is the first one of its device. -/
def InOrder (n : Net κ φ ν) (i : ℕ) : Prop :=
  ∀ x ∈ n.inFlight.take i, (n.inFlight[i]?).map Prod.fst ≠ some x.1

instance (n : Net κ φ ν) (i : ℕ) : Decidable (n.InOrder i) :=
  inferInstanceAs (Decidable (∀ x ∈ n.inFlight.take i, (n.inFlight[i]?).map Prod.fst ≠ some x.1))

/-! ### Shapes of the operations -/

theorem mem_issue {n : Net κ φ ν} {c : ℕ} {ws : List (Write κ φ ν)} {x : ℕ × Write κ φ ν} :
    x ∈ (n.issue c ws).inFlight ↔ x ∈ n.inFlight ∨ (x.1 = c ∧ x.2 ∈ ws) := by
  simp only [issue, List.mem_append, List.mem_map]
  constructor
  · rintro (h | ⟨w, hw, rfl⟩)
    · exact Or.inl h
    · exact Or.inr ⟨rfl, hw⟩
  · rintro (h | ⟨rfl, hw⟩)
    · exact Or.inl h
    · exact Or.inr ⟨x.2, hw, rfl⟩

theorem mem_pending {n : Net κ φ ν} {c : ℕ} {w : Write κ φ ν} :
    w ∈ n.pending c ↔ (c, w) ∈ n.inFlight := by
  simp only [pending, List.mem_filterMap, Option.ite_none_right_eq_some, Option.some.injEq]
  constructor
  · rintro ⟨x, hx, rfl, rfl⟩; exact hx
  · intro h; exact ⟨_, h, rfl, rfl⟩

theorem pending_issue (n : Net κ φ ν) (c c' : ℕ) (ws : List (Write κ φ ν)) :
    (n.issue c ws).pending c' = n.pending c' ++ if c' = c then ws else [] := by
  simp only [pending, issue, List.filterMap_append, List.filterMap_map]
  congr 1
  by_cases h : c' = c
  · subst h; simp
  · simp [h, Ne.symm h]

theorem flying_issue {n : Net κ φ ν} {c : ℕ} {ws : List (Write κ φ ν)} {x : Write κ φ ν} :
    (n.issue c ws).Flying x ↔ n.Flying x ∨ x ∈ ws := by
  simp only [Flying, mem_issue, exists_or]
  constructor
  · rintro (h | ⟨_, rfl, h⟩)
    · exact Or.inl h
    · exact Or.inr h
  · rintro (h | h)
    · exact Or.inl h
    · exact Or.inr ⟨c, rfl, h⟩

theorem Quiescent.not_flying {n : Net κ φ ν} (h : n.Quiescent) (x : Write κ φ ν) : ¬ n.Flying x := by
  rintro ⟨c, hx⟩
  rw [show n.inFlight = [] from h] at hx
  cases hx

theorem Quiescent.pending {n : Net κ φ ν} (h : n.Quiescent) (c : ℕ) : n.pending c = [] := by
  rw [Net.pending, show n.inFlight = [] from h]
  rfl

theorem eraseIdx_of_getElem? {α : Type} {l : List α} {i : ℕ} {x : α} (h : l[i]? = some x) :
    ∃ l₁ l₂, l = l₁ ++ x :: l₂ ∧ l₁.length = i ∧ l.eraseIdx i = l₁ ++ l₂ := by
  obtain ⟨hi, rfl⟩ := List.getElem?_eq_some_iff.mp h
  refine ⟨l.take i, l.drop (i + 1), ?_, by simp; omega, List.eraseIdx_eq_take_drop_succ l i⟩
  rw [List.getElem_cons_drop hi, List.take_append_drop]

theorem reject_eq_some {n n' : Net κ φ ν} {i : ℕ} (h : n.reject i = some n') :
    ∃ l₁ x l₂, n.inFlight = l₁ ++ x :: l₂ ∧ n' = { n with inFlight := l₁ ++ l₂ } := by
  obtain ⟨x, hx, rfl⟩ := Option.map_eq_some_iff.mp h
  obtain ⟨l₁, l₂, hl, -, he⟩ := eraseIdx_of_getElem? hx
  exact ⟨l₁, x, l₂, hl, by rw [he]⟩

theorem flying_split {n n' : Net κ φ ν} {l₁ l₂ : List (ℕ × Write κ φ ν)} {x : ℕ × Write κ φ ν}
    (hl : n.inFlight = l₁ ++ x :: l₂) (hl' : n'.inFlight = l₁ ++ l₂) :
    n.Flying x.2 ∧ (∀ y, n'.Flying y → n.Flying y) ∧ ∀ y, n.Flying y → y = x.2 ∨ n'.Flying y := by
  have hx : (x.1, x.2) ∈ n.inFlight := by simp [hl]
  refine ⟨⟨x.1, hx⟩, ?_, ?_⟩
  · rintro y ⟨d, hd⟩
    refine ⟨d, ?_⟩
    rw [hl'] at hd
    rw [hl]
    rcases List.mem_append.mp hd with hd | hd
    · exact List.mem_append_left _ hd
    · exact List.mem_append_right _ (List.mem_cons_of_mem _ hd)
  · rintro y ⟨d, hd⟩
    rw [hl] at hd
    rcases List.mem_append.mp hd with hd | hd
    · exact Or.inr ⟨d, hl' ▸ List.mem_append_left _ hd⟩
    · rcases List.mem_cons.mp hd with he | hd
      · exact Or.inl (congrArg Prod.snd he)
      · exact Or.inr ⟨d, hl' ▸ List.mem_append_right _ hd⟩

theorem reject_flying {n n' : Net κ φ ν} {i : ℕ} (h : n.reject i = some n') :
    ∃ x, (n.inFlight[i]?).map Prod.snd = some x ∧ n'.db = n.db ∧
      (∀ y, n'.Flying y → n.Flying y) ∧ ∀ y, n.Flying y → y = x ∨ n'.Flying y := by
  obtain ⟨x, hx, rfl⟩ := Option.map_eq_some_iff.mp h
  obtain ⟨l₁, l₂, hl, -, he⟩ := eraseIdx_of_getElem? hx
  obtain ⟨-, hsub, hrest⟩ := flying_split hl
    (show ({ n with inFlight := n.inFlight.eraseIdx i } : Net κ φ ν).inFlight = _ from he)
  exact ⟨x.2, by rw [hx]; rfl, rfl, hsub, hrest⟩

theorem InOrder.not_mem {n : Net κ φ ν} {l₁ l₂ : List (ℕ × Write κ φ ν)} {x : ℕ × Write κ φ ν}
    (h : n.InOrder l₁.length) (hl : n.inFlight = l₁ ++ x :: l₂) : ∀ y ∈ l₁, y.1 ≠ x.1 := by
  intro y hy e
  refine h y ?_ ?_
  · rw [hl]; simpa using hy
  · rw [hl]; simp [e]

/-! ### Records and writes of a known form -/

/-- Every record the server has or had is `good`, every write in flight is `ok`. -/
structure Sound (good : κ → Record φ ν → Prop) (ok : Write κ φ ν → Prop) (n : Net κ φ ν) :
    Prop where
  db : n.db.All good
  past : ∀ s ∈ n.past, s.All good
  inFlight : ∀ x ∈ n.inFlight, ok x.2

variable {good good' : κ → Record φ ν → Prop} {ok ok' : Write κ φ ν → Prop} {n n' : Net κ φ ν}

theorem Sound.mono (h : n.Sound good ok) (hg : ∀ k r, good k r → good' k r)
    (ho : ∀ w, ok w → ok' w) : n.Sound good' ok' :=
  ⟨h.db.mono hg, fun s hs => (h.past s hs).mono hg, fun x hx => ho _ (h.inFlight x hx)⟩

theorem Sound.both (h : n.Sound good ok) (h' : n.Sound good' ok') :
    n.Sound (fun k r => good k r ∧ good' k r) (fun w => ok w ∧ ok' w) where
  db k := ⟨h.db k, h'.db k⟩
  past s hs k := ⟨h.past s hs k, h'.past s hs k⟩
  inFlight x hx := ⟨h.inFlight x hx, h'.inFlight x hx⟩

theorem Sound.issue (h : n.Sound good ok) {c : ℕ} {ws : List (Write κ φ ν)}
    (hw : ∀ w ∈ ws, ok w) : (n.issue c ws).Sound good ok := by
  refine ⟨h.db, h.past, ?_⟩
  intro x hx
  rcases mem_issue.mp hx with hx | ⟨-, hx⟩
  · exact h.inFlight x hx
  · exact hw _ hx

theorem Sound.reject (h : n.Sound good ok) {i : ℕ} (hd : n.reject i = some n') :
    n'.Sound good ok := by
  obtain ⟨l₁, x, l₂, hl, rfl⟩ := reject_eq_some hd
  refine ⟨h.db, h.past, ?_⟩
  intro y hy
  refine h.inFlight y ?_
  rw [hl]
  rcases List.mem_append.mp hy with hy | hy
  · exact List.mem_append_left _ hy
  · exact List.mem_append_right _ (List.mem_cons_of_mem _ hy)

/-! ### Deliveries and views -/

variable [DecidableEq κ] [DecidableEq φ]

/-- The server applies the `i`-th write in flight. -/
def deliver (n : Net κ φ ν) (i : ℕ) : Option (Net κ φ ν) :=
  (n.inFlight[i]?).map fun x =>
    { db := n.db.apply x.2, past := n.db :: n.past, inFlight := n.inFlight.eraseIdx i }

/-- What device `c` sees of the `k`-th latest server state. -/
def view (n : Net κ φ ν) (c k : ℕ) : Option (Store κ φ ν) :=
  ((n.db :: n.past)[k]?).map (fun base => base.applyAll (n.pending c))

theorem view_zero (n : Net κ φ ν) (c : ℕ) : n.view c 0 = some (n.db.applyAll (n.pending c)) := rfl

/-- A delivery takes one write out of the flight and applies it. -/
theorem deliver_eq_some {n n' : Net κ φ ν} {i : ℕ} (h : n.deliver i = some n') :
    ∃ l₁ x l₂, n.inFlight = l₁ ++ x :: l₂ ∧ l₁.length = i ∧
      n' = ⟨n.db.apply x.2, n.db :: n.past, l₁ ++ l₂⟩ := by
  obtain ⟨x, hx, rfl⟩ := Option.map_eq_some_iff.mp h
  obtain ⟨l₁, l₂, hl, hi, he⟩ := eraseIdx_of_getElem? hx
  exact ⟨l₁, x, l₂, hl, hi, by rw [he]⟩

theorem deliver_flying {n n' : Net κ φ ν} {i : ℕ} (h : n.deliver i = some n') :
    ∃ x, n.Flying x ∧ n'.db = n.db.apply x ∧ (∀ y, n'.Flying y → n.Flying y) ∧
      ∀ y, n.Flying y → y = x ∨ n'.Flying y := by
  obtain ⟨l₁, x, l₂, hl, -, rfl⟩ := deliver_eq_some h
  obtain ⟨hx, hrest⟩ := flying_split hl
    (show (Net.mk (n.db.apply x.2) (n.db :: n.past) (l₁ ++ l₂)).inFlight = _ from rfl)
  exact ⟨x.2, hx, rfl, hrest⟩

/-- What a device sees is built on the current server state or an earlier one. -/
theorem view_eq_some {n : Net κ φ ν} {c k : ℕ} {v : Store κ φ ν} (h : n.view c k = some v) :
    ∃ base, (base = n.db ∨ base ∈ n.past) ∧ v = base.applyAll (n.pending c) := by
  obtain ⟨base, hb, rfl⟩ := Option.map_eq_some_iff.mp h
  exact ⟨base, List.mem_cons.mp (List.mem_of_getElem? hb), rfl⟩

theorem Sound.deliver (hk : ∀ w, ok w → w.Keeps good) (h : n.Sound good ok) {i : ℕ}
    (hd : n.deliver i = some n') : n'.Sound good ok := by
  obtain ⟨l₁, x, l₂, hl, -, rfl⟩ := deliver_eq_some hd
  have hx : ok x.2 := h.inFlight x (by rw [hl]; simp)
  refine ⟨Store.all_apply h.db (hk _ hx), ?_, ?_⟩
  · intro s hs
    rcases List.mem_cons.mp hs with rfl | hs
    · exact h.db
    · exact h.past s hs
  · intro y hy
    refine h.inFlight y ?_
    rw [hl]
    rcases List.mem_append.mp hy with hy | hy
    · exact List.mem_append_left _ hy
    · exact List.mem_append_right _ (List.mem_cons_of_mem _ hy)

/-- **Everything a device can read is `good`.** -/
theorem Sound.view (hk : ∀ w, ok w → w.Keeps good) (h : n.Sound good ok) {c k : ℕ}
    {v : Store κ φ ν} (hv : n.view c k = some v) : v.All good := by
  obtain ⟨base, hb, rfl⟩ := view_eq_some hv
  have hpending : ∀ w ∈ n.pending c, w.Keeps good := by
    intro w hw
    exact hk w (h.inFlight _ (mem_pending.mp hw))
  refine Store.all_applyAll hpending ?_
  rcases hb with rfl | hb
  · exact h.db
  · exact h.past _ hb

/-! ### One leaf

Seen from one leaf the writes in flight are values on the way to it, and the newest of them is the
value the leaf is going to have, unless it overtakes an older one. -/

/-- What a write in flight does to the leaf `f` of the record of `k`. -/
def leafEffect (k : κ) (f : φ) (x : ℕ × Write κ φ ν) : Option (Option ν) := x.2.effectAt k f

/-- The values on their way to the leaf. -/
def effects (n : Net κ φ ν) (k : κ) (f : φ) : List (Option ν) :=
  n.inFlight.filterMap (leafEffect k f)

/-- The newest value of the leaf. -/
def latest (n : Net κ φ ν) (k : κ) (f : φ) : Option ν :=
  (n.effects k f).getLastD (n.db.node k f)

/-- The `i`-th write in flight is the newest one on the leaf, but not the only one. -/
def Overtakes (n : Net κ φ ν) (i : ℕ) (k : κ) (f : φ) : Prop :=
  ((n.inFlight[i]?).bind (leafEffect k f)).isSome = true ∧
    (∀ x ∈ n.inFlight.drop (i + 1), leafEffect k f x = none) ∧
    ∃ x ∈ n.inFlight.take i, leafEffect k f x ≠ none

instance [DecidableEq ν] (n : Net κ φ ν) (i : ℕ) (k : κ) (f : φ) : Decidable (n.Overtakes i k f) :=
  inferInstanceAs (Decidable (_ ∧ _ ∧ _))

variable {k : κ} {f : φ}

theorem latest_of_quiescent (h : n.Quiescent) (k : κ) (f : φ) : n.latest k f = n.db.node k f := by
  rw [latest, effects, show n.inFlight = [] from h]
  rfl

theorem getLastD_append {α : Type} (l₁ l₂ : List α) (d : α) :
    (l₁ ++ l₂).getLastD d = l₂.getLastD (l₁.getLastD d) := by
  induction l₁ generalizing d with
  | nil => rfl
  | cons a l₁ ih => rw [List.cons_append, List.getLastD_cons, List.getLastD_cons, ih]

theorem effects_issue (n : Net κ φ ν) (c : ℕ) (ws : List (Write κ φ ν)) (k : κ) (f : φ) :
    (n.issue c ws).effects k f = n.effects k f ++ ws.filterMap fun w => w.effectAt k f := by
  simp only [effects, issue, List.filterMap_append, List.filterMap_map]
  rfl

theorem latest_issue (n : Net κ φ ν) (c : ℕ) (ws : List (Write κ φ ν)) (k : κ) (f : φ) :
    (n.issue c ws).latest k f =
      (ws.filterMap fun w => w.effectAt k f).getLastD (n.latest k f) := by
  rw [latest, effects_issue, getLastD_append]
  rfl

theorem effects_deliver {i : ℕ} (h : n.deliver i = some n') (k : κ) (f : φ) :
    (n'.effects k f = n.effects k f ∧ n'.db.node k f = n.db.node k f) ∨
      ∃ v, (n.inFlight[i]?).bind (leafEffect k f) = some v ∧
        n.effects k f = (n.inFlight.take i).filterMap (leafEffect k f) ++
          v :: (n.inFlight.drop (i + 1)).filterMap (leafEffect k f) ∧
        n'.effects k f = (n.inFlight.take i).filterMap (leafEffect k f) ++
          (n.inFlight.drop (i + 1)).filterMap (leafEffect k f) ∧
        n'.db.node k f = v := by
  obtain ⟨l₁, x, l₂, hl, rfl, rfl⟩ := deliver_eq_some h
  have hx : leafEffect k f x = x.2.effectAt k f := rfl
  cases he : x.2.effectAt k f with
  | none =>
      left
      simp [effects, hl, Store.apply_leaf, hx, he]
  | some v =>
      right
      refine ⟨v, ?_, ?_, ?_, ?_⟩
      · simp [hl, hx, he]
      · simp [effects, hl, hx, he]
      · simp [effects, hl]
      · simp [Store.apply_leaf, he]

/-- A delivery that does not overtake leaves the newest value as it is. -/
theorem latest_deliver {i : ℕ} (h : n.deliver i = some n') (ho : ¬ n.Overtakes i k f) :
    n'.latest k f = n.latest k f := by
  rcases effects_deliver h k f with ⟨he, hn⟩ | ⟨v, hi, he, he', hn⟩
  · rw [latest, latest, he, hn]
  rw [latest, latest, he, he', hn, getLastD_append, getLastD_append, List.getLastD_cons]
  cases hafter : (n.inFlight.drop (i + 1)).filterMap (leafEffect k f) with
  | cons u us => rw [List.getLastD_cons, List.getLastD_cons]
  | nil =>
      -- the newest value arrives, so nothing older may be left
      have hbefore : (n.inFlight.take i).filterMap (leafEffect k f) = [] := by
        by_contra hne
        have hold : ∃ x ∈ n.inFlight.take i, leafEffect k f x ≠ none := by
          by_contra hall
          exact hne (List.filterMap_eq_nil_iff.mpr (by simpa using hall))
        exact ho ⟨by rw [hi]; rfl, List.filterMap_eq_nil_iff.mp hafter, hold⟩
      rw [hbefore]
      rfl

/-! ### A leaf that is written once -/

/-- The leaf has a value, or one value is on its way, or neither. -/
def Once (n : Net κ φ ν) (k : κ) (f : φ) : Prop :=
  n.effects k f = [] ∨ ∃ v, n.effects k f = [some v] ∧ n.db.node k f = none

/-- A leaf stays written once if it is written only while it has no value, on its way or not. -/
theorem Once.issue (h : n.Once k f) {c : ℕ} {ws : List (Write κ φ ν)}
    (hw : (ws.filterMap fun w => w.effectAt k f) = [] ∨
      n.latest k f = none ∧ ∃ v, (ws.filterMap fun w => w.effectAt k f) = [some v]) :
    (n.issue c ws).Once k f := by
  unfold Once
  rw [effects_issue]
  rcases hw with hw | ⟨hl, v, hw⟩
  · rw [hw, List.append_nil]
    exact h
  · rcases h with he | ⟨u, he, -⟩
    · rw [latest, he] at hl
      exact Or.inr ⟨v, by rw [he, hw]; rfl, hl⟩
    · rw [latest, he] at hl
      cases hl

/-- Deliveries keep it written once, in any order, and a stored value stays. -/
theorem Once.deliver (h : n.Once k f) {i : ℕ} (hd : n.deliver i = some n') :
    n'.Once k f ∧ n'.latest k f = n.latest k f ∧
      ∀ v, n.db.node k f = some v → n'.db.node k f = some v := by
  rcases effects_deliver hd k f with ⟨he, hn⟩ | ⟨v, -, he, he', hn⟩
  · refine ⟨?_, by rw [latest, latest, he, hn], fun v hv => hn.trans hv⟩
    unfold Once
    rw [he, hn]
    exact h
  · rcases h with hnil | ⟨u, hone, hnone⟩
    · rw [hnil] at he
      simp at he
    · -- the one value on its way arrives
      obtain ⟨h₁, rfl, h₂⟩ : (n.inFlight.take i).filterMap (leafEffect k f) = [] ∧ v = some u ∧
          (n.inFlight.drop (i + 1)).filterMap (leafEffect k f) = [] := by
        rw [hone] at he
        cases hbefore : (n.inFlight.take i).filterMap (leafEffect k f) <;> simp_all
      rw [h₁, h₂] at he'
      refine ⟨Or.inl he', ?_, ?_⟩
      · rw [latest, latest, he', hone, hn]
        rfl
      · intro v hv
        rw [hnone] at hv
        cases hv

/-! ### Copies of a write -/

section Flights

variable [DecidableEq ν] {x : Write κ φ ν}

/-- How often a write is in flight. -/
def flights (n : Net κ φ ν) (x : Write κ φ ν) : ℕ := n.inFlight.countP fun y => y.2 = x

theorem flights_pos : 0 < n.flights x ↔ n.Flying x := by
  simp only [flights, List.countP_pos_iff, decide_eq_true_eq, Flying]
  constructor
  · rintro ⟨⟨c, y⟩, hy, rfl⟩
    exact ⟨c, hy⟩
  · rintro ⟨c, hc⟩
    exact ⟨(c, x), hc, rfl⟩

theorem flights_issue (n : Net κ φ ν) (c : ℕ) (ws : List (Write κ φ ν)) (x : Write κ φ ν) :
    (n.issue c ws).flights x = n.flights x + ws.count x := by
  simp only [flights, issue, List.countP_append, List.countP_map, List.count]
  congr 1

theorem flights_split {l₁ l₂ : List (ℕ × Write κ φ ν)} {y : ℕ × Write κ φ ν}
    (hl : n.inFlight = l₁ ++ y :: l₂) (hl' : n'.inFlight = l₁ ++ l₂) (x : Write κ φ ν) :
    n.flights x = n'.flights x + if y.2 = x then 1 else 0 := by
  simp only [flights, hl, hl', List.countP_append, List.countP_cons, decide_eq_true_eq]
  omega

theorem flights_deliver {i : ℕ} (h : n.deliver i = some n') :
    ∃ y, n.Flying y ∧ n'.db = n.db.apply y ∧
      ∀ x, n.flights x = n'.flights x + if y = x then 1 else 0 := by
  obtain ⟨l₁, y, l₂, hl, -, rfl⟩ := deliver_eq_some h
  exact ⟨y.2, ⟨y.1, by simp [hl]⟩, rfl, flights_split hl rfl⟩

theorem flights_reject {i : ℕ} (h : n.reject i = some n') (x : Write κ φ ν) :
    n'.db = n.db ∧ n'.flights x ≤ n.flights x := by
  obtain ⟨l₁, y, l₂, hl, rfl⟩ := reject_eq_some h
  refine ⟨rfl, ?_⟩
  have hsplit := flights_split hl
    (show ({ n with inFlight := l₁ ++ l₂ } : Net κ φ ν).inFlight = _ from rfl) x
  omega

end Flights

/-! ### Queues

With deliveries in order the writes in flight are one queue for each device: an action appends to
its device's queue, and a delivery takes the head of one queue. -/

/-- The server applies `x`, the head of the queue of device `c`. -/
structure Pops (n n' : Net κ φ ν) (c : ℕ) (x : Write κ φ ν) (q : List (Write κ φ ν)) : Prop where
  head : n.pending c = x :: q
  tail : n'.pending c = q
  others : ∀ d, d ≠ c → n'.pending d = n.pending d
  db : n'.db = n.db.apply x
  past : n'.past = n.db :: n.past

/-- An in-order delivery takes the head of one queue. -/
theorem deliver_inOrder {i : ℕ} (h : n.deliver i = some n') (ho : n.InOrder i) :
    ∃ c x q, n.Pops n' c x q := by
  obtain ⟨l₁, ⟨c, x⟩, l₂, hl, rfl, rfl⟩ := deliver_eq_some h
  have hl₁ : l₁.filterMap (fun y => if y.1 = c then some y.2 else none) = [] := by
    rw [List.filterMap_eq_nil_iff]
    intro y hy
    rw [if_neg (ho.not_mem hl y hy)]
  refine ⟨c, x, l₂.filterMap (fun y => if y.1 = c then some y.2 else none), ?_, ?_, ?_, rfl, rfl⟩
  · simp [pending, hl, hl₁]
  · simp [pending, hl₁]
  · intro c' hc'
    simp [pending, hl, Ne.symm hc']

section Pops

variable {c d : ℕ} {x y : Write κ φ ν} {q : List (Write κ φ ν)} (h : n.Pops n' c x q)
include h

/-- A device does not see its own writes arrive: its newest view stays the same. -/
theorem Pops.view_eq : n'.view c 0 = n.view c 0 := by
  rw [view_zero, view_zero, h.db, h.head, h.tail, Store.applyAll_cons]

theorem Pops.mem : x ∈ n.pending c := by rw [h.head]; exact List.mem_cons_self

theorem Pops.sub (hy : y ∈ n'.pending d) : y ∈ n.pending d := by
  by_cases hd : d = c
  · subst hd
    rw [h.head]
    exact List.mem_cons_of_mem _ (h.tail ▸ hy)
  · exact h.others d hd ▸ hy

theorem Pops.stay (hy : y ∈ n.pending d) (hne : y ≠ x) : y ∈ n'.pending d := by
  by_cases hd : d = c
  · subst hd
    rw [h.head] at hy
    exact h.tail ▸ (List.mem_cons.mp hy).resolve_left hne
  · exact h.others d hd ▸ hy

end Pops

/-! ### Records of one writer

As long as one device alone has writes of a record in flight, its newest view has the record as it will
be once these have arrived. -/

/-- Nobody but device `c` has writes of the record `k` in flight. -/
def Solo (n : Net κ φ ν) (c : ℕ) (k : κ) : Prop := ∀ d, ∀ x ∈ n.pending d, x.key = k → d = c

/-- The record as device `c` sees it in its newest view. -/
def seen (n : Net κ φ ν) (c : ℕ) (k : κ) : Record φ ν := (n.db.applyAll (n.pending c)).node k

theorem Quiescent.seen {n : Net κ φ ν} (h : n.Quiescent) (c : ℕ) (k : κ) : n.seen c k = n.db.node k := by
  rw [Net.seen, h.pending c, Store.applyAll_nil]

section Solo

variable {c d : ℕ} {x : Write κ φ ν} {q : List (Write κ φ ν)} {k : κ} (h : n.Pops n' d x q)
  (hs : n.Solo c k)
include h hs

theorem Pops.solo : n'.Solo c k := fun e y hy => hs e y (h.sub hy)

theorem Pops.seen_eq : n'.seen c k = n.seen c k := by
  by_cases hd : d = c
  · subst hd
    rw [seen, seen, h.db, h.head, h.tail, Store.applyAll_cons]
  · have hk : k ≠ x.key := by
      intro hk
      exact hd (hs d x h.mem hk.symm)
    rw [seen, seen, h.db, h.others c (Ne.symm hd)]
    exact Store.applyAll_node_congr (Store.apply_node_ne _ hk)

end Solo

end Net

/-! ### Order in a queue -/

/-- Nothing of kind `Q` stands in the queue before the first of kind `P`. -/
def Guarded {α : Type} (P Q : α → Prop) : List α → Prop
  | [] => True
  | x :: q => ¬ Q x ∧ (P x ∨ Guarded P Q q)

/-- Behind everything of kind `P` stands something of kind `Q`. -/
def Followed {α : Type} (P Q : α → Prop) : List α → Prop
  | [] => True
  | x :: q => (P x → ∃ y ∈ q, Q y) ∧ Followed P Q q

section Order

variable {α : Type} {P Q : α → Prop} {q r : List α}

theorem Guarded.append (hq : Guarded P Q q) (hr : Guarded P Q r) : Guarded P Q (q ++ r) := by
  induction q with
  | nil => exact hr
  | cons x q ih => exact ⟨hq.1, hq.2.imp_right ih⟩

theorem Guarded.of_forall (h : ∀ x ∈ q, ¬ Q x) : Guarded P Q q := by
  induction q with
  | nil => trivial
  | cons x q ih =>
      have hq : Guarded P Q q := ih fun y hy => h y (List.mem_cons_of_mem _ hy)
      exact ⟨h x List.mem_cons_self, Or.inr hq⟩

theorem Followed.append (hq : Followed P Q q) (hr : Followed P Q r) : Followed P Q (q ++ r) := by
  induction q with
  | nil => exact hr
  | cons x q ih =>
      refine ⟨?_, ih hq.2⟩
      intro hx
      obtain ⟨y, hy, hQ⟩ := hq.1 hx
      exact ⟨y, List.mem_append_left _ hy, hQ⟩

theorem Followed.of_forall (h : ∀ x ∈ q, ¬ P x) : Followed P Q q := by
  induction q with
  | nil => trivial
  | cons x q ih =>
      refine ⟨?_, ih fun y hy => h y (List.mem_cons_of_mem _ hy)⟩
      intro hx
      exact absurd hx (h x List.mem_cons_self)

end Order

section Pops

variable [DecidableEq κ] [DecidableEq φ] {n n' : Net κ φ ν} {c : ℕ} {x : Write κ φ ν}
  {q : List (Write κ φ ν)} {P Q : Write κ φ ν → Prop} (h : n.Pops n' c x q)
include h

/-- The head of a guarded queue is not of kind `Q`; unless it is of kind `P`, the rest is guarded
as well. -/
theorem Net.Pops.guarded (hg : ∀ d, Guarded P Q (n.pending d)) :
    ¬ Q x ∧ (P x ∨ ∀ d, Guarded P Q (n'.pending d)) := by
  have hc := hg c
  rw [h.head] at hc
  refine ⟨hc.1, hc.2.imp_right ?_⟩
  intro hq d
  by_cases hd : d = c
  · subst hd
    rw [h.tail]
    exact hq
  · rw [h.others d hd]
    exact hg d

theorem Net.Pops.followed (hf : ∀ d, Followed P Q (n.pending d)) :
    (P x → ∃ y ∈ n'.pending c, Q y) ∧ ∀ d, Followed P Q (n'.pending d) := by
  have hc := hf c
  rw [h.head] at hc
  constructor
  · rw [h.tail]
    exact hc.1
  · intro d
    by_cases hd : d = c
    · subst hd
      rw [h.tail]
      exact hc.2
    · rw [h.others d hd]
      exact hf d

end Pops

end Sync
