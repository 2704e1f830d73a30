import Mathlib.Data.Fintype.Basic
import Mathlib.Data.List.Basic
import Mathlib.Tactic.Common

/-! # Stores of records and the writes on them

A store maps keys to records and a record maps field names to leaf values; a field that is not
stored is `none`, and so is every field of a record that is not there.  A write acts on the record
of one key:

* `update k d` replaces exactly the fields listed in the dictionary `d`, where a listed `none`
  deletes the field;
* `set k d` replaces the whole record by the dictionary;
* `remove k` deletes the record.

What a write does to its record is described field by field (`Write.effect`), so that writes on
different keys, or on different fields of one key, do not interact (`apply_node`, `apply_leaf`).
`Store.All` lifts a predicate on single records to stores; `Write.Keeps` says that a write keeps
it, and `Store.all_apply` and `Store.all_applyAll` are the corresponding rules. -/

namespace RecordStore

variable {κ φ ν : Type}

/-- The record of one key. -/
abbrev Record (φ ν : Type) := φ → Option ν

/-- A dictionary literal; a listed `none` stands for the null value. -/
abbrev Dict (φ ν : Type) := List (φ × Option ν)

/-- A write on the record of one key. -/
inductive Write (κ φ ν : Type) where
  | update (key : κ) (values : Dict φ ν)
  | set (key : κ) (values : Dict φ ν)
  | remove (key : κ)
deriving DecidableEq, Repr

namespace Write

/-- The key whose record the write acts on. -/
def key : Write κ φ ν → κ
  | update k _ => k
  | set k _ => k
  | remove k => k

@[simp] theorem key_update (k : κ) (d : Dict φ ν) : (update k d).key = k := rfl
@[simp] theorem key_set (k : κ) (d : Dict φ ν) : (set k d).key = k := rfl
@[simp] theorem key_remove (k : κ) : (remove k : Write κ φ ν).key = k := rfl

variable [DecidableEq φ]

/-- What the write does to field `f` of its record: `none` leaves it as it is, `some v` makes it
`v`. -/
def effect : Write κ φ ν → φ → Option (Option ν)
  | update _ d, f => d.lookup f
  | set _ d, f => some (d.lookup f).join
  | remove _, _ => some none

/-- The record after the write. -/
def on (w : Write κ φ ν) (r : Record φ ν) : Record φ ν := fun f => (w.effect f).getD (r f)

@[simp] theorem on_update (k : κ) (d : Dict φ ν) (r : Record φ ν) (f : φ) :
    (update k d).on r f = (d.lookup f).getD (r f) := rfl

@[simp] theorem on_set (k : κ) (d : Dict φ ν) (r : Record φ ν) (f : φ) :
    (set k d).on r f = (d.lookup f).join := rfl

@[simp] theorem on_remove (k : κ) (r : Record φ ν) (f : φ) : (remove k).on r f = none := rfl

variable [DecidableEq κ]

/-- What the write does to the leaf `f` of the record of `k`. -/
def effectAt (w : Write κ φ ν) (k : κ) (f : φ) : Option (Option ν) :=
  if w.key = k then w.effect f else none

/-- The write keeps a predicate on the record it acts on. -/
def Keeps (good : κ → Record φ ν → Prop) (w : Write κ φ ν) : Prop :=
  ∀ r, good w.key r → good w.key (w.on r)

end Write

/-- A store; `keys` lists every key that may hold a record. -/
structure Store (κ φ ν : Type) where
  keys : List κ
  node : κ → Record φ ν
  complete : ∀ k f, (node k f).isSome → k ∈ keys

namespace Store

/-- The store with no record. -/
def empty : Store κ φ ν := ⟨[], fun _ _ => none, by simp⟩

/-- There is a record under `k`. -/
def Present (s : Store κ φ ν) (k : κ) : Prop := ∃ f, (s.node k f).isSome

instance [Fintype φ] (s : Store κ φ ν) (k : κ) : Decidable (s.Present k) :=
  inferInstanceAs (Decidable (∃ f, (s.node k f).isSome = true))

theorem Present.mem_keys {s : Store κ φ ν} {k : κ} (h : s.Present k) : k ∈ s.keys := by
  obtain ⟨f, hf⟩ := h
  exact s.complete k f hf

theorem Present.node_ne {s : Store κ φ ν} {k : κ} (h : s.Present k) : s.node k ≠ fun _ => none := by
  intro he
  obtain ⟨f, hf⟩ := h
  rw [he] at hf
  cases hf

@[simp] theorem empty_node (k : κ) (f : φ) : (empty : Store κ φ ν).node k f = none := rfl

theorem not_present_empty (k : κ) : ¬ (empty : Store κ φ ν).Present k := by
  rintro ⟨f, hf⟩
  simp at hf

/-- Every record satisfies `good`. -/
def All (good : κ → Record φ ν → Prop) (s : Store κ φ ν) : Prop := ∀ k, good k (s.node k)

theorem All.mono {good good' : κ → Record φ ν → Prop} (h : ∀ k r, good k r → good' k r)
    {s : Store κ φ ν} (hs : s.All good) : s.All good' := fun k => h k _ (hs k)

variable [DecidableEq κ] [DecidableEq φ]

/-- Applies one write. -/
def apply (s : Store κ φ ν) (w : Write κ φ ν) : Store κ φ ν where
  keys := s.keys.insert w.key
  node k := if k = w.key then w.on (s.node k) else s.node k
  complete k f h := by
    by_cases hk : k = w.key
    · exact List.mem_insert_iff.mpr (Or.inl hk)
    · rw [if_neg hk] at h
      exact List.mem_insert_iff.mpr (Or.inr (s.complete k f h))

/-- Applies a list of writes, first to last. -/
def applyAll (s : Store κ φ ν) (ws : List (Write κ φ ν)) : Store κ φ ν := ws.foldl apply s

theorem apply_node (s : Store κ φ ν) (w : Write κ φ ν) (k : κ) :
    (s.apply w).node k = if k = w.key then w.on (s.node k) else s.node k := rfl

@[simp] theorem apply_node_key (s : Store κ φ ν) (w : Write κ φ ν) :
    (s.apply w).node w.key = w.on (s.node w.key) := if_pos rfl

theorem apply_node_ne (s : Store κ φ ν) {w : Write κ φ ν} {k : κ} (h : k ≠ w.key) :
    (s.apply w).node k = s.node k := if_neg h

theorem apply_leaf (s : Store κ φ ν) (w : Write κ φ ν) (k : κ) (f : φ) :
    (s.apply w).node k f = (w.effectAt k f).getD (s.node k f) := by
  rw [apply_node, Write.effectAt]
  by_cases h : k = w.key
  · rw [if_pos h, if_pos h.symm]; rfl
  · rw [if_neg h, if_neg (Ne.symm h)]; rfl

theorem present_apply_ne {s : Store κ φ ν} {w : Write κ φ ν} {k : κ} (h : k ≠ w.key) :
    (s.apply w).Present k ↔ s.Present k := by
  unfold Present
  rw [apply_node_ne s h]

theorem not_present_remove (s : Store κ φ ν) (k : κ) : ¬ (s.apply (.remove k)).Present k := by
  rintro ⟨f, hf⟩
  have hnode : (s.apply (.remove k)).node k f = none := by
    rw [apply_node]
    simp
  rw [hnode] at hf
  simp at hf

theorem present_update (s : Store κ φ ν) (k : κ) {d : Dict φ ν} (f : φ) (v : ν)
    (h : d.lookup f = some (some v)) : (s.apply (.update k d)).Present k :=
  ⟨f, by rw [apply_node, Write.key_update, if_pos rfl, Write.on_update, h]; rfl⟩

@[simp] theorem applyAll_nil (s : Store κ φ ν) : s.applyAll [] = s := rfl

@[simp] theorem applyAll_cons (s : Store κ φ ν) (w : Write κ φ ν) (ws : List (Write κ φ ν)) :
    s.applyAll (w :: ws) = (s.apply w).applyAll ws := rfl

theorem applyAll_append (s : Store κ φ ν) (ws vs : List (Write κ φ ν)) :
    s.applyAll (ws ++ vs) = (s.applyAll ws).applyAll vs := List.foldl_append

/-! ### Rules -/

theorem all_apply {good : κ → Record φ ν → Prop} {s : Store κ φ ν} {w : Write κ φ ν}
    (hs : s.All good) (hw : w.Keeps good) : (s.apply w).All good := by
  intro k
  rw [apply_node]
  split_ifs with hk
  · subst hk
    exact hw _ (hs _)
  · exact hs k

theorem all_applyAll {good : κ → Record φ ν → Prop} {ws : List (Write κ φ ν)}
    (hws : ∀ w ∈ ws, w.Keeps good) {s : Store κ φ ν} (hs : s.All good) :
    (s.applyAll ws).All good := by
  induction ws generalizing s with
  | nil => exact hs
  | cons w ws ih =>
      have hw : (s.apply w).All good := all_apply hs (hws w List.mem_cons_self)
      exact ih (fun v hv => hws v (List.mem_cons_of_mem _ hv)) hw

theorem applyAll_node_ne {ws : List (Write κ φ ν)} {k : κ} (h : ∀ w ∈ ws, k ≠ w.key)
    (s : Store κ φ ν) : (s.applyAll ws).node k = s.node k := by
  induction ws generalizing s with
  | nil => rfl
  | cons w ws ih =>
      rw [applyAll_cons, ih (fun v hv => h v (List.mem_cons_of_mem _ hv)),
        apply_node_ne s (h w List.mem_cons_self)]

theorem applyAll_node_congr {ws : List (Write κ φ ν)} {k : κ} {s t : Store κ φ ν}
    (h : s.node k = t.node k) : (s.applyAll ws).node k = (t.applyAll ws).node k := by
  induction ws generalizing s t with
  | nil => exact h
  | cons w ws ih =>
      rw [applyAll_cons, applyAll_cons]
      refine ih ?_
      rw [apply_node, apply_node, h]

/-- Among writes on pairwise different keys, each one alone decides the record of its key. -/
theorem applyAll_node_of_mem {ws : List (Write κ φ ν)} (hnd : (ws.map Write.key).Nodup)
    {w : Write κ φ ν} (hw : w ∈ ws) (s : Store κ φ ν) :
    (s.applyAll ws).node w.key = w.on (s.node w.key) := by
  induction ws generalizing s with
  | nil => cases hw
  | cons v ws ih =>
      obtain ⟨hv, hnd⟩ := List.nodup_cons.mp hnd
      have hne : ∀ u ∈ ws, v.key ≠ u.key := by
        intro u hu e
        exact hv (e ▸ List.mem_map_of_mem hu)
      rw [applyAll_cons]
      rcases List.mem_cons.mp hw with rfl | hw
      · rw [applyAll_node_ne hne, apply_node_key]
      · rw [ih hnd hw, apply_node_ne s (hne w hw).symm]

/-- Of writes on pairwise different keys only some are applied, in any order: each of these decides the
record of its key. -/
theorem applyAll_node_of_perm {ws accepted rejected : List (Write κ φ ν)}
    (hp : (accepted ++ rejected).Perm ws) (hnd : (ws.map Write.key).Nodup) {w : Write κ φ ν}
    (hw : w ∈ accepted) (s : Store κ φ ν) :
    (s.applyAll accepted).node w.key = w.on (s.node w.key) := by
  have hall : ((accepted ++ rejected).map Write.key).Nodup := (hp.map Write.key).nodup_iff.mpr hnd
  rw [List.map_append, List.nodup_append] at hall
  exact applyAll_node_of_mem hall.1 hw s

end Store

end RecordStore
