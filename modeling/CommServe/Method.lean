import Mathlib.Data.List.Basic
import Mathlib.Tactic.Common

/-! # Method bodies with guards and traps

A method body runs over a state `σ` of effects done so far and either yields a value or stops
before its end: it returns early from a `guard`, or it traps with a reason of type `τ` (a forced
unwrap of `nil`, a forced cast, an index out of range).  Effects done before the stop remain, so
the state is returned in every case.

`guardLet`, `unwrap` and `subscript` are the partial operations; each has one equation for its
success and one for its failure, and `run_bind` threads them.  `Avoids bad` says that a body never
traps for a reason in `bad`; it has one rule for each kind of statement. -/

namespace Method

/-- Why a body did not reach its end. -/
inductive Stop (τ : Type) where
  | returned
  | trapped (reason : τ)
deriving DecidableEq, Repr

end Method

/-- A method body over the state `σ` with trap reasons `τ`. -/
structure Method (σ τ α : Type) where
  run : σ → Except (Method.Stop τ) α × σ

namespace Method

variable {σ τ α β : Type}

instance : Monad (Method σ τ) where
  pure a := ⟨fun s => (.ok a, s)⟩
  bind x f := ⟨fun s => match x.run s with
    | (.ok a, s') => (f a).run s'
    | (.error e, s') => (.error e, s')⟩

/-- `guard let x = o else { return }`. -/
def guardLet (o : Option α) : Method σ τ α := ⟨fun s => match o with
  | some a => (.ok a, s)
  | none => (.error .returned, s)⟩

/-- The forced unwrap `o!`. -/
def unwrap (reason : τ) (o : Option α) : Method σ τ α := ⟨fun s => match o with
  | some a => (.ok a, s)
  | none => (.error (.trapped reason), s)⟩

/-- The subscript `l[i]`. -/
def subscript (reason : τ) (l : List α) (i : ℕ) : Method σ τ α := unwrap reason l[i]?

/-- A statement that acts on the state. -/
def modify (f : σ → σ) : Method σ τ Unit := ⟨fun s => (.ok (), f s)⟩

/-- The state as the body finds it. -/
def state : Method σ τ σ := ⟨fun s => (.ok s, s)⟩

/-- Why a body trapped, if it did. -/
def trap : Except (Stop τ) α → Option τ
  | .error (.trapped reason) => some reason
  | _ => none

@[simp] theorem run_pure (a : α) (s : σ) : (pure a : Method σ τ α).run s = (.ok a, s) := rfl

theorem run_bind (x : Method σ τ α) (f : α → Method σ τ β) (s : σ) :
    (x >>= f).run s = match x.run s with
      | (.ok a, s') => (f a).run s'
      | (.error e, s') => (.error e, s') := rfl

theorem bind_ok {x : Method σ τ α} {f : α → Method σ τ β} {s s' : σ} {a : α}
    (h : x.run s = (.ok a, s')) : (x >>= f).run s = (f a).run s' := by
  rw [run_bind, h]

@[simp] theorem run_guardLet_some (a : α) (s : σ) :
    (guardLet (some a) : Method σ τ α).run s = (.ok a, s) := rfl

@[simp] theorem run_guardLet_none (s : σ) :
    (guardLet none : Method σ τ α).run s = (.error .returned, s) := rfl

@[simp] theorem run_unwrap_some (reason : τ) (a : α) (s : σ) :
    (unwrap reason (some a) : Method σ τ α).run s = (.ok a, s) := rfl

@[simp] theorem run_unwrap_none (reason : τ) (s : σ) :
    (unwrap reason none : Method σ τ α).run s = (.error (.trapped reason), s) := rfl

@[simp] theorem run_modify (f : σ → σ) (s : σ) :
    (modify f : Method σ τ Unit).run s = (.ok (), f s) := rfl

@[simp] theorem run_state (s : σ) : (state : Method σ τ σ).run s = (.ok s, s) := rfl

@[simp] theorem trap_ok (a : α) : trap (.ok a : Except (Stop τ) α) = none := rfl

@[simp] theorem trap_returned : trap (.error .returned : Except (Stop τ) α) = none := rfl

@[simp] theorem trap_trapped (reason : τ) :
    trap (.error (.trapped reason) : Except (Stop τ) α) = some reason := rfl

/-! ### Bodies that stop without an effect -/

/-- From `s` the body stops, leaving the state as it is. -/
def Stopped (x : Method σ τ α) (s : σ) : Prop := ∃ e, x.run s = (.error e, s)

/-! ### Traps that are avoided -/

/-- From no state does the body trap for a reason in `bad`. -/
def Avoids (bad : τ → Prop) (x : Method σ τ α) : Prop :=
  ∀ s t, bad t → (x.run s).1 ≠ .error (.trapped t)

variable {bad : τ → Prop} {x : Method σ τ α} {f : α → Method σ τ β} {reason : τ}

theorem Avoids.pure (a : α) : (Pure.pure a : Method σ τ α).Avoids bad := by
  intro s t _
  simp

theorem Avoids.modify (g : σ → σ) : (Method.modify g : Method σ τ Unit).Avoids bad := by
  intro s t _
  simp

theorem Avoids.bind (hx : x.Avoids bad) (hf : ∀ a, (f a).Avoids bad) : (x >>= f).Avoids bad := by
  intro s t ht
  rw [run_bind]
  cases hrun : x.run s with
  | mk result s' =>
  cases result with
  | ok a => exact hf a s' t ht
  | error e =>
      have hne := hx s t ht
      rw [hrun] at hne
      simpa using hne

/-- A body that always yields `a` can be left out. -/
theorem Avoids.bind_ok {a : α} (hx : ∀ s, x.run s = (.ok a, s)) (hf : (f a).Avoids bad) :
    (x >>= f).Avoids bad := by
  intro s t ht
  rw [Method.bind_ok (hx s)]
  exact hf s t ht

/-- An early return is no trap. -/
theorem Avoids.guardLet {o : Option α} (hf : ∀ a, o = some a → (f a).Avoids bad) :
    (Method.guardLet o >>= f).Avoids bad := by
  cases o with
  | none =>
      intro s t _
      simp [run_bind]
  | some a => exact .bind_ok (run_guardLet_some a) (hf a rfl)

theorem Avoids.guardLet_none : (Method.guardLet none >>= f).Avoids bad := by
  refine .guardLet ?_
  intro a ha
  cases ha

/-- A trap for another reason is allowed. -/
theorem Avoids.unwrap (h : ¬ bad reason) {o : Option α} (hf : ∀ a, o = some a → (f a).Avoids bad) :
    (Method.unwrap reason o >>= f).Avoids bad := by
  cases o with
  | none =>
      intro s t ht
      simp only [run_bind, run_unwrap_none, ne_eq, Except.error.injEq, Stop.trapped.injEq]
      rintro rfl
      exact h ht
  | some a => exact .bind_ok (run_unwrap_some reason a) (hf a rfl)

theorem Avoids.subscript (h : ¬ bad reason) {l : List α} {i : ℕ}
    (hf : ∀ a ∈ l, (f a).Avoids bad) : (Method.subscript reason l i >>= f).Avoids bad := by
  refine .unwrap h ?_
  intro a ha
  exact hf a (List.mem_of_getElem? ha)

theorem Avoids.subscript_some {l : List α} {i : ℕ} {a : α} (ha : l[i]? = some a)
    (hf : (f a).Avoids bad) : (Method.subscript reason l i >>= f).Avoids bad := by
  unfold Method.subscript
  rw [ha]
  exact .bind_ok (run_unwrap_some reason a) hf

theorem not_avoids {s s' : σ} (hrun : x.run s = (.error (.trapped reason), s'))
    (h : bad reason) : ¬ x.Avoids bad := by
  intro hx
  have hne := hx s reason h
  rw [hrun] at hne
  exact hne rfl

end Method
