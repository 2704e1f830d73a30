import Mathlib.Data.List.Basic
import Mathlib.Tactic.Common

/-! # Runs of a transition system

A system is a partial step function `step : σ → α → Option σ`: the event `e` is enabled in `s`
when `step s e` is defined, and everything nondeterministic (who acts, what is delivered, in
which order) is part of the event.  `Run step ok s es t` is a run over the events `es` in which
every step is enabled and meets the side condition `ok`, a predicate on the state before the step
and the event; `fun _ _ => True` gives all runs.

The rules used on a system are `Run.invariant` (what every step keeps, every run keeps),
`Run.invariant_of` (the same below an invariant that is already known), `Run.history` (a record kept
of the events alone stays related to the state), `Run.counted` (so does the number of steps with a
property), `Run.exact` and `Run.always_iff` (a property that
survives exactly the admissible steps tells which runs are admissible), `Run.steps_iff` (the same for
a property of single steps), `Run.refines` (a simulation of one system by another) and `Run.trans`,
whose converse is `Run.split`.  `exec` runs a list of events and is what a concrete run is evaluated with
(`run_of_exec`). -/

namespace Transition

variable {σ α : Type} {step : σ → α → Option σ} {ok : σ → α → Prop}

/-- `t` is reached from `s` over the events `es`, every step meeting `ok`. -/
inductive Run (step : σ → α → Option σ) (ok : σ → α → Prop) : σ → List α → σ → Prop
  | nil (s : σ) : Run step ok s [] s
  | cons {s s' t : σ} {e : α} {es : List α} :
      ok s e → step s e = some s' → Run step ok s' es t → Run step ok s (e :: es) t

theorem Run.mono {ok' : σ → α → Prop} (h : ∀ s e, ok s e → ok' s e) {s t : σ} {es : List α}
    (hr : Run step ok s es t) : Run step ok' s es t := by
  induction hr with
  | nil s => exact .nil s
  | cons ho hs _ ih => exact .cons (h _ _ ho) hs ih

theorem Run.trans {s t u : σ} {es fs : List α} (h₁ : Run step ok s es t)
    (h₂ : Run step ok t fs u) : Run step ok s (es ++ fs) u := by
  induction h₁ with
  | nil s => exact h₂
  | cons ho hs _ ih => exact Run.cons ho hs (ih h₂)

theorem Run.split {es fs : List α} : ∀ {s u : σ}, Run step ok s (es ++ fs) u →
    ∃ t, Run step ok s es t ∧ Run step ok t fs u := by
  induction es with
  | nil =>
      intro s u h
      exact ⟨s, .nil s, h⟩
  | cons e es ih =>
      intro s u h
      cases h with
      | cons ho hs hr =>
          obtain ⟨t, h₁, h₂⟩ := ih hr
          exact ⟨t, .cons ho hs h₁, h₂⟩

theorem Run.head {s t : σ} {e : α} {es : List α} (h : Run step ok s (e :: es) t) :
    ∃ s', ok s e ∧ step s e = some s' ∧ Run step ok s' es t := by
  cases h with
  | cons ho hs hr => exact ⟨_, ho, hs, hr⟩

theorem Run.last {s u : σ} {e : α} {es : List α} (h : Run step ok s (es ++ [e]) u) :
    ∃ t, Run step ok s es t ∧ ok t e ∧ step t e = some u := by
  obtain ⟨t, h₁, h₂⟩ := h.split
  obtain ⟨u', ho, hs, hnil⟩ := h₂.head
  cases hnil
  exact ⟨t, h₁, ho, hs⟩

/-- **History rule**: a record `b` that `f` keeps of the events alone stays in the relation `R` to
the state when every step keeps the relation. -/
theorem Run.history {β : Type} (R : σ → β → Prop) (f : β → α → β)
    (hstep : ∀ s e s' b, R s b → ok s e → step s e = some s' → R s' (f b e)) {s t : σ}
    {es : List α} (hr : Run step ok s es t) : ∀ {b : β}, R s b → R t (es.foldl f b) := by
  induction hr with
  | nil s =>
      intro b hb
      exact hb
  | cons ho hs _ ih =>
      intro b hb
      exact ih (hstep _ _ _ _ hb ho hs)

/-- **Invariant rule**: what every admissible step keeps, every run keeps. -/
theorem Run.invariant (I : σ → Prop)
    (hstep : ∀ s e s', I s → ok s e → step s e = some s' → I s') {s t : σ} {es : List α}
    (hr : Run step ok s es t) (hs : I s) : I t := by
  induction hr with
  | nil s => exact hs
  | cons ho hst _ ih => exact ih (hstep _ _ _ hs ho hst)

/-- How many steps over the events have the property `p`. -/
def count (step : σ → α → Option σ) (p : σ → α → Prop) [∀ s e, Decidable (p s e)] :
    σ → List α → ℕ
  | _, [] => 0
  | s, e :: es =>
      (if p s e then 1 else 0) + ((step s e).map fun s' => count step p s' es).getD 0

/-- **Counting rule**: the number of steps with the property `p` stays in the relation `R` to the state
when every step keeps the relation. -/
theorem Run.counted (p : σ → α → Prop) [∀ s e, Decidable (p s e)] (R : σ → ℕ → Prop)
    (hstep : ∀ s e s' n, R s n → ok s e → step s e = some s' → R s' (n + if p s e then 1 else 0))
    {s t : σ} {es : List α} (hr : Run step ok s es t) :
    ∀ {n : ℕ}, R s n → R t (n + count step p s es) := by
  induction hr with
  | nil s =>
      intro n hn
      exact hn
  | @cons s s' t e es ho hs _ ih =>
      intro n hn
      have hrest := ih (hstep _ _ _ _ hn ho hs)
      rw [count, hs, Option.map_some, Option.getD_some, ← Nat.add_assoc]
      exact hrest

/-- The invariant rule below an invariant `J` that the runs are known to keep. -/
theorem Run.invariant_of (J I : σ → Prop)
    (hJ : ∀ s e s', J s → ok s e → step s e = some s' → J s')
    (hI : ∀ s e s', J s → I s → ok s e → step s e = some s' → I s') {s t : σ} {es : List α}
    (hr : Run step ok s es t) (hj : J s) (hi : I s) : I t :=
  (hr.invariant (fun s => J s ∧ I s)
    (fun s e s' h ho hs => ⟨hJ s e s' h.1 ho hs, hI s e s' h.1 h.2 ho hs⟩) ⟨hj, hi⟩).2

/-- **Exactness rule**: if below an invariant `J` a step keeps `P` exactly when it is admissible, a run
keeps `P` exactly when all its steps are. -/
theorem Run.exact (J P : σ → Prop) (hJ : ∀ s e s', J s → step s e = some s' → J s')
    (hP : ∀ s e s', J s → step s e = some s' → (P s' ↔ P s ∧ ok s e)) {s t : σ} {es : List α}
    (hr : Run step (fun _ _ => True) s es t) (hj : J s) : P t ↔ P s ∧ Run step ok s es t := by
  induction hr with
  | nil s =>
      constructor
      · intro h
        exact ⟨h, .nil s⟩
      · exact And.left
  | cons _ hs _ ih =>
      rw [ih (hJ _ _ _ hj hs), hP _ _ _ hj hs]
      constructor
      · rintro ⟨⟨hp, ho⟩, hr⟩
        exact ⟨hp, .cons ho hs hr⟩
      · rintro ⟨hp, hr⟩
        obtain ⟨s', ho, hs', hr⟩ := hr.head
        obtain rfl := Option.some.inj (hs.symm.trans hs')
        exact ⟨⟨hp, ho⟩, hr⟩

theorem Run.unique {ok' : σ → α → Prop} {s t t' : σ} {es : List α} (hr : Run step ok s es t)
    (hr' : Run step ok' s es t') : t = t' := by
  induction hr with
  | nil s =>
      cases hr'
      rfl
  | cons _ hs _ ih =>
      obtain ⟨s', -, hs', hr'⟩ := hr'.head
      obtain rfl := Option.some.inj (hs.symm.trans hs')
      exact ih hr'

/-- **Refinement rule**: if below `J` every step leaves the abstract state as it is or is one abstract
step, a run is an abstract run of no more steps. -/
theorem Run.refines {τ β : Type} {astep : τ → β → Option τ} (f : σ → τ) (J : σ → Prop)
    (hJ : ∀ s e s', J s → ok s e → step s e = some s' → J s')
    (hf : ∀ s e s', J s → ok s e → step s e = some s' →
      f s' = f s ∨ ∃ b, astep (f s) b = some (f s')) {s t : σ} {es : List α}
    (hr : Run step ok s es t) (hj : J s) :
    ∃ bs, bs.length ≤ es.length ∧ Run astep (fun _ _ => True) (f s) bs (f t) := by
  induction hr with
  | nil s => exact ⟨[], Nat.le_refl _, .nil _⟩
  | @cons s s' t e es ho hs _ ih =>
      obtain ⟨bs, hlen, hbs⟩ := ih (hJ s e s' hj ho hs)
      rcases hf s e s' hj ho hs with he | ⟨b, hb⟩
      · refine ⟨bs, ?_, he ▸ hbs⟩
        rw [List.length_cons]
        omega
      · refine ⟨b :: bs, ?_, .cons trivial hb hbs⟩
        rw [List.length_cons, List.length_cons]
        omega

/-- The refinement rule for abstract steps that are read off the events: `g` tells which of them an event
is, if any. -/
theorem Run.refines_map {τ β : Type} {astep : τ → β → Option τ} {aok : τ → β → Prop} (f : σ → τ)
    (g : α → Option β) (J : σ → Prop) (hJ : ∀ s e s', J s → ok s e → step s e = some s' → J s')
    (hskip : ∀ s e s', J s → ok s e → step s e = some s' → g e = none → f s' = f s)
    (hmove : ∀ s e s' b, J s → ok s e → step s e = some s' → g e = some b →
      aok (f s) b ∧ astep (f s) b = some (f s')) {s t : σ} {es : List α} (hr : Run step ok s es t)
    (hj : J s) : Run astep aok (f s) (es.filterMap g) (f t) := by
  induction hr with
  | nil s => exact .nil _
  | @cons s s' t e es ho hs _ ih =>
      have hrest := ih (hJ s e s' hj ho hs)
      cases he : g e with
      | none =>
          rw [List.filterMap_cons_none he, ← hskip s e s' hj ho hs he]
          exact hrest
      | some b =>
          obtain ⟨hok, hb⟩ := hmove s e s' b hj ho hs he
          rw [List.filterMap_cons_some he]
          exact .cons hok hb hrest

/-- **Permanence rule**: if below `J` a step from a state with `P` leads to one with `P` exactly when it
is admissible, then `P` holds all along a run exactly when all its steps are. -/
theorem Run.always_iff (J P : σ → Prop) (hJ : ∀ s e s', J s → step s e = some s' → J s')
    (hP : ∀ s e s', J s → P s → step s e = some s' → (P s' ↔ ok s e)) {s t : σ} {es : List α}
    (hr : Run step (fun _ _ => True) s es t) (hj : J s) (hp : P s) :
    (∀ before later u, es = before ++ later → Run step (fun _ _ => True) s before u → P u) ↔
      Run step ok s es t := by
  constructor
  · intro h
    induction hr with
    | nil s => exact .nil s
    | @cons s s' t e es _ hs _ ih =>
        have hp' : P s' := h [e] es s' rfl (.cons trivial hs (.nil s'))
        refine .cons ((hP _ _ _ hj hp hs).mp hp') hs (ih (hJ _ _ _ hj hs) hp' ?_)
        intro before later u hes hu
        exact h (e :: before) later u (by rw [hes]; rfl) (.cons trivial hs hu)
  · rintro hok before later u rfl hu
    obtain ⟨u', hu', -⟩ := hok.split
    obtain rfl := hu.unique hu'
    refine hu'.invariant_of J P ?_ ?_ hj hp
    · intro s e s' hj _ hs
      exact hJ s e s' hj hs
    · intro s e s' hj hp ho hs
      exact (hP s e s' hj hp hs).mpr ho

/-- **Step rule**: if a step has the property `Q` exactly when it is admissible, then all steps of a run
have it exactly when all of them are. -/
theorem Run.steps_iff (Q : σ → α → σ → Prop)
    (hQ : ∀ s e s', step s e = some s' → (Q s e s' ↔ ok s e)) {s t : σ} {es : List α}
    (hr : Run step (fun _ _ => True) s es t) :
    (∀ before e later u v, es = before ++ e :: later →
      Run step (fun _ _ => True) s before u → step u e = some v → Q u e v) ↔
      Run step ok s es t := by
  constructor
  · intro h
    induction hr with
    | nil s => exact .nil s
    | @cons s s' t e es _ hs _ ih =>
        have hq : Q s e s' := h [] e es s s' rfl (.nil s) hs
        refine .cons ((hQ s e s' hs).mp hq) hs (ih ?_)
        intro before f later u v hes hu hv
        exact h (e :: before) f later u v (by rw [hes]; rfl) (.cons trivial hs hu) hv
  · rintro hok before e later u v rfl hu hv
    obtain ⟨u', hu', hrest⟩ := hok.split
    obtain rfl := hu.unique hu'
    obtain ⟨v', ho, -, -⟩ := hrest.head
    exact (hQ u e v hv).mpr ho

/-- Runs one list of events, checking the side condition at every step. -/
def exec (step : σ → α → Option σ) (ok : σ → α → Prop) [∀ s e, Decidable (ok s e)] :
    σ → List α → Option σ
  | s, [] => some s
  | s, e :: es => if ok s e then (step s e).bind (fun s' => exec step ok s' es) else none

theorem run_of_exec [∀ s e, Decidable (ok s e)] {t : σ} :
    ∀ {s : σ} {es : List α}, exec step ok s es = some t → Run step ok s es t
  | s, [], h => by
      obtain rfl := Option.some.inj h
      exact Run.nil s
  | s, e :: es, h => by
      unfold exec at h
      split_ifs at h with ho
      obtain ⟨s', hs, ht⟩ := Option.bind_eq_some_iff.mp h
      exact Run.cons ho hs (run_of_exec ht)

/-- A run on which a decidable property can be evaluated. -/
theorem exists_run_of_exec (step : σ → α → Option σ) (ok : σ → α → Prop)
    [∀ s e, Decidable (ok s e)] (s : σ) (es : List α) (p : σ → Prop) [DecidablePred p]
    (h : (exec step ok s es).any (fun t => decide (p t)) = true) :
    ∃ t, Run step ok s es t ∧ p t := by
  obtain ⟨t, ht, hp⟩ := (Option.any_eq_true _ _).mp h
  exact ⟨t, run_of_exec ht, of_decide_eq_true hp⟩

end Transition
