import CommServe.Settling

/-! # One app on its own

The app never waits for the database: a handler issues its writes and goes on, and what the screens read is
a server state with the own writes in flight on top.  As long as nobody else writes, none of this can be
seen.  `stepAtOnce` is the app with a database that stores the writes of an action before the next one;
`World.settled` takes a world to the one in which all its writes are stored.  Along an orderly run of one
device that reads the newest snapshots the settled worlds are a run of `stepAtOnce` over the same
actions. -/

namespace CommServe

open RecordStore Sync Transition

/-- The world with the writes in flight of device `c` stored, and nothing else remembered. -/
def World.settled (w : World) (c : ℕ) : World :=
  { w with server := ⟨w.server.db.applyAll (w.server.pending c), [], []⟩ }

/-- An action of device `c`, its writes stored at once. -/
def stepAtOnce (c : ℕ) (w : World) (a : Action) : Option World :=
  (react w c a).map fun r => (w.apply c r).settled c

/-- The snapshot an action delivers is the newest one. -/
def Action.Newest : Action → Prop
  | .submitSnapshot _ k _ | .homeSnapshot _ k | .pinUserInfo _ k | .pinSnapshot _ k
  | .checkedSnapshot k | .karmaSnapshot k => k = 0
  | _ => True

instance : DecidablePred Action.Newest := by
  intro a
  cases a <;> unfold Action.Newest <;> infer_instance

/-- Only device `c` acts, and it reads the newest snapshots. -/
def Event.By (c : ℕ) : Event → Prop
  | .act d a => d = c ∧ a.Newest
  | _ => True

instance (c : ℕ) : DecidablePred (Event.By c)
  | .act _ _ => inferInstanceAs (Decidable (_ ∧ _))
  | .deliver _ => isTrue trivial
  | .reject _ => isTrue trivial

/-- The action of a step. -/
def Event.action : Event → Option Action
  | .act _ a => some a
  | _ => none

/-- Nothing but writes of device `c` is in flight. -/
def World.Only (w : World) (c : ℕ) : Prop := ∀ x ∈ w.server.inFlight, x.1 = c

variable {w w' : World} {c : ℕ}

theorem reaction_congr {s : Server} (hv : s.view c 0 = w.server.view c 0) {a : Action}
    (ha : a.Newest) : World.reaction { w with server := s } c a = w.reaction c a := by
  cases a with
  | submitSnapshot i k jpeg =>
      obtain rfl : k = 0 := ha
      simp only [World.reaction, World.submitSnapshot, hv]
      rfl
  | homeSnapshot cell k =>
      obtain rfl : k = 0 := ha
      simp only [World.reaction, World.homeSnapshot, hv]
      rfl
  | pinUserInfo i k =>
      obtain rfl : k = 0 := ha
      simp only [World.reaction, World.pinUserInfo, hv]
      rfl
  | pinSnapshot i k =>
      obtain rfl : k = 0 := ha
      simp only [World.reaction, World.pinSnapshot, hv]
      rfl
  | checkedSnapshot k =>
      obtain rfl : k = 0 := ha
      simp only [World.reaction, World.checkedSnapshot, hv]
      rfl
  | karmaSnapshot k =>
      obtain rfl : k = 0 := ha
      simp only [World.reaction, World.karmaSnapshot, hv]
      rfl
  | _ => rfl

theorem react_settled {a : Action} (ha : a.Newest) : react (w.settled c) c a = react w c a := by
  have hreaction : (w.settled c).reaction c a = w.reaction c a :=
    reaction_congr (w := w) (s := (w.settled c).server) rfl ha
  unfold react
  rw [hreaction]
  rfl

theorem settled_apply (r : Reaction) :
    ((w.settled c).apply c r).settled c = (w.apply c r).settled c := by
  have hpending : ((w.settled c).server.issue c r.writes).pending c = r.writes := by
    rw [Net.pending_issue, if_pos rfl]
    rfl
  have hserver : (w.settled c).server.db.applyAll (((w.settled c).server.issue c r.writes).pending c) =
      w.server.db.applyAll ((w.server.issue c r.writes).pending c) := by
    rw [hpending, Net.pending_issue, if_pos rfl, Store.applyAll_append]
    rfl
  unfold World.settled at hserver ⊢
  simp only [World.apply] at hserver ⊢
  congr 2

theorem stepAtOnce_settled {a : Action} (ha : a.Newest) :
    stepAtOnce c (w.settled c) a = (react w c a).map fun r => (w.apply c r).settled c := by
  unfold stepAtOnce
  rw [react_settled ha]
  congr 1
  funext r
  exact settled_apply r

theorem World.Only.act (h : w.Only c) {a : Action} (hstep : step w (.act c a) = some w') :
    w'.Only c := by
  obtain ⟨r, -, rfl⟩ := step_act hstep
  intro x hx
  rcases Net.mem_issue.mp hx with hx | ⟨hx, -⟩
  · exact h x hx
  · exact hx

theorem World.Only.deliver (h : w.Only c) {i : ℕ} (he : (Event.deliver i).Orderly w)
    (hstep : step w (.deliver i) = some w') : w'.Only c ∧ w'.settled c = w.settled c := by
  obtain ⟨n, hn, rfl⟩ := step_deliver hstep
  obtain ⟨d, x, q, hpops⟩ := Net.deliver_inOrder hn (he.2 i rfl)
  obtain rfl : d = c := h _ (Net.mem_pending.mp hpops.mem)
  constructor
  · intro y hy
    obtain ⟨l₁, z, l₂, hl, -, rfl⟩ := Net.deliver_eq_some hn
    refine h y ?_
    rw [hl]
    rcases List.mem_append.mp hy with hy | hy
    · exact List.mem_append_left _ hy
    · exact List.mem_append_right _ (List.mem_cons_of_mem _ hy)
  · -- what the device sees does not change when its own write arrives
    have hview : n.db.applyAll (n.pending d) = w.server.db.applyAll (w.server.pending d) :=
      Option.some.inj hpops.view_eq
    simp only [World.settled, hview]

/-- Everything in flight can be delivered, in order. -/
theorem World.Only.drain : ∀ (k : ℕ) {w : World}, w.Only c → w.server.inFlight.length = k →
    ∃ t, Run step (fun s e => e.Orderly s ∧ e.By c) w (deliverScript k) t ∧ t.server.Quiescent ∧
      t.settled c = w.settled c
  | 0, w, _, hk => ⟨w, .nil w, List.length_eq_zero_iff.mp hk, rfl⟩
  | k + 1, w, h, hk => by
      cases hflight : w.server.inFlight with
      | nil =>
          rw [hflight] at hk
          cases hk
      | cons x l =>
          obtain ⟨w', hw', horder, hl⟩ := step_oldest hflight
          obtain ⟨honly, hsettled⟩ := h.deliver horder hw'
          have hlen : w'.server.inFlight.length = k := by
            rw [hflight, List.length_cons] at hk
            rw [hl]
            omega
          obtain ⟨t, ht, hq, hts⟩ := World.Only.drain k honly hlen
          exact ⟨t, .cons ⟨horder, trivial⟩ hw' ht, hq, hts.trans hsettled⟩

/-- The settled worlds along a run are a run of the app that stores its writes at once. -/
theorem World.Only.settled_run (hw : w.Only c) {es : List Event} {t : World}
    (hr : Run step (fun s e => e.Orderly s ∧ e.By c) w es t) :
    Run (stepAtOnce c) (fun _ a => a.Newest) (w.settled c) (es.filterMap Event.action)
      (t.settled c) := by
  refine hr.refines_map (fun s => s.settled c) Event.action (fun s => s.Only c) ?_ ?_ ?_ hw
  · rintro s e s' h ⟨he, hby⟩ hst
    cases e with
    | act d a =>
        obtain ⟨rfl, -⟩ := hby
        exact h.act hst
    | deliver i => exact (h.deliver he hst).1
    | reject i => exact he.1.elim
  · rintro s e s' h ⟨he, -⟩ hst hnone
    cases e with
    | act d a => cases hnone
    | deliver i => exact (h.deliver he hst).2
    | reject i => exact he.1.elim
  · rintro s e s' a h ⟨-, hby⟩ hst hsome
    cases e with
    | act d a' =>
        obtain ⟨rfl, ha⟩ := hby
        obtain rfl := Option.some.inj hsome
        obtain ⟨r, hr, rfl⟩ := Option.map_eq_some_iff.mp hst
        refine ⟨ha, ?_⟩
        rw [stepAtOnce_settled ha, hr]
        rfl
    | deliver i => cases hsome
    | reject i => cases hsome

/-- The actions of a run of that app can be taken one after the other, and their writes delivered at the
end. -/
theorem World.Only.exists_run {as : List Action} : ∀ {w : World}, w.Only c → ∀ {v : World},
    Run (stepAtOnce c) (fun _ a => a.Newest) (w.settled c) as v →
    ∃ es t, es.filterMap Event.action = as ∧
      Run step (fun s e => e.Orderly s ∧ e.By c) w es t ∧ t.server.Quiescent ∧ t.settled c = v := by
  induction as with
  | nil =>
      intro w hw v hv
      cases hv
      obtain ⟨t, ht, hq, hts⟩ := World.Only.drain _ hw rfl
      refine ⟨_, t, ?_, ht, hq, hts⟩
      rw [List.filterMap_eq_nil_iff]
      intro e he
      obtain ⟨-, rfl⟩ := List.mem_replicate.mp he
      rfl
  | cons a as ih =>
      intro w hw v hv
      obtain ⟨u, ha, hu, hrest⟩ := hv.head
      rw [stepAtOnce_settled ha] at hu
      obtain ⟨r, hr, rfl⟩ := Option.map_eq_some_iff.mp hu
      have hstep : step w (.act c a) = some (w.apply c r) := by
        show (react w c a).map (w.apply c) = _
        rw [hr]
        rfl
      obtain ⟨es, t, hes, ht, hq, hts⟩ := ih (hw.act hstep) hrest
      refine ⟨.act c a :: es, t, ?_, .cons ⟨⟨trivial, ?_⟩, rfl, ha⟩ hstep ht, hq, hts⟩
      · show a :: es.filterMap Event.action = a :: as
        rw [hes]
      · rintro i ⟨⟩

/-- **Asynchrony cannot be seen by one app.**  If the writes of one device only are in flight and only this
device acts, reading the newest snapshots, then at every moment of an orderly run its screens, and the
database as it reads it, are those of the app that stores the writes of each action at once; and each run
of that app is such a run, at the end of which everything is stored. -/
theorem alone_at_once (hw : w.Only c) :
    (∀ es t, Run step (fun s e => e.Orderly s ∧ e.By c) w es t →
      Run (stepAtOnce c) (fun _ a => a.Newest) (w.settled c) (es.filterMap Event.action)
        (t.settled c) ∧
      t.server.view c 0 = some (t.settled c).server.db ∧
      (t.server.Quiescent → (t.settled c).server.db = t.server.db)) ∧
    ∀ as v, Run (stepAtOnce c) (fun _ a => a.Newest) (w.settled c) as v →
      ∃ es t, es.filterMap Event.action = as ∧
        Run step (fun s e => e.Orderly s ∧ e.By c) w es t ∧ t.server.Quiescent ∧ t.settled c = v := by
  refine ⟨?_, fun as v hv => hw.exists_run hv⟩
  intro es t hr
  refine ⟨hw.settled_run hr, rfl, ?_⟩
  intro hq
  show t.server.db.applyAll (t.server.pending c) = t.server.db
  rw [Net.Quiescent.pending hq, Store.applyAll_nil]

/-- One user submits a post, pins it and completes it from the Pinned list before any of the four last
writes has arrived. -/
theorem alone_at_once_completing : ∃ (es : List Event) (t : World), ¬ t.server.Quiescent ∧
    t.awards = [("u", some "p")] ∧
    Run (stepAtOnce 0) (fun _ a => a.Newest) (World.init.settled 0) (es.filterMap Event.action)
      (t.settled 0) := by
  obtain ⟨t, ht, hq, ha⟩ := exists_run_of_exec step (fun s e => e.Orderly s ∧ e.By 0) .init
    (signUpScript 0 "u" (some "me.png") ++ submitScript 0 "p" (some "p.png") ++ pinScript 0 ++
      openPinsScript 0 ++ [.act 0 (.pinCheck 0)])
    (fun w => ¬ w.server.Quiescent ∧ w.awards = [("u", some "p")]) (by decide +kernel)
  have honly : World.init.Only 0 := by
    rintro x ⟨⟩
  exact ⟨_, t, hq, ha, ((alone_at_once honly).1 _ t ht).1⟩

end CommServe
