import CommServe.Reactions

/-! # Karma is counted, if it is read fresh

`PinController.handleCheckClick` adds 50 to the karma that `fetchUserInfo` cached and writes the
sum.  The cache is read once and never refreshed, not even by the app's own credits, so a second
completion from one screen writes the same sum again.

`FreshKarma` says that a completion finds the newest karma in the cache, 50 below `Int.max` at least,
and that a newer karma write does not overtake an older one.  Along runs that meet it the newest karma
of a user grows by 50 with every tap of the user that passes the guards (`newestKarma_act`), and once
nothing is in flight it is the stored one. -/

namespace CommServe

open RecordStore Sync Transition

/-- The karma of a user as the server stores it. -/
def World.karma (w : World) (uid : String) : Option Value := w.server.db.node (.users uid) .karmaPoints

/-- The karma of a user once the writes in flight have landed in the order of issue. -/
def World.newestKarma (w : World) (uid : String) : Option Value :=
  w.server.latest (.users uid) .karmaPoints

/-- The step is a tap of the user on a check button of a Pinned list that passes the guards. -/
def PassesGuards (uid : String) (w : World) (e : Event) : Prop :=
  ∃ g, g ∈ w.crediting e ∧ g.uid = uid

instance (uid : String) (w : World) (e : Event) : Decidable (PassesGuards uid w e) :=
  inferInstanceAs (Decidable (∃ g, g ∈ w.crediting e ∧ g.uid = uid))

/-- A tap that passes the guards finds the newest karma in `appUser`, the sum fits into an `Int`, and the
newest karma write does not overtake another. -/
def FreshKarma (uid : String) (w : World) (e : Event) : Prop :=
  (∀ g ∈ w.crediting e, g.uid = uid →
    w.newestKarma uid = some (.int g.point) ∧ g.point + 50 ≤ maxInt) ∧
    ∀ i ∈ e.delivered, ¬ w.server.Overtakes i (.users uid) .karmaPoints

instance (uid : String) (w : World) (e : Event) : Decidable (FreshKarma uid w e) :=
  inferInstanceAs (Decidable (_ ∧ _))

variable {w w' : World} {uid : String} {c : ℕ} {a : Action}

/-- What the writes make of the karma of the user. -/
def karmaEffects (uid : String) (ws : List DbWrite) : List (Option Value) :=
  ws.filterMap fun x => x.effectAt (.users uid) .karmaPoints

theorem newestKarma_issue {ws : List DbWrite} (h : w'.server = w.server.issue c ws) :
    w'.newestKarma uid = (karmaEffects uid ws).getLastD (w.newestKarma uid) := by
  rw [World.newestKarma, h, Net.latest_issue]
  rfl

theorem Issues.karmaEffects {ws : List DbWrite} {us : List String} {ps : List Post}
    {as : List (String × Option String)} (h : Issues w c a ws us ps as) (hu : uid ∈ w.accounts)
    (hno : ¬ PassesGuards uid w (.act c a)) : karmaEffects uid ws = [] := by
  unfold CommServe.karmaEffects
  cases h with
  | @credit tag g hg hfit hrow =>
      have hne : g.uid ≠ uid := fun he => hno ⟨g, hg, he⟩
      simp [Write.effectAt, hne]
  | @pinCheck tag g url post hg hfit hrow hurl =>
      have hne : g.uid ≠ uid := fun he => hno ⟨g, hg, he⟩
      simp [Write.effectAt, hne]
  | @register j i v request hv =>
      have hne : v ≠ uid := fun e => hv (e ▸ hu)
      simp [Write.effectAt, SignUpController.userData, hne]
  | _ => simp [Write.effectAt]

theorem karmaEffects_crediting {g : PinController.Guards} (hg : w.crediting (.act c a) = some g)
    (hfit : g.point + 50 ≤ maxInt) {r : Reaction} (hr : react w c a = some r) :
    karmaEffects g.uid r.writes = [some (.int (g.point + 50))] := by
  cases a with
  | pinCheck tag =>
      obtain rfl := Option.some.inj (react_eq_some hr).2
      unfold karmaEffects
      rcases @PinController.handleCheckClick_guarded _ _ ⟨tag, false⟩ g hg hfit with
        ⟨hw, -⟩ | ⟨post, url, -, -, -, hw⟩
      all_goals
        unfold Handler.writes at hw
        simp [hw, Write.effectAt]
  | _ => cases hg

/-- An action moves the newest karma by 50 if it passes the guards. -/
theorem newestKarma_act {k : ℤ} (hk : w.newestKarma uid = some (.int k)) (hu : uid ∈ w.accounts)
    (hf : FreshKarma uid w (.act c a)) (h : step w (.act c a) = some w') :
    w'.newestKarma uid =
      some (.int (k + 50 * ((if PassesGuards uid w (.act c a) then 1 else 0 : ℕ) : ℤ))) := by
  obtain ⟨r, hr, rfl⟩ := Option.map_eq_some_iff.mp h
  rw [newestKarma_issue rfl]
  split_ifs with hpass
  · obtain ⟨g, hg, rfl⟩ := hpass
    obtain ⟨hnewest, hfit⟩ := hf.1 g hg rfl
    have hpoint : k = g.point := by simpa [hk] using hnewest
    rw [karmaEffects_crediting hg hfit hr, hpoint]
    rfl
  · rw [(reaction_spec (react_eq_some hr).2).issues.karmaEffects hu hpass]
    simpa using hk

theorem newestKarma_deliver {i : ℕ} (hf : FreshKarma uid w (.deliver i))
    (h : step w (.deliver i) = some w') : w'.newestKarma uid = w.newestKarma uid := by
  obtain ⟨n, hn, rfl⟩ := step_deliver h
  exact Net.latest_deliver hn (hf.2 i rfl)

/-- **Completions that read the karma fresh are all counted.** -/
theorem karma_counted {t : World} {es : List Event} {k : ℤ} (hu : uid ∈ w.accounts)
    (hk : w.newestKarma uid = some (.int k))
    (hr : Run step (fun s e => e.Accepted ∧ FreshKarma uid s e) w es t)
    (hq : t.server.Quiescent) :
    t.karma uid = some (.int (k + 50 * (count step (PassesGuards uid) w es : ℤ))) := by
  have hcounted := hr.counted (PassesGuards uid)
    (fun s n => uid ∈ s.accounts ∧ s.newestKarma uid = some (.int (k + 50 * (n : ℤ)))) ?_
    (n := 0) ⟨hu, by simpa using hk⟩
  · rw [Nat.zero_add] at hcounted
    rw [← hcounted.2, World.newestKarma, Net.latest_of_quiescent hq]
    rfl
  · rintro s e s' n ⟨hu, hk⟩ ⟨hacc, hf⟩ hs
    cases e with
    | act c a =>
        obtain ⟨ws, us, ps, as, -, -, hacc', -, -⟩ := step_issues hs
        refine ⟨by rw [hacc']; exact List.mem_append_left _ hu, ?_⟩
        rw [newestKarma_act hk hu hf hs, Nat.cast_add, mul_add, add_assoc]
    | deliver i =>
        have hno : ¬ PassesGuards uid s (.deliver i) := by rintro ⟨g, ⟨⟩, -⟩
        have hd := newestKarma_deliver hf hs
        obtain ⟨n, -, rfl⟩ := step_deliver hs
        rw [if_neg hno]
        exact ⟨hu, hd.trans hk⟩
    | reject i => exact hacc.elim

/-- One app, one user with two pinned posts on the Pinned list. -/
def twoPinsScript : List Event :=
  signUpScript 0 "u" (some "me.png") ++ submitScript 0 "p" (some "p.png") ++ pinScript 0 ++
    submitScript 0 "q" (some "q.png") ++ pinScript 0 ++ openPinsScript 0

/-- The user completes the first post. -/
def completeFirst : List Event := [.act 0 (.pinCheck 0)] ++ deliverScript 4

/-- The user completes the second post from the list as it was. -/
def completeSecond : List Event := [.act 0 (.pinCheck 1)] ++ deliverScript 4

/-- The first of the two completions reads the karma fresh, and counts. -/
theorem karma_counted_once : ∃ w t : World, w.newestKarma "u" = some (.int 0) ∧
    Run step (fun s e => e.Accepted ∧ FreshKarma "u" s e) w completeFirst t ∧
    t.karma "u" = some (.int (0 + 50 * (count step (PassesGuards "u") w completeFirst : ℤ))) := by
  obtain ⟨w, -, hu, hk, ht⟩ := exists_run_of_exec step (fun _ e => e.Accepted) .init twoPinsScript
    (fun w => "u" ∈ w.accounts ∧ w.newestKarma "u" = some (.int 0) ∧
      (exec step (fun s e => e.Accepted ∧ FreshKarma "u" s e) w completeFirst).any
        (fun t => decide t.server.Quiescent) = true) (by decide +kernel)
  obtain ⟨t, hr, hq⟩ := exists_run_of_exec _ _ _ _ _ ht
  exact ⟨w, t, hk, hr, karma_counted hu hk hr hq⟩

/-- Both pass the guards, but the stored karma grows by 50 only. -/
theorem karma_lost :
    ¬ ∀ (uid : String) (k : ℤ) (w t : World) (setup es : List Event),
      Run step (fun _ e => e.Accepted) .init setup w → uid ∈ w.accounts →
      w.newestKarma uid = some (.int k) →
      Run step (fun _ e => e.Accepted) w es t → t.server.Quiescent →
      t.karma uid = some (.int (k + 50 * (count step (PassesGuards uid) w es : ℤ))) := by
  intro h
  obtain ⟨w, hw, hu, hk, ht⟩ := exists_run_of_exec step (fun _ e => e.Accepted) .init twoPinsScript
    (fun w => "u" ∈ w.accounts ∧ w.newestKarma "u" = some (.int 0) ∧
      (exec step (fun _ e => e.Accepted) w (completeFirst ++ completeSecond)).any
        (fun t => decide (t.server.Quiescent ∧
          t.karma "u" ≠ some (.int (0 + 50 * (count step (PassesGuards "u") w
            (completeFirst ++ completeSecond) : ℤ))))) = true)
    (by decide +kernel)
  obtain ⟨t, hr, hq, hne⟩ := exists_run_of_exec _ _ _ _ _ ht
  exact hne (h _ _ _ _ _ _ hw hu hk hr hq)

end CommServe
