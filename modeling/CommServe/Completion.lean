import CommServe.Soundness

/-! # A post is completed once, if nobody completes it again

Neither `handleCheckClick` looks at the shared state, and the flag they do look at,
`sender.isSelected`, is set to the value it already has.  So a post can be completed as often as a
copy of it is on display, and twice from one row.

`Uncompleted` says that a completing tap comes while `completed/<postId>` is neither stored nor on its
way.  Then its `completedBy` is a leaf that is written once (`Net.Once`), and the awards on account of
the post are bounded by whether that leaf has a value (`Single`). -/

namespace CommServe

open RecordStore Sync Transition

/-- Who completed a post, as the server stores it. -/
def World.completedBy (w : World) (p : String) : Option Value :=
  w.server.db.node (.completed p) .completedBy

/-- Who completed a post once the writes in flight have landed. -/
def World.newestCompletedBy (w : World) (p : String) : Option Value :=
  w.server.latest (.completed p) .completedBy

/-- How many awards were made on account of a post. -/
def World.awardsFor (w : World) (p : String) : ℕ := w.awards.countP (fun a => a.2 = some p)

/-- A tap that completes the post finds no completed post, stored or on its way. -/
def Uncompleted (p : String) (w : World) (e : Event) : Prop :=
  w.completing e = some p → w.newestCompletedBy p = none

instance (p : String) (w : World) (e : Event) : Decidable (Uncompleted p w e) :=
  inferInstanceAs (Decidable (_ → _))

/-- The post was completed at most once, and an award was made only if it was. -/
structure Single (p : String) (w : World) : Prop where
  once : w.server.Once (.completed p) .completedBy
  awards : w.awardsFor p ≤ if (w.newestCompletedBy p).isSome then 1 else 0

variable {w w' : World} {p : String}

/-- Of all actions only a completion of the post touches its completed record, and only from the
Pinned list it makes an award. -/
theorem Issues.completedBy (hs : w.Sound) {c : ℕ} {a : Action} {ws : List DbWrite}
    {us : List String} {ps : List Post} {as : List (String × Option String)}
    (h : Issues w c a ws us ps as) (p : String) :
    (ws.filterMap (fun x => x.effectAt (.completed p) .completedBy) = [] ∧
      as.countP (fun a => a.2 = some p) = 0) ∨
    (w.completing (.act c a) = some p ∧
      (∃ v, ws.filterMap (fun x => x.effectAt (.completed p) .completedBy) = [some v]) ∧
      as.countP (fun a => a.2 = some p) ≤ 1) := by
  cases h with
  | @homeCheck cell tag uid url post hu hrow hurl =>
      by_cases hp : post.postId = p
      · refine Or.inr ⟨?_, ⟨.str uid, by simp [Write.effectAt, hp]⟩, by simp⟩
        simp [World.completing, hu, hrow, hurl, hp]
      · exact Or.inl ⟨by simp [Write.effectAt, hp], rfl⟩
  | @credit tag g hg hfit hrow =>
      -- every row of the Pinned list is complete, so no award goes without the completion
      obtain ⟨-, hmem, -⟩ := PinController.guards_eq_some hg
      obtain ⟨post, -, he, url, hurl⟩ := (hs.copies c).fav _ (List.mem_of_getElem? hmem)
      exact absurd hurl (hrow post url he)
  | @pinCheck tag g url post hg hfit hrow hurl =>
      by_cases hp : post.postId = p
      · refine Or.inr ⟨?_, ⟨.str g.name, by simp [Write.effectAt, hp]⟩, by simp [hp]⟩
        simp [World.completing, hg, hfit, hrow, hurl, hp]
      · exact Or.inl ⟨by simp [Write.effectAt, hp], by simp [hp]⟩
  | _ => exact Or.inl ⟨by simp [Write.effectAt], rfl⟩

theorem Single.act (h : Single p w) (hs : w.Sound) {c : ℕ} {a : Action}
    (hu : Uncompleted p w (.act c a)) (hstep : step w (.act c a) = some w') :
    Single p w' ∧ ∀ v, w.completedBy p = some v → w'.completedBy p = some v := by
  obtain ⟨ws, us, ps, as, hi, hserver, -, -, hawards⟩ := step_issues hstep
  have hstored : w'.completedBy p = w.completedBy p := by
    rw [World.completedBy, hserver]
    rfl
  have hnewest : w'.newestCompletedBy p =
      (ws.filterMap fun x => x.effectAt (.completed p) .completedBy).getLastD
        (w.newestCompletedBy p) := by
    rw [World.newestCompletedBy, hserver, Net.latest_issue]
    rfl
  have hcount : w'.awardsFor p = w.awardsFor p + as.countP (fun a => a.2 = some p) := by
    rw [World.awardsFor, hawards, List.countP_append]
    rfl
  have hold := h.awards
  refine ⟨⟨?_, ?_⟩, fun v hv => hstored.trans hv⟩
  · rw [hserver]
    refine h.once.issue ?_
    rcases hi.completedBy hs p with ⟨hws, -⟩ | ⟨hc, hws, -⟩
    · exact Or.inl hws
    · exact Or.inr ⟨hu hc, hws⟩
  · rw [hcount, hnewest]
    rcases hi.completedBy hs p with ⟨hws, has⟩ | ⟨hc, ⟨v, hws⟩, has⟩
    · rw [hws, has]
      exact hold
    · -- before the completion there was no award
      rw [hu hc] at hold
      rw [hws]
      simp at hold ⊢
      omega

theorem Single.deliver (h : Single p w) {i : ℕ} (hstep : step w (.deliver i) = some w') :
    Single p w' ∧ ∀ v, w.completedBy p = some v → w'.completedBy p = some v := by
  obtain ⟨n, hn, rfl⟩ := step_deliver hstep
  obtain ⟨honce, hlatest, hstored⟩ := h.once.deliver hn
  refine ⟨⟨honce, ?_⟩, hstored⟩
  rw [World.newestCompletedBy, hlatest]
  exact h.awards

theorem Single.step (h : Single p w) (hs : w.Sound) {e : Event} (ha : e.Accepted)
    (hu : Uncompleted p w e) (hstep : CommServe.step w e = some w') :
    Single p w' ∧ ∀ v, w.completedBy p = some v → w'.completedBy p = some v := by
  cases e with
  | act c a => exact h.act hs hu hstep
  | deliver i => exact h.deliver hstep
  | reject i => exact ha.elim

theorem Single.init (p : String) : Single p .init where
  once := Or.inl rfl
  awards := Nat.zero_le _

theorem Run.single {es : List Event}
    (hr : Run CommServe.step (fun s e => e.Accepted ∧ Uncompleted p s e) .init es w) :
    w.Sound ∧ Single p w :=
  ⟨Run.sound hr, hr.invariant_of World.Sound (Single p) (fun _ _ _ hs _ hst => hs.step hst)
    (fun _ _ _ hs h ⟨ha, hu⟩ hst => (h.step hs ha hu hst).1) .init (.init p)⟩

theorem World.Sound.completedBy (hs : w.Sound) (h : w.server.db.Present (.completed p)) :
    ∃ v, w.completedBy p = some v := by
  obtain ⟨post, -, -, -, by', he⟩ := Good.completed_post hs.net.db h
  refine ⟨.str by', ?_⟩
  rw [World.completedBy, he]
  rfl

/-- **A post that is only completed while it is not is completed once**: who completed it stays,
and at most one award is made on its account. -/
theorem completed_once {t : World} {es fs : List Event}
    (h₁ : Run CommServe.step (fun s e => e.Accepted ∧ Uncompleted p s e) .init es w)
    (h₂ : Run CommServe.step (fun s e => e.Accepted ∧ Uncompleted p s e) w fs t) :
    (w.server.db.Present (.completed p) → t.completedBy p = w.completedBy p) ∧
      t.awardsFor p ≤ 1 := by
  obtain ⟨hs, hw⟩ := Run.single h₁
  have hstays := h₂.invariant_of World.Sound
    (fun s => Single p s ∧ ∀ v, w.completedBy p = some v → s.completedBy p = some v)
    (fun _ _ _ hs _ hst => hs.step hst)
    ?_ hs ⟨hw, fun _ hv => hv⟩
  swap
  · intro s e s' hs h he hst
    have hnext := h.1.step hs he.1 he.2 hst
    exact ⟨hnext.1, fun v hv => hnext.2 v (h.2 v hv)⟩
  constructor
  · intro hpresent
    obtain ⟨v, hv⟩ := hs.completedBy hpresent
    rw [hv, hstays.2 v hv]
  · have hawards := hstays.1.awards
    split_ifs at hawards <;> omega

/-- Two users, each on the Pinned list with the same post. -/
def bothPinnedScript : List Event :=
  signUpScript 0 "u" (some "me.png") ++ signUpScript 1 "v" (some "me.png") ++
    submitScript 0 "p" (some "p.png") ++ pinScript 0 ++ pinScript 1 ++ openPinsScript 0 ++
    openPinsScript 1

/-- The user of app `c` completes the post from the Pinned list. -/
def completePinned (c : ℕ) : List Event := [.act c (.pinCheck 0)] ++ deliverScript 4

/-- One user completes the post, and nobody does again. -/
theorem completed_once_by_one : ∃ w t : World, w.server.db.Present (.completed "p") ∧
    t.completedBy "p" = w.completedBy "p" ∧ t.awardsFor "p" ≤ 1 := by
  obtain ⟨w, hw, hpresent, ht⟩ := exists_run_of_exec CommServe.step
    (fun s e => e.Accepted ∧ Uncompleted "p" s e) .init (bothPinnedScript ++ completePinned 0)
    (fun w => w.server.db.Present (.completed "p") ∧
      (exec CommServe.step (fun s e => e.Accepted ∧ Uncompleted "p" s e) w
        [.act 1 .checkedAppear, .act 1 (.checkedSnapshot 0)]).any (fun _ => decide True) = true) (by decide +kernel)
  obtain ⟨t, ht, -⟩ := exists_run_of_exec _ _ _ _ _ ht
  have hboth := completed_once hw ht
  exact ⟨w, t, hpresent, hboth.1 hpresent, hboth.2⟩

/-- Both users complete the post from copies on their own lists: the second completion replaces who
completed it, and both are credited. -/
theorem completed_twice :
    ¬ ∀ (p : String) (w t : World) (es fs : List Event),
      Run CommServe.step (fun _ e => e.Accepted) .init es w →
      Run CommServe.step (fun _ e => e.Accepted) w fs t →
      (w.server.db.Present (.completed p) → t.completedBy p = w.completedBy p) ∧
        t.awardsFor p ≤ 1 := by
  intro h
  obtain ⟨w, hw, hpresent, ht⟩ := exists_run_of_exec CommServe.step (fun _ e => e.Accepted) .init
    (bothPinnedScript ++ completePinned 0)
    (fun w => w.server.db.Present (.completed "p") ∧
      (exec CommServe.step (fun _ e => e.Accepted) w (completePinned 1)).any
        (fun t => decide (t.completedBy "p" ≠ w.completedBy "p" ∧ t.awardsFor "p" = 2)) = true)
    (by decide +kernel)
  obtain ⟨t, ht, hne, -⟩ := exists_run_of_exec _ _ _ _ _ ht
  exact hne ((h "p" w t _ _ hw ht).1 hpresent)

end CommServe
