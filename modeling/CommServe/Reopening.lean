import CommServe.Lifecycle
import CommServe.Completion

/-! # A post is open once

Deliveries out of order and refusals can lose a post, but they cannot bring one back.  The id of a post
is fresh, so its submission is on its way at most once, and no longer when the post is open
(`OpensOnce`); what else can arrive at its place removes it.  So a post that was open and is not open any
more stays away, in every run whatsoever. -/

namespace CommServe

open RecordStore Method Sync Transition

/-- The submission of the post is on its way once at most, and not while the post is open. -/
structure OpensOnce (post : Post) (w : World) : Prop where
  flights : w.server.flights (AddPostController.store post) ≤ 1
  closed : w.Open post → w.server.flights (AddPostController.store post) = 0

variable {w w' : World} {post : Post} {c : ℕ}

theorem World.Sound.flights_act (hs' : w'.Sound) (hp : post ∈ w.submitted) {a : Action}
    (h : CommServe.step w (.act c a) = some w') :
    w'.server.flights (AddPostController.store post) =
        w.server.flights (AddPostController.store post) ∧ (w'.Open post ↔ w.Open post) := by
  obtain ⟨r, hr, rfl⟩ := step_act h
  refine ⟨?_, Iff.rfl⟩
  show (w.server.issue c r.writes).flights _ = _
  rw [Net.flights_issue, List.count_eq_zero.mpr (hr.store_not_mem hs' hp), Nat.add_zero]

/-- A delivery opens a post only if it is the delivery of its submission. -/
theorem World.Sound.flights_deliver (hs : w.Sound) (hp : post ∈ w.submitted) {i : ℕ}
    (h : CommServe.step w (.deliver i) = some w') :
    (w.server.flights (AddPostController.store post) =
        w'.server.flights (AddPostController.store post) + 1) ∨
      (w.server.flights (AddPostController.store post) =
        w'.server.flights (AddPostController.store post) ∧ (w'.Open post → w.Open post)) := by
  obtain ⟨n, hn, rfl⟩ := step_deliver h
  obtain ⟨x, ⟨d, hx⟩, hdb, hflights⟩ := Net.flights_deliver hn
  have hshape : Shape w.submitted x := hs.net.inFlight _ hx
  have hcount := hflights (AddPostController.store post)
  by_cases hxs : x = AddPostController.store post
  · rw [if_pos hxs] at hcount
    exact Or.inl hcount
  · rw [if_neg hxs] at hcount
    refine Or.inr ⟨hcount, ?_⟩
    unfold World.Open
    rw [hdb]
    intro ho
    by_cases hk : x.key = .posts post.postCategory post.postId
    · -- what else arrives at the place of an open post removes it
      have hremove := (hs.on_posts hp hshape hk).resolve_left hxs
      rw [hremove] at ho
      exact absurd ho (Store.not_present_remove _ _)
    · exact (Store.present_apply_ne (Ne.symm hk)).mp ho

theorem World.Sound.flights_reject (hp : post ∈ w.submitted) {i : ℕ}
    (h : CommServe.step w (.reject i) = some w') :
    w'.server.flights (AddPostController.store post) ≤
        w.server.flights (AddPostController.store post) ∧ (w'.Open post ↔ w.Open post) ∧
      post ∈ w'.submitted := by
  obtain ⟨n, hn, rfl⟩ := step_reject h
  obtain ⟨hdb, hle⟩ := Net.flights_reject hn (AddPostController.store post)
  refine ⟨hle, ?_, hp⟩
  unfold World.Open
  rw [hdb]

theorem step_submitted {e : Event} (h : CommServe.step w e = some w') :
    w.submitted ⊆ w'.submitted := by
  cases e with
  | act c a =>
      obtain ⟨r, -, rfl⟩ := step_act h
      exact List.subset_append_left _ _
  | deliver i =>
      obtain ⟨n, -, rfl⟩ := step_deliver h
      exact List.Subset.refl _
  | reject i =>
      obtain ⟨n, -, rfl⟩ := step_reject h
      exact List.Subset.refl _

theorem OpensOnce.step (hs : w.Sound) (ho : ∀ post ∈ w.submitted, OpensOnce post w) {e : Event}
    (h : CommServe.step w e = some w') : ∀ post ∈ w'.submitted, OpensOnce post w' := by
  have hs' := hs.step h
  intro post hp'
  by_cases hp : post ∈ w.submitted
  · obtain ⟨hle, hclosed⟩ := ho post hp
    cases e with
    | act c a =>
        obtain ⟨hf, hopen⟩ := hs'.flights_act hp h
        exact ⟨hf ▸ hle, fun hw => hf ▸ hclosed (hopen.mp hw)⟩
    | deliver i =>
        rcases hs.flights_deliver hp h with hf | ⟨hf, hopen⟩
        · exact ⟨by omega, fun _ => by omega⟩
        · exact ⟨by omega, fun hw => hf ▸ hclosed (hopen hw)⟩
    | reject i =>
        obtain ⟨hf, hopen, -⟩ := World.Sound.flights_reject hp h
        refine ⟨hf.trans hle, ?_⟩
        intro hw
        have hzero := hclosed (hopen.mp hw)
        omega
  · -- the post was submitted just now
    cases e with
    | act c a =>
        obtain ⟨r, hr, rfl⟩ := step_act h
        have hnew : post ∈ r.submitted := (List.mem_append.mp hp').resolve_left hp
        have hzero : w.server.flights (AddPostController.store post) = 0 := by
          by_contra hpos
          obtain ⟨d, hd⟩ := Net.flights_pos.mp (Nat.pos_of_ne_zero hpos)
          exact (hs.fresh_keys hs' hnew (Net.mem_pending.mpr hd)).1 rfl
        refine ⟨?_, ?_⟩
        · show (w.server.issue c r.writes).flights _ ≤ 1
          rw [Net.flights_issue, hzero, hr.issues.submitted hnew]
          simp
        · intro hw
          obtain ⟨q, hq, hid, -⟩ := Good.open_post hs.net.db hw
          exact absurd hid (hs'.new_id hnew q hq)
    | deliver i =>
        obtain ⟨n, -, rfl⟩ := step_deliver h
        exact absurd hp' hp
    | reject i =>
        obtain ⟨n, -, rfl⟩ := step_reject h
        exact absurd hp' hp

theorem OpensOnce.run {es : List Event} (hr : Run CommServe.step (fun _ _ => True) .init es w) :
    ∀ post ∈ w.submitted, OpensOnce post w :=
  hr.invariant_of World.Sound (fun s => ∀ post ∈ s.submitted, OpensOnce post s)
    (fun _ _ _ hs _ hst => hs.step hst) (fun _ _ _ hs h _ hst => OpensOnce.step hs h hst) .init
    (by simp [World.init])

/-- Once the submission has been handled it is not issued again. -/
theorem World.Sound.handled (hs : w.Sound) (hp : post ∈ w.submitted)
    (hf : w.server.flights (AddPostController.store post) = 0) {e : Event}
    (h : CommServe.step w e = some w') :
    w'.server.flights (AddPostController.store post) = 0 ∧ (w'.Open post → w.Open post) := by
  cases e with
  | act c a =>
      obtain ⟨hf', hopen⟩ := (hs.step h).flights_act hp h
      exact ⟨by omega, hopen.mp⟩
  | deliver i =>
      rcases hs.flights_deliver hp h with hf' | ⟨hf', hopen⟩
      · omega
      · exact ⟨by omega, hopen⟩
  | reject i =>
      obtain ⟨hf', hopen, -⟩ := World.Sound.flights_reject hp h
      exact ⟨by omega, hopen.mp⟩

theorem Run.handled {t : World} {es : List Event} (hr : Run CommServe.step (fun _ _ => True) w es t)
    (hs : w.Sound) (hp : post ∈ w.submitted)
    (hf : w.server.flights (AddPostController.store post) = 0) :
    t.Sound ∧ post ∈ t.submitted ∧ t.server.flights (AddPostController.store post) = 0 ∧
      (t.Open post → w.Open post) := by
  refine hr.invariant (fun u => u.Sound ∧ post ∈ u.submitted ∧
    u.server.flights (AddPostController.store post) = 0 ∧ (u.Open post → w.Open post)) ?_
    ⟨hs, hp, hf, id⟩
  rintro u e u' ⟨hs, hp, hf, ho⟩ - hst
  obtain ⟨hf', ho'⟩ := hs.handled hp hf hst
  exact ⟨hs.step hst, step_submitted hst hp, hf', fun hu => ho (ho' hu)⟩

/-- **A post is open once.**  Whatever is refused and in whatever order the writes arrive, the record of an
open post does not change while it is open, and a post that was open and is not any more is never open
again, under any category. -/
theorem opened_once {t : World} {es fs : List Event} {cat p : String}
    (hr : Run CommServe.step (fun _ _ => True) .init es w)
    (hw : w.server.db.Present (.posts cat p))
    (ht : Run CommServe.step (fun _ _ => True) w fs t) :
    (t.server.db.Present (.posts cat p) →
      t.server.db.node (.posts cat p) = w.server.db.node (.posts cat p)) ∧
    (¬ t.server.db.Present (.posts cat p) →
      ∀ u gs, Run CommServe.step (fun _ _ => True) t gs u →
        ∀ cat', ¬ u.server.db.Present (.posts cat' p)) := by
  have hs := Run.sound hr
  obtain ⟨post, hp, rfl, rfl, hnode⟩ := Good.open_post hs.net.db hw
  obtain ⟨hst, hpt, hft, -⟩ := Run.handled ht hs hp ((OpensOnce.run hr post hp).closed hw)
  constructor
  · intro hopen
    obtain ⟨q, hq, hid, -, hq'⟩ := Good.open_post hst.net.db hopen
    obtain rfl := hst.unique hq hpt hid
    rw [hq', hnode]
  · intro hclosed u gs hu cat' hopen
    obtain ⟨hsu, hpu, -, hback⟩ := Run.handled hu hst hpt hft
    have hcat := hsu.category hpu hopen
    subst hcat
    exact hclosed (hback hopen)

/-- A post that two users have pinned stays away after one of them has completed it. -/
theorem opened_once_pinned : ∃ t : World, t.awardsFor "p" = 1 ∧
    ∀ u gs, Run CommServe.step (fun _ _ => True) t gs u →
      ∀ cat, ¬ u.server.db.Present (.posts cat "p") := by
  obtain ⟨w, hr, hw, ht⟩ := exists_run_of_exec CommServe.step (fun _ _ => True) .init bothPinnedScript
    (fun w => w.server.db.Present (.posts "Study" "p") ∧
      (exec CommServe.step (fun _ _ => True) w (completePinned 0)).any
        (fun t => decide (t.awardsFor "p" = 1 ∧ ¬ t.server.db.Present (.posts "Study" "p"))) = true)
    (by decide +kernel)
  obtain ⟨t, ht, ha, hclosed⟩ := exists_run_of_exec _ _ _ _ _ ht
  exact ⟨t, ha, (opened_once hr hw ht).2 hclosed⟩

end CommServe
