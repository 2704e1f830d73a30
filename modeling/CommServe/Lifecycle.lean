import CommServe.Soundness

/-! # The life of a post

A post is submitted by one write and completed by two: one creates `completed/<postId>`, the next of the
same device removes `posts/<category>/<postId>`.  With deliveries in order the removal comes after the
creation, so the post is always in one of the two places, however stale the copies are from which
it is completed.

`Lifecycle post w` is the invariant: while the submission is in flight nobody but the submitting
device knows the post (`Hidden`); in every queue the removal comes behind a creation unless the post is
completed already, and behind every creation comes a removal. -/

namespace CommServe

open RecordStore Method Sync Transition

/-- The post lies under its category. -/
def World.Open (w : World) (post : Post) : Prop :=
  w.server.db.Present (.posts post.postCategory post.postId)

/-- The post was completed. -/
def World.Done (w : World) (post : Post) : Prop := w.server.db.Present (.completed post.postId)

/-- The write that removes the open post. -/
def removeOpen (post : Post) : DbWrite := .remove (.posts post.postCategory post.postId)

/-- The submission of the post has not arrived yet. -/
def World.Submitting (w : World) (post : Post) : Prop :=
  ∃ c, AddPostController.store post ∈ w.server.pending c

/-- All submitted posts but one. -/
def World.others (w : World) (post : Post) : List Post := w.submitted.filter (fun q => q ≠ post)

/-- Only device `c` knows the post, and its writes on the post come after the submission. -/
structure Hidden (post : Post) (w : World) (c : ℕ) : Prop where
  db : w.server.db.All (Good (w.others post))
  past : ∀ s ∈ w.server.past, s.All (Good (w.others post))
  queues : ∀ c', c' ≠ c → ∀ x ∈ w.server.pending c', Shape (w.others post) x
  copies : ∀ c', c' ≠ c → (w.dev c').Copies (w.others post)
  queue : ∃ q₁ q₂, w.server.pending c = q₁ ++ AddPostController.store post :: q₂ ∧
    (∀ x ∈ q₁, Shape (w.others post) x) ∧ AddPostController.store post ∉ q₂

/-- What holds of a submitted post in every run with deliveries in order. -/
structure Lifecycle (post : Post) (w : World) : Prop where
  hidden : ∀ c, AddPostController.store post ∈ w.server.pending c → Hidden post w c
  /-- A removal of the open post stands behind a creation of the completed one. -/
  guarded : w.Done post ∨ ∀ c, Guarded (fun x => x.key = .completed post.postId)
    (fun x => x = removeOpen post) (w.server.pending c)
  followed : ∀ c, Followed (fun x => x.key = .completed post.postId)
    (fun x => x = removeOpen post) (w.server.pending c)
  leaving : w.Done post → w.Open post → ∃ c, removeOpen post ∈ w.server.pending c
  somewhere : ¬ w.Submitting post → w.Open post ∨ w.Done post

variable {w w' : World} {post : Post} {c : ℕ}

/-! ### Writes on the two places -/

theorem mem_others {q : Post} : q ∈ w.others post ↔ q ∈ w.submitted ∧ q ≠ post := by
  simp [World.others]

theorem Shape.on_posts {ps : List Post} {x : DbWrite} (h : Shape ps x) {cat p : String}
    (hk : x.key = .posts cat p) :
    ∃ q ∈ ps, q.postId = p ∧ (x = AddPostController.store q ∨ x = removeOpen q) := by
  cases h with
  | @submit q hq =>
      injection hk with _ hid
      exact ⟨q, hq, hid, Or.inl rfl⟩
  | @close q hq =>
      injection hk with _ hid
      exact ⟨q, hq, hid, Or.inr rfl⟩
  | user hu => rw [hu] at hk; cases hk
  | _ => cases hk

theorem Shape.on_completed {ps : List Post} {x : DbWrite} (h : Shape ps x) {p : String}
    (hk : x.key = .completed p) :
    ∃ q ∈ ps, q.postId = p ∧ ∃ name, x = createCompleted q name := by
  cases h with
  | @create name url q hq hurl =>
      injection hk with hid
      exact ⟨q, hq, hid, name, rfl⟩
  | user hu => rw [hu] at hk; cases hk
  | _ => cases hk

theorem World.Sound.on_posts (hs : w.Sound) (hp : post ∈ w.submitted) {x : DbWrite}
    (hx : Shape w.submitted x) (hk : x.key = .posts post.postCategory post.postId) :
    x = AddPostController.store post ∨ x = removeOpen post := by
  obtain ⟨q, hq, hid, hx⟩ := hx.on_posts hk
  obtain rfl := hs.unique hq hp hid
  exact hx

section Apply

variable {db : Database} {x : DbWrite}

theorem present_store (db : Database) (post : Post) :
    (db.apply (AddPostController.store post)).Present (.posts post.postCategory post.postId) :=
  Store.present_update db _ .postId (.str post.postId) rfl

theorem present_create (db : Database) (post : Post) (name : String) :
    (db.apply (createCompleted post name)).Present (.completed post.postId) :=
  Store.present_update db _ .postId (.str post.postId) rfl

theorem Shape.done {ps : List Post} (hx : Shape ps x) {p : String}
    (h : db.Present (.completed p)) : (db.apply x).Present (.completed p) := by
  by_cases hk : x.key = .completed p
  · obtain ⟨q, -, rfl, name, rfl⟩ := hx.on_completed hk
    exact present_create db q name
  · exact (Store.present_apply_ne (Ne.symm hk)).mpr h

end Apply

/-- While the submission is in flight the post was not completed. -/
theorem Hidden.not_done (hs : w.Sound) (hp : post ∈ w.submitted) (h : Hidden post w c) :
    ¬ w.Done post := by
  intro hd
  obtain ⟨q, hq, hid, -⟩ := Good.completed_post h.db hd
  obtain ⟨hq, hne⟩ := mem_others.mp hq
  exact hne (hs.unique hq hp hid)

/-! ### A delivery -/

section Deliver

variable {n : Server} {d : ℕ} {x : DbWrite} {q : List DbWrite} (h : w.server.Pops n d x q)
include h

/-- What is known of the post beyond the submitting device stays the same. -/
theorem Hidden.deliver (hh : Hidden post w c)
    (hmem : AddPostController.store post ∈ n.pending c) : Hidden post { w with server := n } c := by
  -- the write that arrives is not about the post, and the queue of `c` keeps its form
  have ⟨hx, hqueue⟩ : Shape (w.others post) x ∧ ∃ q₁ q₂,
      n.pending c = q₁ ++ AddPostController.store post :: q₂ ∧
        (∀ x ∈ q₁, Shape (w.others post) x) ∧ AddPostController.store post ∉ q₂ := by
    obtain ⟨q₁, q₂, he, h₁, h₂⟩ := hh.queue
    by_cases hc : c = d
    · subst hc
      rw [h.head] at he
      cases q₁ with
      | nil =>
          obtain ⟨-, rfl⟩ := List.cons.inj he
          exact absurd (h.tail ▸ hmem) h₂
      | cons y q₁ =>
          obtain ⟨rfl, rfl⟩ := List.cons.inj he
          exact ⟨h₁ x List.mem_cons_self, q₁, q₂, h.tail,
            fun z hz => h₁ z (List.mem_cons_of_mem _ hz), h₂⟩
    · exact ⟨hh.queues d (Ne.symm hc) x h.mem, q₁, q₂, (h.others c hc).trans he, h₁, h₂⟩
  refine ⟨?_, ?_, ?_, hh.copies, hqueue⟩
  · rw [h.db]
    exact Store.all_apply hh.db hx.keeps
  · rw [h.past]
    intro s hs
    rcases List.mem_cons.mp hs with rfl | hs
    · exact hh.db
    · exact hh.past s hs
  · intro d' hd y hy
    exact hh.queues d' hd y (h.sub hy)

theorem World.open_pops_iff (hk : x.key ≠ .posts post.postCategory post.postId) :
    n.db.Present (.posts post.postCategory post.postId) ↔ w.Open post := by
  rw [h.db]
  exact Store.present_apply_ne (Ne.symm hk)

/-- A post that is completed and still open has its removal on its way. -/
theorem Lifecycle.leaving_pops (hl : Lifecycle post w) (hs : w.Sound) (hp : post ∈ w.submitted)
    (hx : Shape w.submitted x) (hd : n.db.Present (.completed post.postId))
    (ho : n.db.Present (.posts post.postCategory post.postId)) :
    ∃ c, removeOpen post ∈ n.pending c := by
  by_cases hk : x.key = .posts post.postCategory post.postId
  · rcases hs.on_posts hp hx hk with rfl | rfl
    · -- the submission arrives, and the post was not completed before
      refine absurd ?_ ((hl.hidden _ h.mem).not_done hs hp)
      rw [h.db] at hd
      exact (Store.present_apply_ne (by simp)).mp hd
    · -- the removal arrives
      rw [h.db] at ho
      exact absurd ho (Store.not_present_remove _ _)
  by_cases hk' : x.key = .completed post.postId
  · obtain ⟨y, hy, rfl⟩ := (h.followed hl.followed).1 hk'
    exact ⟨_, hy⟩
  · have hopen : w.Open post := (World.open_pops_iff h hk).mp ho
    rw [h.db] at hd
    obtain ⟨c, hc⟩ := hl.leaving ((Store.present_apply_ne (Ne.symm hk')).mp hd) hopen
    refine ⟨c, h.stay hc ?_⟩
    rintro rfl
    exact hk rfl

/-- A post whose submission has arrived is open or completed. -/
theorem Lifecycle.somewhere_pops (hl : Lifecycle post w) (hs : w.Sound) (hp : post ∈ w.submitted)
    (hx : Shape w.submitted x) (hns : ¬ ∃ c, AddPostController.store post ∈ n.pending c) :
    n.db.Present (.posts post.postCategory post.postId) ∨
      n.db.Present (.completed post.postId) := by
  have hdone : w.Done post → n.db.Present (.completed post.postId) := fun hd => h.db ▸ hx.done hd
  by_cases hxs : x = AddPostController.store post
  · refine Or.inl ?_
    rw [h.db, hxs]
    exact present_store _ post
  have hns' : ¬ w.Submitting post := by
    rintro ⟨c, hc⟩
    exact hns ⟨c, h.stay hc (Ne.symm hxs)⟩
  rcases hl.somewhere hns' with ho | hd
  · by_cases hk : x.key = .posts post.postCategory post.postId
    · -- the removal arrives, behind a creation
      have hr := (hs.on_posts hp hx hk).resolve_left hxs
      rcases hl.guarded with hd | hg
      · exact Or.inr (hdone hd)
      · exact absurd hr (h.guarded hg).1
    · exact Or.inl ((World.open_pops_iff h hk).mpr ho)
  · exact Or.inr (hdone hd)

theorem Lifecycle.pops (hl : Lifecycle post w) (hs : w.Sound) (hp : post ∈ w.submitted) :
    Lifecycle post { w with server := n } := by
  have hx : Shape w.submitted x := hs.net.inFlight _ (Net.mem_pending.mp h.mem)
  refine ⟨?_, ?_, (h.followed hl.followed).2, ?_, ?_⟩
  · intro d hd
    exact (hl.hidden d (h.sub hd)).deliver h hd
  · rcases hl.guarded with hd | hg
    · have hdone : n.db.Present (.completed post.postId) := h.db ▸ hx.done hd
      exact Or.inl hdone
    · refine (h.guarded hg).2.imp_left ?_
      intro hk
      obtain ⟨p, -, hid, name, rfl⟩ := hx.on_completed hk
      rw [World.Done, h.db, ← hid]
      exact present_create _ p name
  · exact hl.leaving_pops h hs hp hx
  · exact hl.somewhere_pops h hs hp hx

end Deliver

/-! ### An action -/

section Act

variable {a : Action} {ws : List DbWrite} {us : List String} {qs : List Post}
  {as : List (String × Option String)} (h : Issues w c a ws us qs as)
include h

theorem Issues.store_mem (hmem : AddPostController.store post ∈ ws) :
    ∃ q ∈ qs, q.postId = post.postId := by
  cases h with
  | @submit i metadata x q hx hq hc =>
      have he := congrArg Write.key (List.mem_singleton.mp hmem)
      injection he with _ hid
      exact ⟨q, List.mem_singleton_self q, hid.symm⟩
  | _ => simp [AddPostController.store, createCompleted, pinPost, updateKarma,
      SignUpController.store, UserInfoController.store] at hmem

theorem Issues.submitted (hp : post ∈ qs) : ws = [AddPostController.store post] := by
  cases h with
  | submit hx hq hc =>
      obtain rfl := List.mem_singleton.mp hp
      rfl
  | _ => cases hp

/-- Every action issues the creation of a completed post ahead of the removal of the open one. -/
theorem Issues.guarded (post : Post) :
    Guarded (fun x => x.key = .completed post.postId) (fun x => x = removeOpen post) ws := by
  cases h with
  | @homeCheck cell tag uid url q hu hrow hurl =>
      refine ⟨by simp [createCompleted, removeOpen], ?_⟩
      by_cases hid : q.postId = post.postId
      · exact Or.inl (by simp [hid])
      · exact Or.inr (.of_forall (by simp [removeOpen, hid]))
  | @pinCheck tag g url q hg hfit hrow hurl =>
      refine ⟨by simp [updateKarma, removeOpen], Or.inr ⟨by simp [createCompleted, removeOpen], ?_⟩⟩
      by_cases hid : q.postId = post.postId
      · exact Or.inl (by simp [hid])
      · exact Or.inr (.of_forall (by simp [removeOpen, hid]))
  | _ => exact .of_forall (by simp [removeOpen, AddPostController.store, pinPost, updateKarma,
      SignUpController.store, UserInfoController.store])

/-- The creation of a completed post is followed by the removal of the open one. -/
theorem Issues.followed (hs : w.Sound) (hp : post ∈ w.submitted) :
    Followed (fun x => x.key = .completed post.postId) (fun x => x = removeOpen post) ws := by
  cases h with
  | @homeCheck cell tag uid url q hu hrow hurl =>
      have hq := (hs.copies c).home_post hrow
      refine ⟨?_, .of_forall (by simp)⟩
      intro hk
      injection hk with hid
      obtain rfl := hs.unique hq hp hid
      exact ⟨_, List.mem_singleton_self _, rfl⟩
  | @pinCheck tag g url q hg hfit hrow hurl =>
      have hq := (hs.copies c).guards_post hg hrow
      refine ⟨by simp, ?_, .of_forall (by simp)⟩
      intro hk
      injection hk with hid
      obtain rfl := hs.unique hq hp hid
      exact ⟨_, List.mem_cons_of_mem _ List.mem_cons_self, rfl⟩
  | _ => exact .of_forall (by simp)

end Act

theorem mem_pending_apply {r : Reaction} {d : ℕ} {x : DbWrite} :
    x ∈ (w.apply c r).server.pending d ↔ x ∈ w.server.pending d ∨ (d = c ∧ x ∈ r.writes) := by
  simp only [World.apply, Net.pending_issue, List.mem_append]
  by_cases hd : d = c <;> simp [hd]

theorem World.Sound.fresh {r : Reaction} (hs' : (w.apply c r).Sound) (hp : post ∈ w.submitted) :
    ∀ q ∈ r.submitted, q ≠ post := by
  rintro q hq rfl
  have hnd := hs'.nodup
  rw [show (w.apply c r).submitted = w.submitted ++ r.submitted from rfl, List.map_append,
    List.nodup_append] at hnd
  exact hnd.2.2 _ (List.mem_map_of_mem hp) _ (List.mem_map_of_mem hq) rfl

theorem World.Sound.new_id {r : Reaction} (hs' : (w.apply c r).Sound) (hp : post ∈ r.submitted) :
    ∀ q ∈ w.submitted, q.postId ≠ post.postId := by
  intro q hq he
  have heq : post = q := hs'.unique (List.mem_append_right _ hp) (List.mem_append_left _ hq) he.symm
  exact hs'.fresh hq post hp heq

theorem Reaction.Spec.store_not_mem {a : Action} {r : Reaction} (hr : r.Spec w c a)
    (hs' : (w.apply c r).Sound) (hp : post ∈ w.submitted) :
    AddPostController.store post ∉ r.writes := by
  intro hmem
  obtain ⟨q, hq, hid⟩ := hr.issues.store_mem hmem
  exact hs'.new_id hq post hp hid.symm

theorem others_apply {r : Reaction} (hfresh : ∀ q ∈ r.submitted, q ≠ post) :
    w.others post ++ r.submitted ⊆ (w.apply c r).others post := by
  intro q hq
  refine mem_others.mpr ?_
  rcases List.mem_append.mp hq with hq | hq
  · obtain ⟨hq, hne⟩ := mem_others.mp hq
    exact ⟨List.mem_append_left _ hq, hne⟩
  · exact ⟨List.mem_append_right _ hq, hfresh q hq⟩

/-- A device that does not know the post does not learn of it by an action of its own. -/
theorem Hidden.act (hh : Hidden post w c) {d : ℕ} {a : Action} {r : Reaction} (hr : r.Spec w d a)
    (hfresh : ∀ q ∈ r.submitted, q ≠ post) (hns : AddPostController.store post ∉ r.writes) :
    Hidden post (w.apply d r) c := by
  have hall : w.others post ++ r.submitted ⊆ (w.apply d r).others post := others_apply hfresh
  have hsub : w.others post ⊆ (w.apply d r).others post :=
    fun q hq => hall (List.mem_append_left _ hq)
  refine ⟨hh.db.mono (Good.mono hsub), ?_, ?_, ?_, ?_⟩
  · intro s hs
    exact (hh.past s hs).mono (Good.mono hsub)
  · intro c' hc' x hx
    rcases mem_pending_apply.mp hx with hx | ⟨rfl, hnew⟩
    · exact (hh.queues c' hc' x hx).mono hsub
    · exact ((hh.copies c' hc').shapes hr.issues x hnew).mono hall
  · intro c' hc'
    simp only [World.apply]
    by_cases hd : c' = d
    · subst hd
      rw [Function.update_self]
      refine Device.Copies.mono ?_ hsub
      refine (hh.copies c' hc').lists ?_ hr.lists
      intro k db hv
      obtain ⟨base, hb, rfl⟩ := Net.view_eq_some hv
      refine Store.all_applyAll (fun x hx => (hh.queues c' hc' x hx).keeps) ?_
      rcases hb with rfl | hb
      · exact hh.db
      · exact hh.past _ hb
    · rw [Function.update_of_ne hd]
      exact (hh.copies c' hc').mono hsub
  · obtain ⟨q₁, q₂, he, h₁, h₂⟩ := hh.queue
    refine ⟨q₁, q₂ ++ if c = d then r.writes else [], ?_, fun x hx => (h₁ x hx).mono hsub, ?_⟩
    · simp only [World.apply, Net.pending_issue, he, List.append_assoc, List.cons_append]
    · rw [List.mem_append, not_or]
      refine ⟨h₂, ?_⟩
      intro hmem
      split_ifs at hmem
      · exact hns hmem
      · cases hmem

theorem Lifecycle.act (hl : Lifecycle post w) (hs : w.Sound) (hp : post ∈ w.submitted) {a : Action}
    {r : Reaction} (hr : r.Spec w c a) (hs' : (w.apply c r).Sound) :
    Lifecycle post (w.apply c r) := by
  have hfresh := hs'.fresh hp
  have hns := hr.store_not_mem hs' hp
  have hold : ∀ d, AddPostController.store post ∈ (w.apply c r).server.pending d →
      AddPostController.store post ∈ w.server.pending d := by
    intro d hd
    rcases mem_pending_apply.mp hd with hd | ⟨-, hd⟩
    · exact hd
    · exact absurd hd hns
  have happend : ∀ d, (w.apply c r).server.pending d =
      w.server.pending d ++ if d = c then r.writes else [] := fun d => Net.pending_issue _ _ _ _
  refine ⟨?_, ?_, ?_, ?_, ?_⟩
  · intro d hd
    exact (hl.hidden d (hold d hd)).act hr hfresh hns
  · refine hl.guarded.imp_right ?_
    intro hg d
    rw [happend]
    refine (hg d).append ?_
    split_ifs
    · exact hr.issues.guarded post
    · trivial
  · intro d
    rw [happend]
    refine (hl.followed d).append ?_
    split_ifs
    · exact hr.issues.followed hs hp
    · trivial
  · intro hd ho
    obtain ⟨d, hmem⟩ := hl.leaving hd ho
    exact ⟨d, mem_pending_apply.mpr (Or.inl hmem)⟩
  · intro hsub
    refine hl.somewhere ?_
    rintro ⟨d, hd⟩
    exact hsub ⟨d, mem_pending_apply.mpr (Or.inl hd)⟩

section Submit

variable {a : Action} {r : Reaction} (hs : w.Sound) (hs' : (w.apply c r).Sound)
  (hp : post ∈ r.submitted)
include hs hs' hp

theorem World.Sound.fresh_keys {d : ℕ} {x : DbWrite} (hx : x ∈ w.server.pending d) :
    x.key ≠ .posts post.postCategory post.postId ∧ x.key ≠ .completed post.postId := by
  have hshape : Shape w.submitted x := hs.net.inFlight _ (Net.mem_pending.mp hx)
  have hne := hs'.new_id hp
  constructor
  · intro hk
    obtain ⟨q, hq, hid, -⟩ := hshape.on_posts hk
    exact hne q hq hid
  · intro hk
    obtain ⟨q, hq, hid, -⟩ := hshape.on_completed hk
    exact hne q hq hid

theorem Hidden.submit (hws : r.writes = [AddPostController.store post]) :
    Hidden post (w.apply c r) c := by
  have hsub : w.submitted ⊆ (w.apply c r).others post := by
    intro q hq
    rw [mem_others]
    refine ⟨List.mem_append_left _ hq, ?_⟩
    rintro rfl
    exact hs'.new_id hp q hq rfl
  have hshape : ∀ d x, x ∈ w.server.pending d → Shape ((w.apply c r).others post) x :=
    fun d x hx => (hs.net.inFlight _ (Net.mem_pending.mp hx)).mono hsub
  refine ⟨hs.net.db.mono (Good.mono hsub), ?_, ?_, ?_,
    ⟨w.server.pending c, [], ?_, hshape c, by simp⟩⟩
  · intro s h
    exact (hs.net.past s h).mono (Good.mono hsub)
  · intro c' hc' x hx
    rcases mem_pending_apply.mp hx with hx | ⟨he, -⟩
    · exact hshape c' x hx
    · exact absurd he hc'
  · intro c' hc'
    simp only [World.apply]
    rw [Function.update_of_ne hc']
    exact (hs.copies c').mono hsub
  · simp only [World.apply, Net.pending_issue, hws, if_true]

theorem Lifecycle.submit (hr : r.Spec w c a) : Lifecycle post (w.apply c r) := by
  have hws := hr.issues.submitted hp
  have hkey : ∀ d x, x ∈ w.server.pending d →
      x.key ≠ .posts post.postCategory post.postId ∧ x.key ≠ .completed post.postId :=
    fun d x hx => hs.fresh_keys hs' hp hx
  have hmem : AddPostController.store post ∈ (w.apply c r).server.pending c :=
    mem_pending_apply.mpr (Or.inr ⟨rfl, by rw [hws]; exact List.mem_singleton_self _⟩)
  refine ⟨?_, Or.inr ?_, ?_, ?_, fun hns => absurd ⟨c, hmem⟩ hns⟩
  · intro d hd
    obtain rfl : d = c := by
      rcases mem_pending_apply.mp hd with hd | ⟨hd, -⟩
      · exact absurd rfl (hkey d _ hd).1
      · exact hd
    exact Hidden.submit hs hs' hp hws
  · intro d
    refine .of_forall ?_
    intro x hx
    rcases mem_pending_apply.mp hx with hx | ⟨-, hx⟩
    · rintro rfl
      exact (hkey d _ hx).1 rfl
    · rw [hws] at hx
      rw [List.mem_singleton.mp hx]
      simp [AddPostController.store, removeOpen]
  · intro d
    refine .of_forall ?_
    intro x hx
    rcases mem_pending_apply.mp hx with hx | ⟨-, hx⟩
    · exact (hkey d x hx).2
    · rw [hws] at hx
      rw [List.mem_singleton.mp hx]
      simp
  · intro hd
    obtain ⟨q, hq, hid, -⟩ := Good.completed_post hs.net.db hd
    exact absurd hid (hs'.new_id hp q hq)

end Submit

/-! ### Every run -/

/-- The server refuses no write and applies the writes of each device in the order of issue. -/
def Event.Orderly (w : World) (e : Event) : Prop :=
  e.Accepted ∧ ∀ i ∈ e.delivered, w.server.InOrder i

instance (w : World) (e : Event) : Decidable (e.Orderly w) := inferInstanceAs (Decidable (_ ∧ _))

theorem Lifecycle.step (hs : w.Sound) (hl : ∀ post ∈ w.submitted, Lifecycle post w) {e : Event}
    (he : e.Orderly w) (hstep : CommServe.step w e = some w') :
    ∀ post ∈ w'.submitted, Lifecycle post w' := by
  have hs' := hs.step hstep
  intro post hp
  cases e with
  | act c a =>
      obtain ⟨r, hr, rfl⟩ := step_act hstep
      rcases List.mem_append.mp hp with hp | hp
      · exact (hl post hp).act hs hp hr hs'
      · exact Lifecycle.submit hs hs' hp hr
  | deliver i =>
      obtain ⟨n, hn, rfl⟩ := step_deliver hstep
      obtain ⟨c, x, q, h⟩ := Net.deliver_inOrder hn (he.2 i rfl)
      exact (hl post hp).pops h hs hp
  | reject i => exact he.1.elim

theorem Run.lifecycle {es : List Event}
    (hr : Run CommServe.step (fun s e => e.Orderly s) .init es w) :
    ∀ post ∈ w.submitted, Lifecycle post w :=
  hr.invariant_of World.Sound (fun s => ∀ post ∈ s.submitted, Lifecycle post s)
    (fun _ _ _ hs _ hst => hs.step hst) (fun _ _ _ hs h he hst => Lifecycle.step hs h he hst)
    .init (by simp [World.init])

/-- The submission of the post has been applied. -/
def World.Applied (w : World) (post : Post) : Prop := post ∈ w.submitted ∧ ¬ w.Submitting post

/-- What the next orderly step keeps of a post: it stays applied, it stays completed, and once it
is applied and no longer open it does not come back. -/
theorem World.Sound.stays (hs : w.Sound) (hp : post ∈ w.submitted) {e : Event}
    (he : e.Orderly w) (hstep : CommServe.step w e = some w') :
    (w.Applied post → w'.Applied post) ∧ (w.Done post → w'.Done post) ∧
      (w.Applied post → ¬ w.Open post → ¬ w'.Open post) := by
  have hs' := hs.step hstep
  cases e with
  | act c a =>
      obtain ⟨r, hr, rfl⟩ := step_act hstep
      refine ⟨?_, fun h => h, fun _ h => h⟩
      intro h
      refine ⟨List.mem_append_left _ hp, ?_⟩
      rintro ⟨d, hd⟩
      rcases mem_pending_apply.mp hd with hd | ⟨-, hd⟩
      · exact h.2 ⟨d, hd⟩
      · exact hr.store_not_mem hs' hp hd
  | deliver i =>
      obtain ⟨n, hn, rfl⟩ := step_deliver hstep
      obtain ⟨c, x, q, h⟩ := Net.deliver_inOrder hn (he.2 i rfl)
      have hx : Shape w.submitted x := hs.net.inFlight _ (Net.mem_pending.mp h.mem)
      refine ⟨?_, ?_, ?_⟩
      · intro ha
        refine ⟨hp, ?_⟩
        rintro ⟨d, hd⟩
        exact ha.2 ⟨d, h.sub hd⟩
      · intro hd
        rw [World.Done, h.db]
        exact hx.done hd
      · intro ha hno
        rw [World.Open, h.db]
        by_cases hk : x.key = .posts post.postCategory post.postId
        · rcases hs.on_posts hp hx hk with rfl | rfl
          · exact absurd ⟨c, h.mem⟩ ha.2
          · exact Store.not_present_remove _ _
        · exact fun ho => hno ((Store.present_apply_ne (Ne.symm hk)).mp ho)
  | reject i => exact he.1.elim

/-- A property of a submitted post that orderly steps keep is kept by orderly runs. -/
theorem Run.stays {es : List Event} {t : World} (hs : w.Sound) (hp : post ∈ w.submitted)
    (hr : Run CommServe.step (fun s e => e.Orderly s) w es t) (I : World → Prop)
    (hI : ∀ s e s', s.Sound → post ∈ s.submitted → e.Orderly s → CommServe.step s e = some s' →
      I s → I s') (hw : I w) : I t ∧ post ∈ t.submitted := by
  refine hr.invariant_of World.Sound (fun s => I s ∧ post ∈ s.submitted)
    (fun _ _ _ hs _ hst => hs.step hst) ?_ hs ⟨hw, hp⟩
  intro s e s' hs h he hst
  refine ⟨hI s e s' hs h.2 he hst h.1, ?_⟩
  cases e with
  | act c a =>
      obtain ⟨r, -, rfl⟩ := step_act hst
      exact List.mem_append_left _ h.2
  | deliver i =>
      obtain ⟨n, -, rfl⟩ := step_deliver hst
      exact h.2
  | reject i =>
      obtain ⟨n, -, rfl⟩ := step_reject hst
      exact h.2

/-- With nothing in flight the post is in exactly one of the two places. -/
theorem Lifecycle.exactly_one (hl : Lifecycle post w) (hq : w.server.Quiescent) :
    (w.Open post ∧ ¬ w.Done post) ∨ (¬ w.Open post ∧ w.Done post) := by
  have hnot : ∀ c x, x ∉ w.server.pending c := by
    intro c x hx
    rw [Net.Quiescent.pending hq] at hx
    cases hx
  have hboth : w.Done post → ¬ w.Open post := by
    intro hd ho
    obtain ⟨c, hc⟩ := hl.leaving hd ho
    exact hnot c _ hc
  have harrived : ¬ w.Submitting post := by
    rintro ⟨c, hc⟩
    exact hnot c _ hc
  rcases hl.somewhere harrived with ho | hd
  · exact Or.inl ⟨ho, fun hd => hboth hd ho⟩
  · exact Or.inr ⟨hboth hd, hd⟩

theorem World.Sound.category (hs : w.Sound) (hp : post ∈ w.submitted) {cat : String}
    (h : w.server.db.Present (.posts cat post.postId)) : cat = post.postCategory := by
  obtain ⟨q, hq, hid, rfl, -⟩ := Good.open_post hs.net.db h
  rw [hs.unique hq hp hid]

/-- **Posts are neither lost nor duplicated.**  In every run in which each device's writes are
applied in order and none is refused, a post whose submission has been applied is open under its
category or completed from then on; with nothing in flight it is exactly one of the two; it is never
open under another category; and once it is completed and nothing is in flight, it is not open again. -/
theorem post_kept {es : List Event}
    (hr : Run CommServe.step (fun s e => e.Orderly s) .init es w) (hp : post ∈ w.submitted) :
    (w.Applied post → ∀ t fs, Run CommServe.step (fun s e => e.Orderly s) w fs t →
      t.Open post ∨ t.Done post) ∧
    (w.server.Quiescent → (w.Open post ∧ ¬ w.Done post) ∨ (¬ w.Open post ∧ w.Done post)) ∧
    (∀ cat, w.server.db.Present (.posts cat post.postId) → cat = post.postCategory) ∧
    (w.Done post → ∀ t fs, Run CommServe.step (fun s e => e.Orderly s) w fs t →
      t.server.Quiescent → ∀ u gs, Run CommServe.step (fun s e => e.Orderly s) t gs u →
      ∀ cat, ¬ u.server.db.Present (.posts cat post.postId)) := by
  have hs := Run.sound hr
  refine ⟨?_, ?_, fun cat => hs.category hp, ?_⟩
  · intro ha t fs ht
    obtain ⟨ha, hp⟩ := Run.stays hs hp ht (fun s => s.Applied post)
      (fun s e s' hs hp he hst => (hs.stays hp he hst).1) ha
    exact (Run.lifecycle (hr.trans ht) post hp).somewhere ha.2
  · intro hq
    exact (Run.lifecycle hr post hp).exactly_one hq
  · intro hd t fs ht hq u gs hu cat hcat
    obtain ⟨hd, hpt⟩ := Run.stays hs hp ht (fun s => s.Done post)
      (fun s e s' hs hp he hst => (hs.stays hp he hst).2.1) hd
    have hrt := hr.trans ht
    rcases (Run.lifecycle hrt post hpt).exactly_one hq with ⟨-, hnd⟩ | ⟨hno, -⟩
    · exact hnd hd
    have ha : t.Applied post := by
      refine ⟨hpt, ?_⟩
      rintro ⟨c, hc⟩
      rw [Net.Quiescent.pending hq] at hc
      cases hc
    obtain ⟨⟨-, hno⟩, hpu⟩ := Run.stays (Run.sound hrt) hpt hu
      (fun s => s.Applied post ∧ ¬ s.Open post)
      (fun s e s' hs hp he hst h => ⟨(hs.stays hp he hst).1 h.1, (hs.stays hp he hst).2.2 h.1 h.2⟩)
      ⟨ha, hno⟩
    rw [(Run.sound (hrt.trans hu)).category hpu hcat] at hcat
    exact hno hcat

/-- A post that is pinned, completed from the Pinned list, and whose writes have landed. -/
theorem post_kept_completed : ∃ (w : World) (post : Post), post ∈ w.submitted ∧ w.Done post ∧
    ((w.Open post ∧ ¬ w.Done post) ∨ (¬ w.Open post ∧ w.Done post)) := by
  obtain ⟨w, hr, hp, hd, hq⟩ := exists_run_of_exec CommServe.step (fun s e => e.Orderly s) .init
    (signUpScript 0 "u" (some "me.png") ++ submitScript 0 "p" (some "p.png") ++ pinScript 0 ++
      openPinsScript 0 ++ [.act 0 (.pinCheck 0)] ++ deliverScript 4)
    (fun w => scriptPost "u" "p" (some "p.png") ∈ w.submitted ∧
      w.server.db.Present (.completed "p") ∧ w.server.Quiescent) (by decide +kernel)
  exact ⟨w, _, hp, hd, (post_kept hr hp).2.1 hq⟩

end CommServe
