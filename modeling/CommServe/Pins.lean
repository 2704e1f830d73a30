import CommServe.Lifecycle

/-! # Pins point at open posts, if completions see them

A completion from the Pinned list removes the pin of the user who completes; a completion from the
Home feed removes no pin, not even the user's own, and neither removes the pins of others.  So a pin
dangles as soon as a pinned post is completed from Home or by somebody else.

`SafePins` says that a tap pins only what is available, and completes only what nobody else has
pinned.  Then every pin, stored or on its way, is of an available post, or its removal is on its way
(`Anchored`); the order in which writes arrive does not matter. -/

namespace CommServe

open RecordStore Method Sync Transition

/-! ### The condition on a tap -/

/-- The place of the open post that a tap is about to pin. -/
def World.pinning (w : World) : Event → Option Ref
  | .act c (.homePin cell sender) => do
      let _uid ← (w.dev c).currentUser
      let row ← ((w.dev c).postArray cell)[sender.tag]?
      let _url ← row.imageUrl
      let category ← row.postCategory
      let postId ← row.postId
      if sender.isSelected then none else some (.posts category postId)
  | _ => none

/-- The user whose pin a key is, if it is a pin of the post. -/
def Ref.pinner (p : String) : Ref → Option String
  | .pinned uid q => if q = p then some uid else none
  | _ => none

/-- The users who have the post pinned. -/
def World.pinners (w : World) (p : String) : List String :=
  (w.server.db.keys.filterMap (Ref.pinner p)).filter
    (fun uid => decide (w.server.db.Present (.pinned uid p)))

/-- The write pins the post for some user. -/
def Pins (p : String) : DbWrite → Prop
  | .update k _ => (k.pinner p).isSome = true
  | _ => False

instance (p : String) : DecidablePred (Pins p)
  | .update k _ => inferInstanceAs (Decidable ((k.pinner p).isSome = true))
  | .set _ _ => isFalse id
  | .remove _ => isFalse id

/-- A post that is pinned is open or being submitted, and is not being removed; a post that is
completed is not being pinned, and is pinned at most by the user who completes it from the Pinned
list. -/
def SafePins (w : World) (e : Event) : Prop :=
  (∀ k ∈ w.pinning e, (w.server.db.Present k ∨ ∃ x ∈ w.server.inFlight, x.2.key = k) ∧
    ∀ x ∈ w.server.inFlight, x.2 ≠ .remove k) ∧
  ∀ p ∈ w.completing e, (∀ x ∈ w.server.inFlight, ¬ Pins p x.2) ∧
    ∀ uid ∈ w.pinners p, (w.crediting e).map PinController.Guards.uid = some uid

instance (w : World) (e : Event) : Decidable (SafePins w e) := inferInstanceAs (Decidable (_ ∧ _))

theorem mem_pinners {w : World} {p uid : String} :
    uid ∈ w.pinners p ↔ w.server.db.Present (.pinned uid p) := by
  simp only [World.pinners, List.mem_filter, List.mem_filterMap, decide_eq_true_eq]
  constructor
  · intro h
    exact h.2
  · intro h
    exact ⟨⟨_, h.mem_keys, by simp [Ref.pinner]⟩, h⟩

/-! ### The invariant -/

/-- The post is open or will be, and nobody is about to remove it. -/
def World.Available (w : World) (post : Post) : Prop :=
  (w.Open post ∨ w.server.Flying (AddPostController.store post)) ∧
    ¬ w.server.Flying (removeOpen post)

/-- What is known of a pin of the post by the user, on its way or stored. -/
structure Anchored (uid : String) (post : Post) (w : World) : Prop where
  flying : w.server.Flying (pinPost uid post) → w.Available post
  stored : w.server.db.Present (.pinned uid post.postId) →
    w.Available post ∨ w.server.Flying (.remove (.pinned uid post.postId))

variable {w w' : World} {post : Post} {uid : String} {c : ℕ}

theorem Shape.on_pinned {ps : List Post} {x : DbWrite} (h : Shape ps x) {p : String}
    (hk : x.key = .pinned uid p) :
    (∃ q ∈ ps, q.postId = p ∧ x = pinPost uid q) ∨ x = .remove (.pinned uid p) := by
  cases h with
  | @pin v url q hq hurl =>
      injection hk with hv hid
      subst hv
      exact Or.inl ⟨q, hq, hid, rfl⟩
  | @unpin v q =>
      injection hk with hv hid
      subst hv hid
      exact Or.inr rfl
  | user hu => rw [hu] at hk; cases hk
  | _ => cases hk

theorem World.Available.deliver (h : w.Available post) (hs : w.Sound) (hp : post ∈ w.submitted)
    {n : Server} {x : DbWrite} (hx : w.server.Flying x) (hdb : n.db = w.server.db.apply x)
    (hsub : ∀ y, n.Flying y → w.server.Flying y)
    (hstay : ∀ y, w.server.Flying y → y = x ∨ n.Flying y) :
    ({ w with server := n } : World).Available post := by
  obtain ⟨d, hd⟩ := hx
  have hshape : Shape w.submitted x := hs.net.inFlight _ hd
  refine ⟨?_, fun hr => h.2 (hsub _ hr)⟩
  rw [World.Open, hdb]
  rcases h.1 with ho | hf
  · by_cases hk : x.key = .posts post.postCategory post.postId
    · rcases hs.on_posts hp hshape hk with rfl | rfl
      · exact Or.inl (present_store _ post)
      · exact absurd ⟨d, hd⟩ h.2
    · exact Or.inl ((Store.present_apply_ne (Ne.symm hk)).mpr ho)
  · rcases hstay _ hf with rfl | hf
    · exact Or.inl (present_store _ post)
    · exact Or.inr hf

theorem Anchored.deliver (h : Anchored uid post w) (hs : w.Sound) (hp : post ∈ w.submitted) {i : ℕ}
    (hstep : step w (.deliver i) = some w') : Anchored uid post w' := by
  obtain ⟨n, hn, rfl⟩ := step_deliver hstep
  obtain ⟨x, hx, hdb, hsub, hstay⟩ := Net.deliver_flying hn
  have hshape : Shape w.submitted x := by
    obtain ⟨d, hd⟩ := hx
    exact hs.net.inFlight _ hd
  have havail : w.Available post → ({ w with server := n } : World).Available post :=
    fun ha => ha.deliver hs hp hx hdb hsub hstay
  constructor
  · intro hf
    exact havail (h.flying (hsub _ hf))
  · intro hpin
    rw [hdb] at hpin
    by_cases hk : x.key = .pinned uid post.postId
    · rcases hshape.on_pinned hk with ⟨q, hq, hid, rfl⟩ | rfl
      · -- the pin arrives
        obtain rfl := hs.unique hq hp hid
        exact Or.inl (havail (h.flying hx))
      · exact absurd hpin (Store.not_present_remove _ _)
    · have hpin' := (Store.present_apply_ne (Ne.symm hk)).mp hpin
      rcases h.stored hpin' with ha | hf
      · exact Or.inl (havail ha)
      · refine Or.inr ((hstay _ hf).resolve_left ?_)
        rintro rfl
        exact hk rfl

/-! ### An action -/

section Act

variable {a : Action} {ws : List DbWrite} {us : List String} {qs : List Post}
  {as : List (String × Option String)} (h : Issues w c a ws us qs as)
include h

/-- A tap that removes the open post completes it; from the Pinned list it removes the pin of its
user as well. -/
theorem Issues.removeOpen_mem (hmem : removeOpen post ∈ ws) :
    w.completing (.act c a) = some post.postId ∧ (∀ v, pinPost v post ∉ ws) ∧
      ∀ v, (w.crediting (.act c a)).map PinController.Guards.uid = some v →
        .remove (.pinned v post.postId) ∈ ws := by
  cases h with
  | @homeCheck cell tag v url q hu hrow hurl =>
      have hid : post.postCategory = q.postCategory ∧ post.postId = q.postId := by
        simpa [removeOpen, createCompleted] using hmem
      refine ⟨?_, by simp [pinPost, createCompleted], by simp [World.crediting]⟩
      simp [World.completing, hu, hrow, hurl, hid]
  | @pinCheck tag g url q hg hfit hrow hurl =>
      have hid : post.postCategory = q.postCategory ∧ post.postId = q.postId := by
        simpa [removeOpen, createCompleted, updateKarma] using hmem
      refine ⟨?_, by simp [pinPost, createCompleted, updateKarma], ?_⟩
      · simp [World.completing, hg, hfit, hrow, hurl, hid]
      · simp [World.crediting, hg, hid]
  | _ => simp [removeOpen, AddPostController.store, pinPost, updateKarma, SignUpController.store,
      UserInfoController.store] at hmem

theorem Issues.pinPost_mem (hs : w.Sound) (hp : post ∈ w.submitted) (hmem : pinPost uid post ∈ ws) :
    w.pinning (.act c a) = some (.posts post.postCategory post.postId) := by
  cases h with
  | @homePin cell sender v url q hu hrow hurl hsel =>
      have hq := (hs.copies c).home_post hrow
      have hid : post.postId = q.postId := by
        have := congrArg Write.key (List.mem_singleton.mp hmem)
        injection this
      obtain rfl := hs.unique hp hq hid
      simp [World.pinning, hu, hrow, hurl, hsel]
  | pinPin hu hrow hurl => simp [(hs.copies c).pinPosts] at hrow
  | _ => simp [AddPostController.store, createCompleted, pinPost, updateKarma,
      SignUpController.store, UserInfoController.store] at hmem

end Act

theorem Anchored.act (h : Anchored uid post w) (hs : w.Sound) (hp : post ∈ w.submitted) {a : Action}
    {r : Reaction} (hr : r.Spec w c a) (hsafe : SafePins w (.act c a)) :
    Anchored uid post (w.apply c r) := by
  have hflying : ∀ x, (w.apply c r).server.Flying x ↔ w.server.Flying x ∨ x ∈ r.writes :=
    fun x => Net.flying_issue
  by_cases hclose : removeOpen post ∈ r.writes
  · -- the post is completed: it is not being pinned, and the pin of its user goes
    obtain ⟨hc, hpin, hunpin⟩ := hr.issues.removeOpen_mem hclose
    obtain ⟨hnone, honly⟩ := hsafe.2 _ hc
    constructor
    · intro hf
      rcases (hflying _).mp hf with ⟨d, hd⟩ | hf
      · have hpins : Pins post.postId (pinPost uid post) := by simp [Pins, pinPost, Ref.pinner]
        exact absurd hpins (hnone _ hd)
      · exact absurd hf (hpin uid)
    · intro hpresent
      have hcredit := honly uid (mem_pinners.mpr hpresent)
      exact Or.inr ((hflying _).mpr (Or.inr (hunpin uid hcredit)))
  · have havail : w.Available post → (w.apply c r).Available post := by
      rintro ⟨ho, hr⟩
      constructor
      · exact ho.imp_right fun hf => (hflying _).mpr (Or.inl hf)
      · intro hf
        rcases (hflying _).mp hf with hf | hf
        · exact hr hf
        · exact hclose hf
    constructor
    · intro hf
      rcases (hflying _).mp hf with hf | hf
      · exact havail (h.flying hf)
      · -- the post is pinned
        obtain ⟨hopen, hno⟩ := hsafe.1 _ (hr.issues.pinPost_mem hs hp hf)
        have hno' : ¬ w.server.Flying (removeOpen post) := by
          rintro ⟨d, hd⟩
          exact hno _ hd rfl
        have hsubmit : (∃ x ∈ w.server.inFlight,
            x.2.key = .posts post.postCategory post.postId) →
            w.server.Flying (AddPostController.store post) := by
          rintro ⟨x, hx, hk⟩
          rcases hs.on_posts hp (hs.net.inFlight x hx) hk with he | he
          · exact ⟨x.1, he ▸ hx⟩
          · exact absurd he (hno x hx)
        exact havail ⟨hopen.imp_right hsubmit, hno'⟩
    · intro hpresent
      rcases h.stored hpresent with ha | hf
      · exact Or.inl (havail ha)
      · exact Or.inr ((hflying _).mpr (Or.inl hf))

theorem Anchored.submit (hs : w.Sound) {a : Action} {r : Reaction} (hr : r.Spec w c a)
    (hs' : (w.apply c r).Sound) (hp : post ∈ r.submitted) : Anchored uid post (w.apply c r) := by
  have hne := hs'.new_id hp
  constructor
  · intro hf
    rcases Net.flying_issue.mp hf with ⟨d, hd⟩ | hf
    · rcases (hs.net.inFlight _ hd).on_pinned rfl with ⟨q, hq, hid, -⟩ | he
      · exact absurd hid (hne q hq)
      · cases he
    · rw [hr.issues.submitted hp] at hf
      simp [pinPost, AddPostController.store] at hf
  · intro hpresent
    obtain ⟨q, hq, hid, -⟩ := Good.pinned_post hs.net.db hpresent
    exact absurd hid (hne q hq)

/-! ### Every run -/

theorem Anchored.step (hs : w.Sound) (h : ∀ post ∈ w.submitted, ∀ uid, Anchored uid post w)
    {e : Event} (he : e.Accepted) (hsafe : SafePins w e) (hstep : CommServe.step w e = some w') :
    ∀ post ∈ w'.submitted, ∀ uid, Anchored uid post w' := by
  intro post hp uid
  have hs' := hs.step hstep
  cases e with
  | act c a =>
      obtain ⟨r, hr, rfl⟩ := step_act hstep
      rcases List.mem_append.mp hp with hp | hp
      · exact (h post hp uid).act hs hp hr hsafe
      · exact Anchored.submit hs hr hs' hp
  | deliver i =>
      have hp' : post ∈ w.submitted := by
        obtain ⟨n, -, rfl⟩ := step_deliver hstep
        exact hp
      exact (h post hp' uid).deliver hs hp' hstep
  | reject i => exact he.elim

/-- **Pins do not dangle**, if only available posts are pinned and only posts that nobody else has
pinned are completed, whatever the order in which writes arrive. -/
theorem pins_open {es : List Event}
    (hr : Run CommServe.step (fun s e => e.Accepted ∧ SafePins s e) .init es w)
    (hq : w.server.Quiescent) {p : String} (hpin : w.server.db.Present (.pinned uid p)) :
    ∃ category, w.server.db.Present (.posts category p) := by
  have hs := Run.sound hr
  have hinv : ∀ post ∈ w.submitted, ∀ uid, Anchored uid post w :=
    hr.invariant_of World.Sound (fun s => ∀ post ∈ s.submitted, ∀ uid, Anchored uid post s)
      (fun _ _ _ hs _ hst => hs.step hst)
      (fun _ _ _ hs h he hst => Anchored.step hs h he.1 he.2 hst) .init (by simp [World.init])
  obtain ⟨post, hp, rfl, -⟩ := Good.pinned_post hs.net.db hpin
  rcases (hinv post hp uid).stored hpin with ⟨ho | hf, -⟩ | hf
  · exact ⟨_, ho⟩
  · exact absurd hf (hq.not_flying _)
  · exact absurd hf (hq.not_flying _)

/-- A pin of an open post, with nothing in flight. -/
theorem pins_open_sample : ∃ w : World, w.server.db.Present (.pinned "u" "p") ∧
    ∃ category, w.server.db.Present (.posts category "p") := by
  obtain ⟨w, hr, hpin, hq⟩ := exists_run_of_exec CommServe.step
    (fun s e => e.Accepted ∧ SafePins s e) .init
    (signUpScript 0 "u" (some "me.png") ++ submitScript 0 "p" (some "p.png") ++ pinScript 0)
    (fun w => w.server.db.Present (.pinned "u" "p") ∧ w.server.Quiescent) (by decide +kernel)
  exact ⟨w, hpin, pins_open hr hq hpin⟩

/-- A user pins a post and completes it from the Home feed; the pin stays. -/
theorem pin_dangles :
    ¬ ∀ (w : World) (es : List Event) (uid p : String),
      Run CommServe.step (fun _ e => e.Accepted) .init es w → w.server.Quiescent →
      w.server.db.Present (.pinned uid p) → ∃ category, w.server.db.Present (.posts category p) := by
  intro h
  obtain ⟨w, hr, hpin, hq, hp, hno⟩ := exists_run_of_exec CommServe.step (fun _ e => e.Accepted) .init
    (signUpScript 0 "u" (some "me.png") ++ submitScript 0 "p" (some "p.png") ++ pinScript 0 ++
      [.act 0 (.homeCheck .study 0)] ++ deliverScript 2)
    (fun w => w.server.db.Present (.pinned "u" "p") ∧ w.server.Quiescent ∧
      scriptPost "u" "p" (some "p.png") ∈ w.submitted ∧ ¬ w.server.db.Present (.posts "Study" "p"))
    (by decide +kernel)
  obtain ⟨category, hopen⟩ := h w _ "u" "p" hr hq hpin
  obtain rfl : category = "Study" := (Run.sound hr).category hp hopen
  exact hno hopen

end CommServe
