import CommServe.Soundness

/-! # Copies of a post

Every record of a post, wherever it is stored and through however many hands it went, is the post
that was submitted (`Stored`, which holds in every run).  Encoding it again is another matter: the
decoders take an absent `imageUrl`, and so does the encoder of `submitPressed`, but the encoders of the
other handlers unwrap it.  A record is reproduced from what was decoded exactly if it has an image
(`Stored.reproduced_iff`). -/

namespace CommServe

open RecordStore Method Transition

/-- The record `r` under the post id `p` is a copy of the submitted post. -/
structure CopyOf (post : Post) (p : String) (r : Node) : Prop where
  key : r .postId = some (.str p)
  fields : ∀ f, f.OfPost → r f = post.record f

/-- Decoding the record with either decoder and encoding it again with any of the handlers' dictionaries
gives the same eight fields. -/
def Reproduced (r : Node) : Prop :=
  ∃ row check post, UserPost.init r = some row ∧ CheckPost.init r = some check ∧
    check.userPost = row ∧ (∀ s, (copyFields row).run s = (.ok post, s)) ∧
    ∀ uid name f, f.OfPost → (pinPost uid post).effect f = some (r f) ∧
      (createCompleted post name).effect f = some (r f) ∧
      (AddPostController.store post).effect f = some (r f)

/-- Every stored record of a post is a copy of the post submitted under its id. -/
structure Stored (w : World) : Prop where
  unique : (w.submitted.map Post.postId).Nodup
  posts : ∀ category p, w.server.db.Present (.posts category p) → ∃ post ∈ w.submitted,
    CopyOf post p (w.server.db.node (.posts category p)) ∧ post.postCategory = category
  pinned : ∀ uid p, w.server.db.Present (.pinned uid p) → ∃ post ∈ w.submitted,
    CopyOf post p (w.server.db.node (.pinned uid p))
  completed : ∀ p, w.server.db.Present (.completed p) → ∃ post ∈ w.submitted,
    CopyOf post p (w.server.db.node (.completed p))

/-- The paths of the records of posts. -/
def Ref.IsPost : Ref → Prop
  | .users _ => False
  | _ => True

variable {w : World} {post : Post} {p : String}

theorem CopyOf.record (h : post.postId = p) : CopyOf post p post.record :=
  ⟨by rw [← h]; rfl, fun _ _ => rfl⟩

theorem CopyOf.completedRecord (h : post.postId = p) (name : String) :
    CopyOf post p (post.completedRecord name) := by
  constructor
  · rw [← h]
    rfl
  · intro f hf
    rw [post.completedRecord_apply, if_neg]
    rintro rfl
    exact absurd hf (by decide)

theorem World.Sound.stored (hs : w.Sound) : Stored w where
  unique := hs.nodup
  posts category p hpresent := by
    obtain ⟨post, hp, hid, hcat, he⟩ := Good.open_post hs.net.db hpresent
    exact ⟨post, hp, he ▸ .record hid, hcat⟩
  pinned uid p hpresent := by
    obtain ⟨post, hp, hid, -, he⟩ := Good.pinned_post hs.net.db hpresent
    exact ⟨post, hp, he ▸ .record hid⟩
  completed p hpresent := by
    obtain ⟨post, hp, hid, -, name, he⟩ := Good.completed_post hs.net.db hpresent
    exact ⟨post, hp, he ▸ .completedRecord hid name⟩

/-! ### Encoding again -/

theorem Reproduced.record {url : String} (hurl : post.imageUrl = some url) :
    Reproduced post.record :=
  ⟨_, _, post, UserPost.init_record post, CheckPost.init_record post, rfl, copyFields_ofPost hurl,
    fun _ _ _ hf => ⟨post.effect_update _ hf, post.effect_completed _ _ hf, post.effect_update _ hf⟩⟩

theorem Reproduced.completedRecord {url : String} (hurl : post.imageUrl = some url)
    (name : String) : Reproduced (post.completedRecord name) := by
  refine ⟨_, _, post, UserPost.init_completedRecord post name,
    CheckPost.init_completedRecord post name, rfl, copyFields_ofPost hurl, ?_⟩
  intro uid name' f hf
  rw [(CopyOf.completedRecord rfl name).fields f hf]
  exact ⟨post.effect_update _ hf, post.effect_completed _ _ hf, post.effect_update _ hf⟩

theorem not_reproduced_record (hurl : post.imageUrl = none) : ¬ Reproduced post.record := by
  rintro ⟨row, check, post', hrow, -, -, hcopy, -⟩
  rw [UserPost.init_record, Option.some.injEq] at hrow
  have hrun := hcopy ⟨false, []⟩
  rw [← hrow, copyFields_ofPost_none hurl] at hrun
  simp at hrun

/-- A stored record of a post is reproduced exactly if it has an image. -/
theorem World.Sound.reproduced_iff (hs : w.Sound) {k : Ref} (hk : k.IsPost)
    (hpresent : w.server.db.Present k) :
    Reproduced (w.server.db.node k) ↔ (w.server.db.node k .imageUrl).isSome = true := by
  cases k with
  | users uid => exact hk.elim
  | posts category p =>
      obtain ⟨post, -, -, -, he⟩ := Good.open_post hs.net.db hpresent
      rw [he]
      cases hurl : post.imageUrl with
      | none => exact iff_of_false (not_reproduced_record hurl) (by simp [Post.record_apply, hurl])
      | some url => exact iff_of_true (.record hurl) (by simp [Post.record_apply, hurl])
  | pinned uid p =>
      obtain ⟨post, -, -, ⟨url, hurl⟩, he⟩ := Good.pinned_post hs.net.db hpresent
      rw [he]
      exact iff_of_true (.record hurl) (by simp [Post.record_apply, hurl])
  | completed p =>
      obtain ⟨post, -, -, ⟨url, hurl⟩, name, he⟩ := Good.completed_post hs.net.db hpresent
      rw [he]
      refine iff_of_true (.completedRecord hurl name) ?_
      simp [Post.completedRecord_apply, Post.record_apply, hurl]

theorem CopyOf.imageUrl {r : Node} {url : String} (h : CopyOf post p r)
    (hurl : post.imageUrl = some url) : r .imageUrl = some (.str url) := by
  rw [h.fields _ (by decide)]
  simp [Post.record_apply, hurl]

/-! ### Every run -/

/-- The storage reports a URL for every image of a post. -/
def Event.UrlReported (e : Event) : Prop := e.downloadURL ≠ some none

instance : DecidablePred Event.UrlReported := fun _ => inferInstanceAs (Decidable (_ ≠ _))

theorem Run.urls {es : List Event} (hr : Run step (fun _ e => e.UrlReported) .init es w) :
    ∀ post ∈ w.submitted, ∃ url, post.imageUrl = some url := by
  refine hr.invariant (fun s => ∀ post ∈ s.submitted, ∃ url, post.imageUrl = some url) ?_
    (by simp [World.init])
  intro s e s' h hurl hst
  cases e with
  | deliver i => obtain ⟨n, -, rfl⟩ := step_deliver hst; exact h
  | reject i => obtain ⟨n, -, rfl⟩ := step_reject hst; exact h
  | act c a =>
      obtain ⟨ws, us, ps, as, hi, -, -, hsub, -⟩ := step_issues hst
      rw [hsub]
      intro post hp
      rcases List.mem_append.mp hp with hp | hp
      · exact h post hp
      · cases hi with
        | @submit i metadata x q hx hq hc =>
            obtain rfl := List.mem_singleton.mp hp
            obtain ⟨-, -, -, hmeta, -⟩ := AddPostController.uploaded_eq_some hq
            cases himg : post.imageUrl with
            | none => exact absurd (by rw [Event.downloadURL, hmeta, himg]) hurl
            | some url => exact ⟨url, rfl⟩
        | _ => cases hp

/-- Every stored record of a post is a copy of the submitted post, and is reproduced by decoding and
encoding it again. -/
structure Copied (w : World) : Prop where
  stored : Stored w
  reproduced : ∀ k : Ref, k.IsPost → w.server.db.Present k → Reproduced (w.server.db.node k)

/-- **Copies of a post never drift**, if every submitted image has a URL. -/
theorem copies_faithful {es : List Event}
    (hr : Run step (fun _ e => e.UrlReported) .init es w) : Copied w := by
  have hs := Run.sound hr
  have hurls := Run.urls hr
  have hcopy : ∀ k : Ref, k.IsPost → w.server.db.Present k →
      ∃ post ∈ w.submitted, ∃ p, CopyOf post p (w.server.db.node k) := by
    intro k hk hpresent
    cases k with
    | users uid => exact hk.elim
    | posts category p =>
        obtain ⟨post, hp, hcopy, -⟩ := hs.stored.posts category p hpresent
        exact ⟨post, hp, p, hcopy⟩
    | pinned uid p =>
        obtain ⟨post, hp, hcopy⟩ := hs.stored.pinned uid p hpresent
        exact ⟨post, hp, p, hcopy⟩
    | completed p =>
        obtain ⟨post, hp, hcopy⟩ := hs.stored.completed p hpresent
        exact ⟨post, hp, p, hcopy⟩
  refine ⟨hs.stored, ?_⟩
  intro k hk hpresent
  obtain ⟨post, hp, p, hcopy⟩ := hcopy k hk hpresent
  obtain ⟨url, hurl⟩ := hurls post hp
  rw [hs.reproduced_iff hk hpresent, hcopy.imageUrl hurl]
  rfl

/-- A post with an image, open, pinned and completed. -/
theorem copies_faithful_sample : ∃ w : World, w.server.db.Present (.completed "p") ∧
    w.server.db.Present (.pinned "u" "p") ∧ Copied w := by
  obtain ⟨w, hr, hdone, hpin⟩ := exists_run_of_exec step (fun _ e => e.UrlReported) .init
    (signUpScript 0 "u" (some "me.png") ++ submitScript 0 "p" (some "p.png") ++ pinScript 0 ++
      [.act 0 (.homeCheck .study 0)] ++ deliverScript 2)
    (fun w => w.server.db.Present (.completed "p") ∧ w.server.db.Present (.pinned "u" "p"))
    (by decide +kernel)
  exact ⟨w, hdone, hpin, copies_faithful hr⟩

/-- A post whose image got no URL is stored, and no handler can encode it again. -/
theorem copy_not_reproduced :
    ¬ ∀ (w : World) (es : List Event), Run step (fun _ _ => True) .init es w → Copied w := by
  intro h
  obtain ⟨w, hr, hpresent, hnone⟩ := exists_run_of_exec step (fun _ _ => True) .init
    (signUpScript 0 "u" (some "me.png") ++ submitScript 0 "p" none)
    (fun w => w.server.db.Present (.posts "Study" "p") ∧
      w.server.db.node (.posts "Study" "p") .imageUrl = none) (by decide +kernel)
  have himage := ((Run.sound hr).reproduced_iff (k := .posts "Study" "p") trivial hpresent).mp
    ((h w _ hr).reproduced _ trivial hpresent)
  rw [hnone] at himage
  cases himage

end CommServe
