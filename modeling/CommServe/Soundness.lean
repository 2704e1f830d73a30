import CommServe.Reactions

/-! # What is stored and what is cached

Every record under `posts`, `pinned` and `completed` is a submitted post, whole and under its own
id, and so is every row a list caches; a pinned or completed post has an image.  `Good` says it of
a record, `Shape` of a write in flight, `Device.Copies` of the lists of an app, and `World.Sound`
puts them together with the freshness of post ids.  `Run.sound` is the resulting invariant: it
holds after any events, deliveries out of order and refusals included.

Nothing here depends on how a list got its rows: a copy may be as stale as it likes. -/

namespace CommServe

open RecordStore Method Sync Transition

/-- What the record under a path can be, given the submitted posts. -/
def Good (ps : List Post) : Ref → Node → Prop
  | .posts cat p, r => r = (fun _ => none) ∨
      ∃ post ∈ ps, post.postId = p ∧ post.postCategory = cat ∧ r = post.record
  | .pinned _ p, r => r = (fun _ => none) ∨
      ∃ post ∈ ps, post.postId = p ∧ (∃ url, post.imageUrl = some url) ∧ r = post.record
  | .completed p, r => r = (fun _ => none) ∨
      ∃ post ∈ ps, post.postId = p ∧ (∃ url, post.imageUrl = some url) ∧
        ∃ completedBy, r = post.completedRecord completedBy
  | .users _, _ => True

/-- The writes that can be in flight, given the submitted posts. -/
inductive Shape (ps : List Post) : DbWrite → Prop where
  | submit {post : Post} : post ∈ ps → Shape ps (AddPostController.store post)
  | pin {uid url : String} {post : Post} :
      post ∈ ps → post.imageUrl = some url → Shape ps (pinPost uid post)
  | unpin {uid postId : String} : Shape ps (.remove (.pinned uid postId))
  | create {name url : String} {post : Post} :
      post ∈ ps → post.imageUrl = some url → Shape ps (createCompleted post name)
  | close {post : Post} :
      post ∈ ps → Shape ps (.remove (.posts post.postCategory post.postId))
  | user {uid : String} {x : DbWrite} : x.key = .users uid → Shape ps x

/-- The rows of an app's lists, given the submitted posts, and the loaded user. -/
structure Device.Copies (ps : List Post) (d : Device) : Prop where
  home : ∀ cell, ∀ row ∈ d.postArray cell,
    ∃ post ∈ ps, row = UserPost.ofPost post ∧ post.postCategory = cell.tempCategory
  fav : ∀ row ∈ d.pinController.favArray,
    ∃ post ∈ ps, row = UserPost.ofPost post ∧ ∃ url, post.imageUrl = some url
  checked : ∀ row ∈ d.checkedArray, ∃ post ∈ ps, ∃ completedBy,
    row = CheckPost.ofPost post completedBy ∧ ∃ url, post.imageUrl = some url
  pinPosts : d.pinController.postArray = []
  appUser : ∀ user, d.pinController.appUser = some user →
    ∃ uid data, PinController.fetchUserInfo uid data = some user

/-- The post ids that are in use: of submissions on the way and of submitted posts. -/
def World.postIds (w : World) : List String :=
  w.asked.map (fun x => x.2.postId) ++ w.uploading.map (fun x => x.2.1.postId) ++
    w.submitted.map Post.postId

/-- The invariant of every run from the start. -/
structure World.Sound (w : World) : Prop where
  net : w.server.Sound (Good w.submitted) (Shape w.submitted)
  copies : ∀ c, (w.dev c).Copies w.submitted
  /-- An id is in use at most once, and only after it was drawn. -/
  ids : ∀ p, w.postIds.count p ≤ if p ∈ w.ids then 1 else 0

variable {ps ps' : List Post}

/-! ### Records and writes -/

theorem Good.mono (h : ps ⊆ ps') : ∀ (k : Ref) (r : Node), Good ps k r → Good ps' k r
  | .posts _ _, _, hr => hr.imp_right fun ⟨post, hp, hrest⟩ => ⟨post, h hp, hrest⟩
  | .pinned _ _, _, hr => hr.imp_right fun ⟨post, hp, hrest⟩ => ⟨post, h hp, hrest⟩
  | .completed _, _, hr => hr.imp_right fun ⟨post, hp, hrest⟩ => ⟨post, h hp, hrest⟩
  | .users _, _, _ => trivial

theorem Good.empty (ps : List Post) : ∀ k : Ref, Good ps k (fun _ => none)
  | .posts _ _ => Or.inl rfl
  | .pinned _ _ => Or.inl rfl
  | .completed _ => Or.inl rfl
  | .users _ => trivial

theorem Shape.mono (h : ps ⊆ ps') {x : DbWrite} (hx : Shape ps x) : Shape ps' x := by
  cases hx with
  | submit hp => exact .submit (h hp)
  | pin hp hurl => exact .pin (h hp) hurl
  | unpin => exact .unpin
  | create hp hurl => exact .create (h hp) hurl
  | close hp => exact .close (h hp)
  | user hk => exact .user hk

theorem Good.posts_fields {cat p : String} {r : Node} (h : Good ps (.posts cat p) r) {f : Field}
    (hf : ¬ f.OfPost) : r f = none := by
  rcases h with rfl | ⟨post, -, -, -, rfl⟩
  · rfl
  · exact post.record_eq_none hf

theorem Good.pinned_fields {uid p : String} {r : Node} (h : Good ps (.pinned uid p) r) {f : Field}
    (hf : ¬ f.OfPost) : r f = none := by
  rcases h with rfl | ⟨post, -, -, -, rfl⟩
  · rfl
  · exact post.record_eq_none hf

theorem Good.completed_fields {p : String} {r : Node} (h : Good ps (.completed p) r) {f : Field}
    (hf : ¬ f.OfPost) (hf' : f ≠ .completedBy) : r f = none := by
  rcases h with rfl | ⟨post, -, -, -, by', rfl⟩
  · rfl
  · rw [post.completedRecord_apply, if_neg hf', post.record_eq_none hf]

/-- The writes in flight keep every record a submitted post. -/
theorem Shape.keeps {x : DbWrite} (hx : Shape ps x) : x.Keeps (Good ps) := by
  intro r hr
  cases hx with
  | @submit post hp =>
      have hon : (AddPostController.store post).on r = post.record :=
        post.update_on _ fun _ => Good.posts_fields hr
      exact Or.inr ⟨post, hp, rfl, rfl, hon⟩
  | @pin uid url post hp hurl =>
      have hon : (pinPost uid post).on r = post.record :=
        post.update_on _ fun _ => Good.pinned_fields hr
      exact Or.inr ⟨post, hp, rfl, ⟨url, hurl⟩, hon⟩
  | unpin => exact Or.inl rfl
  | @create name url post hp hurl =>
      have hon : (createCompleted post name).on r = post.completedRecord name :=
        post.completed_on _ _ fun _ => Good.completed_fields hr
      exact Or.inr ⟨post, hp, rfl, ⟨url, hurl⟩, name, hon⟩
  | close hp => exact Or.inl rfl
  | user hk => rw [hk]; trivial

/-! ### Cached rows -/

theorem Device.Copies.mono {d : Device} (hd : d.Copies ps) (h : ps ⊆ ps') : d.Copies ps' where
  home cell row hrow := by
    obtain ⟨post, hp, hrest⟩ := hd.home cell row hrow
    exact ⟨post, h hp, hrest⟩
  fav row hrow := by
    obtain ⟨post, hp, hrest⟩ := hd.fav row hrow
    exact ⟨post, h hp, hrest⟩
  checked row hrow := by
    obtain ⟨post, hp, hrest⟩ := hd.checked row hrow
    exact ⟨post, h hp, hrest⟩
  pinPosts := hd.pinPosts
  appUser := hd.appUser

theorem Device.Copies.new : Device.new.Copies ps where
  home _ _ h := by cases h
  fav _ h := by cases h
  checked _ h := by cases h
  pinPosts := rfl
  appUser _ h := by cases h

section Snapshots

variable {db : Database} (hdb : db.All (Good ps)) {p : String} {r : Node}
include hdb

theorem Good.open_post {cat : String} (h : db.Present (.posts cat p)) :
    ∃ post ∈ ps, post.postId = p ∧ post.postCategory = cat ∧
      db.node (.posts cat p) = post.record :=
  (hdb (.posts cat p)).resolve_left h.node_ne

theorem Good.pinned_post {uid : String} (h : db.Present (.pinned uid p)) :
    ∃ post ∈ ps, post.postId = p ∧ (∃ url, post.imageUrl = some url) ∧
      db.node (.pinned uid p) = post.record :=
  (hdb (.pinned uid p)).resolve_left h.node_ne

theorem Good.completed_post (h : db.Present (.completed p)) :
    ∃ post ∈ ps, post.postId = p ∧ (∃ url, post.imageUrl = some url) ∧
      ∃ completedBy, db.node (.completed p) = post.completedRecord completedBy :=
  (hdb (.completed p)).resolve_left h.node_ne

theorem Good.of_mem_posts {cat : String} (h : (p, r) ∈ children db (.posts cat)) :
    ∃ post ∈ ps, post.postId = p ∧ post.postCategory = cat ∧ r = post.record := by
  obtain ⟨hp, rfl⟩ := mem_children.mp h
  exact Good.open_post hdb hp

theorem Good.of_mem_pinned {uid : String} (h : (p, r) ∈ children db (.pinned uid)) :
    ∃ post ∈ ps, post.postId = p ∧ (∃ url, post.imageUrl = some url) ∧ r = post.record := by
  obtain ⟨hp, rfl⟩ := mem_children.mp h
  exact Good.pinned_post hdb hp

theorem Good.of_mem_completed (h : (p, r) ∈ children db .completed) :
    ∃ post ∈ ps, post.postId = p ∧ (∃ url, post.imageUrl = some url) ∧
      ∃ completedBy, r = post.completedRecord completedBy := by
  obtain ⟨hp, rfl⟩ := mem_children.mp h
  exact Good.completed_post hdb hp

theorem Good.fetchData {cell : HomeCell} {posts : List UserPost}
    (h : HomeViewCollection.fetchData (children db (.posts cell.tempCategory)) = some posts) :
    ∀ row ∈ posts, ∃ post ∈ ps, row = UserPost.ofPost post ∧
      post.postCategory = cell.tempCategory := by
  intro row hrow
  obtain ⟨⟨p, r⟩, hmem, hrow⟩ := HomeViewCollection.mem_fetchData h hrow
  obtain ⟨post, hp, -, hcat, rfl⟩ := Good.of_mem_posts hdb hmem
  rw [UserPost.init_record, Option.some.injEq] at hrow
  exact ⟨post, hp, hrow.symm, hcat⟩

theorem Good.pinSnapshot {uid : String} {favs : List UserPost}
    (h : PinController.viewDidAppear (children db (.pinned uid)) = some favs) :
    ∀ row ∈ favs, ∃ post ∈ ps, row = UserPost.ofPost post ∧ ∃ url, post.imageUrl = some url := by
  intro row hrow
  obtain ⟨⟨p, r⟩, hmem, hrow⟩ := PinController.mem_viewDidAppear h hrow
  obtain ⟨post, hp, -, hurl, rfl⟩ := Good.of_mem_pinned hdb hmem
  rw [UserPost.init_record, Option.some.injEq] at hrow
  exact ⟨post, hp, hrow.symm, hurl⟩

theorem Good.checkedSnapshot {posts : List CheckPost}
    (h : CheckedController.viewDidAppear (children db .completed) = some posts) :
    ∀ row ∈ posts, ∃ post ∈ ps, ∃ completedBy, row = CheckPost.ofPost post completedBy ∧
      ∃ url, post.imageUrl = some url := by
  intro row hrow
  obtain ⟨⟨p, r⟩, hmem, hrow⟩ := CheckedController.mem_viewDidAppear h hrow
  obtain ⟨post, hp, -, hurl, by', rfl⟩ := Good.of_mem_completed hdb hmem
  rw [CheckPost.init_completedRecord, Option.some.injEq] at hrow
  exact ⟨post, hp, by', hrow.symm, hurl⟩

end Snapshots

/-! ### One action -/

variable {w w' : World} {c : ℕ} {r : Reaction}

theorem World.Sound.view (hs : w.Sound) {k : ℕ} {db : Database} (h : w.server.view c k = some db) :
    db.All (Good w.submitted) :=
  hs.net.view (fun _ => Shape.keeps) h

/-- What device `c` can read, given what its own lists and writes are copies of: an action leaves
copies of the same posts in its lists. -/
theorem Device.Copies.lists (hd : (w.dev c).Copies ps)
    (hview : ∀ k db, w.server.view c k = some db → db.All (Good ps)) {d : Device}
    (h : d.Lists w c) : d.Copies ps where
  home cell row hrow := by
    rcases h.home cell with he | he | ⟨k, db, hv, hf⟩
    · exact hd.home cell row (he ▸ hrow)
    · rw [he] at hrow; cases hrow
    · exact Good.fetchData (hview k db hv) hf row hrow
  fav row hrow := by
    rcases h.fav with he | he | ⟨uid, k, db, hv, hf⟩
    · exact hd.fav row (he ▸ hrow)
    · rw [he] at hrow; cases hrow
    · exact Good.pinSnapshot (hview k db hv) hf row hrow
  checked row hrow := by
    rcases h.checked with he | he | ⟨k, db, hv, hf⟩
    · exact hd.checked row (he ▸ hrow)
    · rw [he] at hrow; cases hrow
    · exact Good.checkedSnapshot (hview k db hv) hf row hrow
  pinPosts := by
    rcases h.pinPosts with he | he
    · rw [he]; exact hd.pinPosts
    · exact he
  appUser user huser := by
    rcases h.appUser with he | he | ⟨uid, k, db, -, he⟩
    · exact hd.appUser user (he ▸ huser)
    · rw [he] at huser; cases huser
    · exact ⟨uid, db.node (.users uid), he ▸ huser⟩

theorem Device.Copies.home_post {d : Device} (hd : d.Copies ps) {cell : HomeCell} {i : ℕ}
    {post : Post} (h : (d.postArray cell)[i]? = some (UserPost.ofPost post)) : post ∈ ps := by
  obtain ⟨q, hq, he, -⟩ := hd.home _ _ (List.mem_of_getElem? h)
  rw [UserPost.ofPost_injective he]
  exact hq

theorem Device.Copies.guards_post {d : Device} (hd : d.Copies ps) {tag : ℕ}
    {g : PinController.Guards} {post : Post}
    (hg : PinController.guards d.currentUser d.pinController tag = some g)
    (hrow : g.row = UserPost.ofPost post) : post ∈ ps := by
  obtain ⟨-, hmem, -⟩ := PinController.guards_eq_some hg
  obtain ⟨q, hq, he, -⟩ := hd.fav _ (List.mem_of_getElem? hmem)
  rw [UserPost.ofPost_injective (hrow.symm.trans he)]
  exact hq

theorem Device.Copies.shapes (hd : (w.dev c).Copies ps) {a : Action} {ws : List DbWrite}
    {us : List String} {qs : List Post} {as : List (String × Option String)}
    (h : Issues w c a ws us qs as) : ∀ x ∈ ws, Shape (ps ++ qs) x := by
  cases h with
  | quiet => simp
  | submit hx hp hc => simpa using Shape.submit (by simp)
  | homeUnpin hu hrow hid hsel => simpa using Shape.unpin
  | homePin hu hrow hurl hsel =>
      have hp := hd.home_post hrow
      simpa using Shape.pin hp hurl
  | homeCheck hu hrow hurl =>
      have hp := hd.home_post hrow
      simpa using ⟨Shape.create hp hurl, Shape.close hp⟩
  | pinUnpin hu hrow hid => simpa using Shape.unpin
  | pinPin hu hrow hurl => simp [hd.pinPosts] at hrow
  | credit hg hfit hrow => simpa using Shape.user rfl
  | pinCheck hg hfit hrow hurl =>
      have hp := hd.guards_post hg hrow
      simpa using ⟨Shape.user rfl, Shape.create hp hurl, Shape.unpin, Shape.close hp⟩
  | register hu => simpa using Shape.user rfl
  | rename hu => simpa using Shape.user rfl

theorem count_map_eraseIdx {α : Type} {l : List α} {i : ℕ} {x : α} (h : l[i]? = some x)
    (f : α → String) (p : String) :
    ((l.eraseIdx i).map f).count p + (if f x = p then 1 else 0) = (l.map f).count p := by
  obtain ⟨l₁, l₂, rfl, -, he⟩ := Net.eraseIdx_of_getElem? h
  rw [he]
  simp only [List.map_append, List.map_cons, List.count_append, List.count_cons, beq_iff_eq]
  omega

/-- A submission on the way keeps its post id in use, and an id comes into use when it is drawn. -/
theorem Flow.postIds {a : Action} {asked : List (ℕ × Submission)} {uploading : List (ℕ × Submission × Node)}
    {ids : List String} {qs : List Post} (h : Flow w c a asked uploading ids qs)
    (hw : ∀ p, w.postIds.count p ≤ if p ∈ w.ids then 1 else 0) (p : String) :
    (asked.map (fun x => x.2.postId) ++ uploading.map (fun x => x.2.1.postId) ++
      (w.submitted ++ qs).map Post.postId).count p ≤ if p ∈ w.ids ++ ids then 1 else 0 := by
  have hp := hw p
  simp only [World.postIds, List.count_append, List.map_append] at hp ⊢
  cases h with
  | same ha => simpa using hp
  | draw hq => simp; split_ifs at hp ⊢ <;> simp_all
  | @ask form s hs huser =>
      simp only [List.map_append, List.map_cons, List.map_nil, List.count_append, List.count_cons,
        List.count_nil, beq_iff_eq, List.mem_append, List.mem_singleton]
      by_cases he : s.postId = p
      · subst he
        rw [if_neg hs] at hp
        simp
        omega
      · simp only [if_neg he, Ne.symm he, or_false]
        omega
  | drop hx hv =>
      have := count_map_eraseIdx hx (fun x => x.2.postId) p
      simp only [List.append_nil, List.map_nil, List.count_nil]
      omega
  | upload hx hv =>
      have := count_map_eraseIdx hx (fun x => x.2.postId) p
      simp only [List.append_nil, List.map_nil, List.count_nil, List.map_append, List.map_cons,
        List.count_append, List.count_cons, beq_iff_eq]
      omega
  | fail hx =>
      have := count_map_eraseIdx hx (fun x => x.2.1.postId) p
      simp only [List.append_nil, List.map_nil, List.count_nil]
      omega
  | submit hx hq =>
      have hid := (AddPostController.uploaded_eq_some hq).1
      have := count_map_eraseIdx hx (fun x => x.2.1.postId) p
      simp only [List.append_nil, List.map_nil, List.count_nil, List.map_cons, List.count_cons,
        beq_iff_eq, hid]
      omega

/-! ### Every run -/

theorem World.Sound.act (hs : w.Sound) {a : Action} (h : step w (.act c a) = some w') :
    w'.Sound := by
  obtain ⟨r, hr, rfl⟩ := step_act h
  have hsub : w.submitted ⊆ w.submitted ++ r.submitted := List.subset_append_left _ _
  have hnet : w.server.Sound (Good (w.submitted ++ r.submitted))
      (Shape (w.submitted ++ r.submitted)) :=
    hs.net.mono (Good.mono hsub) fun _ => Shape.mono hsub
  refine ⟨hnet.issue ((hs.copies c).shapes hr.issues), ?_, hr.flow.postIds hs.ids⟩
  · intro c'
    simp only [World.apply]
    rcases eq_or_ne c' c with rfl | hne
    · rw [Function.update_self]
      exact ((hs.copies c').lists (fun _ _ => hs.view) hr.lists).mono hsub
    · rw [Function.update_of_ne hne]
      exact (hs.copies c').mono hsub

theorem World.Sound.deliver (hs : w.Sound) {i : ℕ} (h : step w (.deliver i) = some w') :
    w'.Sound := by
  obtain ⟨s, hd, rfl⟩ := step_deliver h
  exact ⟨hs.net.deliver (fun _ => Shape.keeps) hd, hs.copies, hs.ids⟩

theorem World.Sound.reject (hs : w.Sound) {i : ℕ} (h : step w (.reject i) = some w') :
    w'.Sound := by
  obtain ⟨s, hd, rfl⟩ := step_reject h
  exact ⟨hs.net.reject hd, hs.copies, hs.ids⟩

theorem World.Sound.step (hs : w.Sound) {e : Event} (h : step w e = some w') : w'.Sound := by
  cases e with
  | act c a => exact hs.act h
  | deliver i => exact hs.deliver h
  | reject i => exact hs.reject h

theorem World.Sound.init : World.init.Sound where
  net := ⟨fun k => Good.empty _ k, by simp [World.init, Net.empty], by simp [World.init, Net.empty]⟩
  copies _ := .new
  ids := by simp [World.init, World.postIds]

theorem World.Sound.nodup (hs : w.Sound) : (w.submitted.map Post.postId).Nodup := by
  rw [List.nodup_iff_count_le_one]
  intro p
  have hcount := hs.ids p
  simp only [World.postIds, List.count_append] at hcount
  split_ifs at hcount <;> omega

theorem World.Sound.mem_ids (hs : w.Sound) {p : String} (h : p ∈ w.postIds) : p ∈ w.ids := by
  have hcount := hs.ids p
  have hpos : 0 < w.postIds.count p := List.count_pos_iff.mpr h
  by_contra hp
  rw [if_neg hp] at hcount
  omega

/-- The id of a submission that waits for its answer is not in use elsewhere. -/
theorem World.Sound.asked_alone (hs : w.Sound) {x : ℕ × Submission} (hx : x ∈ w.asked) :
    (∀ y ∈ w.uploading, y.2.1.postId ≠ x.2.postId) ∧
      ∀ post ∈ w.submitted, post.postId ≠ x.2.postId := by
  have hcount := hs.ids x.2.postId
  have hasked : 0 < (w.asked.map fun y => y.2.postId).count x.2.postId :=
    List.count_pos_iff.mpr (List.mem_map.mpr ⟨x, hx, rfl⟩)
  simp only [World.postIds, List.count_append] at hcount
  constructor
  · intro y hy he
    have huploading : 0 < (w.uploading.map fun y => y.2.1.postId).count x.2.postId :=
      List.count_pos_iff.mpr (List.mem_map.mpr ⟨y, hy, he⟩)
    split_ifs at hcount <;> omega
  · intro post hp he
    have hsubmitted : 0 < (w.submitted.map Post.postId).count x.2.postId :=
      List.count_pos_iff.mpr (List.mem_map.mpr ⟨post, hp, he⟩)
    split_ifs at hcount <;> omega

theorem World.Sound.unique (hs : w.Sound) {post post' : Post} (h : post ∈ w.submitted)
    (h' : post' ∈ w.submitted) (he : post.postId = post'.postId) : post = post' :=
  List.inj_on_of_nodup_map hs.nodup h h' he

/-- **Whatever happens, everything stored and cached is a submitted post.** -/
theorem Run.sound {ok : World → Event → Prop} {es : List Event} (h : Run step ok .init es w) :
    w.Sound :=
  h.invariant World.Sound (fun _ _ _ hs _ hst => hs.step hst) .init

end CommServe
