import CommServe.Lifecycle

/-! # Two ways to complete and to unpin a post

A post that is open and pinned can be completed from the Home feed or from the Pinned list.  The two
handlers were written separately: they agree on the open post and on the eight fields of the
completed one, and on nothing else.  Home stores the user id where Pinned stores the user name, it
leaves the pin, and it does not credit the user.  They lead to the same database only where neither
writes anything: Home cannot complete a post without an image, and Pinned cannot credit a user whose
karma is at the end of `Int` (`completion_paths_agree_iff`).

It can be unpinned from both lists as well.  The handler of the Pinned list looks the post up in an
array that nothing fills, so for a signed-in user it never gets to the removal. -/

namespace CommServe

open RecordStore Method Transition

/-- The user `uid` is signed in and loaded, the post is open and pinned by the user, and both lists
show it: in row `i` of the feed and in row `j` of the pins. -/
structure BothListed (db : Database) (uid : String) (post : Post) (postArray : List UserPost)
    (controller : PinController) (i j : ℕ) (point : ℤ) (name : String) : Prop where
  opened : db.node (.posts post.postCategory post.postId) = post.record
  pinned : db.node (.pinned uid post.postId) = post.record
  home : postArray[i]? = some (UserPost.ofPost post)
  fav : controller.favArray[j]? = some (UserPost.ofPost post)
  user : ∃ user, controller.appUser = some user ∧ user.karmaPoints = some point ∧
    user.username = some name
  karma : db.node (.users uid) .karmaPoints = some (.int point)
  username : db.node (.users uid) .username = some (.str name)

/-- The database after the post was completed from the Home feed. -/
def afterHome (db : Database) (uid : String) (postArray : List UserPost) (i : ℕ) : Database :=
  db.applyAll ((HomeViewCollection.handleCheckClick (some uid) postArray ⟨i, false⟩).writes ⟨i, false⟩)

/-- The database after the post was completed from the Pinned list. -/
def afterPinned (db : Database) (uid : String) (controller : PinController) (j : ℕ) : Database :=
  db.applyAll ((PinController.handleCheckClick (some uid) controller ⟨j, false⟩).writes ⟨j, false⟩)

/-- The two databases agree on what a completion of the post by the user is about. -/
structure SameOutcome (uid : String) (post : Post) (db db' : Database) : Prop where
  completed : db.node (.completed post.postId) = db'.node (.completed post.postId)
  posts : ∀ category p, db.node (.posts category p) = db'.node (.posts category p)
  pinned : ∀ p, db.node (.pinned uid p) = db'.node (.pinned uid p)
  karma : db.node (.users uid) .karmaPoints = db'.node (.users uid) .karmaPoints

variable {db : Database} {uid url name : String} {post : Post} {postArray : List UserPost}
  {controller : PinController} {i j : ℕ} {point : ℤ}

theorem BothListed.afterHome (h : BothListed db uid post postArray controller i j point name)
    (hurl : post.imageUrl = some url) :
    CommServe.afterHome db uid postArray i =
      db.applyAll [createCompleted post uid, removeOpen post] := by
  unfold CommServe.afterHome Handler.writes
  rw [HomeViewCollection.handleCheckClick_ofPost h.home hurl rfl]
  rfl

theorem BothListed.afterPinned (h : BothListed db uid post postArray controller i j point name)
    (hurl : post.imageUrl = some url) (hfit : point + 50 ≤ maxInt) :
    CommServe.afterPinned db uid controller j =
      db.applyAll [updateKarma uid (point + 50), createCompleted post name,
        .remove (.pinned uid post.postId), removeOpen post] := by
  obtain ⟨user, huser, hpoint, hname⟩ := h.user
  unfold CommServe.afterPinned Handler.writes
  rw [PinController.handleCheckClick_ofPost h.fav hurl huser hpoint hfit hname rfl]
  rfl

theorem BothListed.afterHome_none (h : BothListed db uid post postArray controller i j point name)
    (hurl : post.imageUrl = none) : CommServe.afterHome db uid postArray i = db := by
  unfold CommServe.afterHome Handler.writes
  rw [HomeViewCollection.handleCheckClick_ofPost_none h.home hurl rfl]
  rfl

theorem BothListed.afterPinned_none
    (h : BothListed db uid post postArray controller i j point name) (hurl : post.imageUrl = none)
    (hfit : point + 50 ≤ maxInt) :
    CommServe.afterPinned db uid controller j = db.apply (updateKarma uid (point + 50)) := by
  obtain ⟨user, huser, hpoint, hname⟩ := h.user
  unfold CommServe.afterPinned Handler.writes
  rw [PinController.handleCheckClick_ofPost_none h.fav hurl huser hpoint hfit hname rfl]
  rfl

theorem BothListed.afterPinned_overflow
    (h : BothListed db uid post postArray controller i j point name) (hfit : maxInt < point + 50) :
    CommServe.afterPinned db uid controller j = db := by
  obtain ⟨user, huser, hpoint, hname⟩ := h.user
  have hguards : PinController.guards (some uid) controller j =
      some ⟨uid, UserPost.ofPost post, point, name⟩ := by
    unfold PinController.guards
    rw [h.fav, huser]
    simp [UserPost.ofPost, hpoint, hname]
  unfold CommServe.afterPinned Handler.writes
  rw [PinController.handleCheckClick_overflow hguards hfit]
  rfl

theorem BothListed.karma_home (h : BothListed db uid post postArray controller i j point name) :
    (CommServe.afterHome db uid postArray i).node (.users uid) .karmaPoints = some (.int point) := by
  cases hurl : post.imageUrl with
  | none => rw [h.afterHome_none hurl, h.karma]
  | some url =>
      rw [h.afterHome hurl, Store.applyAll_node_ne (by simp [removeOpen]), h.karma]

theorem BothListed.karma_pinned (h : BothListed db uid post postArray controller i j point name)
    (hfit : point + 50 ≤ maxInt) :
    (CommServe.afterPinned db uid controller j).node (.users uid) .karmaPoints =
      some (.int (point + 50)) := by
  have hcredit : (db.apply (updateKarma uid (point + 50))).node (.users uid) .karmaPoints =
      some (.int (point + 50)) := by
    rw [Store.apply_leaf]
    simp [Write.effectAt]
  cases hurl : post.imageUrl with
  | none => rw [h.afterPinned_none hurl hfit, hcredit]
  | some url =>
      rw [h.afterPinned hurl hfit, Store.applyAll_cons, Store.applyAll_node_ne (by simp [removeOpen]),
        hcredit]

theorem createCompleted_on_ne (post : Post) (by₁ by₂ : String) (r : Node) {f : Field}
    (hf : f ≠ .completedBy) :
    (createCompleted post by₁).on r f = (createCompleted post by₂).on r f := by
  cases f <;> first | rfl | exact absurd rfl hf

section Records

variable (h : BothListed db uid post postArray controller i j point name)
  (hurl : post.imageUrl = some url)
include h hurl

theorem BothListed.completed_home :
    (CommServe.afterHome db uid postArray i).node (.completed post.postId) =
      (createCompleted post uid).on (db.node (.completed post.postId)) := by
  have hnode : (db.applyAll [createCompleted post uid, removeOpen post]).node
      (createCompleted post uid).key = _ :=
    Store.applyAll_node_of_mem (by simp [removeOpen]) List.mem_cons_self db
  rw [h.afterHome hurl]
  exact hnode

variable (hfit : point + 50 ≤ maxInt)
include hfit

theorem BothListed.completed_pinned :
    (CommServe.afterPinned db uid controller j).node (.completed post.postId) =
      (createCompleted post name).on (db.node (.completed post.postId)) := by
  have hnode : (db.applyAll [updateKarma uid (point + 50), createCompleted post name,
      .remove (.pinned uid post.postId), removeOpen post]).node (createCompleted post name).key = _ :=
    Store.applyAll_node_of_mem (by simp [removeOpen])
      (List.mem_cons_of_mem _ List.mem_cons_self) db
  rw [h.afterPinned hurl hfit]
  exact hnode

/-- What the two ways agree on: the open posts, and the eight fields of the completed one. -/
theorem BothListed.agree :
    (∀ category p, (CommServe.afterHome db uid postArray i).node (.posts category p) =
      (CommServe.afterPinned db uid controller j).node (.posts category p)) ∧
    ∀ f, f ≠ .completedBy →
      (CommServe.afterHome db uid postArray i).node (.completed post.postId) f =
        (CommServe.afterPinned db uid controller j).node (.completed post.postId) f := by
  constructor
  · intro category p
    rw [h.afterHome hurl, h.afterPinned hurl hfit]
    simp only [Store.applyAll_cons, Store.applyAll_nil, Store.apply_node, removeOpen]
    simp
  · intro f hf
    rw [h.completed_home hurl, h.completed_pinned hurl hfit]
    exact createCompleted_on_ne post uid name _ hf

/-- What they do not agree on: Home stores the user id as the one who completed the post, and leaves
the pin. -/
theorem BothListed.differ :
    (CommServe.afterHome db uid postArray i).node (.completed post.postId) .completedBy =
      some (.str uid) ∧
    (CommServe.afterPinned db uid controller j).node (.completed post.postId) .completedBy =
      some (.str name) ∧
    (CommServe.afterHome db uid postArray i).node (.pinned uid post.postId) = post.record ∧
    ¬ (CommServe.afterPinned db uid controller j).Present (.pinned uid post.postId) := by
  refine ⟨by rw [h.completed_home hurl]; rfl, by rw [h.completed_pinned hurl hfit]; rfl, ?_, ?_⟩
  · rw [h.afterHome hurl, Store.applyAll_node_ne (by simp [removeOpen]), h.pinned]
  · rintro ⟨f, hf⟩
    rw [h.afterPinned hurl hfit] at hf
    simp only [Store.applyAll_cons, Store.applyAll_nil, Store.apply_node, removeOpen] at hf
    simp at hf

end Records

/-- If the post has an image, Home removes it from the open posts and Pinned, which traps, does not. -/
theorem BothListed.posts_differ (h : BothListed db uid post postArray controller i j point name)
    (hurl : post.imageUrl = some url) (hfit : maxInt < point + 50) :
    (CommServe.afterHome db uid postArray i).node (.posts post.postCategory post.postId) ≠
      (CommServe.afterPinned db uid controller j).node (.posts post.postCategory post.postId) := by
  have hgone : (db.applyAll [createCompleted post uid, removeOpen post]).node
      (removeOpen post).key = _ :=
    Store.applyAll_node_of_mem (by simp [removeOpen]) (by simp) db
  have hid : post.record .postId = some (.str post.postId) := rfl
  rw [h.afterHome hurl, h.afterPinned_overflow hfit, h.opened]
  intro he
  rw [← he, show Ref.posts post.postCategory post.postId = (removeOpen post).key from rfl, hgone] at hid
  cases hid

/-- **The two ways to complete a post agree only where both fail**: the post has no image, and the karma of
the user leaves no room for 50 more. -/
theorem completion_paths_agree_iff
    (h : BothListed db uid post postArray controller i j point name) :
    SameOutcome uid post (CommServe.afterHome db uid postArray i)
      (CommServe.afterPinned db uid controller j) ↔
      post.imageUrl = none ∧ maxInt < point + 50 := by
  constructor
  · intro hsame
    rcases le_or_gt (point + 50) maxInt with hfit | hfit
    · -- the Pinned list credits the user
      have hkarma := hsame.karma
      rw [h.karma_home, h.karma_pinned hfit] at hkarma
      simp at hkarma
    · refine ⟨?_, hfit⟩
      cases hurl : post.imageUrl with
      | none => rfl
      | some url => exact absurd (hsame.posts _ _) (h.posts_differ hurl hfit)
  · rintro ⟨hurl, hfit⟩
    rw [h.afterHome_none hurl, h.afterPinned_overflow hfit]
    exact ⟨rfl, fun _ _ => rfl, fun _ => rfl, rfl⟩

/-- A user with karma 0 and a post of somebody else, open and pinned. -/
def bothListedDb : Database :=
  Store.empty.applyAll [SignUpController.store ⟨"name of u", "u", "a@b.c", "secret", some "me.png",
    "US", "555", 0⟩, AddPostController.store (scriptPost "v" "p" (some "p.png")),
    pinPost "u" (scriptPost "v" "p" (some "p.png"))]

/-- The user on the Pinned list. -/
def bothListedController : PinController :=
  ⟨[], [UserPost.ofPost (scriptPost "v" "p" (some "p.png"))],
    some (AppUser.make "name of u" "u" "a@b.c" "me.png" "US" "555" 0)⟩

theorem bothListed_sample : BothListed bothListedDb "u" (scriptPost "v" "p" (some "p.png"))
    [UserPost.ofPost (scriptPost "v" "p" (some "p.png"))] bothListedController 0 0 0 "name of u" where
  opened := by funext f; cases f <;> rfl
  pinned := by funext f; cases f <;> rfl
  home := rfl
  fav := rfl
  user := ⟨_, rfl, rfl, rfl⟩
  karma := rfl
  username := rfl

theorem completion_paths_differ_sample :
    ¬ SameOutcome "u" (scriptPost "v" "p" (some "p.png"))
      (CommServe.afterHome bothListedDb "u" [UserPost.ofPost (scriptPost "v" "p" (some "p.png"))] 0)
      (CommServe.afterPinned bothListedDb "u" bothListedController 0) :=
  fun hsame => absurd ((completion_paths_agree_iff bothListed_sample).mp hsame).1 (by decide)

/-- The two ways do not lead to the same database. -/
theorem completion_paths_disagree :
    ¬ ∀ (db : Database) (uid : String) (post : Post) (postArray : List UserPost)
      (controller : PinController) (i j : ℕ) (point : ℤ) (name : String),
      BothListed db uid post postArray controller i j point name →
      SameOutcome uid post (CommServe.afterHome db uid postArray i)
        (CommServe.afterPinned db uid controller j) := by
  intro h
  have hsame := h _ _ _ _ _ _ _ _ _ bothListed_sample
  have hdiffer := bothListed_sample.differ rfl (by decide)
  have hby := congrFun hsame.completed .completedBy
  rw [hdiffer.1, hdiffer.2.1] at hby
  exact absurd hby (by decide)

/-! ### Unpinning -/

/-- A tap on the unselected pin button of row `r` of the Pinned list does what a tap on the selected
pin button of the same post does in the Home feed. -/
structure UnpinsAsHome (d : Device) (r : ℕ) : Prop where
  inRange : trapOf ((PinController.handlePinClick d.currentUser d.pinController ⟨r, false⟩).tap
    ⟨r, false⟩) ≠ some .subscript
  writes : (PinController.handlePinClick d.currentUser d.pinController ⟨r, false⟩).writes ⟨r, false⟩ =
    (HomeViewCollection.handlePinClick d.currentUser d.pinController.favArray ⟨r, true⟩).writes
      ⟨r, true⟩

/-- With nothing in `postArray` the handler of a signed-in user ends at its subscript. -/
theorem PinController.handlePinClick_traps {uid : String} {self : PinController} {sender : UIButton}
    (h : self.postArray = []) :
    trapOf ((handlePinClick (some uid) self sender).tap sender) = some .subscript ∧
      (handlePinClick (some uid) self sender).writes sender = [] := by
  unfold Handler.writes
  cases hsel : sender.isSelected <;>
    simp [Handler.tap, handlePinClick, subscript, run_bind, h, hsel, trapOf]

/-- In every reachable state the tap does what it does in the Home feed only if nobody is signed in, when
both do nothing. -/
theorem unpinsAsHome_iff_signedOut {w : World} {es : List Event}
    (hr : Run step (fun _ _ => True) .init es w) (c r : ℕ) :
    UnpinsAsHome (w.dev c) r ↔ (w.dev c).currentUser = none := by
  have hnil := ((Run.sound hr).copies c).pinPosts
  constructor
  · intro h
    cases huser : (w.dev c).currentUser with
    | none => rfl
    | some uid =>
        have hin := h.inRange
        rw [huser] at hin
        exact absurd (PinController.handlePinClick_traps hnil).1 hin
  · intro huser
    constructor
    · rw [huser]
      simp [Handler.tap, PinController.handlePinClick, run_bind, trapOf]
    · rw [huser]
      simp [Handler.writes, Handler.tap, PinController.handlePinClick,
        HomeViewCollection.handlePinClick, run_bind]

/-- A user pins a post and opens the Pinned list. -/
def unpinScript : List Event :=
  signUpScript 0 "u" (some "me.png") ++ submitScript 0 "p" (some "p.png") ++ pinScript 0 ++
    openPinsScript 0

theorem unpinsAsHome_signedOut : ∃ (w : World) (es : List Event),
    Run step (fun _ _ => True) .init es w ∧ (w.dev 0).pinController.favArray ≠ [] ∧
      UnpinsAsHome (w.dev 0) 0 := by
  obtain ⟨w, hr, hfavs, huser⟩ := exists_run_of_exec step (fun _ _ => True) .init
    (unpinScript ++ [.act 0 .signOut])
    (fun w => (w.dev 0).pinController.favArray ≠ [] ∧ (w.dev 0).currentUser = none)
    (by decide +kernel)
  exact ⟨w, _, hr, hfavs, (unpinsAsHome_iff_signedOut hr 0 0).mpr huser⟩

/-- The tap on the first row ends the app, where the Home feed would remove the pin. -/
theorem unpin_traps : ∃ (w : World) (es : List Event), Run step (fun _ _ => True) .init es w ∧
    (w.dev 0).pinController.favArray = [UserPost.ofPost (scriptPost "u" "p" (some "p.png"))] ∧
    ¬ UnpinsAsHome (w.dev 0) 0 := by
  obtain ⟨w, hr, hfavs, htrap⟩ := exists_run_of_exec step (fun _ _ => True) .init unpinScript
    (fun w => (w.dev 0).pinController.favArray =
        [UserPost.ofPost (scriptPost "u" "p" (some "p.png"))] ∧
      trapOf ((PinController.handlePinClick (w.dev 0).currentUser (w.dev 0).pinController
        ⟨0, false⟩).tap ⟨0, false⟩) = some .subscript) (by decide +kernel)
  refine ⟨w, _, hr, hfavs, ?_⟩
  intro h
  exact h.inRange htrap

end CommServe
