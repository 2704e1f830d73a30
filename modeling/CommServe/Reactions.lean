import CommServe.World

/-! # What one step can do

`Issues w c a ws us ps as` lists what an action of device `c` can issue: nothing, or one of ten
groups of writes `ws` with the accounts `us`, the submitted posts `ps` and the awards `as` that go
with them, each under what the device must have held for it.  `Flow` says the same of the
submissions on the way and `Device.Lists` of the cached lists.  `reaction_spec` goes through all
actions once; the invariants split on these instead.

`step_act`, `step_deliver` and `step_reject` state what a step makes of the world. -/

namespace CommServe

open RecordStore Method Sync

/-- The ways device `c` issues the writes `ws` in action `a`. -/
inductive Issues (w : World) (c : ℕ) :
    Action → List DbWrite → List String → List Post → List (String × Option String) → Prop where
  | quiet {a : Action} : Issues w c a [] [] [] []
  | submit {i : ℕ} {metadata : Option (Option String)} {x : ℕ × Submission × Node} {post : Post} :
      w.uploading[i]? = some x → AddPostController.uploaded x.2.1 x.2.2 metadata = some post →
      x.1 = c →
      Issues w c (.submitUploaded i metadata) [AddPostController.store post] [] [post] []
  | homeUnpin {cell : HomeCell} {sender : UIButton} {uid postId : String} {row : UserPost} :
      (w.dev c).currentUser = some uid → ((w.dev c).postArray cell)[sender.tag]? = some row →
      row.postId = some postId → sender.isSelected = true →
      Issues w c (.homePin cell sender) [.remove (.pinned uid postId)] [] [] []
  | homePin {cell : HomeCell} {sender : UIButton} {uid url : String} {post : Post} :
      (w.dev c).currentUser = some uid →
      ((w.dev c).postArray cell)[sender.tag]? = some (UserPost.ofPost post) →
      post.imageUrl = some url → sender.isSelected = false →
      Issues w c (.homePin cell sender) [pinPost uid post] [] [] []
  | homeCheck {cell : HomeCell} {tag : ℕ} {uid url : String} {post : Post} :
      (w.dev c).currentUser = some uid →
      ((w.dev c).postArray cell)[tag]? = some (UserPost.ofPost post) → post.imageUrl = some url →
      Issues w c (.homeCheck cell tag)
        [createCompleted post uid, .remove (.posts post.postCategory post.postId)] [] [] []
  | pinUnpin {sender : UIButton} {uid postId : String} {row : UserPost} :
      (w.dev c).currentUser = some uid →
      (w.dev c).pinController.postArray[sender.tag]? = some row → row.postId = some postId →
      Issues w c (.pinPin sender) [.remove (.pinned uid postId)] [] [] []
  | pinPin {sender : UIButton} {uid url : String} {post : Post} :
      (w.dev c).currentUser = some uid →
      (w.dev c).pinController.postArray[sender.tag]? = some (UserPost.ofPost post) →
      post.imageUrl = some url → Issues w c (.pinPin sender) [pinPost uid post] [] [] []
  | credit {tag : ℕ} {g : PinController.Guards} :
      PinController.guards (w.dev c).currentUser (w.dev c).pinController tag = some g →
      g.point + 50 ≤ maxInt →
      (∀ post url, g.row = UserPost.ofPost post → post.imageUrl ≠ some url) →
      Issues w c (.pinCheck tag) [updateKarma g.uid (g.point + 50)] [] [] [(g.uid, g.row.postId)]
  | pinCheck {tag : ℕ} {g : PinController.Guards} {url : String} {post : Post} :
      PinController.guards (w.dev c).currentUser (w.dev c).pinController tag = some g →
      g.point + 50 ≤ maxInt →
      g.row = UserPost.ofPost post → post.imageUrl = some url →
      Issues w c (.pinCheck tag)
        [updateKarma g.uid (g.point + 50), createCompleted post g.name,
          .remove (.pinned g.uid post.postId), .remove (.posts post.postCategory post.postId)]
        [] [] [(g.uid, some post.postId)]
  | register {j i : ℕ} {uid : String} {request : SignUpRequest} :
      uid ∉ w.accounts →
      Issues w c (.accountCreated j i (some uid))
        [SignUpController.store (SignUpController.userData request uid
          ((w.dev c).signUp j).profileurl)] [uid] [] []
  | rename {i : ℕ} {uid name : String} {metadata : Option (Option String)} :
      (w.dev c).currentUser = some uid →
      Issues w c (.userInfoUploaded i metadata) [UserInfoController.store uid name] [] [] []

/-- What reaction `r` adds to the world is one of the groups. -/
def Reaction.IssuesOf (w : World) (c : ℕ) (a : Action) (r : Reaction) : Prop :=
  Issues w c a r.writes r.accounts r.submitted r.awards

variable {w : World} {c : ℕ} {r : Reaction}

theorem awardOf_cons {d : Device} {tag : ℕ} {x : DbWrite} {ws : List DbWrite} {uid : String}
    {row : UserPost} (hu : d.currentUser = some uid)
    (hr : d.pinController.favArray[tag]? = some row) :
    awardOf d tag (x :: ws) = [(uid, row.postId)] := by
  unfold awardOf
  rw [hu, hr]

/-! ### The actions that issue writes -/

theorem submitUploaded_issues {i : ℕ} {metadata : Option (Option String)}
    (h : w.submitUploaded c i metadata = some r) : r.IssuesOf w c (.submitUploaded i metadata) := by
  obtain ⟨x, hx, h⟩ := Option.bind_eq_some_iff.mp h
  split_ifs at h with hc
  cases hp : AddPostController.uploaded x.2.1 x.2.2 metadata with
  | none =>
      simp only [hp, Option.some.injEq] at h
      subst h
      exact .quiet
  | some post =>
      simp only [hp, Option.some.injEq] at h
      subst h
      exact .submit hx hp hc

theorem homePin_issues {cell : HomeCell} {sender : UIButton} (h : w.homePin c cell sender = some r) :
    r.IssuesOf w c (.homePin cell sender) := by
  obtain rfl := Option.some.inj h
  unfold Reaction.IssuesOf
  rcases @HomeViewCollection.handlePinClick_cases (w.dev c).currentUser ((w.dev c).postArray cell)
    sender with
    hw | ⟨uid, row, postId, hu, hsel, hrow, hid, hw⟩ | ⟨uid, post, url, hu, hsel, hrow, hurl, hw⟩
  all_goals
    unfold Handler.writes at hw
    simp only [hw]
  · exact .quiet
  · exact .homeUnpin hu hrow hid hsel
  · exact .homePin hu hrow hurl hsel

theorem homeCheck_issues {cell : HomeCell} {tag : ℕ} (h : w.homeCheck c cell tag = some r) :
    r.IssuesOf w c (.homeCheck cell tag) := by
  obtain rfl := Option.some.inj h
  unfold Reaction.IssuesOf
  rcases @HomeViewCollection.handleCheckClick_cases (w.dev c).currentUser ((w.dev c).postArray cell)
    ⟨tag, false⟩ with
    hw | ⟨uid, post, url, hu, hrow, hurl, -, hw⟩
  all_goals
    unfold Handler.writes at hw
    simp only [hw]
  · exact .quiet
  · exact .homeCheck hu hrow hurl

theorem pinPin_issues {sender : UIButton} (h : w.pinPin c sender = some r) :
    r.IssuesOf w c (.pinPin sender) := by
  obtain rfl := Option.some.inj h
  unfold Reaction.IssuesOf
  rcases @PinController.handlePinClick_cases (w.dev c).currentUser (w.dev c).pinController sender with
    hw | ⟨uid, row, postId, hu, hrow, hid, hw⟩ | ⟨uid, post, url, hu, hrow, hurl, hw⟩
  all_goals
    unfold Handler.writes at hw
    simp only [hw]
  · exact .quiet
  · exact .pinUnpin hu hrow hid
  · exact .pinPin hu hrow hurl

theorem pinCheck_issues {tag : ℕ} (h : w.pinCheck c tag = some r) :
    r.IssuesOf w c (.pinCheck tag) := by
  obtain rfl := Option.some.inj h
  unfold Reaction.IssuesOf
  rcases @PinController.handleCheckClick_cases (w.dev c).currentUser (w.dev c).pinController
    ⟨tag, false⟩ with
    hw | ⟨g, hg, hfit, ⟨hw, hrow⟩ | ⟨post, url, -, hrow, hurl, hw⟩⟩
  all_goals
    unfold Handler.writes at hw
    simp only [hw]
  · exact .quiet
  · obtain ⟨hu, hg', -⟩ := PinController.guards_eq_some hg
    rw [awardOf_cons hu hg']
    exact .credit hg hfit (hrow.resolve_left (by simp))
  · obtain ⟨hu, hg', -⟩ := PinController.guards_eq_some hg
    rw [awardOf_cons hu hg', hrow]
    exact .pinCheck hg hfit hrow hurl

theorem accountCreated_issues {j i : ℕ} {result : Option String}
    (h : w.accountCreated c j i result = some r) : r.IssuesOf w c (.accountCreated j i result) := by
  obtain ⟨request, -, h⟩ := Option.bind_eq_some_iff.mp h
  cases result with
  | none =>
      obtain rfl := Option.some.inj h
      exact .quiet
  | some uid =>
      simp only at h
      split_ifs at h with hu
      obtain rfl := Option.some.inj h
      exact .register hu

theorem userInfoUploaded_issues {i : ℕ} {metadata : Option (Option String)}
    (h : w.userInfoUploaded c i metadata = some r) :
    r.IssuesOf w c (.userInfoUploaded i metadata) := by
  obtain ⟨name, -, h⟩ := Option.bind_eq_some_iff.mp h
  cases metadata with
  | none =>
      obtain rfl := Option.some.inj h
      exact .quiet
  | some url =>
  cases hu : (w.dev c).currentUser with
  | none =>
      simp only [hu, Option.some.injEq] at h
      subst h
      exact .quiet
  | some uid =>
      simp only [hu, Option.some.injEq] at h
      subst h
      exact .rename hu

/-! ### All actions -/

/-- The action is part of a submission. -/
def Action.submits : Action → Bool
  | .submitPressed _ _ | .submitSnapshot _ _ _ | .submitUploaded _ _ => true
  | _ => false

/-- What an action makes of the submissions on the way, with the post ids it draws. -/
inductive Flow (w : World) (c : ℕ) :
    Action → List (ℕ × Submission) → List (ℕ × Submission × Node) → List String → List Post →
      Prop where
  | same {a : Action} : a.submits = false → Flow w c a w.asked w.uploading [] []
  | draw {form : PostForm} {p : String} :
      p ∉ w.ids → Flow w c (.submitPressed form p) w.asked w.uploading [p] []
  | ask {form : PostForm} {s : Submission} :
      s.postId ∉ w.ids → (w.dev c).userId = some s.userId →
      Flow w c (.submitPressed form s.postId) (w.asked ++ [(c, s)]) w.uploading [s.postId] []
  | drop {i k : ℕ} {jpeg : Bool} {x : ℕ × Submission} {db : Database} :
      w.asked[i]? = some x → w.server.view c k = some db →
      Flow w c (.submitSnapshot i k jpeg) (w.asked.eraseIdx i) w.uploading [] []
  | upload {i k : ℕ} {jpeg : Bool} {x : ℕ × Submission} {db : Database} :
      w.asked[i]? = some x → w.server.view c k = some db →
      Flow w c (.submitSnapshot i k jpeg) (w.asked.eraseIdx i)
        (w.uploading ++ [(c, x.2, db.node (.users x.2.userId))]) [] []
  | fail {i : ℕ} {metadata : Option (Option String)} {x : ℕ × Submission × Node} :
      w.uploading[i]? = some x →
      Flow w c (.submitUploaded i metadata) w.asked (w.uploading.eraseIdx i) [] []
  | submit {i : ℕ} {metadata : Option (Option String)} {x : ℕ × Submission × Node} {post : Post} :
      w.uploading[i]? = some x → AddPostController.uploaded x.2.1 x.2.2 metadata = some post →
      Flow w c (.submitUploaded i metadata) w.asked (w.uploading.eraseIdx i) [] [post]

theorem Flow.eq_of_not_submits {a : Action} {asked : List (ℕ × Submission)}
    {uploading : List (ℕ × Submission × Node)} {ids : List String} {ps : List Post}
    (h : Flow w c a asked uploading ids ps) (ha : a.submits = false) :
    asked = w.asked ∧ uploading = w.uploading ∧ ps = [] := by
  cases h with
  | same _ => exact ⟨rfl, rfl, rfl⟩
  | _ => cases ha

/-- Where an app's lists and the loaded user are from after an action of device `c`: they are the old
ones, the screen is new, or a snapshot arrived. -/
structure Device.Lists (w : World) (c : ℕ) (d : Device) : Prop where
  home : ∀ cell, d.postArray cell = (w.dev c).postArray cell ∨ d.postArray cell = [] ∨
    ∃ k db, w.server.view c k = some db ∧
      HomeViewCollection.fetchData (children db (.posts cell.tempCategory)) = some (d.postArray cell)
  fav : d.pinController.favArray = (w.dev c).pinController.favArray ∨
    d.pinController.favArray = [] ∨ ∃ uid k db, w.server.view c k = some db ∧
      PinController.viewDidAppear (children db (.pinned uid)) = some d.pinController.favArray
  checked : d.checkedArray = (w.dev c).checkedArray ∨ d.checkedArray = [] ∨
    ∃ k db, w.server.view c k = some db ∧
      CheckedController.viewDidAppear (children db .completed) = some d.checkedArray
  pinPosts : d.pinController.postArray = (w.dev c).pinController.postArray ∨
    d.pinController.postArray = []
  appUser : d.pinController.appUser = (w.dev c).pinController.appUser ∨
    d.pinController.appUser = none ∨ ∃ uid k db, w.server.view c k = some db ∧
      d.pinController.appUser = PinController.fetchUserInfo uid (db.node (.users uid))
  users : d.usersArray = (w.dev c).usersArray ∨ d.usersArray = [] ∨
    ∃ k db, w.server.view c k = some db ∧
      KarmaController.viewDidAppear (children db .users) = some d.usersArray

/-- Who is signed in after an action of a device on which `user` was signed in. -/
def Action.currentUser (user : Option String) : Action → Option String
  | .signIn uid => some uid
  | .signOut => none
  | .accountCreated _ _ (some uid) => some uid
  | _ => user

/-- The user the Add Post screen has captured after an action. -/
def Action.userId (d : Device) : Action → Option String
  | .openTabs => d.currentUser
  | _ => d.userId

/-- The action changes neither the user nor the submissions on the way. -/
def Action.plain : Action → Bool
  | .signIn _ | .signOut | .openTabs | .accountCreated _ _ (some _) => false
  | a => !a.submits

theorem Action.plain.submits {a : Action} (h : a.plain = true) : a.submits = false := by
  cases a <;> simp_all [Action.plain, Action.submits]

theorem Action.plain.currentUser {a : Action} (h : a.plain = true) (user : Option String) :
    a.currentUser user = user := by
  cases a with
  | accountCreated j i result => cases result <;> simp_all [Action.plain, Action.currentUser]
  | _ => simp_all [Action.plain, Action.currentUser]

theorem Action.plain.userId {a : Action} (h : a.plain = true) (d : Device) :
    a.userId d = d.userId := by
  cases a <;> simp_all [Action.plain, Action.userId]

/-- Everything later proofs use of an action. -/
structure Reaction.Spec (w : World) (c : ℕ) (a : Action) (r : Reaction) : Prop where
  issues : Issues w c a r.writes r.accounts r.submitted r.awards
  flow : Flow w c a r.asked r.uploading r.ids r.submitted
  lists : r.device.Lists w c
  user : r.device.currentUser = (w.dev c).currentUser ∨ r.device.currentUser = none ∨
    ∃ uid ∈ w.accounts ++ r.accounts, r.device.currentUser = some uid
  currentUser : r.device.currentUser = a.currentUser (w.dev c).currentUser
  userId : r.device.userId = a.userId (w.dev c)

/-- What the screens show. -/
def Device.lists (d : Device) := (d.postArray, d.pinController, d.checkedArray, d.usersArray)

theorem Device.Lists.same {d : Device} (h : d.lists = (w.dev c).lists) : d.Lists w c := by
  simp only [Device.lists, Prod.mk.injEq] at h
  obtain ⟨hhome, hpin, hchecked, husers⟩ := h
  exact ⟨fun _ => Or.inl (by rw [hhome]), Or.inl (by rw [hpin]), Or.inl hchecked,
    Or.inl (by rw [hpin]), Or.inl (by rw [hpin]), Or.inl husers⟩

theorem Device.Lists.after {α : Type} (r : Except (Stop Trap) α × Effects) :
    ((w.dev c).after r).Lists w c := by
  unfold Device.after
  split_ifs <;> exact .same rfl

theorem Device.after_currentUser {α : Type} (d : Device) (r : Except (Stop Trap) α × Effects) :
    (d.after r).currentUser = d.currentUser := by
  unfold Device.after
  split_ifs <;> rfl

theorem Device.after_userId {α : Type} (d : Device) (r : Except (Stop Trap) α × Effects) :
    (d.after r).userId = d.userId := by
  unfold Device.after
  split_ifs <;> rfl

/-- An action that changes neither the user nor the database. -/
theorem World.spec_local {a : Action} {d : Device} (ha : a.plain = true) (hl : d.Lists w c)
    (hu : d.currentUser = (w.dev c).currentUser) (hid : d.userId = (w.dev c).userId) :
    (w.local d).Spec w c a where
  issues := .quiet
  flow := .same (Action.plain.submits ha)
  lists := hl
  user := Or.inl hu
  currentUser := hu.trans (Action.plain.currentUser ha _).symm
  userId := hid.trans (Action.plain.userId ha _).symm

/-- An action that leaves the lists alone as well. -/
theorem World.spec_idle {a : Action} {d : Device} (ha : a.plain = true)
    (hd : (d.lists, d.currentUser, d.userId) =
      ((w.dev c).lists, (w.dev c).currentUser, (w.dev c).userId)) : (w.local d).Spec w c a := by
  simp only [Prod.mk.injEq] at hd
  exact World.spec_local ha (.same hd.1) hd.2.1 hd.2.2

theorem Reaction.spec_tap {a : Action} {α : Type} {x : Except (Stop Trap) α × Effects}
    {ws : List DbWrite} {as : List (String × Option String)} (ha : a.plain = true)
    (h : Issues w c a ws [] [] as) :
    Reaction.Spec w c a { w.local ((w.dev c).after x) with writes := ws, awards := as } where
  issues := h
  flow := .same (Action.plain.submits ha)
  lists := .after x
  user := Or.inl (Device.after_currentUser _ x)
  currentUser := (Device.after_currentUser _ x).trans (Action.plain.currentUser ha _).symm
  userId := (Device.after_userId _ x).trans (Action.plain.userId ha _).symm

theorem submitPressed_spec {form : PostForm} {postId : String}
    (h : w.submitPressed c form postId = some r) : r.Spec w c (.submitPressed form postId) := by
  unfold World.submitPressed at h
  split_ifs at h with hp
  split at h <;> rename_i hs <;> obtain rfl := Option.some.inj h
  · obtain ⟨rfl, -, -, huser⟩ := AddPostController.submitPressed_ok hs
    exact ⟨.quiet, .ask hp.1 huser, .same rfl, Or.inl rfl, rfl, rfl⟩
  · exact ⟨.quiet, .draw hp.1, .same rfl, Or.inl rfl, rfl, rfl⟩
  · exact ⟨.quiet, .draw hp.1, .same rfl, Or.inl rfl, rfl, rfl⟩

theorem submitSnapshot_spec {i k : ℕ} {jpeg : Bool} (h : w.submitSnapshot c i k jpeg = some r) :
    r.Spec w c (.submitSnapshot i k jpeg) := by
  obtain ⟨x, hx, h⟩ := Option.bind_eq_some_iff.mp h
  obtain ⟨db, hv, h⟩ := Option.bind_eq_some_iff.mp h
  split_ifs at h <;> obtain rfl := Option.some.inj h
  · exact ⟨.quiet, .upload hx hv, .same rfl, Or.inl rfl, rfl, rfl⟩
  · exact ⟨.quiet, .drop hx hv, .same rfl, Or.inl rfl, rfl, rfl⟩

theorem submitUploaded_spec {i : ℕ} {metadata : Option (Option String)}
    (h : w.submitUploaded c i metadata = some r) : r.Spec w c (.submitUploaded i metadata) := by
  have hissues := submitUploaded_issues h
  obtain ⟨x, hx, h⟩ := Option.bind_eq_some_iff.mp h
  split_ifs at h
  simp only at h
  split at h <;> rename_i hp <;> obtain rfl := Option.some.inj h
  · exact ⟨hissues, .submit hx hp, .same rfl, Or.inl rfl, rfl, rfl⟩
  · exact ⟨hissues, .fail hx, .same rfl, Or.inl rfl, rfl, rfl⟩

theorem homeSnapshot_spec {cell : HomeCell} {k : ℕ} (h : w.homeSnapshot c cell k = some r) :
    r.Spec w c (.homeSnapshot cell k) := by
  obtain ⟨_, -, h⟩ := Option.bind_eq_some_iff.mp h
  obtain ⟨db, hv, h⟩ := Option.bind_eq_some_iff.mp h
  split at h <;> rename_i hf <;> obtain rfl := Option.some.inj h
  · refine World.spec_local rfl ⟨?_, Or.inl rfl, Or.inl rfl, Or.inl rfl, Or.inl rfl, Or.inl rfl⟩ rfl rfl
    intro cell'
    rcases eq_or_ne cell' cell with rfl | hne
    · exact Or.inr (Or.inr ⟨k, db, hv, hf.trans (by simp)⟩)
    · exact Or.inl (Function.update_of_ne hne _ _)
  · exact World.spec_idle rfl rfl

theorem pinSnapshot_spec {i k : ℕ} (h : w.pinSnapshot c i k = some r) :
    r.Spec w c (.pinSnapshot i k) := by
  obtain ⟨uid, -, h⟩ := Option.bind_eq_some_iff.mp h
  obtain ⟨db, hv, h⟩ := Option.bind_eq_some_iff.mp h
  simp only at h
  split at h <;> rename_i hf <;> obtain rfl := Option.some.inj h
  · exact World.spec_local rfl
      ⟨fun _ => Or.inl rfl, Or.inr (Or.inr ⟨uid, k, db, hv, hf⟩), Or.inl rfl, Or.inl rfl,
        Or.inl rfl, Or.inl rfl⟩ rfl rfl
  · exact World.spec_idle rfl rfl

theorem checkedSnapshot_spec {k : ℕ} (h : w.checkedSnapshot c k = some r) :
    r.Spec w c (.checkedSnapshot k) := by
  obtain ⟨_, -, h⟩ := Option.bind_eq_some_iff.mp h
  obtain ⟨db, hv, h⟩ := Option.bind_eq_some_iff.mp h
  split at h <;> rename_i hf <;> obtain rfl := Option.some.inj h
  · exact World.spec_local rfl
      ⟨fun _ => Or.inl rfl, Or.inl rfl, Or.inr (Or.inr ⟨k, db, hv, hf⟩), Or.inl rfl,
        Or.inl rfl, Or.inl rfl⟩ rfl rfl
  · exact World.spec_idle rfl rfl

theorem karmaSnapshot_spec {k : ℕ} (h : w.karmaSnapshot c k = some r) :
    r.Spec w c (.karmaSnapshot k) := by
  obtain ⟨_, -, h⟩ := Option.bind_eq_some_iff.mp h
  obtain ⟨db, hv, h⟩ := Option.bind_eq_some_iff.mp h
  split at h <;> rename_i hf <;> obtain rfl := Option.some.inj h
  · exact World.spec_local rfl
      ⟨fun _ => Or.inl rfl, Or.inl rfl, Or.inl rfl, Or.inl rfl, Or.inl rfl,
        Or.inr (Or.inr ⟨k, db, hv, hf⟩)⟩ rfl rfl
  · exact World.spec_idle rfl rfl

theorem pinUserInfo_spec {i k : ℕ} (h : w.pinUserInfo c i k = some r) :
    r.Spec w c (.pinUserInfo i k) := by
  obtain ⟨uid, -, h⟩ := Option.bind_eq_some_iff.mp h
  obtain ⟨db, hv, h⟩ := Option.bind_eq_some_iff.mp h
  simp only at h
  split at h <;> rename_i hf <;> obtain rfl := Option.some.inj h
  · exact World.spec_local rfl ⟨fun _ => Or.inl rfl, Or.inl rfl, Or.inl rfl, Or.inl rfl,
      Or.inr (Or.inr ⟨uid, k, db, hv, hf.symm⟩), Or.inl rfl⟩ rfl rfl
  · exact World.spec_idle rfl rfl

theorem accountCreated_spec {j i : ℕ} {result : Option String}
    (h : w.accountCreated c j i result = some r) : r.Spec w c (.accountCreated j i result) := by
  have hissues := accountCreated_issues h
  obtain ⟨request, -, h⟩ := Option.bind_eq_some_iff.mp h
  cases result with
  | none =>
      obtain rfl := Option.some.inj h
      exact World.spec_idle rfl rfl
  | some uid =>
      simp only at h
      split_ifs at h
      obtain rfl := Option.some.inj h
      exact ⟨hissues, .same rfl, .same rfl, Or.inr (Or.inr ⟨uid, by simp, rfl⟩),
        rfl, rfl⟩

theorem userInfoUploaded_spec {i : ℕ} {metadata : Option (Option String)}
    (h : w.userInfoUploaded c i metadata = some r) : r.Spec w c (.userInfoUploaded i metadata) := by
  have hissues := userInfoUploaded_issues h
  obtain ⟨name, -, h⟩ := Option.bind_eq_some_iff.mp h
  simp only at h
  split at h <;> obtain rfl := Option.some.inj h
  · exact World.spec_idle rfl rfl
  · exact World.spec_idle rfl rfl
  · exact ⟨hissues, .same rfl, .same rfl, Or.inl rfl, rfl, rfl⟩

/-- **What an action can do.** -/
theorem reaction_spec {a : Action} (h : w.reaction c a = some r) : r.Spec w c a := by
  cases a with
  | signIn uid =>
      simp only [World.reaction, World.signIn] at h
      split_ifs at h with hu
      obtain rfl := Option.some.inj h
      exact ⟨.quiet, .same rfl, .same rfl,
        Or.inr (Or.inr ⟨uid, List.mem_append_left _ hu, rfl⟩), rfl, rfl⟩
  | signOut =>
      obtain rfl := Option.some.inj h
      exact ⟨.quiet, .same rfl, .same rfl, Or.inr (Or.inl rfl), rfl, rfl⟩
  | openTabs =>
      obtain rfl := Option.some.inj h
      exact ⟨.quiet, .same rfl, ⟨fun _ => Or.inr (Or.inl rfl), Or.inr (Or.inl rfl),
        Or.inr (Or.inl rfl), Or.inr rfl, Or.inr (Or.inl rfl), Or.inr (Or.inl rfl)⟩, Or.inl rfl, rfl, rfl⟩
  | submitPressed form postId => exact submitPressed_spec h
  | submitSnapshot i k jpeg => exact submitSnapshot_spec h
  | submitUploaded i metadata => exact submitUploaded_spec h
  | homeSnapshot cell k => exact homeSnapshot_spec h
  | homePin cell sender =>
      have hissues := homePin_issues h
      obtain rfl := Option.some.inj h
      exact Reaction.spec_tap rfl hissues
  | homeCheck cell tag =>
      have hissues := homeCheck_issues h
      obtain rfl := Option.some.inj h
      exact Reaction.spec_tap rfl hissues
  | pinLoad =>
      obtain ⟨_, -, h⟩ := Option.bind_eq_some_iff.mp h
      split at h <;>
        (obtain rfl := Option.some.inj h; exact World.spec_idle rfl rfl)
  | pinUserInfo i k => exact pinUserInfo_spec h
  | pinAppear =>
      obtain ⟨_, -, h⟩ := Option.bind_eq_some_iff.mp h
      split at h <;>
        (obtain rfl := Option.some.inj h; exact World.spec_idle rfl rfl)
  | pinSnapshot i k => exact pinSnapshot_spec h
  | pinPin sender =>
      have hissues := pinPin_issues h
      obtain rfl := Option.some.inj h
      exact Reaction.spec_tap rfl hissues
  | pinCheck tag =>
      have hissues := pinCheck_issues h
      obtain rfl := Option.some.inj h
      exact Reaction.spec_tap rfl hissues
  | checkedAppear =>
      obtain ⟨_, -, h⟩ := Option.bind_eq_some_iff.mp h
      split at h <;>
        (obtain rfl := Option.some.inj h; exact World.spec_idle rfl rfl)
  | checkedSnapshot k => exact checkedSnapshot_spec h
  | karmaAppear =>
      obtain ⟨_, -, h⟩ := Option.bind_eq_some_iff.mp h
      split at h <;>
        (obtain rfl := Option.some.inj h; exact World.spec_idle rfl rfl)
  | karmaSnapshot k => exact karmaSnapshot_spec h
  | signUpPressed j form =>
      simp only [World.reaction, World.signUpPressed] at h
      split at h <;>
        (obtain rfl := Option.some.inj h; exact World.spec_idle rfl rfl)
  | signUpUploaded j i metadata =>
      obtain ⟨request, -, h⟩ := Option.bind_eq_some_iff.mp h
      simp only at h
      split at h <;>
        (obtain rfl := Option.some.inj h; exact World.spec_idle rfl rfl)
  | accountCreated j i result => exact accountCreated_spec h
  | userInfoPressed name =>
      obtain rfl := Option.some.inj h
      exact World.spec_idle rfl rfl
  | userInfoUploaded i metadata => exact userInfoUploaded_spec h

theorem react_eq_some {a : Action} (h : react w c a = some r) :
    (w.dev c).crashed = false ∧ w.reaction c a = some r := by
  unfold react at h
  split_ifs at h with hc
  exact ⟨by simpa using hc, h⟩

theorem step_act {w' : World} {a : Action} (h : step w (.act c a) = some w') :
    ∃ r, r.Spec w c a ∧ w' = w.apply c r := by
  obtain ⟨r, hr, rfl⟩ := Option.map_eq_some_iff.mp h
  exact ⟨r, reaction_spec (react_eq_some hr).2, rfl⟩

/-- Who uses the devices after an action of device `c`. -/
theorem step_user {w' : World} {a : Action} (h : step w (.act c a) = some w') :
    (w'.dev c).currentUser = a.currentUser (w.dev c).currentUser ∧
      (w'.dev c).userId = a.userId (w.dev c) ∧ ∀ d, d ≠ c → w'.dev d = w.dev d := by
  obtain ⟨r, hr, rfl⟩ := step_act h
  refine ⟨?_, ?_, fun d hd => Function.update_of_ne hd _ _⟩
  · rw [← hr.currentUser]
    simp [World.apply]
  · rw [← hr.userId]
    simp [World.apply]

/-- What an action makes of the submissions. -/
theorem step_flow {w' : World} {a : Action} (h : step w (.act c a) = some w') :
    ∃ ids qs, Flow w c a w'.asked w'.uploading ids qs ∧ w'.submitted = w.submitted ++ qs := by
  obtain ⟨r, hr, rfl⟩ := step_act h
  exact ⟨_, _, hr.flow, rfl⟩

theorem step_idle {w' : World} {a : Action} (h : step w (.act c a) = some w')
    (ha : a.submits = false) :
    w'.asked = w.asked ∧ w'.uploading = w.uploading ∧ w'.submitted = w.submitted := by
  obtain ⟨ids, qs, hf, hsub⟩ := step_flow h
  obtain ⟨hasked, huploading, rfl⟩ := hf.eq_of_not_submits ha
  exact ⟨hasked, huploading, by rw [hsub, List.append_nil]⟩

/-- What an action makes of the database and the histories. -/
theorem step_issues {w' : World} {a : Action} (h : step w (.act c a) = some w') :
    ∃ ws us ps as, Issues w c a ws us ps as ∧ w'.server = w.server.issue c ws ∧
      w'.accounts = w.accounts ++ us ∧ w'.submitted = w.submitted ++ ps ∧
      w'.awards = w.awards ++ as := by
  obtain ⟨r, hr, rfl⟩ := step_act h
  exact ⟨_, _, _, _, hr.issues, rfl, rfl, rfl, rfl⟩

theorem step_deliver {w' : World} {i : ℕ} (h : step w (.deliver i) = some w') :
    ∃ s, w.server.deliver i = some s ∧ w' = { w with server := s } := by
  obtain ⟨s, hs, rfl⟩ := Option.map_eq_some_iff.mp h
  exact ⟨s, hs, rfl⟩

theorem step_reject {w' : World} {i : ℕ} (h : step w (.reject i) = some w') :
    ∃ s, w.server.reject i = some s ∧ w' = { w with server := s } := by
  obtain ⟨s, hs, rfl⟩ := Option.map_eq_some_iff.mp h
  exact ⟨s, hs, rfl⟩

end CommServe
