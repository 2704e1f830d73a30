import CommServe.Copies

/-! # Displaying the lists

A row of a list is decoded with all its fields optional, and the screens unwrap them: to display the
row, and again when one of its buttons is tapped.  `Handler.Unwraps` says that a handler runs into no
absent field.  The displaying methods allow for a post without an image, the buttons of the Home feed
do not (`homeShown_iff`).  The Pinned and the Completed list hold posts with an image only, since these
went through the encoders of the buttons. -/

namespace CommServe

open RecordStore Method Transition

/-- The trap is the forced unwrap of a decoded field. -/
def Trap.IsField : Trap → Prop
  | .field _ => True
  | _ => False

/-- No forced unwrap of a decoded field fails. -/
def Unwraps {α : Type} (h : Handler α) : Prop := h.Avoids Trap.IsField

/-- The Home feed displays its rows and reacts to their buttons. -/
structure HomeShown (currentUser : Option String) (postArray : List UserPost) : Prop where
  cellForItemAt : ∀ row, Unwraps (HomeViewCollection.cellForItemAt currentUser postArray row)
  handlePinClick : ∀ sender,
    Unwraps (HomeViewCollection.handlePinClick currentUser postArray sender)
  handleCheckClick : ∀ sender,
    Unwraps (HomeViewCollection.handleCheckClick currentUser postArray sender)

/-- The Pinned list displays its rows and reacts to their check buttons and to a selection. -/
structure PinShown (currentUser : Option String) (self : PinController) : Prop where
  cellForRowAt : ∀ row, Unwraps (PinController.cellForRowAt self.favArray row)
  handleCheckClick : ∀ sender, Unwraps (PinController.handleCheckClick currentUser self sender)
  didSelectRowAt : ∀ row, Unwraps (PinController.didSelectRowAt self.favArray row)

/-- The Completed list displays its rows. -/
def CheckedShown (checkedArray : List CheckPost) : Prop :=
  ∀ row, Unwraps (CheckedController.cellForRowAt checkedArray row)

/-- The lists of an app, as they are, are shown. -/
structure Device.Shown (d : Device) : Prop where
  home : ∀ cell, HomeShown d.currentUser (d.postArray cell)
  pinned : PinShown d.currentUser d.pinController
  completed : CheckedShown d.checkedArray

/-- A user whom some record was decoded to. -/
def AppUser.Fetched (user : AppUser) : Prop :=
  ∃ uid data, PinController.fetchUserInfo uid data = some user

/-- The folders decode, and the lists decoded from them are shown, whoever is signed in. -/
structure Listed (db : Database) : Prop where
  home : ∀ cell : HomeCell, ∃ posts,
    HomeViewCollection.fetchData (children db (.posts cell.tempCategory)) = some posts ∧
      ∀ currentUser, HomeShown currentUser posts
  pinned : ∀ uid, ∃ favs, PinController.viewDidAppear (children db (.pinned uid)) = some favs ∧
    ∀ currentUser self, self.favArray = favs → (∀ user, self.appUser = some user → user.Fetched) →
      PinShown currentUser self
  completed : ∃ posts, CheckedController.viewDidAppear (children db .completed) = some posts ∧
    CheckedShown posts

/-- The rows are decoded from whole posts. -/
def Whole (rows : List UserPost) : Prop := ∀ row ∈ rows, ∃ post, row = UserPost.ofPost post

/-- The rows are decoded from whole posts with an image. -/
def Pictured (rows : List UserPost) : Prop :=
  ∀ row ∈ rows, ∃ post url, row = UserPost.ofPost post ∧ post.imageUrl = some url

variable {currentUser : Option String} {rows : List UserPost} {self : PinController}

theorem Pictured.whole (h : Pictured rows) : Whole rows := by
  intro row hrow
  obtain ⟨post, url, hpost, -⟩ := h row hrow
  exact ⟨post, hpost⟩

theorem not_field_subscript : ¬ Trap.subscript.IsField := id

theorem not_field_currentUser : ¬ Trap.currentUser.IsField := id

theorem unwraps_copyFields {α : Type} {f : Post → Handler α} {post : Post} {url : String}
    (hurl : post.imageUrl = some url) (hf : Unwraps (f post)) :
    Unwraps (copyFields (UserPost.ofPost post) >>= f) :=
  .bind_ok (copyFields_ofPost hurl) hf

/-! ### The Home feed -/

theorem HomeViewCollection.cellForItemAt_unwraps (h : Whole rows) (row : ℕ) :
    Unwraps (cellForItemAt currentUser rows row) := by
  refine .subscript not_field_subscript ?_
  intro x hx
  obtain ⟨post, rfl⟩ := h x hx
  exact .unwrap not_field_currentUser fun uid _ => .pure _

theorem HomeViewCollection.handlePinClick_unwraps (h : Pictured rows) (sender : UIButton) :
    Unwraps (handlePinClick currentUser rows sender) := by
  refine .guardLet ?_
  intro uid _
  split_ifs with hsel
  · refine .bind (.modify _) fun _ => .subscript not_field_subscript ?_
    intro x hx
    obtain ⟨post, url, rfl, hurl⟩ := h x hx
    exact .modify _
  · refine .bind (.modify _) fun _ => .subscript not_field_subscript ?_
    intro x hx
    obtain ⟨post, url, rfl, hurl⟩ := h x hx
    exact unwraps_copyFields hurl (.modify _)

theorem HomeViewCollection.handleCheckClick_unwraps (h : Pictured rows) (sender : UIButton) :
    Unwraps (handleCheckClick currentUser rows sender) := by
  refine .subscript not_field_subscript ?_
  intro x hx
  obtain ⟨post, url, rfl, hurl⟩ := h x hx
  refine .bind_ok (run_unwrapField_some _ _) ?_
  split_ifs with hsel
  · refine .bind (.modify _) fun _ => .guardLet ?_
    intro uid _
    exact unwraps_copyFields hurl (.bind (.modify _) fun _ => .modify _)
  · exact .pure _

theorem Pictured.homeShown (h : Pictured rows) : HomeShown currentUser rows where
  cellForItemAt := HomeViewCollection.cellForItemAt_unwraps h.whole
  handlePinClick := HomeViewCollection.handlePinClick_unwraps h
  handleCheckClick := HomeViewCollection.handleCheckClick_unwraps h

/-- For a signed-in user the feed is shown exactly if every post of it has an image. -/
theorem homeShown_iff {uid : String} (h : Whole rows) :
    HomeShown (some uid) rows ↔ Pictured rows := by
  refine ⟨?_, Pictured.homeShown⟩
  intro hshown row hrow
  obtain ⟨post, rfl⟩ := h row hrow
  obtain ⟨i, hi⟩ := List.mem_iff_getElem?.mp hrow
  cases hurl : post.imageUrl with
  | some url => exact ⟨post, url, rfl, hurl⟩
  | none =>
      have htrap : (HomeViewCollection.handleCheckClick (some uid) rows ⟨i, false⟩).tap ⟨i, false⟩ = _ :=
        HomeViewCollection.handleCheckClick_ofPost_none hi hurl rfl
      exact absurd (hshown.handleCheckClick ⟨i, false⟩) (not_avoids htrap trivial)

/-! ### The Pinned and the Completed list -/

theorem PinController.cellForRowAt_avoids {bad : Trap → Prop} (hbad : ¬ bad .subscript)
    (h : Whole rows) (row : ℕ) : (cellForRowAt rows row).Avoids bad := by
  refine .subscript hbad ?_
  intro x hx
  obtain ⟨post, rfl⟩ := h x hx
  exact .pure _

theorem PinController.didSelectRowAt_avoids {bad : Trap → Prop} (hbad : ¬ bad .subscript)
    (h : Pictured rows) (row : ℕ) : (didSelectRowAt rows row).Avoids bad := by
  refine .subscript hbad ?_
  intro x hx
  obtain ⟨post, url, rfl, hurl⟩ := h x hx
  rw [UserPost.ofPost, hurl]
  exact .pure _

theorem AppUser.Fetched.complete {user : AppUser} (h : user.Fetched) :
    ∃ point name, user.karmaPoints = some point ∧ user.username = some name := by
  obtain ⟨uid, data, h⟩ := h
  obtain ⟨name, -, h⟩ := Option.bind_eq_some_iff.mp h
  obtain ⟨_, -, h⟩ := Option.bind_eq_some_iff.mp h
  obtain ⟨_, -, h⟩ := Option.bind_eq_some_iff.mp h
  obtain ⟨_, -, h⟩ := Option.bind_eq_some_iff.mp h
  obtain ⟨_, -, h⟩ := Option.bind_eq_some_iff.mp h
  obtain ⟨_, -, h⟩ := Option.bind_eq_some_iff.mp h
  obtain ⟨point, -, h⟩ := Option.bind_eq_some_iff.mp h
  obtain rfl := Option.some.inj h
  exact ⟨point, name, rfl, rfl⟩

theorem PinController.handleCheckClick_unwraps (h : Pictured self.favArray)
    (huser : ∀ user, self.appUser = some user → user.Fetched) (sender : UIButton) :
    Unwraps (handleCheckClick currentUser self sender) := by
  refine .guardLet fun uid _ => .subscript not_field_subscript ?_
  intro x hx
  obtain ⟨post, url, rfl, hurl⟩ := h x hx
  refine .bind_ok (run_unwrapField_some _ _) (.guardLet ?_)
  intro user hu
  obtain ⟨point, name, hpoint, hname⟩ := (huser user hu).complete
  rw [hpoint, hname]
  refine .bind_ok (run_unwrap_some _ _) (.bind_ok (run_unwrapField_some _ _) ?_)
  refine .unwrap id fun sum _ => .bind (.modify _) ?_
  intro _
  split_ifs with hsel
  · refine .bind (.modify _) fun _ => .guardLet ?_
    intro uid' _
    refine unwraps_copyFields hurl ?_
    refine .bind (.modify _) fun _ => .bind_ok (run_unwrapField_some _ _) ?_
    exact .bind (.modify _) fun _ => .modify _
  · exact .pure _

theorem Pictured.pinShown (h : Pictured self.favArray)
    (huser : ∀ user, self.appUser = some user → user.Fetched) : PinShown currentUser self where
  cellForRowAt := PinController.cellForRowAt_avoids not_field_subscript h.whole
  handleCheckClick := PinController.handleCheckClick_unwraps h huser
  didSelectRowAt := PinController.didSelectRowAt_avoids not_field_subscript h

theorem checkedShown {rows : List CheckPost}
    (h : ∀ row ∈ rows, ∃ post name, row = CheckPost.ofPost post name) : CheckedShown rows := by
  intro row
  refine .subscript not_field_subscript ?_
  intro x hx
  obtain ⟨post, name, rfl⟩ := h x hx
  exact .pure _

/-! ### Every run -/

/-- The lists decoded from the database and the lists the apps hold are shown. -/
structure Displayed (w : World) : Prop where
  listed : Listed w.server.db
  shown : ∀ c, (w.dev c).Shown

variable {ps : List Post}

theorem Good.exists_fetchData {db : Database} (hdb : db.All (Good ps)) (cell : HomeCell) :
    ∃ posts, HomeViewCollection.fetchData (children db (.posts cell.tempCategory)) = some posts := by
  refine rebuild_isSome ?_ []
  rintro ⟨p, r⟩ hchild
  obtain ⟨post, -, -, -, rfl⟩ := Good.of_mem_posts hdb hchild
  exact ⟨_, UserPost.init_record post⟩

theorem Good.exists_viewDidAppear {db : Database} (hdb : db.All (Good ps)) (uid : String) :
    ∃ favs, PinController.viewDidAppear (children db (.pinned uid)) = some favs := by
  refine rebuild_isSome ?_ []
  rintro ⟨p, r⟩ hchild
  obtain ⟨post, -, -, -, rfl⟩ := Good.of_mem_pinned hdb hchild
  exact ⟨_, UserPost.init_record post⟩

theorem Good.listed {db : Database} (hdb : db.All (Good ps))
    (hurls : ∀ post ∈ ps, ∃ url, post.imageUrl = some url) : Listed db where
  home cell := by
    obtain ⟨posts, hposts⟩ := Good.exists_fetchData hdb cell
    have hrows : Pictured posts := by
      intro row hrow
      obtain ⟨post, hp, rfl, -⟩ := Good.fetchData hdb hposts row hrow
      obtain ⟨url, hurl⟩ := hurls post hp
      exact ⟨post, url, rfl, hurl⟩
    exact ⟨posts, hposts, fun _ => hrows.homeShown⟩
  pinned uid := by
    obtain ⟨favs, hfavs⟩ := Good.exists_viewDidAppear hdb uid
    have hrows : Pictured favs := by
      intro row hrow
      obtain ⟨post, hp, rfl, url, hurl⟩ := Good.pinSnapshot hdb hfavs row hrow
      exact ⟨post, url, rfl, hurl⟩
    refine ⟨favs, hfavs, ?_⟩
    intro currentUser self hself huser
    exact Pictured.pinShown (hself ▸ hrows) huser
  completed := by
    obtain ⟨posts, hposts⟩ : ∃ posts,
        CheckedController.viewDidAppear (children db .completed) = some posts := by
      refine rebuild_isSome ?_ []
      rintro ⟨p, r⟩ hchild
      obtain ⟨post, -, -, -, name, rfl⟩ := Good.of_mem_completed hdb hchild
      exact ⟨_, CheckPost.init_completedRecord post name⟩
    refine ⟨posts, hposts, checkedShown ?_⟩
    intro row hrow
    obtain ⟨post, hp, name, rfl, -⟩ := Good.checkedSnapshot hdb hposts row hrow
    exact ⟨post, name, rfl⟩

theorem Device.Copies.shown {d : Device} (hd : d.Copies ps)
    (hurls : ∀ post ∈ ps, ∃ url, post.imageUrl = some url) : d.Shown where
  home cell := by
    refine Pictured.homeShown ?_
    intro row hrow
    obtain ⟨post, hp, rfl, -⟩ := hd.home cell row hrow
    obtain ⟨url, hurl⟩ := hurls post hp
    exact ⟨post, url, rfl, hurl⟩
  pinned := by
    refine Pictured.pinShown ?_ hd.appUser
    intro row hrow
    obtain ⟨post, hp, rfl, url, hurl⟩ := hd.fav row hrow
    exact ⟨post, url, rfl, hurl⟩
  completed := by
    refine checkedShown ?_
    intro row hrow
    obtain ⟨post, hp, name, rfl, -⟩ := hd.checked row hrow
    exact ⟨post, name, rfl⟩

/-- **No screen runs into an absent field**, if every submitted image has a URL. -/
theorem lists_displayed {w : World} {es : List Event}
    (hr : Run step (fun _ e => e.UrlReported) .init es w) : Displayed w := by
  have hs := Run.sound hr
  have hurls := Run.urls hr
  exact ⟨Good.listed hs.net.db hurls, fun c => (hs.copies c).shown hurls⟩

/-- A feed with a post in it, which is pinned as well. -/
theorem lists_displayed_sample : ∃ w : World, (w.dev 0).postArray .study ≠ [] ∧
    (w.dev 0).pinController.favArray ≠ [] ∧ Displayed w := by
  obtain ⟨w, hr, hfeed, hpins⟩ := exists_run_of_exec step (fun _ e => e.UrlReported) .init
    (signUpScript 0 "u" (some "me.png") ++ submitScript 0 "p" (some "p.png") ++ pinScript 0 ++
      openPinsScript 0)
    (fun w => (w.dev 0).postArray .study ≠ [] ∧ (w.dev 0).pinController.favArray ≠ [])
    (by decide +kernel)
  exact ⟨w, hfeed, hpins, lists_displayed hr⟩

/-- A post whose image got no URL is listed in the feed, and a tap on its check button traps. -/
theorem row_not_displayed :
    ¬ ∀ (w : World) (es : List Event), Run step (fun _ _ => True) .init es w → Displayed w := by
  intro h
  obtain ⟨w, hr, huser, hfeed⟩ := exists_run_of_exec step (fun _ _ => True) .init
    (signUpScript 0 "u" (some "me.png") ++ submitScript 0 "p" none ++
      [.act 0 (.homeSnapshot .study 0)])
    (fun w => (w.dev 0).currentUser = some "u" ∧
      (w.dev 0).postArray .study = [UserPost.ofPost (scriptPost "u" "p" none)]) (by decide +kernel)
  have hshown := ((h w _ hr).shown 0).home .study
  rw [huser, hfeed] at hshown
  obtain ⟨post, url, hpost, hurl⟩ :=
    (homeShown_iff (by simp [Whole])).mp hshown _ (List.mem_singleton.mpr rfl)
  rw [← UserPost.ofPost_injective hpost] at hurl
  cases hurl

end CommServe
