import CommServe.Home

/-! # The Pinned list

`PinController` lists the posts the signed-in user has pinned.  `favArray` is rebuilt by the
observer of `viewDidAppear`; `appUser` is read once, by `fetchUserInfo` from `viewDidLoad`, and is
never refreshed.  `postArray` is declared and read by `handlePinClick`, but nothing fills it.

Completing a post from here issues four independent writes: the karma of the user, the completed
record, the removal of the pin and the removal of the open post.  The karma update comes first,
ahead of the unwraps of the row. -/

namespace CommServe

open RecordStore Method

/-- The stored properties of `PinController` the handlers use. -/
structure PinController where
  postArray : List UserPost
  favArray : List UserPost
  appUser : Option AppUser
deriving DecidableEq, Repr

namespace PinController

/-- A new controller. -/
def new : PinController := ⟨[], [], none⟩

/-- The closure of `fetchUserInfo`, `userId` captured at the call. -/
def fetchUserInfo (userId : String) (data : Node) : Option AppUser := do
  let username ← asString (data .username)
  let _uid ← asString (data .uid)
  let email ← asString (data .email)
  let profileurl ← asString (data .profileurl)
  let country ← asString (data .country)
  let phone ← asString (data .phone)
  let karmaPoints ← asInt (data .karmaPoints)
  some (AppUser.make username userId email profileurl country phone karmaPoints)

/-- The observer of `viewDidAppear`; `none` when a decoder traps. -/
def viewDidAppear (snapshot : List (String × Node)) : Option (List UserPost) :=
  snapshot.foldlM (fun favArray child => do
    let fav ← UserPost.init child.2
    some (favArray ++ [fav])) []

theorem mem_viewDidAppear {snapshot : List (String × Node)} {favs : List UserPost}
    (h : viewDidAppear snapshot = some favs) {row : UserPost} (hrow : row ∈ favs) :
    ∃ child ∈ snapshot, UserPost.init child.2 = some row :=
  (mem_of_rebuild (fun _ _ _ hx => mem_append_singleton hx) h hrow).resolve_left List.not_mem_nil

/-- `tableView(_:cellForRowAt:)`. -/
def cellForRowAt (favArray : List UserPost) (row : ℕ) : Handler PostRow := do
  let post ← subscript .subscript favArray row
  let _postId ← unwrapField .postId post.postId
  let postTitle ← unwrapField .postTitle post.postTitle
  let postDesc ← unwrapField .postDesc post.postDesc
  let _postedUserId ← unwrapField .userId post.userId
  let postedUserName ← unwrapField .userName post.userName
  let postedLocation ← unwrapField .postLocation post.postLocation
  let _category ← unwrapField .postCategory post.postCategory
  pure ⟨postTitle, "At: " ++ postedLocation, postDesc, "Posted By: " ++ postedUserName,
    post.imageUrl⟩

/-- `tableView(_:didSelectRowAt:)`; the copy it makes is dropped. -/
def didSelectRowAt (favArray : List UserPost) (row : ℕ) : Handler Unit := do
  let tempPost ← subscript .subscript favArray row
  let postDesc ← unwrapField .postDesc tempPost.postDesc
  let postId ← unwrapField .postId tempPost.postId
  let postTitle ← unwrapField .postTitle tempPost.postTitle
  let postCategory ← unwrapField .postCategory tempPost.postCategory
  let postLocation ← unwrapField .postLocation tempPost.postLocation
  let userId ← unwrapField .userId tempPost.userId
  let userName ← unwrapField .userName tempPost.userName
  let imageUrl ← unwrapField .imageUrl tempPost.imageUrl
  let _postDet := UserPost.ofPost ⟨postId, postTitle, postDesc, postCategory, postLocation,
    some imageUrl, userName, userId⟩
  pure ()

/-- `handlePinClick(sender:)`; the row is looked up in `postArray`, not in `favArray`. -/
def handlePinClick (currentUser : Option String) (self : PinController) (sender : UIButton) :
    Handler Unit := do
  let tempUserId ← guardLet currentUser
  if sender.isSelected = true then
    setSelected false
    let row ← subscript .subscript self.postArray sender.tag
    let post ← copyFields row
    issue (pinPost tempUserId post)
  else
    setSelected true
    let row ← subscript .subscript self.postArray sender.tag
    let tempPostId ← unwrapField .postId row.postId
    issue (.remove (.pinned tempUserId tempPostId))

/-- `handleCheckClick(sender:)`. -/
def handleCheckClick (currentUser : Option String) (self : PinController) (sender : UIButton) :
    Handler Unit := do
  let tempUserId ← guardLet currentUser
  let row ← subscript .subscript self.favArray sender.tag
  let _tempPostCat ← unwrapField .postCategory row.postCategory
  -- `guard var point = appUser?.karmaPoints! else {return}`
  let appUser ← guardLet self.appUser
  let point ← unwrap (.field .karmaPoints) appUser.karmaPoints
  let pointUserName ← unwrapField .username appUser.username
  let point ← addPoints point
  issue (updateKarma tempUserId point)
  if sender.isSelected = false then
    setSelected false
    let tempUserId ← guardLet currentUser
    let post ← copyFields row
    issue (createCompleted post pointUserName)
    let tempPostId ← unwrapField .postId row.postId
    issue (.remove (.pinned tempUserId tempPostId))
    let tempPostDBCat ← unwrapField .postCategory row.postCategory
    let tempPostDBId ← unwrapField .postId row.postId
    issue (.remove (.posts tempPostDBCat tempPostDBId))

variable {currentUser : Option String} {self : PinController} {sender : UIButton}

theorem handleCheckClick_ofPost {uid url name : String} {post : Post} {user : AppUser} {point : ℤ}
    (hrow : self.favArray[sender.tag]? = some (UserPost.ofPost post))
    (hurl : post.imageUrl = some url) (huser : self.appUser = some user)
    (hpoint : user.karmaPoints = some point) (hfit : point + 50 ≤ maxInt)
    (hname : user.username = some name) (hsel : sender.isSelected = false) :
    (handleCheckClick (some uid) self sender).tap sender =
      (.ok (), ⟨false, [updateKarma uid (point + 50), createCompleted post name,
        .remove (.pinned uid post.postId), .remove (.posts post.postCategory post.postId)]⟩) := by
  unfold Handler.tap handleCheckClick subscript
  rw [hrow, huser]
  simp [run_bind, hpoint, run_addPoints hfit, hname, hsel, copyFields_ofPost hurl]

theorem handleCheckClick_ofPost_none {uid name : String} {post : Post} {user : AppUser} {point : ℤ}
    (hrow : self.favArray[sender.tag]? = some (UserPost.ofPost post))
    (hurl : post.imageUrl = none) (huser : self.appUser = some user)
    (hpoint : user.karmaPoints = some point) (hfit : point + 50 ≤ maxInt)
    (hname : user.username = some name) (hsel : sender.isSelected = false) :
    (handleCheckClick (some uid) self sender).tap sender =
      (.error (.trapped (.field .imageUrl)), ⟨false, [updateKarma uid (point + 50)]⟩) := by
  unfold Handler.tap handleCheckClick subscript
  rw [hrow, huser]
  simp [run_bind, hpoint, run_addPoints hfit, hname, hsel, copyFields_ofPost_none hurl]

/-- What a tap on a check button has in hand once it has passed the guards. -/
structure Guards where
  uid : String
  row : UserPost
  point : ℤ
  name : String
deriving DecidableEq, Repr

/-- The guards of `handleCheckClick`, up to the sum that it writes. -/
def guards (currentUser : Option String) (self : PinController) (tag : ℕ) : Option Guards := do
  let uid ← currentUser
  let row ← self.favArray[tag]?
  let _category ← row.postCategory
  let user ← self.appUser
  let point ← user.karmaPoints
  let name ← user.username
  some ⟨uid, row, point, name⟩

theorem guards_eq_some {tag : ℕ} {g : Guards} (h : guards currentUser self tag = some g) :
    currentUser = some g.uid ∧ self.favArray[tag]? = some g.row ∧ (∃ cat, g.row.postCategory = some cat) ∧
      ∃ user, self.appUser = some user ∧ user.karmaPoints = some g.point ∧
        user.username = some g.name := by
  obtain ⟨uid, hu, h⟩ := Option.bind_eq_some_iff.mp h
  obtain ⟨row, hrow, h⟩ := Option.bind_eq_some_iff.mp h
  obtain ⟨category, hcat, h⟩ := Option.bind_eq_some_iff.mp h
  obtain ⟨user, huser, h⟩ := Option.bind_eq_some_iff.mp h
  obtain ⟨point, hpoint, h⟩ := Option.bind_eq_some_iff.mp h
  obtain ⟨name, hname, h⟩ := Option.bind_eq_some_iff.mp h
  obtain rfl := Option.some.inj h
  exact ⟨hu, hrow, ⟨category, hcat⟩, user, huser, hpoint, hname⟩

/-- A tap that passes the guards with a sum that does not fit traps. -/
theorem handleCheckClick_overflow {g : Guards} (h : guards currentUser self sender.tag = some g)
    (hfit : maxInt < g.point + 50) :
    (handleCheckClick currentUser self sender).tap sender =
      (.error (.trapped .overflow), ⟨sender.isSelected, []⟩) := by
  obtain ⟨hu, hrow, hcat, user, huser, hpoint, hname⟩ := guards_eq_some h
  unfold Handler.tap handleCheckClick subscript
  rw [hu, hrow, huser]
  obtain ⟨cat, hcat⟩ := hcat
  simp [run_bind, hcat, hpoint, hname, run_addPoints_overflow hfit]

theorem handleCheckClick_none (h : guards currentUser self sender.tag = none) :
    (handleCheckClick currentUser self sender).writes sender = [] := by
  unfold Handler.writes
  cases currentUser with
  | none => simp [Handler.tap, handleCheckClick, run_bind]
  | some uid =>
  cases hrow : self.favArray[sender.tag]? with
  | none => simp [Handler.tap, handleCheckClick, subscript, run_bind, hrow]
  | some row =>
  cases hcat : row.postCategory with
  | none => simp [Handler.tap, handleCheckClick, subscript, run_bind, hrow, hcat]
  | some cat =>
  cases huser : self.appUser with
  | none => simp [Handler.tap, handleCheckClick, subscript, run_bind, hrow, hcat, huser]
  | some user =>
  cases hpoint : user.karmaPoints with
  | none => simp [Handler.tap, handleCheckClick, subscript, run_bind, hrow, hcat, huser, hpoint]
  | some point =>
  cases hname : user.username with
  | none =>
      simp [Handler.tap, handleCheckClick, subscript, run_bind, hrow, hcat, huser, hpoint, hname]
  | some name => simp [guards, hrow, hcat, huser, hpoint, hname] at h

/-- What is left of the row decides what a tap issues that passes the guards. -/
theorem handleCheckClick_guarded {g : Guards} (h : guards currentUser self sender.tag = some g)
    (hfit : g.point + 50 ≤ maxInt) :
    ((handleCheckClick currentUser self sender).writes sender = [updateKarma g.uid (g.point + 50)] ∧
        (sender.isSelected = true ∨
          ∀ post url, g.row = UserPost.ofPost post → post.imageUrl ≠ some url)) ∨
      ∃ post url, sender.isSelected = false ∧ g.row = UserPost.ofPost post ∧ post.imageUrl = some url ∧
        (handleCheckClick currentUser self sender).writes sender =
          [updateKarma g.uid (g.point + 50), createCompleted post g.name,
            .remove (.pinned g.uid post.postId), .remove (.posts post.postCategory post.postId)] := by
  obtain ⟨hu, hrow, ⟨cat, hcat⟩, user, huser, hpoint, hname⟩ := guards_eq_some h
  unfold Handler.writes
  rw [hu]
  cases hsel : sender.isSelected with
  | true =>
      left
      simp [Handler.tap, handleCheckClick, subscript, run_bind, hrow, hcat, huser, hpoint, hname,
        run_addPoints hfit, hsel]
  | false =>
  rcases copyFields_cases g.row ⟨false, [updateKarma g.uid (g.point + 50)]⟩ with
    ⟨post, url, hpost, hurl, -⟩ | ⟨e, he⟩
  · right
    rw [hpost] at hrow
    exact ⟨post, url, rfl, hpost, hurl, by
      rw [handleCheckClick_ofPost hrow hurl huser hpoint hfit hname hsel]⟩
  · left
    refine ⟨?_, Or.inr ?_⟩
    · simp [Handler.tap, handleCheckClick, subscript, run_bind, hrow, hcat, huser, hpoint, hname,
        run_addPoints hfit, hsel, he]
    · intro post url hpost hurl
      rw [hpost, copyFields_ofPost hurl] at he
      simp at he

/-- A tap on a check button issues nothing, or passes the guards with a sum that fits and credits the user;
it then completes the post as well, unless the button is selected or the row lacks a field. -/
theorem handleCheckClick_cases :
    (handleCheckClick currentUser self sender).writes sender = [] ∨
      ∃ g, guards currentUser self sender.tag = some g ∧ g.point + 50 ≤ maxInt ∧
        ((handleCheckClick currentUser self sender).writes sender =
              [updateKarma g.uid (g.point + 50)] ∧
            (sender.isSelected = true ∨
              ∀ post url, g.row = UserPost.ofPost post → post.imageUrl ≠ some url) ∨
          ∃ post url, sender.isSelected = false ∧ g.row = UserPost.ofPost post ∧
            post.imageUrl = some url ∧
            (handleCheckClick currentUser self sender).writes sender =
              [updateKarma g.uid (g.point + 50), createCompleted post g.name,
                .remove (.pinned g.uid post.postId),
                .remove (.posts post.postCategory post.postId)]) := by
  cases hg : guards currentUser self sender.tag with
  | none => exact Or.inl (handleCheckClick_none hg)
  | some g =>
  rcases le_or_gt (g.point + 50) maxInt with hfit | hfit
  · exact Or.inr ⟨g, rfl, hfit, handleCheckClick_guarded hg hfit⟩
  · left
    rw [Handler.writes, handleCheckClick_overflow hg hfit]

theorem handlePinClick_cases :
    (handlePinClick currentUser self sender).writes sender = [] ∨
      (∃ uid row postId, currentUser = some uid ∧ self.postArray[sender.tag]? = some row ∧
        row.postId = some postId ∧
        (handlePinClick currentUser self sender).writes sender = [.remove (.pinned uid postId)]) ∨
      ∃ uid post url, currentUser = some uid ∧
        self.postArray[sender.tag]? = some (UserPost.ofPost post) ∧ post.imageUrl = some url ∧
        (handlePinClick currentUser self sender).writes sender = [pinPost uid post] := by
  unfold Handler.writes
  cases currentUser with
  | none => left; simp [Handler.tap, handlePinClick, run_bind]
  | some uid =>
  cases hrow : self.postArray[sender.tag]? with
  | none =>
      left
      cases hsel : sender.isSelected <;>
        simp [Handler.tap, handlePinClick, subscript, run_bind, hrow, hsel]
  | some row =>
  cases hsel : sender.isSelected with
  | false =>
      cases hid : row.postId with
      | none => left; simp [Handler.tap, handlePinClick, subscript, run_bind, hrow, hsel, hid]
      | some postId =>
          right; left
          refine ⟨uid, row, postId, rfl, rfl, hid, ?_⟩
          simp [Handler.tap, handlePinClick, subscript, run_bind, hrow, hsel, hid]
  | true =>
      rcases copyFields_cases row ⟨false, []⟩ with ⟨post, url, rfl, hurl, hok⟩ | ⟨e, he⟩
      · right; right
        refine ⟨uid, post, url, rfl, rfl, hurl, ?_⟩
        simp [Handler.tap, handlePinClick, subscript, run_bind, hrow, hsel, hok]
      · left
        simp [Handler.tap, handlePinClick, subscript, run_bind, hrow, hsel, he]

end PinController

end CommServe
