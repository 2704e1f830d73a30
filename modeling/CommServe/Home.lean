import CommServe.Handlers

/-! # The Home feed

`HomeViewCollection` shows the open posts of one category; `TravelCell`, `FoodCell` and
`SpecialCell` override only the category they observe.  Each cell caches its posts in `postArray`,
which `fetchData`'s observer rebuilds from every snapshot, newest key first. -/

namespace CommServe

open RecordStore Method

/-- The four feed cells. -/
inductive HomeCell where
  | study | travel | food | special
deriving DecidableEq, Repr

/-- `tempCategory` of each class. -/
def HomeCell.tempCategory : HomeCell → String
  | study => "Study"
  | travel => "Travel"
  | food => "Food"
  | special => "Special"

/-- What a row of a post list displays; `image` is the URL to load, `none` the default image. -/
structure PostRow where
  titleLabel : String
  locationLabel : String
  descLabel : String
  postedUserLabel : String
  image : Option String
deriving DecidableEq, Repr

namespace HomeViewCollection

/-- The observer of `fetchData`; `none` when a decoder traps. -/
def fetchData (snapshot : List (String × Node)) : Option (List UserPost) :=
  snapshot.foldlM (fun postArray child => do
    let post ← UserPost.init child.2
    some (post :: postArray)) []

theorem mem_fetchData {snapshot : List (String × Node)} {posts : List UserPost}
    (h : fetchData snapshot = some posts) {row : UserPost} (hrow : row ∈ posts) :
    ∃ child ∈ snapshot, UserPost.init child.2 = some row :=
  (mem_of_rebuild (fun l b x (hx : x ∈ b :: l) => List.mem_cons.mp hx) h hrow).resolve_left
    List.not_mem_nil

/-- `collectionView(_:cellForItemAt:)`, up to the registration of the pin observer. -/
def cellForItemAt (currentUser : Option String) (postArray : List UserPost) (row : ℕ) :
    Handler PostRow := do
  let post ← subscript .subscript postArray row
  let _postId ← unwrapField .postId post.postId
  let postTitle ← unwrapField .postTitle post.postTitle
  let postDesc ← unwrapField .postDesc post.postDesc
  let _postedUserId ← unwrapField .userId post.userId
  let postedUserName ← unwrapField .userName post.userName
  let postedLocation ← unwrapField .postLocation post.postLocation
  let _category ← unwrapField .postCategory post.postCategory
  let cell : PostRow := ⟨postTitle, "At: " ++ postedLocation, postDesc,
    "Posted By: " ++ postedUserName, post.imageUrl⟩
  let _tempUserId ← unwrap .currentUser currentUser
  pure cell

/-- `handleCheckClick(sender:)`. -/
def handleCheckClick (currentUser : Option String) (postArray : List UserPost)
    (sender : UIButton) : Handler Unit := do
  let row ← subscript .subscript postArray sender.tag
  let tempPostCat ← unwrapField .postCategory row.postCategory
  if sender.isSelected = false then
    setSelected false
    let tempUserId ← guardLet currentUser
    let post ← copyFields row
    issue (createCompleted post tempUserId)
    let tempPostId ← unwrapField .postId row.postId
    issue (.remove (.posts tempPostCat tempPostId))

/-- `handlePinClick(sender:)`. -/
def handlePinClick (currentUser : Option String) (postArray : List UserPost)
    (sender : UIButton) : Handler Unit := do
  let tempUserId ← guardLet currentUser
  if sender.isSelected = true then
    setSelected false
    let row ← subscript .subscript postArray sender.tag
    let tempPostId ← unwrapField .postId row.postId
    issue (.remove (.pinned tempUserId tempPostId))
  else
    setSelected true
    let row ← subscript .subscript postArray sender.tag
    let post ← copyFields row
    issue (pinPost tempUserId post)

variable {currentUser : Option String} {postArray : List UserPost} {sender : UIButton}

/-- What a cell displays of a post. -/
def display (post : Post) : PostRow :=
  ⟨post.postTitle, "At: " ++ post.postLocation, post.postDesc, "Posted By: " ++ post.userName,
    post.imageUrl⟩

/-- For a signed-in user a cell is configured exactly for the rows with all fields but the image. -/
theorem cellForItemAt_ok {uid : String} {row : ℕ} {cell : PostRow} {s : Effects} :
    ((cellForItemAt (some uid) postArray row).run s).1 = .ok cell ↔
      ∃ post, postArray[row]? = some (UserPost.ofPost post) ∧ cell = display post := by
  constructor
  · intro h
    unfold cellForItemAt subscript at h
    cases hrow : postArray[row]? with
    | none =>
        rw [hrow] at h
        cases h
    | some x =>
    rw [hrow] at h
    obtain ⟨desc, id, title, userId, userName, category, location, imageUrl⟩ := x
    cases id with
    | none => cases h
    | some id =>
    cases title with
    | none => cases h
    | some title =>
    cases desc with
    | none => cases h
    | some desc =>
    cases userId with
    | none => cases h
    | some userId =>
    cases userName with
    | none => cases h
    | some userName =>
    cases location with
    | none => cases h
    | some location =>
    cases category with
    | none => cases h
    | some category =>
        cases h
        exact ⟨⟨id, title, desc, category, location, imageUrl, userName, userId⟩, rfl, rfl⟩
  · rintro ⟨post, hrow, rfl⟩
    unfold cellForItemAt subscript
    rw [hrow]
    rfl

theorem handleCheckClick_ofPost {uid url : String} {post : Post}
    (hrow : postArray[sender.tag]? = some (UserPost.ofPost post)) (hurl : post.imageUrl = some url)
    (hsel : sender.isSelected = false) :
    (handleCheckClick (some uid) postArray sender).tap sender =
      (.ok (), ⟨false, [createCompleted post uid,
        .remove (.posts post.postCategory post.postId)]⟩) := by
  unfold Handler.tap handleCheckClick subscript
  rw [hrow]
  simp [run_bind, hsel, copyFields_ofPost hurl]

theorem handleCheckClick_ofPost_none {uid : String} {post : Post}
    (hrow : postArray[sender.tag]? = some (UserPost.ofPost post)) (hurl : post.imageUrl = none)
    (hsel : sender.isSelected = false) :
    (handleCheckClick (some uid) postArray sender).tap sender =
      (.error (.trapped (.field .imageUrl)), ⟨false, []⟩) := by
  unfold Handler.tap handleCheckClick subscript
  rw [hrow]
  simp [run_bind, hsel, copyFields_ofPost_none hurl]

/-- A tap on a check button issues both writes of a completion or none at all. -/
theorem handleCheckClick_cases :
    (handleCheckClick currentUser postArray sender).writes sender = [] ∨
      ∃ uid post url, currentUser = some uid ∧ postArray[sender.tag]? = some (UserPost.ofPost post) ∧
        post.imageUrl = some url ∧ sender.isSelected = false ∧
        (handleCheckClick currentUser postArray sender).writes sender =
          [createCompleted post uid, .remove (.posts post.postCategory post.postId)] := by
  unfold Handler.writes
  cases hrow : postArray[sender.tag]? with
  | none => left; simp [Handler.tap, handleCheckClick, subscript, run_bind, hrow]
  | some row =>
  cases hcat : row.postCategory with
  | none => left; simp [Handler.tap, handleCheckClick, subscript, run_bind, hrow, hcat]
  | some cat =>
  by_cases hsel : sender.isSelected = false
  case neg => left; simp [Handler.tap, handleCheckClick, subscript, run_bind, hrow, hcat, hsel]
  cases currentUser with
  | none => left; simp [Handler.tap, handleCheckClick, subscript, run_bind, hrow, hcat, hsel]
  | some uid =>
      rcases copyFields_cases row ⟨false, []⟩ with ⟨post, url, rfl, hurl, -⟩ | ⟨e, he⟩
      · right
        exact ⟨uid, post, url, rfl, rfl, hurl, hsel, by rw [handleCheckClick_ofPost hrow hurl hsel]⟩
      · left
        simp [Handler.tap, handleCheckClick, subscript, run_bind, hrow, hcat, hsel, he]

theorem handlePinClick_selected {uid : String} (hsel : sender.isSelected = true) :
    ((handlePinClick (some uid) postArray sender).tap sender).2 =
      ⟨false, ((postArray[sender.tag]?).bind (·.postId)).toList.map fun postId =>
        .remove (.pinned uid postId)⟩ := by
  unfold Handler.tap
  cases hrow : postArray[sender.tag]? with
  | none => simp [handlePinClick, subscript, run_bind, hrow, hsel]
  | some row =>
      cases hid : row.postId <;> simp [handlePinClick, subscript, run_bind, hrow, hsel, hid]

theorem handlePinClick_unselected {uid : String} (hsel : sender.isSelected = false) :
    (∃ post url, postArray[sender.tag]? = some (UserPost.ofPost post) ∧ post.imageUrl = some url ∧
      ((handlePinClick (some uid) postArray sender).tap sender).2 = ⟨true, [pinPost uid post]⟩) ∨
    (∀ post, postArray[sender.tag]? = some (UserPost.ofPost post) → post.imageUrl = none) ∧
      ((handlePinClick (some uid) postArray sender).tap sender).2 = ⟨true, []⟩ := by
  unfold Handler.tap
  cases hrow : postArray[sender.tag]? with
  | none =>
      right
      refine ⟨by simp, ?_⟩
      simp [handlePinClick, subscript, run_bind, hrow, hsel]
  | some row =>
  rcases copyFields_cases row ⟨true, []⟩ with ⟨post, url, rfl, hurl, hok⟩ | ⟨e, he⟩
  · left
    refine ⟨post, url, rfl, hurl, ?_⟩
    simp [handlePinClick, subscript, run_bind, hrow, hsel, hok]
  · right
    constructor
    · intro post hpost
      cases hurl : post.imageUrl with
      | none => rfl
      | some url =>
          rw [Option.some.inj hpost, copyFields_ofPost hurl] at he
          cases he
    · simp [handlePinClick, subscript, run_bind, hrow, hsel, he]

/-- A tap on a pin button removes one pin, adds one pin or does nothing. -/
theorem handlePinClick_cases :
    (handlePinClick currentUser postArray sender).writes sender = [] ∨
      (∃ uid row postId, currentUser = some uid ∧ sender.isSelected = true ∧
        postArray[sender.tag]? = some row ∧ row.postId = some postId ∧
        (handlePinClick currentUser postArray sender).writes sender =
          [.remove (.pinned uid postId)]) ∨
      ∃ uid post url, currentUser = some uid ∧ sender.isSelected = false ∧
        postArray[sender.tag]? = some (UserPost.ofPost post) ∧ post.imageUrl = some url ∧
        (handlePinClick currentUser postArray sender).writes sender = [pinPost uid post] := by
  unfold Handler.writes
  cases currentUser with
  | none => left; simp [Handler.tap, handlePinClick, run_bind]
  | some uid =>
  cases hsel : sender.isSelected with
  | true =>
      rw [handlePinClick_selected hsel]
      cases hid : (postArray[sender.tag]?).bind (·.postId) with
      | none => exact Or.inl rfl
      | some postId =>
          obtain ⟨row, hrow, hid⟩ := Option.bind_eq_some_iff.mp hid
          exact Or.inr (Or.inl ⟨uid, row, postId, rfl, rfl, hrow, hid, rfl⟩)
  | false =>
      rcases handlePinClick_unselected hsel with ⟨post, url, hrow, hurl, htap⟩ | ⟨-, htap⟩
      · exact Or.inr (Or.inr ⟨uid, post, url, rfl, rfl, hrow, hurl, by rw [htap]⟩)
      · exact Or.inl (by rw [htap])

theorem handlePinClick_remove_iff {uid postId : String} (hsel : sender.isSelected = true) :
    (handlePinClick (some uid) postArray sender).writes sender = [.remove (.pinned uid postId)] ↔
      (postArray[sender.tag]?).bind (·.postId) = some postId := by
  unfold Handler.writes
  rw [handlePinClick_selected hsel]
  cases (postArray[sender.tag]?).bind (·.postId) <;> simp

theorem handlePinClick_add_iff {uid : String} {post : Post} (hsel : sender.isSelected = false) :
    (handlePinClick (some uid) postArray sender).writes sender = [pinPost uid post] ↔
      postArray[sender.tag]? = some (UserPost.ofPost post) ∧ post.imageUrl ≠ none := by
  unfold Handler.writes
  rcases handlePinClick_unselected hsel with ⟨post', url, hrow, hurl, htap⟩ | ⟨hnone, htap⟩ <;> rw [htap]
  · constructor
    · intro h
      obtain rfl := pinPost_injective (List.cons.inj h).1
      exact ⟨hrow, by simp [hurl]⟩
    · rintro ⟨h, -⟩
      rw [UserPost.ofPost_injective (Option.some.inj (h.symm.trans hrow))]
  · constructor
    · intro h
      cases h
    · rintro ⟨h, hurl⟩
      exact absurd (hnone post h) hurl

end HomeViewCollection

end CommServe
