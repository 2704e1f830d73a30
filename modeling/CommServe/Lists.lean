import CommServe.Handlers

/-! # The Completed list and the Karma list

Two screens that only display: `CheckedController` lists every completed post with the name of
the user who completed it, `KarmaController` lists every user with the points earned. -/

namespace CommServe

open RecordStore Method

/-- What a row of the Completed list displays. -/
structure CompletedRow where
  titleLabel : String
  locationLabel : String
  descLabel : String
  postedUserLabel : String
  completedUserLabel : String
  image : Option String
deriving DecidableEq, Repr

namespace CheckedController

/-- The observer of `viewDidAppear`; `none` when a decoder traps. -/
def viewDidAppear (snapshot : List (String × Node)) : Option (List CheckPost) :=
  snapshot.foldlM (fun checkedArray child => do
    let fav ← CheckPost.init child.2
    some (checkedArray ++ [fav])) []

theorem mem_viewDidAppear {snapshot : List (String × Node)} {posts : List CheckPost}
    (h : viewDidAppear snapshot = some posts) {row : CheckPost} (hrow : row ∈ posts) :
    ∃ child ∈ snapshot, CheckPost.init child.2 = some row :=
  (mem_of_rebuild (fun _ _ _ hx => mem_append_singleton hx) h hrow).resolve_left List.not_mem_nil

/-- `tableView(_:cellForRowAt:)`. -/
def cellForRowAt (checkedArray : List CheckPost) (row : ℕ) : Handler CompletedRow := do
  let post ← subscript .subscript checkedArray row
  let _postId ← unwrapField .postId post.postId
  let postTitle ← unwrapField .postTitle post.postTitle
  let postDesc ← unwrapField .postDesc post.postDesc
  let _postedUserId ← unwrapField .userId post.userId
  let postedUserName ← unwrapField .userName post.userName
  let postedLocation ← unwrapField .postLocation post.postLocation
  let _category ← unwrapField .postCategory post.postCategory
  let completedUserName ← unwrapField .completedBy post.completedBy
  pure ⟨postTitle, "At: " ++ postedLocation, postDesc, "Posted By: " ++ postedUserName,
    "Completed By: " ++ completedUserName, post.imageUrl⟩

end CheckedController

/-- What a row of the Karma list displays. -/
structure KarmaRow where
  titleLabel : String
  locationLabel : String
deriving DecidableEq, Repr

namespace KarmaController

/-- The observer of `viewDidAppear`; `none` when a decoder traps. -/
def viewDidAppear (snapshot : List (String × Node)) : Option (List AppUser) :=
  snapshot.foldlM (fun usersArray child => do
    let fav ← AppUser.init child.2
    some (usersArray ++ [fav])) []

theorem mem_viewDidAppear {snapshot : List (String × Node)} {users : List AppUser}
    (h : viewDidAppear snapshot = some users) {user : AppUser} (huser : user ∈ users) :
    ∃ child ∈ snapshot, AppUser.init child.2 = some user :=
  (mem_of_rebuild (fun _ _ _ hx => mem_append_singleton hx) h huser).resolve_left List.not_mem_nil

/-- `tableView(_:cellForRowAt:)`. -/
def cellForRowAt (usersArray : List AppUser) (row : ℕ) : Handler KarmaRow := do
  let user ← subscript .subscript usersArray row
  let username ← unwrapField .username user.username
  let karmaPoints ← unwrap (.field .karmaPoints) user.karmaPoints
  let points := toString karmaPoints
  pure ⟨"User: " ++ username, "Points: " ++ points⟩

end KarmaController

end CommServe
