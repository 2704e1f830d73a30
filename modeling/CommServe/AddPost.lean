import CommServe.Handlers

/-! # Submitting a post

`AddPostController.submitPressed` is a chain of callbacks: the press captures the form and asks for
the user's record; the snapshot starts the upload of the image; the end of the upload writes the
post.  `Submission` is what the callbacks of one press have captured. -/

namespace CommServe

open RecordStore Method

/-- The texts of the form at a press; `selectedCategory` is empty before the first selection. -/
structure PostForm where
  title : Option String
  desc : Option String
  selectedCategory : String
  location : Option String
deriving DecidableEq, Repr

/-- The options of the category drop-down. -/
def dropDownOptions : List String := ["Study", "Travel", "Food", "Special"]

/-- What the callbacks of one press have captured. -/
structure Submission where
  postId : String
  title : String
  desc : String
  postCategory : String
  location : String
  userId : String
deriving DecidableEq, Repr

namespace AddPostController

/-- `submitPressed`: an empty category only raises an alert; otherwise the press asks for
`users/<userId>` with the captured form.  `postId` is the fresh `UUID().uuidString`. -/
def submitPressed (userId : Option String) (form : PostForm) (postId : String) :
    Method Unit Trap Submission := do
  if form.selectedCategory = "" then
    guardLet none
  else
    let title ← guardLet form.title
    let desc ← guardLet form.desc
    let location ← guardLet form.location
    let userId ← unwrap .userId userId
    pure ⟨postId, title, desc, form.selectedCategory, location, userId⟩

/-- The end of the image upload: without metadata, or when the snapshot taken before holds no
user name, nothing is stored.  `metadata` carries `downloadURL()`, which may be nil. -/
def uploaded (submission : Submission) (snapshot : Node) (metadata : Option (Option String)) :
    Option Post := do
  let imageUrl ← metadata
  let usrnm ← asString (snapshot .username)
  some ⟨submission.postId, submission.title, submission.desc, submission.postCategory,
    submission.location, imageUrl, usrnm, submission.userId⟩

/-- `reviewReference.updateChildValues(reviewData)`. -/
def store (post : Post) : DbWrite :=
  .update (.posts post.postCategory post.postId) post.values

@[simp] theorem key_store (post : Post) :
    (store post).key = .posts post.postCategory post.postId := rfl

variable {userId : Option String} {form : PostForm} {postId : String}

/-- A press that goes through has a category, and captures it with the given id. -/
theorem submitPressed_ok {submission : Submission}
    (h : ((submitPressed userId form postId).run ()).1 = .ok submission) :
    submission.postId = postId ∧ submission.postCategory = form.selectedCategory ∧
      form.selectedCategory ≠ "" ∧ userId = some submission.userId := by
  unfold submitPressed at h
  by_cases hcat : form.selectedCategory = ""
  · simp [hcat] at h
  cases htitle : form.title <;> cases hdesc : form.desc <;> cases hloc : form.location <;>
    cases userId <;> simp [run_bind, hcat, htitle, hdesc, hloc] at h
  obtain rfl := h
  exact ⟨rfl, rfl, hcat, rfl⟩

theorem submitPressed_form {submission : Submission}
    (h : ((submitPressed userId form postId).run ()).1 = .ok submission) :
    form = ⟨some submission.title, some submission.desc, submission.postCategory,
      some submission.location⟩ := by
  obtain ⟨title, desc, selectedCategory, location⟩ := form
  unfold submitPressed at h
  by_cases hcat : selectedCategory = ""
  · simp [hcat] at h
  cases title <;> cases desc <;> cases location <;> cases userId <;>
    simp [run_bind, hcat] at h
  obtain rfl := h
  rfl

theorem submitPressed_refused (h : form.selectedCategory = "") :
    ((submitPressed userId form postId).run ()).1 = .error .returned := by
  simp [submitPressed, h]

theorem submitPressed_avoids {bad : Trap → Prop} (h : userId ≠ none) :
    (submitPressed userId form postId).Avoids bad := by
  obtain ⟨uid, rfl⟩ := Option.ne_none_iff_exists'.mp h
  unfold submitPressed
  split_ifs with hcat
  · intro s t _
    simp
  · refine .guardLet fun title _ => .guardLet fun desc _ => .guardLet fun location _ => ?_
    exact .bind_ok (run_unwrap_some _ _) (.pure _)

theorem uploaded_eq_some {submission : Submission} {snapshot : Node}
    {metadata : Option (Option String)} {post : Post}
    (h : uploaded submission snapshot metadata = some post) :
    post.postId = submission.postId ∧ post.postCategory = submission.postCategory ∧
      post.userId = submission.userId ∧ metadata = some post.imageUrl ∧
      asString (snapshot .username) = some post.userName := by
  unfold uploaded at h
  cases metadata with
  | none => simp at h
  | some imageUrl =>
  cases hname : asString (snapshot .username) with
  | none => simp [hname] at h
  | some usrnm =>
      simp only [hname, Option.bind_eq_bind, Option.bind_some, Option.some.injEq] at h
      obtain rfl := h
      exact ⟨rfl, rfl, rfl, rfl, rfl⟩

theorem uploaded_eq_none {submission : Submission} {snapshot : Node}
    {metadata : Option (Option String)} :
    uploaded submission snapshot metadata = none ↔
      metadata = none ∨ asString (snapshot .username) = none := by
  unfold uploaded
  cases metadata <;> cases asString (snapshot .username) <;> simp

/-- A stored post is what its press captured, with the URL of the upload. -/
theorem uploaded_captured {submission : Submission} {snapshot : Node}
    {metadata : Option (Option String)} {post : Post}
    (h : uploaded submission snapshot metadata = some post) :
    post.postTitle = submission.title ∧ post.postDesc = submission.desc ∧
      post.postCategory = submission.postCategory ∧ post.postLocation = submission.location ∧
      metadata = some post.imageUrl := by
  obtain ⟨imageUrl, hmeta, h⟩ := Option.bind_eq_some_iff.mp h
  obtain ⟨usrnm, -, h⟩ := Option.bind_eq_some_iff.mp h
  obtain rfl := Option.some.inj h
  exact ⟨rfl, rfl, rfl, rfl, hmeta⟩

end AddPostController

end CommServe
