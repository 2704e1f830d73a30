import CommServe.Database

/-! # Posts, completed posts and users as the app decodes them

`UserPost`, `CheckPost` and `AppUser` are the app's value types; every stored property is optional,
and the initialisers from a snapshot take whatever the node holds.  A decoder is `none` when a
forced cast traps, that is when a leaf is there but has the wrong type.

`Post` is the complete form of a post: what `submitPressed` writes.  Only `imageUrl` may be
missing.  `Post.values` is the dictionary from which all writers of posts build theirs, and
`Post.record` the node it makes. -/

namespace CommServe

open RecordStore

structure UserPost where
  postDesc : Option String
  postId : Option String
  postTitle : Option String
  userId : Option String
  userName : Option String
  postCategory : Option String
  postLocation : Option String
  imageUrl : Option String
deriving DecidableEq, Repr

/-- `UserPost.init(snapshot:)`; on a node that is no dictionary every lookup is absent. -/
def UserPost.init (value : Node) : Option UserPost := do
  let postDesc ← castString (value .postDesc)
  let postId ← castString (value .postId)
  let postTitle ← castString (value .postTitle)
  let postCategory ← castString (value .postCategory)
  let postLocation ← castString (value .postLocation)
  let userId ← castString (value .userId)
  let userName ← castString (value .userName)
  let imageUrl ← castString (value .imageUrl)
  some ⟨postDesc, postId, postTitle, userId, userName, postCategory, postLocation, imageUrl⟩

structure CheckPost where
  postDesc : Option String
  postId : Option String
  postTitle : Option String
  userId : Option String
  userName : Option String
  postCategory : Option String
  postLocation : Option String
  imageUrl : Option String
  completedBy : Option String
deriving DecidableEq, Repr

/-- `CheckPost.init(snapshot:)`. -/
def CheckPost.init (value : Node) : Option CheckPost := do
  let postDesc ← castString (value .postDesc)
  let postId ← castString (value .postId)
  let postTitle ← castString (value .postTitle)
  let postCategory ← castString (value .postCategory)
  let postLocation ← castString (value .postLocation)
  let userId ← castString (value .userId)
  let userName ← castString (value .userName)
  let imageUrl ← castString (value .imageUrl)
  let completedBy ← castString (value .completedBy)
  some ⟨postDesc, postId, postTitle, userId, userName, postCategory, postLocation, imageUrl,
    completedBy⟩

structure AppUser where
  username : Option String
  uid : Option String
  email : Option String
  profileurl : Option String
  country : Option String
  phone : Option String
  karmaPoints : Option ℤ
deriving DecidableEq, Repr

/-- `AppUser.init(snapshot:)`. -/
def AppUser.init (value : Node) : Option AppUser := do
  let username ← castString (value .username)
  let uid ← castString (value .uid)
  let email ← castString (value .email)
  let profileurl ← castString (value .profileurl)
  let country ← castString (value .country)
  let phone ← castString (value .phone)
  let karmaPoints ← castInt (value .karmaPoints)
  some ⟨username, uid, email, profileurl, country, phone, karmaPoints⟩

/-- `AppUser.init(username:uid:email:profileurl:country:phone:karmaPoints:)`. -/
def AppUser.make (username uid email profileurl country phone : String) (karmaPoints : ℤ) :
    AppUser :=
  ⟨some username, some uid, some email, some profileurl, some country, some phone,
    some karmaPoints⟩

/-! ### Complete posts -/

/-- A post with all its fields; the image has a URL only if the upload yielded one. -/
structure Post where
  postId : String
  postTitle : String
  postDesc : String
  postCategory : String
  postLocation : String
  imageUrl : Option String
  userName : String
  userId : String
deriving DecidableEq, Repr

/-- The dictionary of a post; a missing URL is written as null. -/
def Post.values (post : Post) : Dict Field Value :=
  [(.postId, some (.str post.postId)), (.postTitle, some (.str post.postTitle)),
    (.postDesc, some (.str post.postDesc)), (.postCategory, some (.str post.postCategory)),
    (.postLocation, some (.str post.postLocation)), (.imageUrl, post.imageUrl.map .str),
    (.userName, some (.str post.userName)), (.userId, some (.str post.userId))]

/-- The node of a post. -/
def Post.record (post : Post) : Node := fun f => (post.values.lookup f).join

/-- The dictionary of a completed post. -/
def Post.completedValues (post : Post) (completedBy : String) : Dict Field Value :=
  (.completedBy, some (.str completedBy)) :: post.values

/-- The node of a completed post. -/
def Post.completedRecord (post : Post) (completedBy : String) : Node :=
  fun f => ((post.completedValues completedBy).lookup f).join

/-- A post as `UserPost(snapshot:)` decodes it. -/
@[simps]
def UserPost.ofPost (post : Post) : UserPost :=
  ⟨some post.postDesc, some post.postId, some post.postTitle, some post.userId,
    some post.userName, some post.postCategory, some post.postLocation, post.imageUrl⟩

/-- A completed post as `CheckPost(snapshot:)` decodes it. -/
@[simps]
def CheckPost.ofPost (post : Post) (completedBy : String) : CheckPost :=
  ⟨some post.postDesc, some post.postId, some post.postTitle, some post.userId,
    some post.userName, some post.postCategory, some post.postLocation, post.imageUrl,
    some completedBy⟩

/-- The eight fields of a post. -/
def Field.OfPost (f : Field) : Prop :=
  f ∈ [Field.postId, .postTitle, .postDesc, .postCategory, .postLocation, .imageUrl, .userName,
    .userId]

instance (f : Field) : Decidable f.OfPost := inferInstanceAs (Decidable (f ∈ _))

theorem Post.record_apply (post : Post) (f : Field) :
    post.record f = match f with
      | .postId => some (.str post.postId)
      | .postTitle => some (.str post.postTitle)
      | .postDesc => some (.str post.postDesc)
      | .postCategory => some (.str post.postCategory)
      | .postLocation => some (.str post.postLocation)
      | .imageUrl => post.imageUrl.map .str
      | .userName => some (.str post.userName)
      | .userId => some (.str post.userId)
      | _ => none := by
  cases f <;> rfl

theorem Post.completedRecord_apply (post : Post) (by' : String) (f : Field) :
    post.completedRecord by' f = if f = .completedBy then some (.str by') else post.record f := by
  cases f <;> rfl

theorem Post.record_eq_none (post : Post) {f : Field} (h : ¬ f.OfPost) : post.record f = none := by
  cases f <;> first | rfl | exact absurd (by decide) h

/-- Writing a post over a node that holds nothing but a post yields exactly the post. -/
theorem Post.update_on (post : Post) (k : Ref) {r : Node} (hr : ∀ f, ¬ f.OfPost → r f = none) :
    (Write.update k post.values).on r = post.record := by
  funext f
  by_cases hf : f.OfPost
  · cases f <;> first | rfl | exact absurd hf (by decide)
  · rw [post.record_eq_none hf, ← hr f hf]
    cases f <;> first | rfl | exact absurd (by decide) hf

/-- Writing a completed post over a node that holds nothing but a completed post yields exactly
the completed post. -/
theorem Post.completed_on (post : Post) (by' : String) (k : Ref) {r : Node}
    (hr : ∀ f, ¬ f.OfPost → f ≠ .completedBy → r f = none) :
    (Write.update k (post.completedValues by')).on r = post.completedRecord by' := by
  funext f
  by_cases hf : f.OfPost ∨ f = .completedBy
  · cases f <;> first | rfl | exact absurd hf (by decide)
  · rw [not_or] at hf
    rw [post.completedRecord_apply, if_neg hf.2, post.record_eq_none hf.1, ← hr f hf.1 hf.2]
    cases f <;> first | rfl | exact absurd (by decide) hf.1 | exact absurd rfl hf.2

theorem Post.effect_update (post : Post) (k : Ref) {f : Field} (hf : f.OfPost) :
    (Write.update k post.values).effect f = some (post.record f) := by
  cases f <;> first | rfl | exact absurd hf (by decide)

theorem Post.effect_completed (post : Post) (by' : String) (k : Ref) {f : Field} (hf : f.OfPost) :
    (Write.update k (post.completedValues by')).effect f = some (post.record f) := by
  cases f <;> first | rfl | exact absurd hf (by decide)

/-! ### Decoding what was written -/

@[simp] theorem UserPost.init_record (post : Post) :
    UserPost.init post.record = some (UserPost.ofPost post) := by
  simp [UserPost.init, Post.record_apply, UserPost.ofPost]

@[simp] theorem UserPost.init_completedRecord (post : Post) (by' : String) :
    UserPost.init (post.completedRecord by') = some (UserPost.ofPost post) := by
  simp [UserPost.init, Post.completedRecord_apply, Post.record_apply, UserPost.ofPost]

@[simp] theorem CheckPost.init_completedRecord (post : Post) (by' : String) :
    CheckPost.init (post.completedRecord by') = some (CheckPost.ofPost post by') := by
  simp [CheckPost.init, Post.completedRecord_apply, Post.record_apply, CheckPost.ofPost]

/-- The eight fields of a post in a `CheckPost`. -/
def CheckPost.userPost (post : CheckPost) : UserPost :=
  ⟨post.postDesc, post.postId, post.postTitle, post.userId, post.userName, post.postCategory,
    post.postLocation, post.imageUrl⟩

theorem CheckPost.init_record (post : Post) :
    CheckPost.init post.record = some { CheckPost.ofPost post "" with completedBy := none } := by
  simp [CheckPost.init, Post.record_apply, CheckPost.ofPost]

theorem UserPost.ofPost_injective {post post' : Post}
    (h : UserPost.ofPost post = UserPost.ofPost post') : post = post' := by
  cases post
  cases post'
  simp only [UserPost.ofPost, UserPost.mk.injEq, Option.some.injEq] at h
  obtain ⟨rfl, rfl, rfl, rfl, rfl, rfl, rfl, rfl⟩ := h
  rfl

end CommServe
