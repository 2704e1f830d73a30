import CommServe.Transition
import CommServe.AddPost

/-! # The Add Post form while posts are on their way

A press of Submit captures the texts and the category of the form.  The image is read later, when the
user's record arrives, and `resetValues` runs when the database has acknowledged a post, whatever the
form holds by then.  So a submission shares the form with the edits after its press and with all
other submissions.

The form shows the category as the title of the drop-down button and stores it in
`selectedCategory`; `dropDownPressed` sets both, `resetValues` only the title.

`stored` and `images` are history variables: every post that was written, with the form at its press
and the image that was uploaded for it, and the images in the storage by their URLs. -/

namespace CommServe

open RecordStore Method Transition

/-- The image of the form; `ι` is what the user can pick. -/
inductive UIImage (ι : Type) where
  | defaultImage
  | picked (image : ι)
deriving DecidableEq, Repr

/-- The form as it was when Submit was pressed. -/
structure PressedForm (ι : Type) where
  form : PostForm
  image : UIImage ι
deriving DecidableEq, Repr

/-- A submission whose image is being uploaded, with the user's record. -/
structure ImageUpload (ι : Type) where
  submission : Submission
  snapshot : Node
  image : UIImage ι
  pressed : PressedForm ι

/-- A post that was written. -/
structure StoredPost (ι : Type) where
  post : Post
  image : UIImage ι
  pressed : PressedForm ι
deriving DecidableEq, Repr

/-- `AddPostController` with its view and its callbacks. -/
structure AddPostScreen (ι : Type) where
  userId : Option String
  /-- The text fields and `button.selectedCategory`. -/
  form : PostForm
  /-- `location`, which `viewWillAppear` copies into the text field. -/
  location : String
  /-- The title of the drop-down button. -/
  buttonTitle : String
  /-- `addedImageView.image`. -/
  image : UIImage ι
  /-- Submissions that wait for the user's record. -/
  asked : List (Submission × PressedForm ι)
  uploading : List (ImageUpload ι)
  /-- Posts whose write is not acknowledged yet. -/
  storing : List Post
  stored : List (StoredPost ι)
  images : List (String × UIImage ι)
  crashed : Bool

/-- What can happen to the form. -/
inductive FormEvent (ι : Type) where
  | titleEdited (text : Option String)
  | descEdited (text : Option String)
  | locationEdited (text : Option String)
  /-- The `row`-th option of the drop-down is selected. -/
  | dropDownPressed (row : ℕ)
  | imagePicked (editedImage originalImage : Option ι)
  /-- `LocationController` sets `location`. -/
  | locationChosen (location : String)
  | viewWillAppear
  | submitPressed (postId : String)
  /-- The user's record arrives for the `i`-th submission; `jpeg` tells whether the image could be
  encoded. -/
  | snapshot (i : ℕ) (data : Node) (jpeg : Bool)
  /-- The `i`-th upload ends. -/
  | uploaded (i : ℕ) (metadata : Option (Option String))
  /-- The completion block of the `i`-th write. -/
  | acknowledged (i : ℕ) (error : Bool)

namespace AddPostScreen

variable {ι : Type}

/-- The screen after `viewDidLoad`. -/
def opened (userId : Option String) : AddPostScreen ι :=
  ⟨userId, ⟨some "", some "", "", some ""⟩, "", "Category", .defaultImage, [], [], [], [], [], false⟩

/-- `dropDownBtn.dropDownPressed(string:)`. -/
def dropDownPressed (s : AddPostScreen ι) (string : String) : AddPostScreen ι :=
  { s with form := { s.form with selectedCategory := string }, buttonTitle := string }

/-- `imagePickerController(_:didFinishPickingMediaWithInfo:)`. -/
def imagePicked (s : AddPostScreen ι) (editedImage originalImage : Option ι) : AddPostScreen ι :=
  match editedImage.or originalImage with
  | some selectedImage => { s with image := .picked selectedImage }
  | none => s

/-- `resetValues`. -/
def resetValues (s : AddPostScreen ι) : AddPostScreen ι :=
  { s with
    form := { s.form with title := some "", desc := some "", location := some "" }
    location := ""
    image := .defaultImage
    buttonTitle := "Category" }

/-- A press of Submit. -/
def submitPressed (s : AddPostScreen ι) (postId : String) : AddPostScreen ι :=
  match ((AddPostController.submitPressed s.userId s.form postId).run ()).1 with
  | .ok submission => { s with asked := s.asked ++ [(submission, ⟨s.form, s.image⟩)] }
  | .error .returned => s
  | .error (.trapped _) => { s with crashed := true }

/-- The user's record has arrived for `x`: the image is read and its upload starts. -/
def startUpload (s : AddPostScreen ι) (x : Submission × PressedForm ι) (data : Node) (jpeg : Bool) :
    AddPostScreen ι :=
  if jpeg then { s with uploading := s.uploading ++ [⟨x.1, data, s.image, x.2⟩] } else s

/-- The upload `x` has ended: its image is stored under a URL, and the post is written. -/
def endUpload (s : AddPostScreen ι) (x : ImageUpload ι) (metadata : Option (Option String)) :
    AddPostScreen ι :=
  let s := { s with images := s.images ++ metadata.join.toList.map (·, x.image) }
  match AddPostController.uploaded x.submission x.snapshot metadata with
  | some post => { s with
      storing := s.storing ++ [post]
      stored := s.stored ++ [⟨post, x.image, x.pressed⟩] }
  | none => s

/-- What happens in an event. -/
def react (s : AddPostScreen ι) : FormEvent ι → Option (AddPostScreen ι)
  | .titleEdited text => some { s with form := { s.form with title := text } }
  | .descEdited text => some { s with form := { s.form with desc := text } }
  | .locationEdited text => some { s with form := { s.form with location := text } }
  | .dropDownPressed row => dropDownOptions[row]?.map s.dropDownPressed
  | .imagePicked editedImage originalImage => some (s.imagePicked editedImage originalImage)
  | .locationChosen location => some { s with location := location }
  | .viewWillAppear => some { s with form := { s.form with location := some s.location } }
  | .submitPressed postId => some (s.submitPressed postId)
  | .snapshot i data jpeg => do
      let x ← s.asked[i]?
      some ({ s with asked := s.asked.eraseIdx i }.startUpload x data jpeg)
  | .uploaded i metadata => do
      let x ← s.uploading[i]?
      -- every upload goes to a new file
      if ∀ url ∈ metadata.join, url ∉ s.images.map Prod.fst then
        some ({ s with uploading := s.uploading.eraseIdx i }.endUpload x metadata)
      else none
  | .acknowledged i error => do
      let _post ← s.storing[i]?
      let s := { s with storing := s.storing.eraseIdx i }
      some (if error then s else s.resetValues)

/-- One step of the screen; nothing happens after a crash. -/
def step (s : AddPostScreen ι) (e : FormEvent ι) : Option (AddPostScreen ι) :=
  if s.crashed then none else s.react e

/-- `s` is reached from the opened screen over the events `es`. -/
def Reached (es : List (FormEvent ι)) (s : AddPostScreen ι) : Prop :=
  ∃ userId, Run step (fun _ _ => True) (opened userId) es s

variable (s : AddPostScreen ι)

theorem submitPressed_cases (postId : String) :
    (∃ submission, ((AddPostController.submitPressed s.userId s.form postId).run ()).1 =
        .ok submission ∧
      s.submitPressed postId = { s with asked := s.asked ++ [(submission, ⟨s.form, s.image⟩)] }) ∨
      ∃ crashed, s.submitPressed postId = { s with crashed := crashed } := by
  unfold submitPressed
  cases hrun : ((AddPostController.submitPressed s.userId s.form postId).run ()).1 with
  | ok submission => exact Or.inl ⟨submission, rfl, rfl⟩
  | error stop =>
      cases stop with
      | returned => exact Or.inr ⟨s.crashed, rfl⟩
      | trapped reason => exact Or.inr ⟨true, rfl⟩

theorem stored_endUpload (x : ImageUpload ι) (metadata : Option (Option String)) :
    (s.endUpload x metadata).stored = s.stored ++
      ((AddPostController.uploaded x.submission x.snapshot metadata).map
        (⟨·, x.image, x.pressed⟩)).toList := by
  unfold endUpload
  cases AddPostController.uploaded x.submission x.snapshot metadata <;> simp

theorem step_eq_some {s s' : AddPostScreen ι} {e : FormEvent ι} :
    step s e = some s' ↔ s.crashed = false ∧ s.react e = some s' := by
  unfold step
  split_ifs with hc <;> simp [hc]

end AddPostScreen

/-! ### What a stored post is made of -/

variable {ι : Type}

/-- The submission holds the inputs of the form. -/
def Submission.Captures (submission : Submission) (form : PostForm) : Prop :=
  form = ⟨some submission.title, some submission.desc, submission.postCategory,
    some submission.location⟩

/-- The post holds the inputs of the form at its press. -/
structure StoredPost.Kept (x : StoredPost ι) : Prop where
  title : x.pressed.form.title = some x.post.postTitle
  desc : x.pressed.form.desc = some x.post.postDesc
  category : x.pressed.form.selectedCategory = x.post.postCategory
  location : x.pressed.form.location = some x.post.postLocation

/-- The post is the form at its press, with the URL of its image. -/
structure StoredPost.IsForm (x : StoredPost ι) (images : List (String × UIImage ι)) : Prop
    extends x.Kept where
  imageUrl : ∃ url, x.post.imageUrl = some url ∧ (url, x.pressed.image) ∈ images

/-- The uploaded image is that of the press, and the upload has a URL. -/
def StoredPost.Intact (x : StoredPost ι) : Prop :=
  x.image = x.pressed.image ∧ x.post.imageUrl ≠ none

instance [DecidableEq ι] (x : StoredPost ι) : Decidable x.Intact :=
  inferInstanceAs (Decidable (_ ∧ _))

namespace AddPostScreen

/-- Every post on its way or stored comes from its press; an image is found under its URL. -/
structure Sound (s : AddPostScreen ι) : Prop where
  asked : ∀ x ∈ s.asked, x.1.Captures x.2.form
  uploading : ∀ x ∈ s.uploading, x.submission.Captures x.pressed.form
  stored : ∀ x ∈ s.stored, x.Kept
  images : ∀ x ∈ s.stored, ∀ url, x.post.imageUrl = some url → (url, x.image) ∈ s.images
  urls : (s.images.map Prod.fst).Nodup

/-- Every stored post is the form at its press. -/
def StoresForms (s : AddPostScreen ι) : Prop := ∀ x ∈ s.stored, x.IsForm s.images

/-- The end of an upload that leads to a post finds the image of its press, and has a URL. -/
def KeepsImage (s : AddPostScreen ι) : FormEvent ι → Prop
  | .uploaded i (some downloadURL) =>
      ∀ x ∈ s.uploading[i]?, asString (x.snapshot .username) ≠ none →
        x.image = x.pressed.image ∧ downloadURL ≠ none
  | _ => True

instance [DecidableEq ι] (s : AddPostScreen ι) : DecidablePred s.KeepsImage
  | .uploaded i (some _) => inferInstanceAs (Decidable (∀ x ∈ s.uploading[i]?, _ → _ ∧ _))
  | .uploaded _ none | .titleEdited _ | .descEdited _ | .locationEdited _ | .dropDownPressed _ |
    .imagePicked _ _ | .locationChosen _ | .viewWillAppear | .submitPressed _ | .snapshot _ _ _ |
    .acknowledged _ _ => isTrue trivial

variable {s s' : AddPostScreen ι}

theorem sound_opened (userId : Option String) : (opened userId : AddPostScreen ι).Sound :=
  ⟨by simp [opened], by simp [opened], by simp [opened], by simp [opened], by simp [opened]⟩

theorem Sound.of_eq (hs : s.Sound) (hasked : ∀ x ∈ s'.asked, x ∈ s.asked)
    (huploading : ∀ x ∈ s'.uploading, x ∈ s.uploading) (hstored : s'.stored = s.stored)
    (himages : s'.images = s.images) : s'.Sound := by
  refine ⟨?_, ?_, ?_, ?_, ?_⟩
  · intro x hx
    exact hs.asked x (hasked x hx)
  · intro x hx
    exact hs.uploading x (huploading x hx)
  · rw [hstored]
    exact hs.stored
  · rw [hstored, himages]
    exact hs.images
  · rw [himages]
    exact hs.urls

theorem Sound.submitPressed (hs : s.Sound) (postId : String) : (s.submitPressed postId).Sound := by
  rcases s.submitPressed_cases postId with ⟨submission, hrun, heq⟩ | ⟨crashed, heq⟩ <;> rw [heq]
  · refine ⟨?_, hs.uploading, hs.stored, hs.images, hs.urls⟩
    intro x hx
    rcases mem_append_singleton hx with rfl | hx
    · exact AddPostController.submitPressed_form hrun
    · exact hs.asked x hx
  · exact hs.of_eq (by simp) (by simp) rfl rfl

theorem Sound.startUpload (hs : s.Sound) {x : Submission × PressedForm ι} (hx : x.1.Captures x.2.form)
    (data : Node) (jpeg : Bool) : (s.startUpload x data jpeg).Sound := by
  unfold AddPostScreen.startUpload
  split_ifs
  · refine ⟨hs.asked, ?_, hs.stored, hs.images, hs.urls⟩
    intro y hy
    rcases mem_append_singleton hy with rfl | hy
    · exact hx
    · exact hs.uploading y hy
  · exact hs

theorem Sound.endUpload (hs : s.Sound) {x : ImageUpload ι}
    (hx : x.submission.Captures x.pressed.form) {metadata : Option (Option String)}
    (hnew : ∀ url ∈ metadata.join, url ∉ s.images.map Prod.fst) : (s.endUpload x metadata).Sound := by
  have hurls : ((s.images ++ metadata.join.toList.map (·, x.image)).map Prod.fst).Nodup := by
    cases hurl : metadata.join with
    | none => simpa using hs.urls
    | some url =>
        have hfresh := hs.urls.concat (hnew url hurl)
        simpa [List.concat_eq_append] using hfresh
  have hkeep : ∀ y ∈ s.stored, ∀ url, y.post.imageUrl = some url →
      (url, y.image) ∈ s.images ++ metadata.join.toList.map (·, x.image) := by
    intro y hy url hurl
    exact List.mem_append_left _ (hs.images y hy url hurl)
  unfold AddPostScreen.endUpload
  cases hpost : AddPostController.uploaded x.submission x.snapshot metadata with
  | none => exact ⟨hs.asked, hs.uploading, hs.stored, hkeep, hurls⟩
  | some post =>
      obtain ⟨htitle, hdesc, hcat, hloc, hmeta⟩ := AddPostController.uploaded_captured hpost
      refine ⟨hs.asked, hs.uploading, ?_, ?_, hurls⟩
      · intro y hy
        rcases mem_append_singleton hy with rfl | hy
        · constructor <;> rw [hx] <;> simp [htitle, hdesc, hcat, hloc]
        · exact hs.stored y hy
      · intro y hy url hurl
        rcases mem_append_singleton hy with rfl | hy
        · refine List.mem_append_right _ ?_
          simpa [hmeta] using hurl
        · exact hkeep y hy url hurl

theorem Sound.react (hs : s.Sound) {e : FormEvent ι} (h : s.react e = some s') : s'.Sound := by
  cases e with
  | titleEdited _ | descEdited _ | locationEdited _ | locationChosen _ | viewWillAppear =>
      obtain rfl := Option.some.inj h
      exact hs.of_eq (by simp) (by simp) rfl rfl
  | dropDownPressed row =>
      obtain ⟨string, -, rfl⟩ := Option.map_eq_some_iff.mp h
      exact hs.of_eq (by simp [AddPostScreen.dropDownPressed])
        (by simp [AddPostScreen.dropDownPressed]) rfl rfl
  | imagePicked editedImage originalImage =>
      obtain rfl := Option.some.inj h
      unfold AddPostScreen.imagePicked
      split <;> exact hs.of_eq (by simp) (by simp) rfl rfl
  | submitPressed postId =>
      obtain rfl := Option.some.inj h
      exact hs.submitPressed postId
  | snapshot i data jpeg =>
      obtain ⟨x, hx, h⟩ := Option.bind_eq_some_iff.mp h
      obtain rfl := Option.some.inj h
      refine Sound.startUpload ?_ (hs.asked x (List.mem_of_getElem? hx)) data jpeg
      exact hs.of_eq (fun _ => List.mem_of_mem_eraseIdx) (by simp) rfl rfl
  | uploaded i metadata =>
      obtain ⟨x, hx, h⟩ := Option.bind_eq_some_iff.mp h
      split_ifs at h with hnew
      obtain rfl := Option.some.inj h
      refine Sound.endUpload ?_ (hs.uploading x (List.mem_of_getElem? hx)) hnew
      exact hs.of_eq (by simp) (fun _ => List.mem_of_mem_eraseIdx) rfl rfl
  | acknowledged i error =>
      obtain ⟨post, -, h⟩ := Option.bind_eq_some_iff.mp h
      obtain rfl := Option.some.inj h
      split_ifs <;> exact hs.of_eq (by simp [resetValues]) (by simp [resetValues]) rfl rfl

theorem Reached.sound {es : List (FormEvent ι)} (hr : Reached es s) : s.Sound := by
  obtain ⟨userId, hr⟩ := hr
  refine hr.invariant Sound ?_ (sound_opened userId)
  intro s e s' hs _ h
  exact hs.react (step_eq_some.mp h).2

/-- A stored post is the form at its press exactly if its image is the one of the press. -/
theorem Sound.storesForms_iff (hs : s.Sound) : s.StoresForms ↔ ∀ x ∈ s.stored, x.Intact := by
  constructor
  · intro h x hx
    obtain ⟨url, hurl, hpressed⟩ := (h x hx).imageUrl
    have hsame := List.inj_on_of_nodup_map hs.urls hpressed (hs.images x hx url hurl) rfl
    refine ⟨(Prod.mk.inj hsame).2.symm, ?_⟩
    rw [hurl]
    simp
  · intro h x hx
    obtain ⟨himage, hurl⟩ := h x hx
    refine ⟨hs.stored x hx, ?_⟩
    obtain ⟨url, hurl⟩ := Option.ne_none_iff_exists'.mp hurl
    exact ⟨url, hurl, himage ▸ hs.images x hx url hurl⟩

theorem stored_react {e : FormEvent ι} (h : s.react e = some s')
    (he : ∀ i metadata, e ≠ .uploaded i metadata) : s'.stored = s.stored := by
  cases e with
  | titleEdited _ | descEdited _ | locationEdited _ | locationChosen _ | viewWillAppear =>
      obtain rfl := Option.some.inj h
      rfl
  | dropDownPressed row =>
      obtain ⟨string, -, rfl⟩ := Option.map_eq_some_iff.mp h
      rfl
  | imagePicked editedImage originalImage =>
      obtain rfl := Option.some.inj h
      unfold AddPostScreen.imagePicked
      split <;> rfl
  | submitPressed postId =>
      obtain rfl := Option.some.inj h
      rcases s.submitPressed_cases postId with ⟨submission, -, heq⟩ | ⟨crashed, heq⟩ <;> rw [heq]
  | snapshot i data jpeg =>
      obtain ⟨x, -, h⟩ := Option.bind_eq_some_iff.mp h
      obtain rfl := Option.some.inj h
      unfold AddPostScreen.startUpload
      split_ifs <;> rfl
  | uploaded i metadata => exact absurd rfl (he i metadata)
  | acknowledged i error =>
      obtain ⟨post, -, h⟩ := Option.bind_eq_some_iff.mp h
      obtain rfl := Option.some.inj h
      split_ifs <;> rfl

theorem intact_endUpload (s : AddPostScreen ι) (x : ImageUpload ι)
    (metadata : Option (Option String)) :
    (∀ y ∈ (s.endUpload x metadata).stored, y.Intact) ↔ (∀ y ∈ s.stored, y.Intact) ∧
      ∀ downloadURL ∈ metadata, asString (x.snapshot .username) ≠ none →
        x.image = x.pressed.image ∧ downloadURL ≠ none := by
  rw [stored_endUpload]
  cases hpost : AddPostController.uploaded x.submission x.snapshot metadata with
  | none =>
      rcases AddPostController.uploaded_eq_none.mp hpost with hnone | hnone <;> simp [hnone]
  | some post =>
      obtain ⟨-, -, -, hmeta, hname⟩ := AddPostController.uploaded_eq_some hpost
      rw [Option.map_some, Option.toList_some, List.forall_mem_append, List.forall_mem_singleton]
      simp [StoredPost.Intact, hmeta, hname]

theorem intact_react {e : FormEvent ι} (h : s.react e = some s') :
    (∀ x ∈ s'.stored, x.Intact) ↔ (∀ x ∈ s.stored, x.Intact) ∧ s.KeepsImage e := by
  by_cases he : ∃ i metadata, e = .uploaded i metadata
  · obtain ⟨i, metadata, rfl⟩ := he
    obtain ⟨x, hx, h⟩ := Option.bind_eq_some_iff.mp h
    split_ifs at h with hnew
    obtain rfl := Option.some.inj h
    rw [intact_endUpload]
    cases metadata <;> simp [KeepsImage, hx]
  · have hkeeps : s.KeepsImage e := by
      unfold KeepsImage
      split
      · exact absurd ⟨_, _, rfl⟩ he
      · trivial
    rw [stored_react h (by simpa using he)]
    simp [hkeeps]

/-- In every run the stored posts are the forms at their presses exactly if every upload that leads to
a post finds the image of its press and has a URL. -/
theorem storesForms_iff_keepsImage {userId : Option String} {es : List (FormEvent ι)}
    (hr : Run step (fun _ _ => True) (opened userId) es s) :
    s.StoresForms ↔ Run step KeepsImage (opened userId) es s := by
  have hexact : (∀ x ∈ s.stored, x.Intact) ↔
      (∀ x ∈ (opened userId : AddPostScreen ι).stored, x.Intact) ∧
        Run step KeepsImage (opened userId) es s := by
    refine hr.exact Sound (fun s => ∀ x ∈ s.stored, x.Intact) ?_ ?_ (sound_opened userId)
    · intro s e s' hs h
      exact hs.react (step_eq_some.mp h).2
    · intro s e s' _ h
      exact intact_react (step_eq_some.mp h).2
  have hnil : (opened userId : AddPostScreen ι).stored = [] := rfl
  rw [(Reached.sound ⟨userId, hr⟩).storesForms_iff, hexact, hnil]
  simp

/-- The user selects a category, picks a picture and presses Submit. -/
def pressScript : List (FormEvent String) :=
  [.dropDownPressed 0, .imagePicked none (some "library"), .submitPressed "p"]

/-- The user's record arrives, and the image is uploaded. -/
def uploadScript : List (FormEvent String) :=
  [.snapshot 0 (fun f => if f = .username then some (.str "ann") else none) true,
    .uploaded 0 (some (some "https://images/1.jpg"))]

theorem storesForms_once : ∃ s : AddPostScreen String,
    Run step (fun _ _ => True) (opened (some "u")) (pressScript ++ uploadScript) s ∧
      s.stored ≠ [] ∧ s.StoresForms := by
  obtain ⟨s, hr, hne⟩ := exists_run_of_exec step KeepsImage (opened (some "u"))
    (pressScript ++ uploadScript) (fun s => s.stored ≠ []) (by decide)
  have hrun := hr.mono (fun _ _ _ => trivial)
  exact ⟨s, hrun, hne, (storesForms_iff_keepsImage hrun).mpr hr⟩

/-- Another picture is picked before the record arrives, and the post is stored with that one. -/
theorem later_image_stored : ∃ (es : List (FormEvent String)) (s : AddPostScreen String),
    Run step (fun _ _ => True) (opened (some "u")) es s ∧ ¬ s.StoresForms := by
  obtain ⟨s, hr, hne⟩ := exists_run_of_exec step (fun _ _ => True) (opened (some "u"))
    (pressScript ++ [.imagePicked none (some "lunch")] ++ uploadScript)
    (fun s => ¬ ∀ x ∈ s.stored, x.Intact) (by decide)
  refine ⟨_, s, hr, ?_⟩
  rw [(Reached.sound ⟨_, hr⟩).storesForms_iff]
  exact hne

end AddPostScreen

/-! ### The category that the form shows -/

/-- A record of the events alone. -/
structure CategoryHistory where
  /-- The newest selection. -/
  selected : Option String
  /-- The form was reset since. -/
  reset : Bool
deriving DecidableEq, Repr

namespace CategoryHistory

def track (h : CategoryHistory) : FormEvent ι → CategoryHistory
  | .dropDownPressed row => ⟨dropDownOptions[row]?, false⟩
  | .acknowledged _ false => { h with reset := true }
  | _ => h

/-- What the events of a run record. -/
def of (es : List (FormEvent ι)) : CategoryHistory := es.foldl track ⟨none, false⟩

end CategoryHistory

namespace AddPostScreen

/-- A post is filed under the category that the form shows. -/
structure FilesAsShown (s : AddPostScreen ι) : Prop where
  shown : s.buttonTitle = "Category" ∧ s.form.selectedCategory = "" ∨
    s.buttonTitle = s.form.selectedCategory
  refused : s.buttonTitle = "Category" → ∀ postId,
    ((AddPostController.submitPressed s.userId s.form postId).run ()).1 = .error .returned
  filed : ∀ postId submission,
    ((AddPostController.submitPressed s.userId s.form postId).run ()).1 = .ok submission →
      submission.postCategory = s.buttonTitle

/-- What the record says about the screen. -/
structure Shows (s : AddPostScreen ι) (h : CategoryHistory) : Prop where
  selectedCategory : s.form.selectedCategory = h.selected.getD ""
  buttonTitle : s.buttonTitle = if h.reset then "Category" else h.selected.getD "Category"
  options : ∀ category ∈ h.selected, category ∈ dropDownOptions
  reset : h.reset = true → h.selected ≠ none
  /-- Nothing is on its way before the first selection. -/
  pending : h.selected = none → s.asked = [] ∧ s.uploading = [] ∧ s.storing = []

variable {s s' : AddPostScreen ι} {h : CategoryHistory} {es : List (FormEvent ι)}

theorem shows_opened (userId : Option String) :
    (opened userId : AddPostScreen ι).Shows ⟨none, false⟩ :=
  ⟨rfl, rfl, by simp, by simp, fun _ => ⟨rfl, rfl, rfl⟩⟩

/-- The record is kept by what leaves the category, its title and its selection alone, and starts
nothing before the first selection. -/
theorem Shows.of_eq (hs : s.Shows h) (hcat : s'.form.selectedCategory = s.form.selectedCategory)
    (htitle : s'.buttonTitle = s.buttonTitle)
    (hpending : h.selected = none → s'.asked = [] ∧ s'.uploading = [] ∧ s'.storing = []) :
    s'.Shows h :=
  ⟨hcat ▸ hs.selectedCategory, htitle ▸ hs.buttonTitle, hs.options, hs.reset, hpending⟩

/-- The empty selection and the title of the reset button are no options. -/
theorem not_mem_dropDownOptions : "" ∉ dropDownOptions ∧ "Category" ∉ dropDownOptions := by
  decide

theorem Shows.selected_ne_none (hs : s.Shows h)
    (hsome : ¬ (s.asked = [] ∧ s.uploading = [] ∧ s.storing = [])) : h.selected ≠ none := by
  intro hnone
  exact hsome (hs.pending hnone)

theorem Shows.of_pending (hs : s.Shows h)
    (hsome : ¬ (s.asked = [] ∧ s.uploading = [] ∧ s.storing = []))
    (hcat : s'.form.selectedCategory = s.form.selectedCategory)
    (htitle : s'.buttonTitle = s.buttonTitle) : s'.Shows h := by
  refine hs.of_eq hcat htitle ?_
  intro hnone
  exact absurd hnone (hs.selected_ne_none hsome)

theorem Shows.react (hs : s.Shows h) {e : FormEvent ι} (hstep : s.react e = some s') :
    s'.Shows (h.track e) := by
  cases e with
  | titleEdited _ | descEdited _ | locationEdited _ | locationChosen _ | viewWillAppear =>
      obtain rfl := Option.some.inj hstep
      exact hs.of_eq rfl rfl hs.pending
  | dropDownPressed row =>
      obtain ⟨string, hrow, rfl⟩ := Option.map_eq_some_iff.mp hstep
      have htrack : h.track (.dropDownPressed row : FormEvent ι) = ⟨some string, false⟩ := by
        rw [CategoryHistory.track, hrow]
      rw [htrack]
      refine ⟨rfl, rfl, ?_, by simp, by simp⟩
      intro category hcat
      obtain rfl := Option.some.inj hcat
      exact List.mem_of_getElem? hrow
  | imagePicked editedImage originalImage =>
      obtain rfl := Option.some.inj hstep
      unfold AddPostScreen.imagePicked
      split <;> exact hs.of_eq rfl rfl hs.pending
  | submitPressed postId =>
      obtain rfl := Option.some.inj hstep
      rcases s.submitPressed_cases postId with ⟨submission, hrun, heq⟩ | ⟨crashed, heq⟩ <;> rw [heq]
      · refine hs.of_eq rfl rfl ?_
        intro hnone
        -- without a selection the press would have been refused
        have hcat := hs.selectedCategory
        rw [hnone] at hcat
        rw [AddPostController.submitPressed_refused hcat] at hrun
        simp at hrun
      · exact hs.of_eq rfl rfl hs.pending
  | snapshot i data jpeg =>
      obtain ⟨x, hx, hstep⟩ := Option.bind_eq_some_iff.mp hstep
      obtain rfl := Option.some.inj hstep
      have hsome : ¬ (s.asked = [] ∧ s.uploading = [] ∧ s.storing = []) := by
        rintro ⟨hnil, -⟩
        simp [hnil] at hx
      unfold AddPostScreen.startUpload
      split_ifs <;> exact hs.of_pending hsome rfl rfl
  | uploaded i metadata =>
      obtain ⟨x, hx, hstep⟩ := Option.bind_eq_some_iff.mp hstep
      split_ifs at hstep with hnew
      obtain rfl := Option.some.inj hstep
      have hsome : ¬ (s.asked = [] ∧ s.uploading = [] ∧ s.storing = []) := by
        rintro ⟨-, hnil, -⟩
        simp [hnil] at hx
      unfold AddPostScreen.endUpload
      cases AddPostController.uploaded x.submission x.snapshot metadata <;>
        exact hs.of_pending hsome rfl rfl
  | acknowledged i error =>
      obtain ⟨post, hpost, hstep⟩ := Option.bind_eq_some_iff.mp hstep
      obtain rfl := Option.some.inj hstep
      have hsome : ¬ (s.asked = [] ∧ s.uploading = [] ∧ s.storing = []) := by
        rintro ⟨-, -, hnil⟩
        simp [hnil] at hpost
      cases error with
      | true => exact hs.of_pending hsome rfl rfl
      | false =>
          have hselected := hs.selected_ne_none hsome
          exact ⟨hs.selectedCategory, rfl, hs.options, fun _ => hselected,
            fun hnone => absurd hnone hselected⟩

theorem Reached.shows (hr : Reached es s) : s.Shows (.of es) := by
  obtain ⟨userId, hr⟩ := hr
  refine hr.history Shows CategoryHistory.track ?_ (shows_opened userId)
  intro s e s' h hs _ hstep
  exact hs.react (step_eq_some.mp hstep).2

theorem Shows.filesAsShown_iff (hs : s.Shows h) : s.FilesAsShown ↔ h.reset = false := by
  have hnot := not_mem_dropDownOptions
  constructor
  · intro hfiles
    by_contra hreset
    rw [Bool.not_eq_false] at hreset
    -- the selection is one of the options, the title is none of them
    obtain ⟨category, hselected⟩ := Option.ne_none_iff_exists'.mp (hs.reset hreset)
    have hoption := hs.options category hselected
    have hcat := hs.selectedCategory
    have htitle := hs.buttonTitle
    rw [hselected, Option.getD_some] at hcat
    rw [hreset, if_pos rfl] at htitle
    rcases hfiles.shown with ⟨-, hempty⟩ | hsame
    · rw [hcat] at hempty
      exact hnot.1 (hempty ▸ hoption)
    · rw [hcat, htitle] at hsame
      exact hnot.2 (hsame ▸ hoption)
  · intro hreset
    have hcat := hs.selectedCategory
    have htitle := hs.buttonTitle
    rw [hreset] at htitle
    cases hselected : h.selected with
    | none =>
        rw [hselected] at hcat htitle
        refine ⟨Or.inl ⟨htitle, hcat⟩, ?_, ?_⟩
        · intro _ postId
          exact AddPostController.submitPressed_refused hcat
        · intro postId submission hok
          rw [AddPostController.submitPressed_refused hcat] at hok
          simp at hok
    | some category =>
        rw [hselected] at hcat htitle
        refine ⟨Or.inr (htitle.trans hcat.symm), ?_, ?_⟩
        · intro htitle' _
          have hoption := hs.options category hselected
          exact absurd (htitle.symm.trans htitle' ▸ hoption) hnot.2
        · intro postId submission hok
          rw [(AddPostController.submitPressed_ok hok).2.1, hcat, htitle]
          rfl

/-- A post is filed under the category that the form shows exactly while the form was not reset since
the newest selection. -/
theorem filesAsShown_iff_not_reset (hr : Reached es s) :
    s.FilesAsShown ↔ (CategoryHistory.of es).reset = false :=
  hr.shows.filesAsShown_iff

theorem filesAsShown_once : ∃ s : AddPostScreen String, Reached pressScript s ∧ s.FilesAsShown := by
  obtain ⟨s, hr, -⟩ := exists_run_of_exec step (fun _ _ => True) (opened (some "u")) pressScript
    (fun _ => True) (by decide)
  have hreached : Reached pressScript s := ⟨_, hr⟩
  exact ⟨s, hreached, (filesAsShown_iff_not_reset hreached).mpr (by decide)⟩

/-- After the first post the button says "Category", and the next post is filed as before. -/
theorem reset_keeps_selection : ∃ (es : List (FormEvent String)) (s : AddPostScreen String),
    Reached es s ∧ ¬ s.FilesAsShown := by
  obtain ⟨s, hr, -⟩ := exists_run_of_exec step (fun _ _ => True) (opened (some "u"))
    (pressScript ++ uploadScript ++ [.acknowledged 0 false]) (fun _ => True) (by decide)
  have hreached : Reached _ s := ⟨_, hr⟩
  refine ⟨_, s, hreached, ?_⟩
  rw [hreached.shows.filesAsShown_iff]
  decide

end AddPostScreen

end CommServe
