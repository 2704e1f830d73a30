import CommServe.Transition
import CommServe.AddPostScreen
import CommServe.Account
import CommServe.Pinned

/-! # Editing a profile

`viewDidLoad` of `UserInfoController` asks for the user's record and sets up the view, whose text
fields are filled from `appUser` as it is then.  `submitPressed` captures the name, uploads the image
and writes the name only; the other inputs of the form are never read.

`updates` is a history variable: for every update that was written, the record before and after it,
what the user had edited at the press, and the URL of the uploaded image. -/

namespace CommServe

open RecordStore Method Transition

/-- What the user has edited in the form: the values entered, and whether an image was picked. -/
structure ProfileEdits where
  name : Option String
  country : Option String
  phone : Option String
  image : Bool
deriving DecidableEq, Repr

/-- The view of `UserInfoController`; `prefilled` is the name that `setupViews` put into it. -/
structure UserInfoForm (ι : Type) where
  email : String
  name : String
  country : String
  phone : String
  /-- `profileImageView.image`. -/
  image : Option (UIImage ι)
  prefilled : String
  edits : ProfileEdits
deriving DecidableEq, Repr

/-- A press whose image is being uploaded: the captured name, and the form's history then. -/
structure ProfileUpload where
  name : String
  prefilled : String
  edits : ProfileEdits
deriving DecidableEq, Repr

/-- An update that was written. -/
structure ProfileUpdate where
  before : Node
  after : Node
  edits : ProfileEdits
  downloadURL : Option String

/-- `UserInfoController` with its callbacks, and the record at `users/<uid>`. -/
structure UserInfoScreen (ι : Type) where
  uid : String
  record : Node
  appUser : Option AppUser
  /-- The answer to `fetchUserInfo` is on its way. -/
  fetching : Bool
  /-- There is none before `setupViews`. -/
  form : Option (UserInfoForm ι)
  uploading : List ProfileUpload
  updates : List ProfileUpdate

/-- What can happen to the screen. -/
inductive ProfileEvent (ι : Type) where
  /-- The answer to `fetchUserInfo` arrives. -/
  | fetched
  | setupViews
  /-- The picture of the user is loaded into the view. -/
  | imageLoaded (image : Option ι)
  | nameEdited (text : String)
  | countryEdited (text : String)
  | phoneEdited (text : String)
  | imagePicked (editedImage originalImage : Option ι)
  /-- `jpeg` tells whether the image could be encoded. -/
  | submitPressed (jpeg : Bool)
  /-- The `i`-th upload ends. -/
  | uploaded (i : ℕ) (metadata : Option (Option String))
  /-- Another client changes the record. -/
  | changed (record : Node)

namespace UserInfoForm

variable {ι : Type}

/-- `setupViews`: a text field that is set to nil reads as empty. -/
def setupViews (appUser : Option AppUser) : UserInfoForm ι where
  email := (appUser.bind (·.email)).getD ""
  name := (appUser.bind (·.username)).getD ""
  country := (appUser.bind (·.country)).getD ""
  phone := (appUser.bind (·.phone)).getD ""
  -- loading a picture clears the image first
  image := if (appUser.bind (·.profileurl)).isSome then none else some .defaultImage
  prefilled := (appUser.bind (·.username)).getD ""
  edits := ⟨none, none, none, false⟩

variable (form : UserInfoForm ι)

def editName (text : String) : UserInfoForm ι :=
  { form with name := text, edits := { form.edits with name := some text } }

def editCountry (text : String) : UserInfoForm ι :=
  { form with country := text, edits := { form.edits with country := some text } }

def editPhone (text : String) : UserInfoForm ι :=
  { form with phone := text, edits := { form.edits with phone := some text } }

/-- `imagePickerController(_:didFinishPickingMediaWithInfo:)`. -/
def pickImage (editedImage originalImage : Option ι) : UserInfoForm ι :=
  match editedImage.or originalImage with
  | some selectedImage => { form with
      image := some (.picked selectedImage), edits := { form.edits with image := true } }
  | none => form

def loadImage (image : Option ι) : UserInfoForm ι :=
  match image with
  | some downloadedImage => { form with image := some (.picked downloadedImage) }
  | none => form

/-- `submitPressed`, up to the upload: without an image nothing is uploaded. -/
def submitPressed (jpeg : Bool) : Option ProfileUpload :=
  if form.image.isSome && jpeg then some ⟨form.name, form.prefilled, form.edits⟩ else none

end UserInfoForm

namespace UserInfoScreen

variable {ι : Type} (s : UserInfoScreen ι)

/-- The screen when `viewDidLoad` has called `fetchUserInfo`. -/
def opened (uid : String) (record : Node) : UserInfoScreen ι := ⟨uid, record, none, true, none, [], []⟩

/-- The closure of `fetchUserInfo`, which has the guards of the Pinned list's. -/
def fetched : UserInfoScreen ι :=
  { s with
    fetching := false
    appUser := (PinController.fetchUserInfo s.uid s.record).or s.appUser }

/-- The end of the upload `x`: the name is written. -/
def uploaded (x : ProfileUpload) (downloadURL : Option String) : UserInfoScreen ι :=
  let after := (UserInfoController.store s.uid x.name).on s.record
  { s with record := after, updates := s.updates ++ [⟨s.record, after, x.edits, downloadURL⟩] }

/-- One step of the screen. -/
def step (s : UserInfoScreen ι) : ProfileEvent ι → Option (UserInfoScreen ι)
  | .fetched => if s.fetching then some s.fetched else none
  | .setupViews =>
      if s.form.isNone then some { s with form := some (.setupViews s.appUser) } else none
  | .imageLoaded image => do
      let form ← s.form
      some { s with form := some (form.loadImage image) }
  | .nameEdited text => do
      let form ← s.form
      some { s with form := some (form.editName text) }
  | .countryEdited text => do
      let form ← s.form
      some { s with form := some (form.editCountry text) }
  | .phoneEdited text => do
      let form ← s.form
      some { s with form := some (form.editPhone text) }
  | .imagePicked editedImage originalImage => do
      let form ← s.form
      some { s with form := some (form.pickImage editedImage originalImage) }
  | .submitPressed jpeg => do
      let form ← s.form
      some { s with uploading := s.uploading ++ (form.submitPressed jpeg).toList }
  | .uploaded i metadata => do
      let x ← s.uploading[i]?
      let s := { s with uploading := s.uploading.eraseIdx i }
      match metadata with
      | some downloadURL => some (s.uploaded x downloadURL)
      | none => some s
  | .changed record => some { s with record := record }

end UserInfoScreen

/-! ### What an update changes -/

variable {ι : Type}

/-- The value that a field should have after an update, if the user has edited it. -/
def ProfileUpdate.entered (u : ProfileUpdate) : Field → Option (Option Value)
  | .username => u.edits.name.map fun name => some (.str name)
  | .country => u.edits.country.map fun country => some (.str country)
  | .phone => u.edits.phone.map fun phone => some (.str phone)
  | .profileurl => if u.edits.image then some (u.downloadURL.map .str) else none
  | _ => none

/-- The edited fields hold their new values and all others are as before. -/
def ProfileUpdate.Exact (u : ProfileUpdate) : Prop :=
  ∀ f, u.after f = (u.entered f).getD (u.before f)

/-- The captured name is the entered one, or else the one that the form was filled with. -/
def ProfileUpload.Captured (x : ProfileUpload) : Prop := x.name = x.edits.name.getD x.prefilled

/-- The update writes what the user has edited: a name that was not edited was filled in as it is
stored, and everything else that was edited is stored already. -/
def ProfileUpload.Fits (x : ProfileUpload) (record : Node) (downloadURL : Option String) : Prop :=
  (x.edits.name = none → record .username = some (.str x.prefilled)) ∧
    (∀ country ∈ x.edits.country, record .country = some (.str country)) ∧
    (∀ phone ∈ x.edits.phone, record .phone = some (.str phone)) ∧
    (x.edits.image = true → record .profileurl = downloadURL.map .str)

instance (x : ProfileUpload) (record : Node) (downloadURL : Option String) :
    Decidable (x.Fits record downloadURL) :=
  inferInstanceAs (Decidable (_ ∧ _ ∧ _ ∧ _))

theorem ProfileUpload.exact_iff {x : ProfileUpload} (hx : x.Captured) (uid : String) (record : Node)
    (downloadURL : Option String) :
    (ProfileUpdate.mk record ((UserInfoController.store uid x.name).on record) x.edits
      downloadURL).Exact ↔ x.Fits record downloadURL := by
  have hname : some (Value.str x.name) =
      (x.edits.name.map fun name => some (Value.str name)).getD (record .username) ↔
        (x.edits.name = none → record .username = some (.str x.prefilled)) := by
    rw [hx]
    cases x.edits.name <;> simp [eq_comm]
  have hedit : ∀ (edit : Option String) (f : Field),
      record f = (edit.map fun text => some (Value.str text)).getD (record f) ↔
        ∀ text ∈ edit, record f = some (.str text) := by
    intro edit f
    cases edit <;> simp
  have himage : record .profileurl =
      (if x.edits.image then some (downloadURL.map Value.str) else none).getD (record .profileurl) ↔
        (x.edits.image = true → record .profileurl = downloadURL.map .str) := by
    cases x.edits.image <;> simp
  unfold ProfileUpload.Fits
  rw [← hname, ← hedit, ← hedit, ← himage]
  constructor
  · intro h
    exact ⟨h .username, h .country, h .phone, h .profileurl⟩
  · rintro ⟨husername, hcountry, hphone, hprofileurl⟩ f
    cases f with
    | username => exact husername
    | country => exact hcountry
    | phone => exact hphone
    | profileurl => exact hprofileurl
    | _ => rfl

namespace UserInfoScreen

variable {s s' : UserInfoScreen ι} {e : ProfileEvent ι}

/-- The name in the form and every captured name is the entered one or the one filled in. -/
structure Sound (s : UserInfoScreen ι) : Prop where
  form : ∀ form ∈ s.form, form.name = form.edits.name.getD form.prefilled
  uploading : ∀ x ∈ s.uploading, x.Captured

/-- At the end of an upload the record fits the form at its press. -/
def KeepsProfile (s : UserInfoScreen ι) : ProfileEvent ι → Prop
  | .uploaded i (some downloadURL) => ∀ x ∈ s.uploading[i]?, x.Fits s.record downloadURL
  | _ => True

instance (s : UserInfoScreen ι) : DecidablePred s.KeepsProfile
  | .uploaded i (some _) => inferInstanceAs (Decidable (∀ x ∈ s.uploading[i]?, _))
  | .uploaded _ none | .fetched | .setupViews | .imageLoaded _ | .nameEdited _ | .countryEdited _ |
    .phoneEdited _ | .imagePicked _ _ | .submitPressed _ | .changed _ => isTrue trivial

/-- Every update changed what the user had edited, and nothing else. -/
def UpdatesEdits (s : UserInfoScreen ι) : Prop := ∀ u ∈ s.updates, u.Exact

theorem sound_opened (uid : String) (record : Node) : (opened uid record : UserInfoScreen ι).Sound :=
  ⟨by simp [opened], by simp [opened]⟩

theorem Sound.with_form (hs : s.Sound) {form : UserInfoForm ι}
    (hform : form.name = form.edits.name.getD form.prefilled) :
    ({ s with form := some form } : UserInfoScreen ι).Sound := by
  refine ⟨?_, hs.uploading⟩
  intro form' hform'
  obtain rfl := Option.some.inj hform'
  exact hform

theorem Sound.step (hs : s.Sound) (h : UserInfoScreen.step s e = some s') : s'.Sound := by
  cases e with
  | fetched =>
      simp only [UserInfoScreen.step, Option.ite_none_right_eq_some, Option.some.injEq] at h
      obtain ⟨-, rfl⟩ := h
      exact ⟨hs.form, hs.uploading⟩
  | setupViews =>
      simp only [UserInfoScreen.step, Option.ite_none_right_eq_some, Option.some.injEq] at h
      obtain ⟨-, rfl⟩ := h
      exact hs.with_form rfl
  | imageLoaded image =>
      obtain ⟨form, hform, h⟩ := Option.bind_eq_some_iff.mp h
      obtain rfl := Option.some.inj h
      have hname := hs.form form hform
      cases image <;> exact hs.with_form hname
  | nameEdited text =>
      obtain ⟨form, -, h⟩ := Option.bind_eq_some_iff.mp h
      obtain rfl := Option.some.inj h
      exact hs.with_form rfl
  | countryEdited text | phoneEdited text =>
      obtain ⟨form, hform, h⟩ := Option.bind_eq_some_iff.mp h
      obtain rfl := Option.some.inj h
      exact hs.with_form (hs.form form hform)
  | imagePicked editedImage originalImage =>
      obtain ⟨form, hform, h⟩ := Option.bind_eq_some_iff.mp h
      obtain rfl := Option.some.inj h
      have hname := hs.form form hform
      unfold UserInfoForm.pickImage
      split <;> exact hs.with_form hname
  | submitPressed jpeg =>
      obtain ⟨form, hform, h⟩ := Option.bind_eq_some_iff.mp h
      obtain rfl := Option.some.inj h
      refine ⟨hs.form, ?_⟩
      unfold UserInfoForm.submitPressed
      intro x hx
      split_ifs at hx
      · rcases mem_append_singleton hx with rfl | hx
        · exact hs.form form hform
        · exact hs.uploading x hx
      · exact hs.uploading x (by simpa using hx)
  | uploaded i metadata =>
      obtain ⟨x, -, h⟩ := Option.bind_eq_some_iff.mp h
      cases metadata <;> obtain rfl := Option.some.inj h <;>
        exact ⟨hs.form, fun y hy => hs.uploading y (List.mem_of_mem_eraseIdx hy)⟩
  | changed record =>
      obtain rfl := Option.some.inj h
      exact ⟨hs.form, hs.uploading⟩

/-- Only the end of an upload adds to the updates. -/
theorem updates_step (h : step s e = some s') (he : ∀ i metadata, e ≠ .uploaded i metadata) :
    s'.updates = s.updates := by
  cases e with
  | fetched =>
      simp only [step, Option.ite_none_right_eq_some, Option.some.injEq] at h
      obtain ⟨-, rfl⟩ := h
      rfl
  | setupViews =>
      simp only [step, Option.ite_none_right_eq_some, Option.some.injEq] at h
      obtain ⟨-, rfl⟩ := h
      rfl
  | uploaded i metadata => exact absurd rfl (he i metadata)
  | changed record =>
      obtain rfl := Option.some.inj h
      rfl
  | _ =>
      obtain ⟨form, -, h⟩ := Option.bind_eq_some_iff.mp h
      obtain rfl := Option.some.inj h
      rfl

theorem updatesEdits_step (hs : s.Sound) (h : step s e = some s') :
    s'.UpdatesEdits ↔ s.UpdatesEdits ∧ s.KeepsProfile e := by
  by_cases he : ∃ i metadata, e = .uploaded i metadata
  · obtain ⟨i, metadata, rfl⟩ := he
    obtain ⟨x, hx, h⟩ := Option.bind_eq_some_iff.mp h
    cases metadata with
    | none =>
        obtain rfl := Option.some.inj h
        simp [UpdatesEdits, KeepsProfile]
    | some downloadURL =>
        obtain rfl := Option.some.inj h
        have hexact := ProfileUpload.exact_iff (hs.uploading x (List.mem_of_getElem? hx)) s.uid
          s.record downloadURL
        simp only [UpdatesEdits, KeepsProfile, UserInfoScreen.uploaded, hx, List.forall_mem_append,
          List.forall_mem_singleton, hexact, Option.mem_some_iff, forall_eq']
  · have hkeeps : s.KeepsProfile e := by
      unfold KeepsProfile
      split
      · exact absurd ⟨_, _, rfl⟩ he
      · trivial
    unfold UpdatesEdits
    rw [updates_step h (by simpa using he)]
    simp [hkeeps]

/-- A user who lives in the US. -/
def profile : Account :=
  ⟨"ann", "u", "a@b.c", "secret", some "https://images/1.jpg", "US", "555", 0⟩

/-- The view is set up before the record arrives, and the user enters a new name. -/
def renameScript : List (ProfileEvent String) :=
  [.setupViews, .fetched, .nameEdited "Ann", .submitPressed true,
    .uploaded 0 (some (some "https://images/2.jpg"))]

/-- The user enters a new country only. -/
def moveScript : List (ProfileEvent String) :=
  [.setupViews, .fetched, .countryEdited "Italy", .submitPressed true,
    .uploaded 0 (some (some "https://images/2.jpg"))]

end UserInfoScreen

end CommServe
