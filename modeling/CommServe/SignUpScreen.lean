import CommServe.AddPostScreen
import CommServe.Account
import CommServe.PhoneRuns

/-! # The sign-up form while accounts are on their way

A press of Submit captures the texts of the form and the data of the image; the account is created when the
image is uploaded, and the record is written when the account is there.  Of what the record holds, only the
URL of the image is not captured: it goes through the property `profileurl` of the controller, which the end
of every upload sets.  The form can be edited and submitted again meanwhile.

`stored`, `images` and `newest` are history variables: every account that was stored, with the press it is
from, the images in the storage by their URLs, and the image that was uploaded last. -/

namespace CommServe

open RecordStore Method Sync Text Transition

/-- What one press of Submit has captured, with the form and its image at the press. -/
structure SignUpPress (ι : Type) where
  request : SignUpRequest
  form : SignUpForm
  image : UIImage ι
deriving DecidableEq, Repr

/-- An account whose record was written. -/
structure StoredAccount (ι : Type) where
  account : Account
  press : SignUpPress ι
deriving DecidableEq, Repr

/-- `SignUpController` with its view and its callbacks. -/
structure SignUpScreen (ι : Type) where
  email : Option String
  password : Option String
  name : Option String
  country : Option String
  phone : PhoneScreen
  /-- `profileImageView.image`. -/
  image : UIImage ι
  profileurl : Option String
  uploading : List (SignUpPress ι)
  creating : List (SignUpPress ι)
  /-- The image of the upload that has set `profileurl`. -/
  newest : Option (UIImage ι)
  images : List (String × UIImage ι)
  /-- User ids of the accounts that were created. -/
  accounts : List String
  stored : List (StoredAccount ι)

/-- What can happen to the form. -/
inductive SignUpEvent (ι : Type) where
  | emailEdited (text : Option String)
  | passwordEdited (text : Option String)
  | nameEdited (text : Option String)
  /-- A row of the picker is selected, or the text is typed. -/
  | countryEdited (text : Option String)
  | phone (e : PhoneEvent)
  | imagePicked (editedImage originalImage : Option ι)
  /-- `jpeg` tells whether the image could be encoded. -/
  | submitPressed (jpeg : Bool)
  /-- The `i`-th upload ends. -/
  | uploaded (i : ℕ) (metadata : Option (Option String))
  /-- The answer of `createUserAndRetrieveData` for the `i`-th account; `none` is an error. -/
  | accountCreated (i : ℕ) (result : Option String)

namespace SignUpScreen

variable {ι : Type}

/-- The screen after `viewDidLoad`. -/
def opened : SignUpScreen ι :=
  ⟨some "", some "", some "", some "", .opened [], .defaultImage, none, [], [], none, [], [], []⟩

/-- The texts of the form. -/
def form (s : SignUpScreen ι) : SignUpForm :=
  ⟨s.email, s.password, s.name, s.country, some (String.ofList s.phone.field.text)⟩

/-- `imagePickerController(_:didFinishPickingMediaWithInfo:)`. -/
def imagePicked (s : SignUpScreen ι) (editedImage originalImage : Option ι) : SignUpScreen ι :=
  match editedImage.or originalImage with
  | some selectedImage => { s with image := .picked selectedImage }
  | none => s

/-- `submitPressed`: without the data of the image nothing is uploaded. -/
def submitPressed (s : SignUpScreen ι) (jpeg : Bool) : SignUpScreen ι :=
  match SignUpController.submitPressed s.form, jpeg with
  | some request, true => { s with uploading := s.uploading ++ [⟨request, s.form, s.image⟩] }
  | _, _ => s

/-- The upload of `x` has ended: the property is set, and the account is asked for. -/
def endUpload (s : SignUpScreen ι) (x : SignUpPress ι) (profileurl : Option String) : SignUpScreen ι :=
  { s with
    profileurl := profileurl
    newest := some x.image
    images := s.images ++ profileurl.toList.map (·, x.image)
    creating := s.creating ++ [x] }

/-- The account of `x` was created: its record is written. -/
def store (s : SignUpScreen ι) (x : SignUpPress ι) (uid : String) : SignUpScreen ι :=
  { s with
    accounts := s.accounts ++ [uid]
    stored := s.stored ++ [⟨SignUpController.userData x.request uid s.profileurl, x⟩] }

variable (u : Unicode)

/-- What happens in an event. -/
def react (s : SignUpScreen ι) : SignUpEvent ι → Option (SignUpScreen ι)
  | .emailEdited text => some { s with email := text }
  | .passwordEdited text => some { s with password := text }
  | .nameEdited text => some { s with name := text }
  | .countryEdited text => some { s with country := text }
  | .phone e => (PhoneScreen.step u s.phone e).map fun phone => { s with phone := phone }
  | .imagePicked editedImage originalImage => some (s.imagePicked editedImage originalImage)
  | .submitPressed jpeg => some (s.submitPressed jpeg)
  | .uploaded i metadata => do
      let x ← s.uploading[i]?
      let s := { s with uploading := s.uploading.eraseIdx i }
      match metadata with
      | some profileurl =>
          -- every upload goes to a new file
          if ∀ url ∈ profileurl, url ∉ s.images.map Prod.fst then some (s.endUpload x profileurl) else none
      | none => some s
  | .accountCreated i result => do
      let x ← s.creating[i]?
      let s := { s with creating := s.creating.eraseIdx i }
      match result with
      | some uid => if uid ∉ s.accounts then some (s.store x uid) else none
      | none => some s

/-- One step of the screen; nothing happens after a trap of the phone field. -/
def step (s : SignUpScreen ι) (e : SignUpEvent ι) : Option (SignUpScreen ι) :=
  if s.phone.crashed = none then s.react u e else none

end SignUpScreen

/-! ### What a stored account is made of -/

variable {ι : Type}

/-- The request holds the texts of the form. -/
def SignUpRequest.Captures (request : SignUpRequest) (form : SignUpForm) : Prop :=
  form = ⟨some request.email, some request.password, some request.name, some request.country,
    some request.cellphone⟩

/-- The account holds the texts of the form at its press, and no karma. -/
structure StoredAccount.Kept (x : StoredAccount ι) : Prop where
  email : x.press.form.email = some x.account.email
  password : x.press.form.password = some x.account.password
  name : x.press.form.name = some x.account.username
  country : x.press.form.country = some x.account.country
  phone : x.press.form.cellphone = some x.account.phone
  karmaPoints : x.account.karmaPoints = 0

/-- The account is the form at its press, with the URL of its image. -/
structure StoredAccount.IsForm (x : StoredAccount ι) (images : List (String × UIImage ι)) : Prop
    extends x.Kept where
  profileurl : ∃ url, x.account.profileurl = some url ∧ (url, x.press.image) ∈ images

theorem SignUpController.submitPressed_captures {form : SignUpForm} {request : SignUpRequest}
    (h : SignUpController.submitPressed form = some request) : request.Captures form := by
  obtain ⟨email, password, name, country, cellphone⟩ := form
  simp only [SignUpController.submitPressed, Option.bind_eq_bind, Option.bind_eq_some_iff] at h
  obtain ⟨email, rfl, password, rfl, name, rfl, country, rfl, cellphone, rfl, h⟩ := h
  obtain rfl := Option.some.inj h
  rfl

namespace SignUpScreen

/-- Every account on its way or stored comes from its press, and `profileurl` is of the newest upload. -/
structure Sound (s : SignUpScreen ι) : Prop where
  uploading : ∀ x ∈ s.uploading, x.request.Captures x.form
  creating : ∀ x ∈ s.creating, x.request.Captures x.form
  stored : ∀ x ∈ s.stored, x.Kept
  known : ∀ x ∈ s.stored, ∀ url, x.account.profileurl = some url → url ∈ s.images.map Prod.fst
  unset : s.newest = none → s.profileurl = none
  profileurl : ∀ image url, s.newest = some image → s.profileurl = some url → (url, image) ∈ s.images
  urls : (s.images.map Prod.fst).Nodup

/-- Every stored account is the form at its press. -/
def StoresForms (s : SignUpScreen ι) : Prop := ∀ x ∈ s.stored, x.IsForm s.images

/-- When an account is created, the image that was uploaded last is that of its press, and has a URL. -/
def LatestImage (s : SignUpScreen ι) : SignUpEvent ι → Prop
  | .accountCreated i (some _) => ∀ x ∈ s.creating[i]?, s.newest = some x.image ∧ s.profileurl ≠ none
  | _ => True

instance [DecidableEq ι] (s : SignUpScreen ι) : DecidablePred s.LatestImage
  | .accountCreated i (some _) => inferInstanceAs (Decidable (∀ x ∈ s.creating[i]?, _ ∧ _))
  | .accountCreated _ none | .emailEdited _ | .passwordEdited _ | .nameEdited _ | .countryEdited _ |
    .phone _ | .imagePicked _ _ | .submitPressed _ | .uploaded _ _ => isTrue trivial

variable {s s' : SignUpScreen ι} {u : Unicode} {e : SignUpEvent ι}

theorem step_eq_some (h : step u s e = some s') : s.phone.crashed = none ∧ s.react u e = some s' := by
  unfold step at h
  split_ifs at h with hlive
  exact ⟨hlive, h⟩

/-! ### The invariant -/

theorem sound_opened : (opened : SignUpScreen ι).Sound := by
  refine ⟨by simp [opened], by simp [opened], by simp [opened], by simp [opened], fun _ => rfl, ?_, ?_⟩
  · intro image url himage
    cases himage
  · exact List.nodup_nil

theorem Sound.of_eq (h : s.Sound) (huploading : ∀ x ∈ s'.uploading, x ∈ s.uploading)
    (hcreating : ∀ x ∈ s'.creating, x ∈ s.creating) (hprofileurl : s'.profileurl = s.profileurl)
    (hnewest : s'.newest = s.newest) (himages : s'.images = s.images) (hstored : s'.stored = s.stored) :
    s'.Sound := by
  constructor
  · intro x hx
    exact h.uploading x (huploading x hx)
  · intro x hx
    exact h.creating x (hcreating x hx)
  · rw [hstored]
    exact h.stored
  · rw [hstored, himages]
    exact h.known
  · rw [hnewest, hprofileurl]
    exact h.unset
  · rw [hnewest, hprofileurl, himages]
    exact h.profileurl
  · rw [himages]
    exact h.urls

theorem Sound.submitPressed (h : s.Sound) (jpeg : Bool) : (s.submitPressed jpeg).Sound := by
  unfold SignUpScreen.submitPressed
  split
  · rename_i request hrequest
    refine ⟨?_, h.creating, h.stored, h.known, h.unset, h.profileurl, h.urls⟩
    intro x hx
    cases mem_append_singleton hx with
    | inl hnew =>
        rw [hnew]
        exact SignUpController.submitPressed_captures hrequest
    | inr hold => exact h.uploading x hold
  · exact h

theorem Sound.endUpload (h : s.Sound) {x : SignUpPress ι} (hx : x.request.Captures x.form)
    {profileurl : Option String} (hnew : ∀ url ∈ profileurl, url ∉ s.images.map Prod.fst) :
    (s.endUpload x profileurl).Sound := by
  constructor
  case uploading => exact h.uploading
  case creating =>
    intro y hy
    cases mem_append_singleton hy with
    | inl hnew => exact hnew ▸ hx
    | inr hold => exact h.creating y hold
  case stored => exact h.stored
  case known =>
    intro y hy url hurl
    have hold := h.known y hy url hurl
    show url ∈ (s.images ++ profileurl.toList.map (·, x.image)).map Prod.fst
    rw [List.map_append]
    exact List.mem_append_left _ hold
  case unset =>
    intro hnone
    cases hnone
  case profileurl =>
    intro image url himage hurl
    obtain rfl : x.image = image := Option.some.inj himage
    obtain rfl : profileurl = some url := hurl
    exact List.mem_append_right _ (List.mem_singleton_self _)
  case urls =>
    show ((s.images ++ profileurl.toList.map (·, x.image)).map Prod.fst).Nodup
    cases profileurl with
    | none => simpa using h.urls
    | some url =>
        have hfresh := h.urls.concat (hnew url rfl)
        simpa [List.concat_eq_append] using hfresh

theorem Sound.store (h : s.Sound) {x : SignUpPress ι} (hx : x.request.Captures x.form) (uid : String) :
    (s.store x uid).Sound := by
  refine ⟨h.uploading, h.creating, ?_, ?_, h.unset, h.profileurl, h.urls⟩
  · intro y hy
    cases mem_append_singleton hy with
    | inl hnew =>
        subst hnew
        constructor <;> first | rfl | (rw [hx]; rfl)
    | inr hold => exact h.stored y hold
  · intro y hy url hurl
    cases mem_append_singleton hy with
    | inl hnew =>
        subst hnew
        have hurl : s.profileurl = some url := hurl
        cases hn : s.newest with
        | none =>
            rw [h.unset hn] at hurl
            cases hurl
        | some image => exact List.mem_map_of_mem (h.profileurl image url hn hurl)
    | inr hold => exact h.known y hold url hurl

theorem Sound.react (h : s.Sound) (hs : s.react u e = some s') : s'.Sound := by
  cases e with
  | emailEdited _ | passwordEdited _ | nameEdited _ | countryEdited _ =>
      obtain rfl := Option.some.inj hs
      exact h.of_eq (fun _ => id) (fun _ => id) rfl rfl rfl rfl
  | phone e =>
      obtain ⟨phone, -, rfl⟩ := Option.map_eq_some_iff.mp hs
      exact h.of_eq (fun _ => id) (fun _ => id) rfl rfl rfl rfl
  | imagePicked editedImage originalImage =>
      obtain rfl := Option.some.inj hs
      unfold SignUpScreen.imagePicked
      split <;> exact h.of_eq (fun _ => id) (fun _ => id) rfl rfl rfl rfl
  | submitPressed jpeg =>
      obtain rfl := Option.some.inj hs
      exact h.submitPressed jpeg
  | uploaded i metadata =>
      obtain ⟨x, hx, hs⟩ := Option.bind_eq_some_iff.mp hs
      have hrest : Sound { s with uploading := s.uploading.eraseIdx i } :=
        h.of_eq (fun _ => List.mem_of_mem_eraseIdx) (fun _ => id) rfl rfl rfl rfl
      cases metadata with
      | none =>
          obtain rfl := Option.some.inj hs
          exact hrest
      | some profileurl =>
          simp only at hs
          split_ifs at hs with hnew
          obtain rfl := Option.some.inj hs
          exact hrest.endUpload (h.uploading x (List.mem_of_getElem? hx)) hnew
  | accountCreated i result =>
      obtain ⟨x, hx, hs⟩ := Option.bind_eq_some_iff.mp hs
      have hrest : Sound { s with creating := s.creating.eraseIdx i } :=
        h.of_eq (fun _ => id) (fun _ => List.mem_of_mem_eraseIdx) rfl rfl rfl rfl
      cases result with
      | none =>
          obtain rfl := Option.some.inj hs
          exact hrest
      | some uid =>
          simp only at hs
          split_ifs at hs with hnew
          obtain rfl := Option.some.inj hs
          exact hrest.store (h.creating x (List.mem_of_getElem? hx)) uid

theorem Sound.of_run {es : List (SignUpEvent ι)} (hr : Run (step u) (fun _ _ => True) opened es s) :
    s.Sound :=
  hr.invariant Sound (fun _ _ _ h _ hs => h.react (step_eq_some hs).2) sound_opened

/-! ### The image of a stored account -/

/-- The storage has the image of the press under the URL of the account. -/
def HasOwnImage (images : List (String × UIImage ι)) (x : StoredAccount ι) : Prop :=
  ∃ url, x.account.profileurl = some url ∧ (url, x.press.image) ∈ images

theorem Sound.storesForms_iff (h : s.Sound) :
    s.StoresForms ↔ ∀ x ∈ s.stored, HasOwnImage s.images x := by
  constructor
  · intro hforms x hx
    exact (hforms x hx).profileurl
  · intro hown x hx
    exact ⟨h.stored x hx, hown x hx⟩

/-- An upload brings no image to an account that is stored. -/
theorem Sound.hasOwnImage_endUpload (h : s.Sound) {x : SignUpPress ι} {profileurl : Option String}
    (hnew : ∀ url ∈ profileurl, url ∉ s.images.map Prod.fst) {y : StoredAccount ι} (hy : y ∈ s.stored) :
    HasOwnImage (s.endUpload x profileurl).images y ↔ HasOwnImage s.images y := by
  constructor
  · rintro ⟨url, hurl, himage⟩
    refine ⟨url, hurl, ?_⟩
    cases List.mem_append.mp himage with
    | inl hold => exact hold
    | inr hlast =>
        obtain ⟨url', hmem, heq⟩ := List.mem_map.mp hlast
        obtain rfl : url' = url := congrArg Prod.fst heq
        exact absurd (h.known y hy url' hurl) (hnew url' (Option.mem_toList.mp hmem))
  · rintro ⟨url, hurl, himage⟩
    exact ⟨url, hurl, List.mem_append_left _ himage⟩

/-- A new account has its own image exactly if that is the one that was uploaded last, and has a URL. -/
theorem Sound.hasOwnImage_store (h : s.Sound) (x : SignUpPress ι) (uid : String) :
    HasOwnImage s.images ⟨SignUpController.userData x.request uid s.profileurl, x⟩ ↔
      s.newest = some x.image ∧ s.profileurl ≠ none := by
  constructor
  · rintro ⟨url, hurl, himage⟩
    have hurl : s.profileurl = some url := hurl
    refine ⟨?_, by simp [hurl]⟩
    cases hn : s.newest with
    | none =>
        rw [h.unset hn] at hurl
        cases hurl
    | some image =>
        have hsame := List.inj_on_of_nodup_map h.urls himage (h.profileurl image url hn hurl) rfl
        rw [(Prod.mk.inj hsame).2]
  · rintro ⟨hn, hsome⟩
    obtain ⟨url, hurl⟩ := Option.ne_none_iff_exists'.mp hsome
    exact ⟨url, hurl, h.profileurl _ _ hn hurl⟩

theorem Sound.hasOwnImage_react (h : s.Sound) (hs : s.react u e = some s') :
    (∀ x ∈ s'.stored, HasOwnImage s'.images x) ↔
      (∀ x ∈ s.stored, HasOwnImage s.images x) ∧ s.LatestImage e := by
  cases e with
  | emailEdited _ | passwordEdited _ | nameEdited _ | countryEdited _ =>
      obtain rfl := Option.some.inj hs
      simp [LatestImage]
  | phone e =>
      obtain ⟨phone, -, rfl⟩ := Option.map_eq_some_iff.mp hs
      simp [LatestImage]
  | imagePicked editedImage originalImage =>
      obtain rfl := Option.some.inj hs
      unfold SignUpScreen.imagePicked
      split <;> simp [LatestImage]
  | submitPressed jpeg =>
      obtain rfl := Option.some.inj hs
      unfold SignUpScreen.submitPressed
      split <;> simp [LatestImage]
  | uploaded i metadata =>
      obtain ⟨x, hx, hs⟩ := Option.bind_eq_some_iff.mp hs
      cases metadata with
      | none =>
          obtain rfl := Option.some.inj hs
          simp [LatestImage]
      | some profileurl =>
          simp only at hs
          split_ifs at hs with hnew
          obtain rfl := Option.some.inj hs
          have hrest : Sound { s with uploading := s.uploading.eraseIdx i } :=
            h.of_eq (fun _ => List.mem_of_mem_eraseIdx) (fun _ => id) rfl rfl rfl rfl
          have hsame : ∀ y ∈ s.stored,
              (HasOwnImage (s.images ++ profileurl.toList.map (·, x.image)) y ↔ HasOwnImage s.images y) :=
            fun y hy => hrest.hasOwnImage_endUpload hnew hy
          show (∀ y ∈ s.stored, HasOwnImage (s.images ++ profileurl.toList.map (·, x.image)) y) ↔ _
          rw [forall₂_congr hsame]
          simp [LatestImage]
  | accountCreated i result =>
      obtain ⟨x, hx, hs⟩ := Option.bind_eq_some_iff.mp hs
      cases result with
      | none =>
          obtain rfl := Option.some.inj hs
          simp [LatestImage]
      | some uid =>
          simp only at hs
          split_ifs at hs with hnew
          obtain rfl := Option.some.inj hs
          have hown : s.LatestImage (.accountCreated i (some uid)) ↔
              s.newest = some x.image ∧ s.profileurl ≠ none := by
            show (∀ y ∈ s.creating[i]?, s.newest = some y.image ∧ s.profileurl ≠ none) ↔ _
            rw [hx]
            simp
          rw [hown, ← h.hasOwnImage_store x uid]
          show (∀ y ∈ s.stored ++ [_], HasOwnImage s.images y) ↔ _
          rw [List.forall_mem_append, List.forall_mem_singleton]

/-- **A stored account is the form at its press** in exactly the runs in which, whenever an account is
created, the image that was uploaded last is that of its press and has a URL. -/
theorem storesForms_iff_latestImage {es : List (SignUpEvent ι)}
    (hr : Run (step u) (fun _ _ => True) opened es s) :
    s.StoresForms ↔ Run (step u) LatestImage opened es s := by
  have hexact : (∀ x ∈ s.stored, HasOwnImage s.images x) ↔
      (∀ x ∈ (opened : SignUpScreen ι).stored, HasOwnImage (opened : SignUpScreen ι).images x) ∧
        Run (step u) LatestImage opened es s := by
    refine hr.exact Sound (fun s => ∀ x ∈ s.stored, HasOwnImage s.images x) ?_ ?_ sound_opened
    · intro s e s' h hs
      exact h.react (step_eq_some hs).2
    · intro s e s' h hs
      exact h.hasOwnImage_react (step_eq_some hs).2
  rw [(Sound.of_run hr).storesForms_iff, hexact]
  exact and_iff_right (List.forall_mem_nil _)

/-- The form is filled in with a picture and submitted. -/
def pressScript (image : String) : List (SignUpEvent String) :=
  [.emailEdited (some "a@b.c"), .nameEdited (some "ann"), .phone .textFieldDidBeginEditing,
    .phone (.edit ⟨4, 0⟩ ['5']), .imagePicked none (some image), .submitPressed true]

/-- The upload ends, another picture is picked, and the account is created. -/
def createScript : List (SignUpEvent String) :=
  [.uploaded 0 (some (some "https://images/1.jpg")), .imagePicked none (some "you"), .submitPressed true,
    .accountCreated 0 (some "u")]

theorem storesForms_later_picture : ∃ s : SignUpScreen String,
    Run (step .scalars) (fun _ _ => True) opened (pressScript "me" ++ createScript) s ∧
      s.stored ≠ [] ∧ s.StoresForms := by
  obtain ⟨s, hr, hne⟩ := exists_run_of_exec (step .scalars) LatestImage opened
    (pressScript "me" ++ createScript) (fun s => s.stored ≠ []) (by decide)
  have hrun := hr.mono (fun _ _ _ => trivial)
  exact ⟨s, hrun, hne, (storesForms_iff_latestImage hrun).mpr hr⟩

/-! ### The phone numbers that are stored -/

/-- Every edit of the phone field is one that leaves a phone number in it. -/
def TypesPhone (u : Unicode) (s : SignUpScreen ι) : SignUpEvent ι → Prop
  | .phone e => PhoneScreen.BringsPhone u s.phone e
  | _ => True

instance (u : Unicode) (s : SignUpScreen ι) : DecidablePred (s.TypesPhone u)
  | .phone e => inferInstanceAs (Decidable (PhoneScreen.BringsPhone u s.phone e))
  | .accountCreated _ _ | .emailEdited _ | .passwordEdited _ | .nameEdited _ | .countryEdited _ |
    .imagePicked _ _ | .submitPressed _ | .uploaded _ _ => isTrue trivial

/-- The field, and whatever was captured or stored of it, is no more than a phone number. -/
structure Phones (u : Unicode) (s : SignUpScreen ι) : Prop where
  field : PhoneText u s.phone.field.text
  uploading : ∀ x ∈ s.uploading, PhoneText u x.request.cellphone.toList
  creating : ∀ x ∈ s.creating, PhoneText u x.request.cellphone.toList
  stored : ∀ x ∈ s.stored, PhoneText u x.account.phone.toList

theorem Phones.of_eq (h : s.Phones u) (hphone : s'.phone = s.phone)
    (huploading : ∀ x ∈ s'.uploading, x ∈ s.uploading) (hcreating : ∀ x ∈ s'.creating, x ∈ s.creating)
    (hstored : s'.stored = s.stored) : s'.Phones u where
  field := hphone ▸ h.field
  uploading x hx := h.uploading x (huploading x hx)
  creating x hx := h.creating x (hcreating x hx)
  stored := hstored ▸ h.stored

theorem Phones.react (h : s.Phones u) (hok : s.TypesPhone u e) (hs : s.react u e = some s') :
    s'.Phones u := by
  cases e with
  | emailEdited _ | passwordEdited _ | nameEdited _ | countryEdited _ =>
      obtain rfl := Option.some.inj hs
      exact h.of_eq rfl (fun _ => id) (fun _ => id) rfl
  | phone e =>
      obtain ⟨phone, hphone, rfl⟩ := Option.map_eq_some_iff.mp hs
      exact ⟨(PhoneScreen.phoneText_step_iff h.field hphone).mpr hok, h.uploading, h.creating, h.stored⟩
  | imagePicked editedImage originalImage =>
      obtain rfl := Option.some.inj hs
      unfold SignUpScreen.imagePicked
      split <;> exact h.of_eq rfl (fun _ => id) (fun _ => id) rfl
  | submitPressed jpeg =>
      obtain rfl := Option.some.inj hs
      unfold SignUpScreen.submitPressed
      split
      · rename_i request hrequest
        refine ⟨h.field, ?_, h.creating, h.stored⟩
        intro x hx
        cases mem_append_singleton hx with
        | inl hnew =>
            have hcaptures : request.Captures s.form := SignUpController.submitPressed_captures hrequest
            have hcellphone : some (String.ofList s.phone.field.text) = some request.cellphone :=
              congrArg SignUpForm.cellphone hcaptures
            rw [hnew, ← Option.some.inj hcellphone, String.toList_ofList]
            exact h.field
        | inr hold => exact h.uploading x hold
      · exact h
  | uploaded i metadata =>
      obtain ⟨x, hx, hs⟩ := Option.bind_eq_some_iff.mp hs
      have hrest : Phones u { s with uploading := s.uploading.eraseIdx i } :=
        h.of_eq rfl (fun _ => List.mem_of_mem_eraseIdx) (fun _ => id) rfl
      cases metadata with
      | none =>
          obtain rfl := Option.some.inj hs
          exact hrest
      | some profileurl =>
          simp only at hs
          split_ifs at hs
          obtain rfl := Option.some.inj hs
          refine ⟨hrest.field, hrest.uploading, ?_, hrest.stored⟩
          intro y hy
          cases mem_append_singleton hy with
          | inl hnew => exact hnew ▸ h.uploading x (List.mem_of_getElem? hx)
          | inr hold => exact h.creating y hold
  | accountCreated i result =>
      obtain ⟨x, hx, hs⟩ := Option.bind_eq_some_iff.mp hs
      have hrest : Phones u { s with creating := s.creating.eraseIdx i } :=
        h.of_eq rfl (fun _ => id) (fun _ => List.mem_of_mem_eraseIdx) rfl
      cases result with
      | none =>
          obtain rfl := Option.some.inj hs
          exact hrest
      | some uid =>
          simp only at hs
          split_ifs at hs
          obtain rfl := Option.some.inj hs
          refine ⟨hrest.field, hrest.uploading, hrest.creating, ?_⟩
          intro y hy
          cases mem_append_singleton hy with
          | inl hnew =>
              rw [hnew]
              exact h.creating x (List.mem_of_getElem? hx)
          | inr hold => exact h.stored y hold

/-- **Every stored phone is a phone number**, if every edit of the field leaves one in it. -/
theorem stored_phones {es : List (SignUpEvent ι)} (hr : Run (step u) (TypesPhone u) opened es s) :
    ∀ x ∈ s.stored, PhoneText u x.account.phone.toList := by
  have hopened : Phones u (opened : SignUpScreen ι) := by
    refine ⟨PhoneText.nil, ?_, ?_, ?_⟩
    · exact List.forall_mem_nil _
    · exact List.forall_mem_nil _
    · exact List.forall_mem_nil _
  exact (hr.invariant (Phones u) (fun _ _ _ h hok hs => h.react hok (step_eq_some hs).2) hopened).stored

theorem stored_phones_once : ∃ s : SignUpScreen String, s.stored ≠ [] ∧
    ∀ x ∈ s.stored, PhoneText .scalars x.account.phone.toList := by
  obtain ⟨s, hr, hne⟩ := exists_run_of_exec (step .scalars) (TypesPhone .scalars) opened
    (pressScript "me" ++ createScript) (fun s => s.stored ≠ []) (by decide)
  exact ⟨s, hne, stored_phones hr⟩

end SignUpScreen

end CommServe
