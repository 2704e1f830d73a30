import CommServe.AddPostScreen
import CommServe.Location

/-! # Where the location of a post comes from

The Add Post tab is a navigation stack: the form at the root and, after `selectLocationPressed`, a
`LocationController` over it.  One that was left or popped lives on until its searches and geocoder calls
have ended; the device location is reported to all of them.  They share one variable, `location` of the form,
which `viewWillAppear` copies into the text field and `resetValues` clears.

`AddPostTab` composes the form with all its location screens.  Every run of it is a run of the form and of
each location screen, so what was proved of them holds in the tab.  The text of a location passes through
four lists before it is stored; `AddPostScreen.Holds` says once for any predicate that nothing but what is
typed or chosen gets into them.

`typed`, `reported` and `answered` are history variables. -/

namespace CommServe

open RecordStore Method Transition

variable {ι δ : Type}

/-- What an event puts into `location` or into its text field. -/
def FormEvent.location : FormEvent ι → Option String
  | .locationEdited text => text
  | .locationChosen location => some location
  | _ => none

def FormEvent.isChoice : FormEvent ι → Bool
  | .locationChosen _ => true
  | _ => false

/-- The coordinate that an event brings to a location screen. -/
def LocationEvent.reported : LocationEvent δ → Option (Coordinate δ)
  | .didUpdateLocations location _ => some location
  | .searchResponse _ _ response => response
  | _ => none

/-- The placemark of an answer, with the coordinate that was sent for it. -/
def LocationScreen.answer (s : LocationScreen δ) : LocationEvent δ → Option (Coordinate δ × CLPlacemark)
  | .geocoded i placemarks error => do
      let location ← s.geocoding[i]?
      let placemark ← LocationHistory.placemark placemarks error
      some (location, placemark)
  | _ => none

/-- An answer of the geocoder to the screen `screen`. -/
structure GeocoderAnswer (δ : Type) where
  screen : ℕ
  coordinate : Coordinate δ
  placemark : CLPlacemark
deriving DecidableEq, Repr

structure AddPostTab (ι δ : Type) where
  post : AddPostScreen ι
  /-- The location screens opened so far; only the last can be on the stack. -/
  locations : List (LocationScreen δ)
  /-- Texts that were typed into the location field. -/
  typed : List String
  /-- Coordinates of devices and searches, with the screen they were reported to. -/
  reported : List (ℕ × Coordinate δ)
  answered : List (GeocoderAnswer δ)

inductive TabEvent (ι δ : Type) where
  /-- An event of the form, apart from the choice of a location. -/
  | post (e : FormEvent ι)
  | selectLocationPressed
  /-- An event of the `k`-th location screen. -/
  | location (k : ℕ) (e : LocationEvent δ)

namespace AddPostTab

def opened (userId : Option String) : AddPostTab ι δ := ⟨.opened userId, [], [], [], []⟩

variable (s : AddPostTab ι δ)

/-- A trap in any of the controllers ends the app. -/
def crashed : Bool := s.post.crashed || s.locations.any (·.crashed.isSome)

def postEvent (e : FormEvent ι) : Option (AddPostTab ι δ) :=
  if e.isChoice = true then none
  else (s.post.step e).map fun post => { s with post := post, typed := s.typed ++ e.location.toList }

/-- The form is on top of the stack. -/
def selectLocationPressed : Option (AddPostTab ι δ) :=
  if s.locations.all (·.controller.navigationController.isNone) then
    some { s with locations := s.locations ++ [.opened s.post.location] }
  else none

def locationEvent (k : ℕ) (e : LocationEvent δ) : Option (AddPostTab ι δ) := do
  let m ← s.locations[k]?
  let m' ← m.step e
  some { s with
    locations := s.locations.set k m'
    -- `a.location = placemark.compactAddress!`
    post := if (m.answer e).isSome && m'.crashed.isNone then
      { s.post with location := m'.controller.location } else s.post
    reported := s.reported ++ (e.reported.map (k, ·)).toList
    answered := s.answered ++ ((m.answer e).map fun x => ⟨k, x.1, x.2⟩).toList }

def react : TabEvent ι δ → Option (AddPostTab ι δ)
  | .post e => s.postEvent e
  | .selectLocationPressed => s.selectLocationPressed
  | .location k e => s.locationEvent k e

/-- One step of the tab; nothing happens after a crash. -/
def step (s : AddPostTab ι δ) (e : TabEvent ι δ) : Option (AddPostTab ι δ) :=
  if s.crashed = true then none else s.react e

/-- The text is empty, was typed, or is the address that the geocoder gave for a coordinate which a device or
a search had reported to the screen that asked for it. -/
def Traced (text : String) : Prop :=
  text = "" ∨ text ∈ s.typed ∨ ∃ a ∈ s.answered,
    a.placemark.compactAddress = some text ∧ (a.screen, a.coordinate) ∈ s.reported

end AddPostTab

/-! ### Locations in the form -/

/-- Every location in the form, in a submission on its way or in a stored post has the property `P`. -/
structure AddPostScreen.Holds (P : String → Prop) (s : AddPostScreen ι) : Prop where
  location : P s.location
  field : ∀ t, s.form.location = some t → P t
  asked : ∀ x ∈ s.asked, ∀ t, x.2.form.location = some t → P t
  uploading : ∀ x ∈ s.uploading, ∀ t, x.pressed.form.location = some t → P t
  stored : ∀ x ∈ s.stored, ∀ t, x.pressed.form.location = some t → P t

namespace AddPostScreen

variable {P Q : String → Prop} {s s' : AddPostScreen ι}

theorem Holds.mono (h : s.Holds P) (hPQ : ∀ t, P t → Q t) : s.Holds Q where
  location := hPQ _ h.location
  field t ht := hPQ t (h.field t ht)
  asked x hx t ht := hPQ t (h.asked x hx t ht)
  uploading x hx t ht := hPQ t (h.uploading x hx t ht)
  stored x hx t ht := hPQ t (h.stored x hx t ht)

theorem Holds.opened (hP : P "") (userId : Option String) : (opened userId : AddPostScreen ι).Holds P where
  location := hP
  field t ht := Option.some.inj ht ▸ hP
  asked x hx := by cases hx
  uploading x hx := by cases hx
  stored x hx := by cases hx

theorem Holds.of_eq (h : s.Holds P) (hlocation : P s'.location)
    (hfield : ∀ t, s'.form.location = some t → P t) (hasked : ∀ x ∈ s'.asked, x ∈ s.asked)
    (huploading : ∀ x ∈ s'.uploading, x ∈ s.uploading) (hstored : s'.stored = s.stored) : s'.Holds P where
  location := hlocation
  field := hfield
  asked x hx := h.asked x (hasked x hx)
  uploading x hx := h.uploading x (huploading x hx)
  stored := hstored ▸ h.stored

theorem Holds.submitPressed (h : s.Holds P) (postId : String) : (s.submitPressed postId).Holds P := by
  rcases s.submitPressed_cases postId with ⟨submission, -, heq⟩ | ⟨crashed, heq⟩ <;> rw [heq]
  · refine ⟨h.location, h.field, ?_, h.uploading, h.stored⟩
    intro x hx
    rcases mem_append_singleton hx with rfl | hx
    · exact h.field
    · exact h.asked x hx
  · exact ⟨h.location, h.field, h.asked, h.uploading, h.stored⟩

theorem Holds.endUpload (h : s.Holds P) {x : ImageUpload ι}
    (hx : ∀ t, x.pressed.form.location = some t → P t) (metadata : Option (Option String)) :
    (s.endUpload x metadata).Holds P := by
  have hstored : ∀ y ∈ (s.endUpload x metadata).stored, ∀ t, y.pressed.form.location = some t → P t := by
    intro y hy
    rw [stored_endUpload] at hy
    rcases List.mem_append.mp hy with hy | hy
    · exact h.stored y hy
    · obtain ⟨post, -, rfl⟩ := Option.map_eq_some_iff.mp (Option.mem_toList.mp hy)
      exact hx
  refine ⟨?_, ?_, ?_, ?_, hstored⟩ <;> unfold AddPostScreen.endUpload <;>
    cases AddPostController.uploaded x.submission x.snapshot metadata
  · exact h.location
  · exact h.location
  · exact h.field
  · exact h.field
  · exact h.asked
  · exact h.asked
  · exact h.uploading
  · exact h.uploading

/-- Nothing but what is typed or chosen gets into the form, and nothing but the form into a post. -/
theorem Holds.react (h : s.Holds P) (hP : P "") {e : FormEvent ι} (he : ∀ t, e.location = some t → P t)
    (hs : s.react e = some s') : s'.Holds P := by
  cases e with
  | titleEdited _ | descEdited _ =>
      obtain rfl := Option.some.inj hs
      exact h.of_eq h.location h.field (fun _ => id) (fun _ => id) rfl
  | locationEdited text =>
      obtain rfl := Option.some.inj hs
      exact h.of_eq h.location he (fun _ => id) (fun _ => id) rfl
  | locationChosen location =>
      obtain rfl := Option.some.inj hs
      exact h.of_eq (he location rfl) h.field (fun _ => id) (fun _ => id) rfl
  | viewWillAppear =>
      obtain rfl := Option.some.inj hs
      refine h.of_eq h.location ?_ (fun _ => id) (fun _ => id) rfl
      intro t ht
      exact Option.some.inj ht ▸ h.location
  | dropDownPressed row =>
      obtain ⟨string, -, rfl⟩ := Option.map_eq_some_iff.mp hs
      exact h.of_eq h.location h.field (fun _ => id) (fun _ => id) rfl
  | imagePicked editedImage originalImage =>
      obtain rfl := Option.some.inj hs
      unfold AddPostScreen.imagePicked
      split <;> exact h.of_eq h.location h.field (fun _ => id) (fun _ => id) rfl
  | submitPressed postId =>
      obtain rfl := Option.some.inj hs
      exact h.submitPressed postId
  | snapshot i data jpeg =>
      obtain ⟨x, hx, hs⟩ := Option.bind_eq_some_iff.mp hs
      obtain rfl := Option.some.inj hs
      have hrest : Holds P { s with asked := s.asked.eraseIdx i } :=
        h.of_eq h.location h.field (fun _ => List.mem_of_mem_eraseIdx) (fun _ => id) rfl
      unfold AddPostScreen.startUpload
      split_ifs
      · refine ⟨hrest.location, hrest.field, hrest.asked, ?_, hrest.stored⟩
        intro y hy
        rcases mem_append_singleton hy with rfl | hy
        · exact h.asked x (List.mem_of_getElem? hx)
        · exact h.uploading y hy
      · exact hrest
  | uploaded i metadata =>
      obtain ⟨x, hx, hs⟩ := Option.bind_eq_some_iff.mp hs
      split_ifs at hs
      obtain rfl := Option.some.inj hs
      refine Holds.endUpload ?_ (h.uploading x (List.mem_of_getElem? hx)) metadata
      exact h.of_eq h.location h.field (fun _ => id) (fun _ => List.mem_of_mem_eraseIdx) rfl
  | acknowledged i error =>
      obtain ⟨post, -, hs⟩ := Option.bind_eq_some_iff.mp hs
      obtain rfl := Option.some.inj hs
      split_ifs
      · exact h.of_eq h.location h.field (fun _ => id) (fun _ => id) rfl
      · refine h.of_eq hP ?_ (fun _ => id) (fun _ => id) rfl
        intro t ht
        exact Option.some.inj ht ▸ hP

end AddPostScreen

/-! ### A step of a location screen -/

/-- Both halves of the position are of the coordinate `c`. -/
def LocationController.At (self : LocationController δ) (c : Coordinate δ) : Prop :=
  self.latitude = some c.latitude ∧ self.longitude = some c.longitude

theorem LocationController.At.unique {self : LocationController δ} {c d : Coordinate δ} (hc : self.At c) (hd : self.At d) :
    c = d := by
  cases c
  cases d
  obtain ⟨h₁, h₂⟩ := hc
  obtain ⟨h₃, h₄⟩ := hd
  rw [Coordinate.mk.injEq]
  exact ⟨Option.some.inj (h₁.symm.trans h₃), Option.some.inj (h₂.symm.trans h₄)⟩

/-- What a step of a location screen does to its position, its calls to the geocoder and its place on the
stack, and what it writes to the form. -/
structure LocationScreen.Moved (m : LocationScreen δ) (e : LocationEvent δ) (m' : LocationScreen δ) :
    Prop where
  position : (m'.controller.latitude = m.controller.latitude ∧
      m'.controller.longitude = m.controller.longitude) ∨
    ∃ c, e.reported = some c ∧ m'.controller.At c
  geocoding : ∀ c ∈ m'.geocoding, c ∈ m.geocoding ∨ m.controller.At c
  stack : m'.controller.navigationController = none ∨
    m'.controller.navigationController = m.controller.navigationController
  answer : ∀ x, m.answer e = some x → x.1 ∈ m.geocoding ∧
    (m'.crashed = none → x.2.compactAddress = some m'.controller.location)

theorem LocationScreen.moved {m m' : LocationScreen δ} {e : LocationEvent δ} (h : m.step e = some m') :
    m.Moved e m' := by
  obtain ⟨-, h⟩ := LocationScreen.step_eq_some.mp h
  cases e with
  | didUpdateLocations location others =>
      obtain rfl := Option.some.inj h
      exact ⟨Or.inr ⟨location, rfl, rfl, rfl⟩, fun _ => Or.inl, Or.inr rfl, fun _ hx => by cases hx⟩
  | searchBarSearchButtonClicked query =>
      obtain rfl := Option.some.inj h
      exact ⟨Or.inl ⟨rfl, rfl⟩, fun _ => Or.inl, Or.inr rfl, fun _ hx => by cases hx⟩
  | searchResponse i text response =>
      obtain ⟨query, -, h⟩ := Option.bind_eq_some_iff.mp h
      obtain rfl := Option.some.inj h
      cases response with
      | none => exact ⟨Or.inl ⟨rfl, rfl⟩, fun _ => Or.inl, Or.inr rfl, fun _ hx => by cases hx⟩
      | some center =>
          exact ⟨Or.inr ⟨center, rfl, rfl, rfl⟩, fun _ => Or.inl, Or.inr rfl, fun _ hx => by cases hx⟩
  | doneAction =>
      obtain rfl := Option.some.inj h
      unfold LocationScreen.doneAction
      cases hlat : m.controller.latitude with
      | none =>
          rw [LocationController.doneAction_none hlat]
          exact ⟨Or.inl ⟨rfl, rfl⟩, fun _ => Or.inl, Or.inr rfl, fun _ hx => by cases hx⟩
      | some latitude =>
          cases hlong : m.controller.longitude with
          | none =>
              have hrun : LocationController.doneAction.run m.controller =
                  (.error (.trapped .longitude), m.controller) := by
                simp [LocationController.doneAction, run_bind, hlat, hlong]
              rw [hrun]
              exact ⟨Or.inl ⟨rfl, rfl⟩, fun _ => Or.inl, Or.inr rfl, fun _ hx => by cases hx⟩
          | some longitude =>
              have hat : m.controller.At ⟨latitude, longitude⟩ := ⟨hlat, hlong⟩
              rw [LocationController.doneAction_ok hat.1 hat.2]
              refine ⟨Or.inl ⟨rfl, rfl⟩, ?_, Or.inr rfl, fun _ hx => by cases hx⟩
              intro c hc
              rcases mem_append_singleton hc with rfl | hc
              · exact Or.inr hat
              · exact Or.inl hc
  | back =>
      obtain rfl := Option.some.inj h
      exact ⟨Or.inl ⟨rfl, rfl⟩, fun _ => Or.inl, Or.inl rfl, fun _ hx => by cases hx⟩
  | geocoded i placemarks error =>
      obtain ⟨location, hlocation, h⟩ := Option.bind_eq_some_iff.mp h
      obtain rfl := Option.some.inj h
      have hmem : ∀ c ∈ m.geocoding.eraseIdx i, c ∈ m.geocoding ∨ m.controller.At c :=
        fun _ hc => Or.inl (List.mem_of_mem_eraseIdx hc)
      cases hp : LocationHistory.placemark placemarks error with
      | none =>
          rw [LocationController.processResponse_none hp]
          refine ⟨Or.inl ⟨rfl, rfl⟩, hmem, Or.inr rfl, ?_⟩
          intro x hx
          simp [LocationScreen.answer, hp] at hx
      | some p =>
          have hanswer : ∀ x, m.answer (.geocoded i placemarks error) = some x → x = (location, p) := by
            intro x hx
            simpa [LocationScreen.answer, hp, hlocation, eq_comm] using hx
          have hsent : location ∈ m.geocoding := List.mem_of_getElem? hlocation
          rw [LocationController.processResponse_some hp]
          -- either the app ends or the address is written and the screen popped
          split
          · refine ⟨Or.inl ⟨rfl, rfl⟩, hmem, Or.inr rfl, ?_⟩
            intro x hx
            obtain rfl := hanswer x hx
            exact ⟨hsent, fun hlive => by simp [LocationScreen.after] at hlive⟩
          · rename_i address rest haddr hstack
            refine ⟨Or.inl ⟨rfl, rfl⟩, hmem, Or.inl rfl, ?_⟩
            intro x hx
            obtain rfl := hanswer x hx
            exact ⟨hsent, fun _ => haddr⟩
          · refine ⟨Or.inl ⟨rfl, rfl⟩, hmem, Or.inr rfl, ?_⟩
            intro x hx
            obtain rfl := hanswer x hx
            exact ⟨hsent, fun hlive => by simp [LocationScreen.after] at hlive⟩

/-! ### Runs of the tab -/

namespace AddPostTab

variable {s s' : AddPostTab ι δ} {userId : Option String} {k : ℕ} {e : LocationEvent δ}

theorem step_eq_some {e : TabEvent ι δ} (h : s.step e = some s') :
    s.crashed = false ∧ s.react e = some s' := by
  unfold step at h
  split_ifs at h with hc
  exact ⟨by simpa using hc, h⟩

/-- An event of a location screen is a step of this screen, and a choice for the form if it writes to it. -/
theorem locationEvent_eq_some (h : s.locationEvent k e = some s') :
    ∃ m m', s.locations[k]? = some m ∧ m.step e = some m' ∧ s'.locations = s.locations.set k m' ∧
      s'.typed = s.typed ∧ s'.reported = s.reported ++ (e.reported.map (k, ·)).toList ∧
      s'.answered = s.answered ++ ((m.answer e).map fun x => ⟨k, x.1, x.2⟩).toList ∧
      (s'.post = s.post ∨ (∃ x, m.answer e = some x ∧ m'.crashed = none) ∧
        s.post.react (.locationChosen m'.controller.location) = some s'.post) := by
  obtain ⟨m, hm, h⟩ := Option.bind_eq_some_iff.mp h
  obtain ⟨m', hm', h⟩ := Option.bind_eq_some_iff.mp h
  obtain rfl := Option.some.inj h
  refine ⟨m, m', hm, hm', rfl, rfl, rfl, rfl, ?_⟩
  by_cases hw : (m.answer e).isSome = true ∧ m'.crashed.isNone = true
  · right
    refine ⟨⟨_, Option.some_get hw.1 |>.symm, Option.isNone_iff_eq_none.mp hw.2⟩, ?_⟩
    simp only [hw.1, hw.2, Bool.and_self, if_true]
    rfl
  · left
    rw [if_neg (by simpa using hw)]

/-- The form and the location screens run as they do alone. -/
structure Composed (userId : Option String) (s : AddPostTab ι δ) : Prop where
  post : ∃ fs, Run AddPostScreen.step (fun _ _ => True) (.opened userId) fs s.post
  locations : ∀ m ∈ s.locations, ∃ fs, LocationScreen.Reached fs m

theorem Composed.step (h : Composed userId s) {e : TabEvent ι δ} (hst : s.step e = some s') :
    Composed userId s' := by
  obtain ⟨hlive, hst⟩ := step_eq_some hst
  have hpost : s.post.crashed = false := (Bool.or_eq_false_iff.mp hlive).1
  obtain ⟨fs, hfs⟩ := h.post
  -- one more event of the form
  have hform : ∀ {f : FormEvent ι} {post : AddPostScreen ι}, s.post.step f = some post →
      ∃ gs, Run AddPostScreen.step (fun _ _ => True) (.opened userId) gs post := by
    intro f post hf
    exact ⟨fs ++ [f], hfs.trans (.cons trivial hf (.nil _))⟩
  cases e with
  | post f =>
      simp only [react, postEvent] at hst
      split_ifs at hst
      obtain ⟨post, hf, rfl⟩ := Option.map_eq_some_iff.mp hst
      exact ⟨hform hf, h.locations⟩
  | selectLocationPressed =>
      simp only [react, selectLocationPressed] at hst
      split_ifs at hst
      obtain rfl := Option.some.inj hst
      refine ⟨h.post, ?_⟩
      intro m hm
      rcases mem_append_singleton hm with rfl | hm
      · exact ⟨[], s.post.location, .nil _⟩
      · exact h.locations m hm
  | location k e =>
      obtain ⟨m, m', hm, hm', hlocations, -, -, -, hwrite⟩ := locationEvent_eq_some hst
      constructor
      · rcases hwrite with hsame | ⟨-, hchosen⟩
        · rw [hsame]
          exact h.post
        · exact hform (AddPostScreen.step_eq_some.mpr ⟨hpost, hchosen⟩)
      · rw [hlocations]
        intro n hn
        rcases List.mem_or_eq_of_mem_set hn with hn | rfl
        · exact h.locations n hn
        · obtain ⟨gs, location, hgs⟩ := h.locations m (List.mem_of_getElem? hm)
          exact ⟨gs ++ [e], location, hgs.trans (.cons trivial hm' (.nil _))⟩

/-! ### The way of a location -/

/-- What is known of the coordinates and the texts of locations. -/
structure Tracks (s : AddPostTab ι δ) : Prop where
  /-- A position is never put together from two coordinates. -/
  position : ∀ k m, s.locations[k]? = some m →
    (m.controller.latitude = none ∧ m.controller.longitude = none) ∨
      ∃ c, (k, c) ∈ s.reported ∧ m.controller.At c
  geocoding : ∀ k m, s.locations[k]? = some m → ∀ c ∈ m.geocoding, (k, c) ∈ s.reported
  answered : ∀ a ∈ s.answered, (a.screen, a.coordinate) ∈ s.reported
  stack : ∀ k m, s.locations[k]? = some m → m.controller.navigationController ≠ none →
    k + 1 = s.locations.length
  post : s.post.Holds s.Traced

theorem Traced.mono {t : String} (h : s.Traced t) (htyped : s.typed ⊆ s'.typed)
    (hreported : s.reported ⊆ s'.reported) (hanswered : s.answered ⊆ s'.answered) : s'.Traced t := by
  rcases h with rfl | ht | ⟨a, ha, haddr, hrep⟩
  · exact Or.inl rfl
  · exact Or.inr (Or.inl (htyped ht))
  · exact Or.inr (Or.inr ⟨a, hanswered ha, haddr, hreported hrep⟩)

theorem Tracks.opened : Tracks (opened userId : AddPostTab ι δ) where
  position k m hm := by cases hm
  geocoding k m hm := by cases hm
  answered a ha := by cases ha
  stack k m hm := by cases hm
  post := .opened (Or.inl rfl) userId

theorem Tracks.postEvent (h : s.Tracks) {f : FormEvent ι} (hst : s.postEvent f = some s') : s'.Tracks := by
  unfold AddPostTab.postEvent at hst
  split_ifs at hst
  obtain ⟨post, hf, rfl⟩ := Option.map_eq_some_iff.mp hst
  obtain ⟨-, hf⟩ := AddPostScreen.step_eq_some.mp hf
  refine ⟨h.position, h.geocoding, h.answered, h.stack, ?_⟩
  refine (h.post.mono ?_).react (Or.inl rfl) ?_ hf
  · intro t ht
    exact ht.mono (List.subset_append_left _ _) (List.Subset.refl _) (List.Subset.refl _)
  · intro t ht
    exact Or.inr (Or.inl (List.mem_append_right _ (by simp [ht])))

theorem Tracks.selectLocationPressed (h : s.Tracks) (hst : s.selectLocationPressed = some s') :
    s'.Tracks := by
  unfold AddPostTab.selectLocationPressed at hst
  split_ifs at hst with hpopped
  obtain rfl := Option.some.inj hst
  constructor
  case position =>
    intro k m hm
    cases getElem?_append_singleton hm with
    | inl hold => exact h.position k m hold.2
    | inr hnew =>
        rw [hnew.2]
        exact Or.inl ⟨rfl, rfl⟩
  case geocoding =>
    intro k m hm c hc
    cases getElem?_append_singleton hm with
    | inl hold => exact h.geocoding k m hold.2 c hc
    | inr hnew =>
        rw [hnew.2] at hc
        cases hc
  case answered => exact h.answered
  case stack =>
    intro k m hm hnav
    cases getElem?_append_singleton hm with
    | inl hold =>
        have hnone := List.all_eq_true.mp hpopped m (List.mem_of_getElem? hold.2)
        exact absurd (Option.isNone_iff_eq_none.mp hnone) hnav
    | inr hnew => rw [hnew.1, List.length_append, List.length_singleton]
  case post => exact h.post

theorem Tracks.locationEvent (h : s.Tracks) (hst : s.locationEvent k e = some s') : s'.Tracks := by
  obtain ⟨m, m', hm, hm', hlocations, htyped, hreported, hanswered, hwrite⟩ := locationEvent_eq_some hst
  have hmoved := LocationScreen.moved hm'
  have hsub : s.reported ⊆ s'.reported := by
    rw [hreported]
    exact List.subset_append_left _ _
  have hmono : ∀ t, s.Traced t → s'.Traced t := by
    intro t ht
    refine ht.mono (htyped ▸ List.Subset.refl _) hsub ?_
    rw [hanswered]
    exact List.subset_append_left _ _
  have hlt : k < s.locations.length := (List.getElem?_eq_some_iff.mp hm).1
  -- the other screens are as before
  have hcases : ∀ j n, s'.locations[j]? = some n → j ≠ k ∧ s.locations[j]? = some n ∨ j = k ∧ n = m' := by
    intro j n hn
    rw [hlocations] at hn
    by_cases hj : j = k
    · subst hj
      rw [List.getElem?_set_self hlt] at hn
      exact Or.inr ⟨rfl, (Option.some.inj hn).symm⟩
    · rw [List.getElem?_set_ne (Ne.symm hj)] at hn
      exact Or.inl ⟨hj, hn⟩
  constructor
  case position =>
    intro j n hn
    rcases hcases j n hn with ⟨-, hn⟩ | ⟨rfl, rfl⟩
    · refine (h.position j n hn).imp_right ?_
      rintro ⟨c, hc, hat⟩
      exact ⟨c, hsub hc, hat⟩
    · rcases hmoved.position with ⟨hlat, hlong⟩ | ⟨c, hc, hat⟩
      · rw [hlat, hlong]
        refine (h.position j m hm).imp_right ?_
        rintro ⟨c, hc, hat⟩
        exact ⟨c, hsub hc, hlat.trans hat.1, hlong.trans hat.2⟩
      · refine Or.inr ⟨c, ?_, hat⟩
        rw [hreported]
        exact List.mem_append_right _ (by simp [hc])
  case geocoding =>
    intro j n hn c hc
    rcases hcases j n hn with ⟨-, hn⟩ | ⟨rfl, rfl⟩
    · exact hsub (h.geocoding j n hn c hc)
    · rcases hmoved.geocoding c hc with hc | hat
      · exact hsub (h.geocoding j m hm c hc)
      · rcases h.position j m hm with ⟨hlat, -⟩ | ⟨d, hd, hat'⟩
        · rw [hat.1] at hlat
          cases hlat
        · exact hsub (hat.unique hat' ▸ hd)
  case answered =>
    intro a ha
    rw [hanswered] at ha
    rcases List.mem_append.mp ha with ha | ha
    · exact hsub (h.answered a ha)
    · obtain ⟨x, hx, rfl⟩ := Option.map_eq_some_iff.mp (Option.mem_toList.mp ha)
      exact hsub (h.geocoding k m hm _ (hmoved.answer x hx).1)
  case stack =>
    intro j n hn hnav
    rw [hlocations, List.length_set]
    rcases hcases j n hn with ⟨-, hn⟩ | ⟨rfl, rfl⟩
    · exact h.stack j n hn hnav
    · refine h.stack j m hm ?_
      rcases hmoved.stack with hnone | hsame
      · exact absurd hnone hnav
      · exact hsame ▸ hnav
  case post =>
    rcases hwrite with hsame | ⟨⟨x, hx, hlive⟩, hchosen⟩
    · rw [hsame]
      exact h.post.mono hmono
    · refine (h.post.mono hmono).react (Or.inl rfl) ?_ hchosen
      intro t ht
      obtain rfl := Option.some.inj ht
      obtain ⟨hsent, haddr⟩ := hmoved.answer x hx
      refine Or.inr (Or.inr ⟨⟨k, x.1, x.2⟩, ?_, haddr hlive, hsub (h.geocoding k m hm _ hsent)⟩)
      rw [hanswered]
      exact List.mem_append_right _ (by simp [hx])

theorem Tracks.step (h : s.Tracks) {e : TabEvent ι δ} (hst : s.step e = some s') : s'.Tracks := by
  obtain ⟨-, hst⟩ := step_eq_some hst
  cases e with
  | post f => exact h.postEvent hst
  | selectLocationPressed => exact h.selectLocationPressed hst
  | location k e => exact h.locationEvent hst

/-- **Every stored location can be traced.**  Whatever is typed, chosen, cleared or still on its way, and
however many location screens were opened, the location of a stored post is empty, was typed, or is the
address of a coordinate that was reported to one of them. -/
theorem post_location_traced {es : List (TabEvent ι δ)}
    (hr : Run step (fun _ _ => True) (opened userId) es s) :
    Composed userId s ∧
      (∀ k m, s.locations[k]? = some m → m.controller.navigationController ≠ none →
        k + 1 = s.locations.length) ∧
      ∀ x ∈ s.post.stored, s.Traced x.post.postLocation := by
  have htracks : s.Tracks := hr.invariant Tracks (fun _ _ _ h _ hst => h.step hst) .opened
  have hcomposed : Composed userId s := hr.invariant (Composed userId)
    (fun _ _ _ h _ hst => h.step hst) ⟨⟨[], .nil _⟩, fun m hm => by cases hm⟩
  refine ⟨hcomposed, htracks.stack, ?_⟩
  intro x hx
  obtain ⟨fs, hfs⟩ := hcomposed.post
  have hkept := (AddPostScreen.Reached.sound ⟨userId, hfs⟩).stored x hx
  exact htracks.post.stored x hx _ hkept.location

/-- The user chooses a location on the map, goes to the map again and comes back, and submits. -/
def choosingScript : List (TabEvent String ℤ) :=
  [.selectLocationPressed] ++ LocationScreen.doneScript.map (.location 0) ++
    [.post .viewWillAppear, .selectLocationPressed, .location 1 (.didUpdateLocations ⟨40, -74⟩ []),
      .location 1 .back, .post .viewWillAppear] ++
    (AddPostScreen.pressScript ++ AddPostScreen.uploadScript).map .post

theorem post_location_traced_chosen : ∃ s : AddPostTab String ℤ,
    s.post.stored.map (·.post.postLocation) = ["Library, Boston"] ∧
    s.reported = [(0, ⟨42, -71⟩), (0, ⟨43, -70⟩), (1, ⟨40, -74⟩)] ∧
    ∀ x ∈ s.post.stored, s.Traced x.post.postLocation := by
  obtain ⟨s, hr, hstored, hreported⟩ := exists_run_of_exec step (fun _ _ => True) (opened (some "u"))
    choosingScript (fun s => s.post.stored.map (·.post.postLocation) = ["Library, Boston"] ∧
      s.reported = [(0, ⟨42, -71⟩), (0, ⟨43, -70⟩), (1, ⟨40, -74⟩)]) (by decide)
  obtain ⟨-, -, htraced⟩ := post_location_traced hr
  exact ⟨s, hstored, hreported, htraced⟩

end AddPostTab

end CommServe
