import CommServe.Transition
import CommServe.Method
import Mathlib.Data.Int.Notation

/-! # Choosing a location

`LocationController` keeps one `latitude` and one `longitude`.  Two sources write them: the device
location, which CoreLocation reports from `viewDidLoad` on and which is never stopped, and the answers
of map searches.  Done sends them to the reverse geocoder, whose answer comes later, possibly when the
controller has left the navigation stack.

Degrees are only copied here, so their type is a parameter.  Taps may come at any moment, also while
the app ignores interaction events during a search, or after Back; that only adds runs.

`LocationHistory` is a record of the events alone: the newest search that succeeded, the newest device
location since, and whether the controller was popped. -/

namespace CommServe

open Method Transition

/-- `CLLocationCoordinate2D`. -/
structure Coordinate (δ : Type) where
  latitude : δ
  longitude : δ
deriving DecidableEq, Repr

/-- The part of a `CLPlacemark` that `compactAddress` reads. -/
structure CLPlacemark where
  name : Option String
  thoroughfare : Option String
  locality : Option String
  country : Option String
deriving DecidableEq, Repr

/-- `compactAddress`; nil for a placemark without a name. -/
def CLPlacemark.compactAddress (self : CLPlacemark) : Option String :=
  let append (result : String) (part : Option String) : String :=
    match part with
    | some part => result ++ ", " ++ part
    | none => result
  self.name.map fun name =>
    append (append (append name self.thoroughfare) self.locality) self.country

structure MKPointAnnotation (δ : Type) where
  title : Option String
  coordinate : Coordinate δ
deriving DecidableEq, Repr

/-- The controllers on the navigation stack of the Add Post tab. -/
inductive ViewController where
  | addPostController | locationController
deriving DecidableEq, Repr

structure LocationController (δ : Type) where
  latitude : Option δ
  longitude : Option δ
  compactAddress : Option String
  /-- `myLocation.annotations`. -/
  annotations : List <| MKPointAnnotation δ
  /-- `navigationController?.viewControllers`; nil once the controller is off the stack. -/
  navigationController : Option (List ViewController)
  /-- `location` of the `AddPostController` at the root. -/
  location : String
deriving DecidableEq, Repr

/-- The forced unwraps and the forced cast of `doneAction` and `processResponse`. -/
inductive LocationTrap where
  | latitude | longitude | compactAddress | addPostController
deriving DecidableEq, Repr

namespace LocationController

variable {δ : Type}

/-- A controller that `selectLocationPressed` has just pushed. -/
def new (location : String) : LocationController δ :=
  ⟨none, none, none, [], some [.addPostController, .locationController], location⟩

/-- `locationManager(_:didUpdateLocations:)`, with `locations[0]`. -/
def didUpdateLocations (self : LocationController δ) (location : Coordinate δ) :
    LocationController δ :=
  { self with latitude := some location.latitude, longitude := some location.longitude }

/-- The completion handler of a search; `response` carries the centre of its `boundingRegion`. -/
def searchResponse (self : LocationController δ) (searchBarText : Option String)
    (response : Option (Coordinate δ)) : LocationController δ :=
  match response with
  | none => self
  | some center => { self with
      annotations := [⟨searchBarText, center⟩]
      latitude := some center.latitude
      longitude := some center.longitude }

/-- `doneAction`, up to the coordinate it sends to the reverse geocoder. -/
def doneAction : Method (LocationController δ) LocationTrap (Coordinate δ) := do
  let self ← state
  let latitude ← unwrap .latitude self.latitude
  let longitude ← unwrap .longitude self.longitude
  pure ⟨latitude, longitude⟩

/-- `self.navigationController?.viewControllers[0] as! AddPostController`. -/
def rootController : Method (LocationController δ) LocationTrap Unit := do
  let self ← state
  match self.navigationController with
  | some (.addPostController :: _) => pure ()
  | _ => unwrap .addPostController none

/-- `processResponse(withPlacemarks:error:)`. -/
def processResponse (placemarks : Option (List CLPlacemark)) (error : Option String) :
    Method (LocationController δ) LocationTrap Unit :=
  match error, placemarks.bind List.head? with
  | none, some placemark => do
      let compactAddress ← unwrap .compactAddress placemark.compactAddress
      modify fun self => { self with compactAddress := some compactAddress }
      rootController
      modify fun self => { self with location := compactAddress }
      -- `popToRootViewController(animated: true)`
      modify fun self => { self with navigationController := none }
  | _, _ => pure ()

end LocationController

/-- The screen with its callbacks on the way. -/
structure LocationScreen (δ : Type) where
  controller : LocationController δ
  /-- The queries of the searches that wait for their response. -/
  searching : List (Option String)
  /-- Coordinates the geocoder works on. -/
  geocoding : List (Coordinate δ)
  crashed : Option LocationTrap
deriving DecidableEq, Repr

/-- What can happen on the screen. -/
inductive LocationEvent (δ : Type) where
  /-- A non-empty array of locations. -/
  | didUpdateLocations (location : Coordinate δ) (others : List (Coordinate δ))
  | searchBarSearchButtonClicked (naturalLanguageQuery : Option String)
  /-- The `i`-th search ends, while the search bar reads `text`; without a response it has failed. -/
  | searchResponse (i : ℕ) (text : Option String) (response : Option (Coordinate δ))
  | doneAction
  /-- The user navigates back. -/
  | back
  /-- The geocoder is done with the `i`-th coordinate. -/
  | geocoded (i : ℕ) (placemarks : Option (List CLPlacemark)) (error : Option String)
deriving DecidableEq, Repr

namespace LocationScreen

variable {δ : Type}

/-- The screen when it opens. -/
def opened (location : String) : LocationScreen δ := ⟨.new location, [], [], none⟩

/-- The screen after a method of its controller; a trap ends the app. -/
def after (s : LocationScreen δ) {α : Type}
    (r : Except (Stop LocationTrap) α × LocationController δ) : LocationScreen δ :=
  { s with controller := r.2, crashed := trap r.1 }

/-- A tap on Done. -/
def doneAction (s : LocationScreen δ) : LocationScreen δ :=
  let r := LocationController.doneAction.run s.controller
  match r.1 with
  | .ok location => { s.after r with geocoding := s.geocoding ++ [location] }
  | .error _ => s.after r

/-- What happens on the screen in an event. -/
def react (s : LocationScreen δ) : LocationEvent δ → Option (LocationScreen δ)
  | .didUpdateLocations location _ =>
      some { s with controller := s.controller.didUpdateLocations location }
  | .searchBarSearchButtonClicked query => some { s with searching := s.searching ++ [query] }
  | .searchResponse i text response => do
      let _query ← s.searching[i]?
      some { s with
        controller := s.controller.searchResponse text response
        searching := s.searching.eraseIdx i }
  | .doneAction => some s.doneAction
  | .back => some { s with controller := { s.controller with navigationController := none } }
  | .geocoded i placemarks error => do
      let _location ← s.geocoding[i]?
      let s := { s with geocoding := s.geocoding.eraseIdx i }
      some (s.after ((LocationController.processResponse placemarks error).run s.controller))

/-- One step of the screen; nothing happens after a crash. -/
def step (s : LocationScreen δ) (e : LocationEvent δ) : Option (LocationScreen δ) :=
  if s.crashed = none then s.react e else none

/-- `s` is reached from the opened screen over the events `es`. -/
def Reached (es : List (LocationEvent δ)) (s : LocationScreen δ) : Prop :=
  ∃ location, Run step (fun _ _ => True) (opened location) es s

end LocationScreen

/-! ### The record of the events -/

structure LocationHistory (δ : Type) where
  /-- The newest search that succeeded. -/
  searched : Option (Coordinate δ)
  /-- The newest device location since. -/
  device : Option (Coordinate δ)
  /-- The controller was popped. -/
  left : Bool
deriving DecidableEq, Repr

namespace LocationHistory

variable {δ : Type}

/-- The first placemark of an answer without error. -/
def placemark (placemarks : Option (List CLPlacemark)) (error : Option String) :
    Option CLPlacemark :=
  if error = none then placemarks.bind List.head? else none

def track (h : LocationHistory δ) : LocationEvent δ → LocationHistory δ
  | .didUpdateLocations location _ => { h with device := some location }
  | .searchResponse _ _ (some center) => { h with searched := some center, device := none }
  | .back => { h with left := true }
  -- an answer that can be processed pops the controller
  | .geocoded _ placemarks error =>
      { h with left := h.left || (placemark placemarks error).any (·.name.isSome) }
  | _ => h

/-- What the events of a run record. -/
def of (es : List (LocationEvent δ)) : LocationHistory δ := es.foldl track ⟨none, none, false⟩

/-- The order of events the screen expects: Done after a location is known, and an answer with a
placemark has a name and finds the controller on the stack. -/
def Expects (h : LocationHistory δ) : LocationEvent δ → Prop
  | .doneAction => h.device ≠ none ∨ h.searched ≠ none
  | .geocoded _ placemarks error =>
      ∀ p, placemark placemarks error = some p → p.name ≠ none ∧ h.left = false
  | _ => True

variable {h : LocationHistory δ} {i : ℕ} {placemarks : Option (List CLPlacemark)}
  {error : Option String}

theorem track_geocoded_none (hp : placemark placemarks error = none) :
    h.track (.geocoded i placemarks error) = h := by
  simp [track, hp]

theorem track_geocoded_some {p : CLPlacemark} (hp : placemark placemarks error = some p) :
    h.track (.geocoded i placemarks error) = { h with left := h.left || p.name.isSome } := by
  simp [track, hp]

/-- The device has reported no other location since the newest search that succeeded. -/
def Settled (h : LocationHistory δ) : Prop :=
  ∀ center location, h.searched = some center → h.device = some location → location = center

end LocationHistory

/-! ### The methods, case by case -/

variable {δ : Type}

theorem CLPlacemark.compactAddress_isSome (p : CLPlacemark) :
    p.compactAddress.isSome = p.name.isSome := by
  simp [CLPlacemark.compactAddress]

namespace LocationController

variable {self : LocationController δ} {placemarks : Option (List CLPlacemark)}
  {error : Option String}

theorem doneAction_ok {location : Coordinate δ} (hlat : self.latitude = some location.latitude)
    (hlong : self.longitude = some location.longitude) :
    doneAction.run self = (.ok location, self) := by
  simp [doneAction, run_bind, hlat, hlong]

theorem doneAction_none (hlat : self.latitude = none) :
    doneAction.run self = (.error (.trapped .latitude), self) := by
  simp [doneAction, run_bind, hlat]

theorem processResponse_none (h : LocationHistory.placemark placemarks error = none) :
    (processResponse placemarks error).run self = (.ok (), self) := by
  unfold LocationHistory.placemark at h
  unfold processResponse
  cases error with
  | some e => rfl
  | none =>
      rw [if_pos rfl] at h
      rw [h]
      rfl

theorem processResponse_some {p : CLPlacemark}
    (h : LocationHistory.placemark placemarks error = some p) :
    (processResponse placemarks error).run self =
      match p.compactAddress, self.navigationController with
      | none, _ => (.error (.trapped .compactAddress), self)
      | some address, some (.addPostController :: _) =>
          (.ok (), { self with
            compactAddress := some address, location := address, navigationController := none })
      | some address, _ =>
          (.error (.trapped .addPostController), { self with compactAddress := some address }) := by
  unfold LocationHistory.placemark at h
  cases error with
  | some e => simp at h
  | none =>
  rw [if_pos rfl] at h
  unfold processResponse
  rw [h]
  cases haddr : p.compactAddress with
  | none => simp [run_bind, haddr]
  | some address =>
  cases hnav : self.navigationController with
  | none => simp [run_bind, rootController, haddr, hnav]
  | some stack =>
  cases stack with
  | nil => simp [run_bind, rootController, haddr, hnav]
  | cons root rest => cases root <;> simp [run_bind, rootController, haddr, hnav]

end LocationController

/-! ### The screen against the record of its events -/

/-- What the record says about the screen. -/
structure LocationScreen.Agrees (s : LocationScreen δ) (h : LocationHistory δ) : Prop where
  latitude : s.controller.latitude = (h.device.or h.searched).map (·.latitude)
  longitude : s.controller.longitude = (h.device.or h.searched).map (·.longitude)
  annotations : s.controller.annotations.map (·.coordinate) = h.searched.toList
  stack : s.controller.navigationController =
    if h.left then none else some [.addPostController, .locationController]

namespace LocationScreen

variable {s s' : LocationScreen δ} {h : LocationHistory δ} {es : List (LocationEvent δ)}

theorem agrees_opened (location : String) : (opened location : LocationScreen δ).Agrees
    ⟨none, none, false⟩ :=
  ⟨rfl, rfl, rfl, rfl⟩

theorem Agrees.of_controller (ha : s.Agrees h) (hc : s'.controller = s.controller) :
    s'.Agrees h := by
  obtain ⟨hlat, hlong, hann, hstack⟩ := ha
  constructor <;> rw [hc] <;> assumption

theorem step_eq_some {e : LocationEvent δ} :
    step s e = some s' ↔ s.crashed = none ∧ s.react e = some s' := by
  unfold step
  split_ifs with hc <;> simp [hc]

theorem Agrees.react (ha : s.Agrees h) {e : LocationEvent δ} (hs : s.react e = some s') :
    s'.Agrees (h.track e) := by
  cases e with
  | didUpdateLocations location others =>
      obtain rfl := Option.some.inj hs
      exact ⟨rfl, rfl, ha.annotations, ha.stack⟩
  | searchBarSearchButtonClicked query =>
      obtain rfl := Option.some.inj hs
      exact ha.of_controller rfl
  | searchResponse i text response =>
      obtain ⟨query, -, hs⟩ := Option.bind_eq_some_iff.mp hs
      obtain rfl := Option.some.inj hs
      cases response with
      | none => exact ha.of_controller rfl
      | some center => exact ⟨rfl, rfl, rfl, ha.stack⟩
  | doneAction =>
      obtain rfl := Option.some.inj hs
      refine ha.of_controller ?_
      unfold LocationScreen.doneAction LocationController.doneAction
      cases hlat : s.controller.latitude <;> cases hlong : s.controller.longitude <;>
        simp [run_bind, hlat, hlong, after]
  | back =>
      obtain rfl := Option.some.inj hs
      exact ⟨ha.latitude, ha.longitude, ha.annotations, rfl⟩
  | geocoded i placemarks error =>
      obtain ⟨location, -, hs⟩ := Option.bind_eq_some_iff.mp hs
      obtain rfl := Option.some.inj hs
      cases hp : LocationHistory.placemark placemarks error with
      | none =>
          rw [LocationController.processResponse_none hp, LocationHistory.track_geocoded_none hp]
          exact ha.of_controller rfl
      | some p =>
          rw [LocationController.processResponse_some hp, LocationHistory.track_geocoded_some hp,
            ← p.compactAddress_isSome, ha.stack]
          cases p.compactAddress with
          | none => exact ⟨ha.latitude, ha.longitude, ha.annotations, by simpa [after] using ha.stack⟩
          | some address =>
              -- off the stack the cast fails, and the record says already that it was left
              cases h.left <;> exact ⟨ha.latitude, ha.longitude, ha.annotations, rfl⟩

theorem Reached.agrees (hr : Reached es s) : s.Agrees (.of es) := by
  obtain ⟨location, hr⟩ := hr
  refine hr.history Agrees LocationHistory.track ?_ (agrees_opened location)
  intro s e s' h ha _ hs
  exact ha.react (step_eq_some.mp hs).2

/-- A step crashes unless it is one the record expects. -/
theorem Agrees.crashed_iff (ha : s.Agrees h) {e : LocationEvent δ} (hs : step s e = some s') :
    s'.crashed = none ↔ h.Expects e := by
  obtain ⟨hlive, hs⟩ := step_eq_some.mp hs
  cases e with
  | didUpdateLocations _ _ | searchBarSearchButtonClicked _ | back =>
      obtain rfl := Option.some.inj hs
      simp [LocationHistory.Expects, hlive]
  | searchResponse i text response =>
      obtain ⟨query, -, hs⟩ := Option.bind_eq_some_iff.mp hs
      obtain rfl := Option.some.inj hs
      simp [LocationHistory.Expects, hlive]
  | doneAction =>
      obtain rfl := Option.some.inj hs
      have hlat := ha.latitude
      have hlong := ha.longitude
      unfold LocationScreen.doneAction LocationHistory.Expects
      cases hpos : h.device.or h.searched with
      | none =>
          rw [hpos] at hlat
          obtain ⟨hdevice, hsearched⟩ := Option.or_eq_none_iff.mp hpos
          rw [LocationController.doneAction_none hlat]
          simp [after, hdevice, hsearched]
      | some location =>
          rw [hpos] at hlat hlong
          rw [LocationController.doneAction_ok hlat hlong]
          have hne : ¬ (h.device = none ∧ h.searched = none) := by
            intro hnone
            rw [← Option.or_eq_none_iff, hpos] at hnone
            exact absurd hnone (by simp)
          simpa only [after, trap_ok, true_iff, ne_eq, not_and_or] using hne
  | geocoded i placemarks error =>
      obtain ⟨location, -, hs⟩ := Option.bind_eq_some_iff.mp hs
      obtain rfl := Option.some.inj hs
      unfold LocationHistory.Expects
      cases hp : LocationHistory.placemark placemarks error with
      | none =>
          rw [LocationController.processResponse_none hp]
          simp [after, hp]
      | some p =>
          rw [LocationController.processResponse_some hp, ha.stack]
          have hsome := p.compactAddress_isSome
          cases haddr : p.compactAddress <;> cases hname : p.name <;> cases hleft : h.left <;>
            simp_all [after]

/-- The screen is alive exactly while its events come in the order it expects. -/
theorem crashed_iff_expects (hr : Reached es s) : s.crashed = none ↔
    ∀ before e later, es = before ++ e :: later → (LocationHistory.of before).Expects e := by
  obtain ⟨location, hr⟩ := hr
  constructor
  · rintro hlive before e later rfl
    obtain ⟨t, hbefore, hrest⟩ := hr.split
    obtain ⟨u, -, hs, hlater⟩ := hrest.head
    have hu : u.crashed = none := by
      by_contra hne
      cases hlater with
      | nil => exact hne hlive
      | cons _ hs' _ => exact hne (step_eq_some.mp hs').1
    exact ((Reached.agrees ⟨location, hbefore⟩).crashed_iff hs).mp hu
  · intro h
    rcases List.eq_nil_or_concat es with rfl | ⟨before, e, rfl⟩
    · cases hr
      rfl
    · rw [List.concat_eq_append] at hr h
      obtain ⟨t, hbefore, -, hs⟩ := hr.last
      exact ((Reached.agrees ⟨location, hbefore⟩).crashed_iff hs).mpr (h before e [] rfl)

/-- Done sends the coordinate of the newest search that succeeded, which the map annotates. -/
def SendsSearched (s : LocationScreen δ) (h : LocationHistory δ) : Prop :=
  ∀ center, h.searched = some center →
    s.controller.annotations.map (·.coordinate) = [center] ∧
      ∃ s', step s .doneAction = some s' ∧ s'.geocoding = s.geocoding ++ [center]

theorem Agrees.sendsSearched_iff (ha : s.Agrees h) (hlive : s.crashed = none) :
    s.SendsSearched h ↔ h.Settled := by
  have hstep : step s .doneAction = some s.doneAction := by
    rw [step_eq_some]
    exact ⟨hlive, rfl⟩
  have hsent : ∀ location, h.device.or h.searched = some location →
      s.doneAction.geocoding = s.geocoding ++ [location] := by
    intro location hpos
    have hlat := ha.latitude
    have hlong := ha.longitude
    rw [hpos] at hlat hlong
    unfold LocationScreen.doneAction
    rw [LocationController.doneAction_ok hlat hlong]
  constructor
  · intro hsends center location hsearched hdevice
    obtain ⟨-, s', hs', hgeo⟩ := hsends center hsearched
    obtain rfl := Option.some.inj (hstep.symm.trans hs')
    rw [hsent location (by rw [hdevice]; rfl)] at hgeo
    simpa using hgeo
  · intro hsettled center hsearched
    refine ⟨by rw [ha.annotations, hsearched]; rfl, _, hstep, ?_⟩
    refine hsent center ?_
    cases hdevice : h.device with
    | none => exact hsearched
    | some location =>
        rw [hsettled center location hsearched hdevice]
        rfl

/-- Done sends the searched coordinate exactly if the device has reported no other one since. -/
theorem sendsSearched_iff_settled (hr : Reached es s) (hlive : s.crashed = none) :
    s.SendsSearched (.of es) ↔ (LocationHistory.of es).Settled :=
  hr.agrees.sendsSearched_iff hlive

/-- A run from the opened screen on which a decidable property can be evaluated. -/
theorem exists_reached [DecidableEq δ] (es : List (LocationEvent δ)) (p : LocationScreen δ → Prop)
    [DecidablePred p]
    (h : (exec step (fun _ _ => True) (opened "") es).any (fun t => decide (p t)) = true) :
    ∃ s, Reached es s ∧ p s := by
  obtain ⟨s, hr, hp⟩ := exists_run_of_exec step (fun _ _ => True) (opened "") es p h
  exact ⟨s, ⟨"", hr⟩, hp⟩

/-- A search for a library, at a device that stands still. -/
def searchScript : List (LocationEvent ℤ) :=
  [.didUpdateLocations ⟨42, -71⟩ [], .searchBarSearchButtonClicked (some "Library"),
    .searchResponse 0 (some "Library") (some ⟨43, -70⟩)]

theorem sendsSearched_searchScript : ∃ s : LocationScreen ℤ, Reached searchScript s ∧
    s.SendsSearched (.of searchScript) := by
  obtain ⟨s, hr, hlive⟩ := exists_reached searchScript (fun s => s.crashed = none) (by decide)
  refine ⟨s, hr, (sendsSearched_iff_settled hr hlive).mpr ?_⟩
  intro center location _ hdevice
  cases hdevice

/-- The library is sent and its address comes back. -/
def doneScript : List (LocationEvent ℤ) :=
  searchScript ++ [.doneAction, .geocoded 0 (some [⟨some "Library", none, some "Boston", none⟩]) none]

theorem expects_doneScript : ∃ s : LocationScreen ℤ, Reached doneScript s ∧
    (LocationHistory.of searchScript).Expects .doneAction := by
  obtain ⟨s, hr, hlive⟩ := exists_reached doneScript (fun s => s.crashed = none) (by decide)
  exact ⟨s, hr, (crashed_iff_expects hr).mp hlive searchScript .doneAction _ rfl⟩

/-- Three orders of events that end the app: Done before a location is known, an answer without a
name, and an answer after Back. -/
theorem unexpected_events_crash :
    (∃ s : LocationScreen ℤ, Reached [.doneAction] s ∧ s.crashed = some .latitude) ∧
      (∃ s : LocationScreen ℤ,
        Reached (searchScript ++ [.doneAction, .geocoded 0 (some [⟨none, none, none, none⟩]) none]) s ∧
          s.crashed = some .compactAddress) ∧
      ∃ s : LocationScreen ℤ,
        Reached (searchScript ++ [.doneAction, .back,
          .geocoded 0 (some [⟨some "Library", none, some "Boston", none⟩]) none]) s ∧
          s.crashed = some .addPostController := by
  refine ⟨?_, ?_, ?_⟩
  · exact exists_reached _ (fun s => s.crashed = some .latitude) (by decide)
  · exact exists_reached _ (fun s => s.crashed = some .compactAddress) (by decide)
  · exact exists_reached _ (fun s => s.crashed = some .addPostController) (by decide)

/-- One more report of the device, and the chosen location is lost. -/
theorem device_overwrites_search : ∃ (es : List (LocationEvent ℤ)) (s : LocationScreen ℤ),
    Reached es s ∧ s.crashed = none ∧ ¬ s.SendsSearched (.of es) := by
  obtain ⟨s, hr, hlive⟩ := exists_reached (searchScript ++ [.didUpdateLocations ⟨42, -71⟩ []])
    (fun s => s.crashed = none) (by decide)
  refine ⟨_, s, hr, hlive, ?_⟩
  rw [hr.agrees.sendsSearched_iff hlive]
  intro hsettled
  have heq := hsettled ⟨43, -70⟩ ⟨42, -71⟩ rfl rfl
  exact absurd heq (by decide)

end LocationScreen

end CommServe
