import CommServe.Session
import CommServe.Display
import CommServe.Taps

/-! # After a logout

`handleLogout` signs the user out and presents a `LoginController` over the screens, which stay alive with
their observers, their cells and the callbacks of their submissions.  The handlers of the buttons read the
current user with a guard and do nothing any more.  Two places do not: `cellForItemAt` of the Home feed
unwraps the user, and a submission carries the user id that was captured before.

`LoggedOut` is the system after the logout of one device, on which nobody signs in again; the other devices
and the server go on.  Taps on the old screens are allowed although the user does not see these screens.
What the observers and downloads of the cells do is left out, since they only set views. -/

namespace CommServe

open RecordStore Method Transition

/-- The trap is a forced unwrap that failed. -/
def Trap.isUnwrap : Trap → Bool
  | .subscript => false
  | _ => true

/-- A forced unwrap, or a cast of a decoder, fails in the Home, the Pinned or the Add Post screen of device
`c` in an action. -/
def World.fails (w : World) (c : ℕ) : Action → Bool
  | .submitPressed form postId =>
      (trapOf ((AddPostController.submitPressed (w.dev c).userId form postId).run ())).any Trap.isUnwrap
  | .homeSnapshot cell k => (w.server.view c k).any fun db =>
      (HomeViewCollection.fetchData (children db (.posts cell.tempCategory))).isNone
  | .homePin cell sender =>
      let h := HomeViewCollection.handlePinClick (w.dev c).currentUser ((w.dev c).postArray cell) sender
      (trapOf (h.tap sender)).any Trap.isUnwrap
  | .homeCheck cell tag =>
      let sender : UIButton := ⟨tag, false⟩
      let h := HomeViewCollection.handleCheckClick (w.dev c).currentUser ((w.dev c).postArray cell) sender
      (trapOf (h.tap sender)).any Trap.isUnwrap
  | .pinSnapshot i k => ((w.dev c).observed[i]?).any fun uid => (w.server.view c k).any fun db =>
      (PinController.viewDidAppear (children db (.pinned uid))).isNone
  | .pinPin sender =>
      let h := PinController.handlePinClick (w.dev c).currentUser (w.dev c).pinController sender
      (trapOf (h.tap sender)).any Trap.isUnwrap
  | .pinCheck tag =>
      let sender : UIButton := ⟨tag, false⟩
      let h := PinController.handleCheckClick (w.dev c).currentUser (w.dev c).pinController sender
      (trapOf (h.tap sender)).any Trap.isUnwrap
  | _ => false

/-- The action is part of signing in. -/
def Action.signsIn : Action → Bool
  | .signIn _ | .openTabs | .accountCreated _ _ (some _) => true
  | _ => false

/-- The system after a logout of one of its devices. -/
structure LoggedOut where
  world : World
  /-- `tabBarController` of the Add Post screen. -/
  tabBarController : Option CustomTabBarController
  /-- History: a forced unwrap of the screens has failed. -/
  failed : Bool
  /-- History: the writes that the device has issued. -/
  written : List DbWrite

/-- What can happen after a logout. -/
inductive LoggedOutEvent where
  /-- A callback or a tap on the device, or a step of another device or of the server. -/
  | other (e : Event)
  | cellForItemAt (cell : HomeCell) (row : ℕ)
  | cellForRowAt (row : ℕ)
  | didSelectRowAt (row : ℕ)
  /-- The database acknowledges the write of a post. -/
  | acknowledged (error : Bool)

namespace LoggedOut

/-- `handleLogout` of device `c` has led to `s`. -/
def start (c : ℕ) (s : System) : LoggedOut :=
  ⟨s.world, ((s.screens c).covered.head?).bind List.head?, false, []⟩

variable (c : ℕ) (s : LoggedOut)

/-- An action of the device. -/
def act (a : Action) : Option LoggedOut :=
  if a.signsIn then none
  else (react s.world c a).map fun r => { s with
    world := s.world.apply c r
    failed := s.failed || s.world.fails c a
    written := s.written ++ r.writes }

/-- A method that configures a cell or answers a selection. -/
def display {α : Type} (h : Handler α) : Option LoggedOut :=
  if (s.world.dev c).crashed then none
  else
    let r := h.run ⟨false, []⟩
    some { s with
      world := { s.world with
        dev := Function.update s.world.dev c ((s.world.dev c).after r) }
      failed := s.failed || (trapOf r).any Trap.isUnwrap }

/-- The completion block of `updateChildValues`: `self.tabBarController!.selectedIndex = 2`. -/
def acknowledged (error : Bool) : Option LoggedOut :=
  if (s.world.dev c).crashed then none
  else if error then some s
  else
    match s.tabBarController with
    | some _ => some s
    | none => some { s with
        world := { s.world with dev := Function.update s.world.dev c (s.world.dev c).crash }
        failed := true }

def step : LoggedOutEvent → Option LoggedOut
  | .other (.act d a) =>
      if d = c then s.act c a
      else (CommServe.step s.world (.act d a)).map fun w => { s with world := w }
  | .other e => (CommServe.step s.world e).map fun w => { s with world := w }
  | .cellForItemAt cell row => s.display c (HomeViewCollection.cellForItemAt
      (s.world.dev c).currentUser ((s.world.dev c).postArray cell) row)
  | .cellForRowAt row => s.display c (PinController.cellForRowAt (s.world.dev c).pinController.favArray row)
  | .didSelectRowAt row =>
      s.display c (PinController.didSelectRowAt (s.world.dev c).pinController.favArray row)
  | .acknowledged error => s.acknowledged c error

/-- No forced unwrap has failed, and no write was issued. -/
structure Quiet : Prop where
  unwrapped : s.failed = false
  silent : s.written = []

/-- The row of the feed that an event configures a cell for. -/
def configured : LoggedOutEvent → Option UserPost
  | .cellForItemAt cell row => ((s.world.dev c).postArray cell)[row]?
  | _ => none

/-- The user's record that came for the submission whose image is now uploaded. -/
def uploaded : LoggedOutEvent → Option Node
  | .other (.act d (.submitUploaded i (some _))) =>
      if d = c then (s.world.uploading[i]?).map (·.2.2) else none
  | _ => none

/-- No cell of the feed is configured for a post, and no upload ends well for a submission whose user has a
stored name. -/
def Harmless (e : LoggedOutEvent) : Prop :=
  s.configured c e = none ∧ ∀ data ∈ s.uploaded c e, asString (data .username) = none

instance : DecidablePred (s.Harmless c) := fun _ => inferInstanceAs (Decidable (_ ∧ _))

end LoggedOut

/-! ### Handlers without a user -/

theorem unwraps_of_avoids {α σ : Type} {x : Method σ Trap α} (hx : x.Avoids (fun t => t.isUnwrap = true))
    (s : σ) : (trapOf (x.run s)).any Trap.isUnwrap = false := by
  cases ht : trapOf (x.run s) with
  | none => rfl
  | some t => simpa using not_bad_of_trapOf hx ht

variable {rows : List UserPost} {bad : Trap → Prop}

theorem HomeViewCollection.handlePinClick_signedOut (sender : UIButton) :
    (handlePinClick none rows sender).Avoids bad :=
  .guardLet_none

theorem HomeViewCollection.handleCheckClick_signedOut (hbad : ¬ bad .subscript) (h : Whole rows)
    (sender : UIButton) : (handleCheckClick none rows sender).Avoids bad := by
  refine .subscript hbad ?_
  intro x hx
  obtain ⟨post, rfl⟩ := h x hx
  refine .bind_ok (run_unwrapField_some _ _) ?_
  split_ifs with hsel
  · exact .bind (.modify _) fun _ => .guardLet_none
  · exact .pure _

theorem PinController.handlePinClick_signedOut (self : PinController) (sender : UIButton) :
    (handlePinClick none self sender).Avoids bad :=
  .guardLet_none

theorem PinController.handleCheckClick_signedOut (self : PinController) (sender : UIButton) :
    (handleCheckClick none self sender).Avoids bad :=
  .guardLet_none

theorem HomeViewCollection.cellForItemAt_signedOut (h : Whole rows) (row : ℕ) (s : Effects) :
    (trapOf ((cellForItemAt none rows row).run s)).any Trap.isUnwrap = rows[row]?.isSome := by
  cases hrow : rows[row]? with
  | none =>
      unfold cellForItemAt subscript
      rw [hrow]
      rfl
  | some x =>
      obtain ⟨post, rfl⟩ := h x (List.mem_of_getElem? hrow)
      unfold cellForItemAt subscript
      rw [hrow]
      rfl

/-! ### Actions without a user -/

variable {w : World} {c : ℕ} {a : Action}

theorem Action.signsIn.currentUser (h : a.signsIn = false) : a.currentUser none = none := by
  cases a with
  | accountCreated j i result => cases result <;> simp_all [Action.signsIn, Action.currentUser]
  | _ => simp_all [Action.signsIn, Action.currentUser]

theorem Action.signsIn.userId (h : a.signsIn = false) (d : Device) : a.userId d = d.userId := by
  cases a <;> simp_all [Action.signsIn, Action.userId]

theorem Device.Copies.whole {ps : List Post} {d : Device} (hd : d.Copies ps) (cell : HomeCell) :
    Whole (d.postArray cell) := by
  intro row hrow
  obtain ⟨post, -, hpost, -⟩ := hd.home cell row hrow
  exact ⟨post, hpost⟩

theorem Device.Copies.pictured {ps : List Post} {d : Device} (hd : d.Copies ps) :
    Pictured d.pinController.favArray := by
  intro row hrow
  obtain ⟨post, -, hpost, url, hurl⟩ := hd.fav row hrow
  exact ⟨post, url, hpost, hurl⟩

/-- Without a user no callback and no button runs into a failing unwrap. -/
theorem World.Sound.fails_signedOut (hs : w.Sound) (huser : (w.dev c).currentUser = none)
    (hid : (w.dev c).userId ≠ none) (a : Action) : w.fails c a = false := by
  have hsub : ¬ Trap.subscript.isUnwrap = true := Bool.false_ne_true
  cases a with
  | submitPressed form postId =>
      exact unwraps_of_avoids (AddPostController.submitPressed_avoids hid) ()
  | homeSnapshot cell k =>
      cases hv : w.server.view c k with
      | none => simp [World.fails, hv]
      | some db =>
          obtain ⟨posts, hposts⟩ := Good.exists_fetchData (hs.view hv) cell
          simp [World.fails, hv, hposts]
  | homePin cell sender =>
      simp only [World.fails, huser]
      exact unwraps_of_avoids (HomeViewCollection.handlePinClick_signedOut sender) _
  | homeCheck cell tag =>
      simp only [World.fails, huser]
      exact unwraps_of_avoids
        (HomeViewCollection.handleCheckClick_signedOut hsub ((hs.copies c).whole cell) _) _
  | pinSnapshot i k =>
      cases huid : (w.dev c).observed[i]? with
      | none => simp [World.fails, huid]
      | some uid =>
      cases hv : w.server.view c k with
      | none => simp [World.fails, huid, hv]
      | some db =>
          obtain ⟨favs, hfavs⟩ := Good.exists_viewDidAppear (hs.view hv) uid
          simp [World.fails, huid, hv, hfavs]
  | pinPin sender =>
      simp only [World.fails, huser]
      exact unwraps_of_avoids (PinController.handlePinClick_signedOut _ sender) _
  | pinCheck tag =>
      simp only [World.fails, huser]
      exact unwraps_of_avoids (PinController.handleCheckClick_signedOut _ _) _
  | _ => rfl

theorem Issues.signedOut {ws : List DbWrite} {us : List String} {ps : List Post}
    {as : List (String × Option String)} (h : Issues w c a ws us ps as)
    (huser : (w.dev c).currentUser = none) (ha : a.signsIn = false) :
    ws = [] ∨ ∃ i metadata, a = .submitUploaded i metadata := by
  have hno : ∀ uid, (w.dev c).currentUser ≠ some uid := by
    intro uid
    rw [huser]
    exact (Option.some_ne_none uid).symm
  cases h with
  | quiet => exact Or.inl rfl
  | submit => exact Or.inr ⟨_, _, rfl⟩
  | homeUnpin hu | homePin hu | homeCheck hu | pinUnpin hu | pinPin hu | rename hu =>
      exact absurd hu (hno _)
  | credit hg | pinCheck hg => exact absurd (PinController.guards_eq_some hg).1 (hno _)
  | register => cases ha

/-- The end of an upload issues a write exactly if there is metadata and the record has a user name. -/
theorem submitUploaded_silent {i : ℕ} {metadata : Option (Option String)} {r : Reaction}
    (h : w.submitUploaded c i metadata = some r) :
    r.writes = [] ↔ ∀ x, w.uploading[i]? = some x →
      metadata = none ∨ asString (x.2.2 .username) = none := by
  obtain ⟨x, hx, h⟩ := Option.bind_eq_some_iff.mp h
  split_ifs at h with hc
  rw [hx]
  simp only [Option.some.injEq, forall_eq']
  rw [← @AddPostController.uploaded_eq_none x.2.1 x.2.2 metadata]
  cases hp : AddPostController.uploaded x.2.1 x.2.2 metadata with
  | none =>
      simp only [hp, Option.some.injEq] at h
      subst h
      exact iff_of_true rfl rfl
  | some post =>
      simp only [hp, Option.some.injEq] at h
      subst h
      simp

/-! ### Tab bars have captured a user -/

/-- Every tab bar on top has captured a user. -/
def Captured (s : System) : Prop :=
  ∀ c bar, (s.screens c).topBar = some bar → bar.userId ≠ none

theorem Captured.step {s s' : System} (hcap : Captured s) {e : SessionEvent}
    (h : s.step e = some s') : Captured s' := by
  obtain ⟨c, hscreens, -, hturn⟩ := (System.step_move h).acts
  intro d bar hbar
  by_cases hd : d = c
  · subst hd
    cases hturn with
    | idle _ htop => exact hcap d bar (htop ▸ hbar)
    | pushed uid _ htop =>
        rw [htop] at hbar
        cases hbar
        exact Option.some_ne_none uid
    | switched uid _ htop => exact hcap d bar (htop ▸ hbar)
    | covered _ htop =>
        rw [htop] at hbar
        cases hbar
  · rw [hscreens d hd] at hbar
    exact hcap d bar hbar

/-- In every run the user of the tab bar on top is the one that the Add Post screen has captured. -/
theorem System.captured {s : System} {es : List SessionEvent}
    (hr : Run System.step (fun _ _ => True) .init es s) : Linked s ∧ Captured s := by
  refine hr.invariant (fun s => Linked s ∧ Captured s) ?_ ⟨?_, ?_⟩
  · intro s e s' hs _ h
    exact ⟨hs.1.step h, hs.2.step h⟩
  · intro c bar hbar
    cases hbar
  · intro c bar hbar
    cases hbar

/-! ### The signed-out device -/

/-- Nobody is signed in on the device, whose Add Post screen has captured a user. -/
structure World.SignedOut (c : ℕ) (w : World) : Prop where
  sound : w.Sound
  currentUser : (w.dev c).currentUser = none
  userId : (w.dev c).userId ≠ none

theorem step_signedOut {e : Event} {w' : World} (huser : (w.dev c).currentUser = none)
    (h : step w e = some w') (he : ∀ a, e = .act c a → a.signsIn = false) :
    (w'.dev c).currentUser = none ∧ (w'.dev c).userId = (w.dev c).userId := by
  cases e with
  | act d a =>
      obtain ⟨hcur, hid, hdev⟩ := step_user h
      by_cases hd : d = c
      · subst hd
        rw [hcur, hid, huser]
        exact ⟨Action.signsIn.currentUser (he a rfl), Action.signsIn.userId (he a rfl) _⟩
      · rw [hdev c (Ne.symm hd)]
        exact ⟨huser, rfl⟩
  | deliver i =>
      obtain ⟨n, -, rfl⟩ := step_deliver h
      exact ⟨huser, rfl⟩
  | reject i =>
      obtain ⟨n, -, rfl⟩ := step_reject h
      exact ⟨huser, rfl⟩

theorem World.SignedOut.step (hw : w.SignedOut c) {e : Event} {w' : World}
    (h : CommServe.step w e = some w') (he : ∀ a, e = .act c a → a.signsIn = false) :
    w'.SignedOut c := by
  obtain ⟨huser, hid⟩ := step_signedOut hw.currentUser h he
  refine ⟨hw.sound.step h, huser, ?_⟩
  rw [hid]
  exact hw.userId

theorem World.SignedOut.after (hw : w.SignedOut c) {α : Type} (r : Except (Stop Trap) α × Effects) :
    ({ w with dev := Function.update w.dev c ((w.dev c).after r) } : World).SignedOut c := by
  refine ⟨⟨hw.sound.net, ?_, hw.sound.ids⟩, ?_, ?_⟩
  · intro d
    show (Function.update w.dev c ((w.dev c).after r) d).Copies w.submitted
    by_cases hd : d = c
    · subst hd
      rw [Function.update_self]
      exact (hw.sound.copies d).lists (fun _ _ => hw.sound.view) (.after r)
    · rw [Function.update_of_ne hd]
      exact hw.sound.copies d
  · show (Function.update w.dev c ((w.dev c).after r) c).currentUser = none
    rw [Function.update_self, Device.after_currentUser]
    exact hw.currentUser
  · show (Function.update w.dev c ((w.dev c).after r) c).userId ≠ none
    rw [Function.update_self, Device.after_userId]
    exact hw.userId

namespace LoggedOut

variable {s s' : LoggedOut}

/-- The invariant after a logout. -/
structure Sound (c : ℕ) (s : LoggedOut) : Prop where
  world : s.world.SignedOut c
  tabBarController : s.tabBarController ≠ none

/-- What a step adds to the histories. -/
structure Adds (s s' : LoggedOut) (failed : Bool) (written : List DbWrite) : Prop where
  failed : s'.failed = (s.failed || failed)
  written : s'.written = s.written ++ written

theorem Adds.of_world (s : LoggedOut) (w : World) : s.Adds { s with world := w } false [] := by
  constructor
  · rw [Bool.or_false]
  · rw [List.append_nil]

theorem Adds.quiet_iff {failed : Bool} {written : List DbWrite} (h : s.Adds s' failed written) :
    s'.Quiet ↔ s.Quiet ∧ failed = false ∧ written = [] := by
  constructor
  · rintro ⟨hfailed, hwritten⟩
    rw [h.failed, Bool.or_eq_false_iff] at hfailed
    rw [h.written, List.append_eq_nil_iff] at hwritten
    exact ⟨⟨hfailed.1, hwritten.1⟩, hfailed.2, hwritten.2⟩
  · rintro ⟨⟨hfailed, hwritten⟩, hf, hw⟩
    constructor
    · rw [h.failed, hfailed, hf]
      rfl
    · rw [h.written, hwritten, hw]
      rfl

theorem Harmless.of_none {e : LoggedOutEvent} (hconfigured : s.configured c e = none)
    (huploaded : s.uploaded c e = none) : s.Harmless c e := by
  refine ⟨hconfigured, ?_⟩
  intro data hdata
  rw [huploaded] at hdata
  cases hdata

theorem Adds.quiet_nothing (h : s.Adds s' false []) {e : LoggedOutEvent} (he : s.Harmless c e) :
    s'.Quiet ↔ s.Quiet ∧ s.Harmless c e := by
  rw [h.quiet_iff]
  exact and_congr_right fun _ => iff_of_true ⟨rfl, rfl⟩ he

/-! ### The steps -/

theorem act_eq_some (h : s.act c a = some s') :
    a.signsIn = false ∧ ∃ r, s.world.reaction c a = some r ∧ Issues s.world c a r.writes r.accounts
      r.submitted r.awards ∧ CommServe.step s.world (.act c a) = some s'.world ∧
      s'.tabBarController = s.tabBarController ∧ s.Adds s' (s.world.fails c a) r.writes := by
  unfold act at h
  split_ifs at h with ha
  obtain ⟨r, hr, rfl⟩ := Option.map_eq_some_iff.mp h
  have hreact := (react_eq_some hr).2
  exact ⟨by simpa using ha, r, hreact, (reaction_spec hreact).issues,
    Option.map_eq_some_iff.mpr ⟨r, hr, rfl⟩, rfl, rfl, rfl⟩

theorem display_eq_some {α : Type} {h : Handler α} (hd : s.display c h = some s') :
    s'.world = { s.world with
      dev := Function.update s.world.dev c ((s.world.dev c).after (h.run ⟨false, []⟩)) } ∧
    s'.tabBarController = s.tabBarController ∧
    s.Adds s' ((trapOf (h.run ⟨false, []⟩)).any Trap.isUnwrap) [] := by
  unfold display at hd
  split_ifs at hd
  obtain rfl := Option.some.inj hd
  refine ⟨rfl, rfl, rfl, ?_⟩
  simp

/-- The tab bar is there, so nothing happens. -/
theorem Sound.acknowledged (hs : s.Sound c) {error : Bool} (h : s.acknowledged c error = some s') :
    s' = s := by
  obtain ⟨bar, hbar⟩ := Option.ne_none_iff_exists'.mp hs.tabBarController
  unfold LoggedOut.acknowledged at h
  rw [hbar] at h
  split_ifs at h <;> exact (Option.some.inj h).symm

theorem Sound.display (hs : s.Sound c) {α : Type} {h : Handler α} (hd : s.display c h = some s') :
    s'.Sound c := by
  obtain ⟨hworld, hbar, -⟩ := display_eq_some hd
  constructor
  · rw [hworld]
    exact hs.world.after _
  · rw [hbar]
    exact hs.tabBarController

theorem Sound.step (hs : s.Sound c) {e : LoggedOutEvent} (h : s.step c e = some s') : s'.Sound c := by
  cases e with
  | other e =>
      cases e with
      | act d a =>
          simp only [LoggedOut.step] at h
          split_ifs at h with hd
          · obtain ⟨ha, r, -, -, hw, hbar, -⟩ := act_eq_some h
            constructor
            · refine hs.world.step hw ?_
              intro a' ha'
              obtain ⟨-, rfl⟩ := Event.act.inj ha'
              exact ha
            · rw [hbar]
              exact hs.tabBarController
          · obtain ⟨w, hw, rfl⟩ := Option.map_eq_some_iff.mp h
            refine ⟨hs.world.step hw ?_, hs.tabBarController⟩
            intro a' ha'
            exact absurd (Event.act.inj ha').1 hd
      | deliver _ | reject _ =>
          obtain ⟨w, hw, rfl⟩ := Option.map_eq_some_iff.mp h
          exact ⟨hs.world.step hw (by simp), hs.tabBarController⟩
  | cellForItemAt cell row => exact hs.display h
  | cellForRowAt row => exact hs.display h
  | didSelectRowAt row => exact hs.display h
  | acknowledged error =>
      rw [hs.acknowledged h]
      exact hs

/-- The actions of the device: only the end of an upload can add something. -/
theorem Sound.quiet_act (hs : s.Sound c) {a : Action} (h : s.act c a = some s') :
    s'.Quiet ↔ s.Quiet ∧ s.Harmless c (.other (.act c a)) := by
  obtain ⟨ha, r, hr, hissues, -, -, hadds⟩ := act_eq_some h
  rw [hs.world.sound.fails_signedOut hs.world.currentUser hs.world.userId] at hadds
  cases a with
  | submitUploaded i metadata =>
      rw [hadds.quiet_iff, submitUploaded_silent hr]
      refine and_congr_right fun _ => ?_
      unfold Harmless
      cases metadata with
      | none => simp [configured, LoggedOut.uploaded]
      | some url =>
          cases hx : s.world.uploading[i]? <;> simp [configured, LoggedOut.uploaded, hx]
  | _ =>
      have hws : r.writes = [] :=
        (hissues.signedOut hs.world.currentUser ha).resolve_right (by simp)
      rw [hws] at hadds
      exact hadds.quiet_nothing (.of_none rfl rfl)

/-- **The condition is exact**: a step keeps everything quiet if and only if it is harmless. -/
theorem Sound.quiet_step (hs : s.Sound c) {e : LoggedOutEvent} (h : s.step c e = some s') :
    s'.Quiet ↔ s.Quiet ∧ s.Harmless c e := by
  have hcopies := hs.world.sound.copies c
  have hsub : ¬ Trap.subscript.isUnwrap = true := Bool.false_ne_true
  cases e with
  | other e =>
      cases e with
      | act d a =>
          simp only [LoggedOut.step] at h
          split_ifs at h with hd
          · subst hd
            exact hs.quiet_act h
          · obtain ⟨w, -, rfl⟩ := Option.map_eq_some_iff.mp h
            refine (Adds.of_world s w).quiet_nothing (.of_none rfl ?_)
            unfold LoggedOut.uploaded
            split
            case h_1 d' i url he =>
              obtain ⟨rfl, -⟩ := Event.act.inj (LoggedOutEvent.other.inj he)
              exact if_neg hd
            case h_2 => rfl
      | deliver _ | reject _ =>
          obtain ⟨w, -, rfl⟩ := Option.map_eq_some_iff.mp h
          exact (Adds.of_world s w).quiet_nothing (.of_none rfl rfl)
  | cellForItemAt cell row =>
      obtain ⟨-, -, hadds⟩ := display_eq_some h
      rw [hs.world.currentUser, HomeViewCollection.cellForItemAt_signedOut (hcopies.whole cell)] at hadds
      rw [hadds.quiet_iff]
      refine and_congr_right fun _ => ?_
      simp [Harmless, configured, LoggedOut.uploaded]
  | cellForRowAt row =>
      obtain ⟨-, -, hadds⟩ := display_eq_some h
      rw [unwraps_of_avoids (PinController.cellForRowAt_avoids hsub hcopies.pictured.whole row)] at hadds
      exact hadds.quiet_nothing (.of_none rfl rfl)
  | didSelectRowAt row =>
      obtain ⟨-, -, hadds⟩ := display_eq_some h
      rw [unwraps_of_avoids (PinController.didSelectRowAt_avoids hsub hcopies.pictured row)] at hadds
      exact hadds.quiet_nothing (.of_none rfl rfl)
  | acknowledged error =>
      rw [hs.acknowledged h]
      exact (Adds.of_world s s.world).quiet_nothing (.of_none rfl rfl)

/-! ### Every run -/

theorem Sound.start {es : List SessionEvent} {t : System}
    (hr : Run System.step (fun _ _ => True) .init (es ++ [.handleLogout c]) t) :
    (start c t).Sound c := by
  obtain ⟨fs, hfs⟩ := System.refines hr
  have hsound := Run.sound hfs
  obtain ⟨t', hr', -, hlogout⟩ := hr.last
  obtain ⟨hlinked, hcaptured⟩ := System.captured hr'
  obtain ⟨bar, hbar, hlogout⟩ := Option.bind_eq_some_iff.mp hlogout
  obtain ⟨w, hw, hlogout⟩ := Option.bind_eq_some_iff.mp hlogout
  obtain rfl := Option.some.inj hlogout
  have htop := Screens.bar_eq_some hbar
  obtain ⟨hcur, hid, -⟩ := step_user hw
  refine ⟨⟨hsound, hcur, ?_⟩, ?_⟩
  · show (w.dev c).userId ≠ none
    rw [hid]
    show (t'.world.dev c).userId ≠ none
    rw [← hlinked c bar htop]
    exact hcaptured c bar htop
  · have hcovered : (LoggedOut.start c { t' with
        world := w
        screens := Function.update t'.screens c (t'.screens c).handleLogout }).tabBarController =
          (t'.screens c).topBar := by
      simp [LoggedOut.start, Screens.handleLogout, Screens.topBar]
    rw [hcovered, htop]
    exact Option.some_ne_none bar

/-- **After a logout everything stays quiet exactly if every step is harmless**: no cell of the feed is
configured for a post, and no upload ends well for a pending submission. -/
theorem quiet_iff_harmless {es : List SessionEvent} {t : System}
    (hr : Run System.step (fun _ _ => True) .init (es ++ [.handleLogout c]) t)
    {fs : List LoggedOutEvent} (hs : Run (step c) (fun _ _ => True) (start c t) fs s) :
    s.Quiet ↔ Run (step c) (Harmless c) (start c t) fs s := by
  rw [hs.exact (Sound c) Quiet (fun _ _ _ hs h => hs.step h) (fun _ _ _ hs h => hs.quiet_step h)
    (.start hr)]
  exact and_iff_right ⟨rfl, rfl⟩

/-- A user signs up, signs in, submits and pins `p`, which both lists show, and presses Submit for `q`; the
image of `q` is being uploaded. -/
def pendingSession : List SessionEvent :=
  signUpSession 0 0 "u" ++ [.loginPressed 0, .signedIn 0 0 (some "u")] ++
    (submitScript 0 "p" (some "p.png") ++ pinScript 0 ++ openPinsScript 0 ++
      (submitScript 0 "q" none).take 2).map .other

/-- After the logout a snapshot arrives, the rows of the Pinned list are laid out, buttons are tapped, and
the upload fails. -/
def quietScript : List LoggedOutEvent :=
  [.other (.act 0 (.homeSnapshot .study 0)), .cellForRowAt 0, .other (.act 0 (.homeCheck .study 0)),
    .other (.act 0 (.pinPin ⟨0, false⟩)), .other (.act 0 (.submitUploaded 0 none))]

theorem quiet_iff_harmless_sample : ∃ (t : System) (s : LoggedOut),
    Run (step 0) (fun _ _ => True) (start 0 t) quietScript s ∧
      (s.world.dev 0).postArray .study ≠ [] ∧ s.Quiet := by
  obtain ⟨t, hr, hrun⟩ := exists_run_of_exec System.step (fun _ _ => True) .init
    (pendingSession ++ [.handleLogout 0])
    (fun t => (exec (step 0) (Harmless 0) (start 0 t) quietScript).any
      (fun s => decide ((s.world.dev 0).postArray .study ≠ [])) = true) (by decide +kernel)
  obtain ⟨s, hs, hfeed⟩ := exists_run_of_exec (step 0) (Harmless 0) (start 0 t) quietScript
    (fun s => (s.world.dev 0).postArray .study ≠ []) hrun
  have hs' := hs.mono (fun _ _ _ => trivial)
  exact ⟨t, s, hs', hfeed, (quiet_iff_harmless hr hs').mpr hs⟩

/-- Configuring the first cell of the feed fails at the user, and the upload of `q` ends with a write for
the user who has signed out. -/
theorem loggedOut_not_quiet : ∃ t : System,
    Run System.step (fun _ _ => True) .init (pendingSession ++ [.handleLogout 0]) t ∧
    (∃ s : LoggedOut, Run (step 0) (fun _ _ => True) (start 0 t) [.cellForItemAt .study 0] s ∧
      s.failed = true ∧ ¬ s.Quiet) ∧
    ∃ s : LoggedOut, Run (step 0) (fun _ _ => True) (start 0 t)
        [.other (.act 0 (.submitUploaded 0 (some (some "q.png"))))] s ∧
      s.written = [AddPostController.store (scriptPost "u" "q" (some "q.png"))] ∧ ¬ s.Quiet := by
  obtain ⟨t, hr, hfailed, hwritten⟩ := exists_run_of_exec System.step (fun _ _ => True) .init
    (pendingSession ++ [.handleLogout 0])
    (fun t => (exec (step 0) (fun _ _ => True) (start 0 t) [.cellForItemAt .study 0]).any
        (fun s => decide (s.failed = true)) = true ∧
      (exec (step 0) (fun _ _ => True) (start 0 t)
        [.other (.act 0 (.submitUploaded 0 (some (some "q.png"))))]).any (fun s =>
          decide (s.written = [AddPostController.store (scriptPost "u" "q" (some "q.png"))])) = true)
    (by decide +kernel)
  obtain ⟨s, hs, hs'⟩ := exists_run_of_exec _ _ _ _ (fun s : LoggedOut => s.failed = true) hfailed
  obtain ⟨u, hu, hu'⟩ := exists_run_of_exec _ _ _ _
    (fun s : LoggedOut => s.written = [AddPostController.store (scriptPost "u" "q" (some "q.png"))]) hwritten
  refine ⟨t, hr, ⟨s, hs, hs', ?_⟩, ⟨u, hu, hu', ?_⟩⟩
  · intro hquiet
    rw [hquiet.unwrapped] at hs'
    cases hs'
  · intro hquiet
    rw [hquiet.silent] at hu'
    cases hu'

end LoggedOut

end CommServe
