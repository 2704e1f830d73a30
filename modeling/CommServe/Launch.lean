import CommServe.Session
import CommServe.References

/-! # Launching the app again

`AppDelegate` decides what an app shows when it is launched by the flag `UserIsLoggedIn` of the user
defaults: the tab bar, or the welcome pages that lead to a `LoginController`.  The flag is not the state of
`Auth.auth()`: a sign-in sets it, `handleLogout` and the creation of an account clear it, and both outlive
the process.

`Installed` adds to the system of all apps the phones they run on, and a step that ends the process of a
phone at any moment, before a callback or after a trap, and launches the app again.  Every process is a
device of its own in the world: what the old one had in memory stays with a device that acts no more, its
writes are in flight as before, and the new one reads the server without them.  So a run with launches is a
run of the world (`Installed.refines`), and what was proved of the world holds across launches. -/

namespace CommServe

open RecordStore Sync Transition

/-- The apps as they are installed on phones. -/
structure Installed where
  system : System
  /-- How often the app of a phone was launched again. -/
  launches : ℕ → ℕ
  /-- `defaults.bool(forKey: "UserIsLoggedIn")`. -/
  userIsLoggedIn : ℕ → Bool
  /-- The app shows its `WelcomeController`. -/
  welcome : ℕ → Bool

inductive LaunchEvent where
  /-- A step of the process that runs on phone `p`, or of the server. -/
  | session (p : ℕ) (e : SessionEvent)
  /-- `WelcomeController.jumpToLogin`. -/
  | jumpToLogin (p : ℕ)
  /-- The process ends, and `application(_:didFinishLaunchingWithOptions:)` is called in a new one. -/
  | launch (p : ℕ)
deriving DecidableEq, Repr

/-- A step that changes who is signed in. -/
inductive Auth where
  | signedIn (uid : String)
  | signedUp (uid : String)
  | loggedOut
deriving DecidableEq, Repr

/-- Who is signed in afterwards. -/
def Auth.user : Auth → Option String
  | .signedIn uid => some uid
  | .signedUp uid => some uid
  | .loggedOut => none

/-- The value of `UserIsLoggedIn` that goes with it. -/
def Auth.flag : Auth → Bool
  | .signedIn _ => true
  | .signedUp _ => false
  | .loggedOut => false

def SessionEvent.auth : SessionEvent → Option Auth
  | .signedIn _ _ (some uid) => some (.signedIn uid)
  | .other (.act _ (.accountCreated _ _ (some uid))) => some (.signedUp uid)
  | .handleLogout _ => some .loggedOut
  | _ => none

/-- The process that takes a step; the server's steps are nobody's. -/
def SessionEvent.process : SessionEvent → Option ℕ
  | .loginPressed c => some c
  | .signedIn c _ _ => some c
  | .signupPressed c => some c
  | .cancelPressed c => some c
  | .handleLogout c => some c
  | .other (.act c _) => some c
  | .other _ => none

/-- The step is a tap on the `LoginController`. -/
def SessionEvent.atLogin : SessionEvent → Bool
  | .loginPressed _ => true
  | .signupPressed _ => true
  | _ => false

/-- What a step does to the user of phone `p`. -/
def LaunchEvent.auth (p : ℕ) : LaunchEvent → Option Auth
  | .session q e => if q = p then e.auth else none
  | _ => none

/-- The last step that changed who is signed in on phone `p`. -/
def lastAuth (p : ℕ) (es : List LaunchEvent) : Option Auth :=
  es.foldl (fun last e => (e.auth p).or last) none

/-- The screens with a tab bar as the root. -/
def Screens.root (bar : CustomTabBarController) : Screens := { Screens.launch with top := [bar] }

namespace Installed

/-- Every app is launched for the first time. -/
def init : Installed := ⟨.init, fun _ => 0, fun _ => false, fun _ => true⟩

variable (s : Installed)

/-- The process that runs on phone `p`. -/
def process (p : ℕ) : ℕ := Nat.pair p (s.launches p)

/-- `Auth.auth().currentUser` of phone `p`. -/
def user (p : ℕ) : Option String := (s.system.world.dev (s.process p)).currentUser

/-- The process `c` finds the user of its phone signed in. -/
def restored (w : World) (c : ℕ) : Option String → Option World
  | some uid => CommServe.step w (.act c (.signIn uid))
  | none => some w

/-- `application(_:didFinishLaunchingWithOptions:)` of phone `p`. -/
def launch (p : ℕ) : Option Installed := do
  let c := Nat.pair p (s.launches p + 1)
  let launches := Function.update s.launches p (s.launches p + 1)
  let w ← restored s.system.world c (s.user p)
  if s.userIsLoggedIn p = true then do
    let w ← System.viewDidLoad w c true
    some { s with
      system := { s.system with
        world := w
        screens := Function.update s.system.screens c (.root ⟨(w.dev c).currentUser⟩) }
      launches := launches
      welcome := Function.update s.welcome p false }
  else
    some { s with
      system := { s.system with world := w }
      launches := launches
      welcome := Function.update s.welcome p true }

def jumpToLogin (p : ℕ) : Option Installed :=
  if s.welcome p = true ∧ (s.system.world.dev (s.process p)).crashed = false then
    some { s with welcome := Function.update s.welcome p false }
  else none

/-- A step of the process of phone `p`; its welcome pages cover the `LoginController`. -/
def session (p : ℕ) (e : SessionEvent) : Option Installed :=
  if e.process.all (· = s.process p) = true ∧ ¬ (e.atLogin = true ∧ s.welcome p = true) then
    (s.system.step e).map fun t => { s with
      system := t
      -- `defaults.set(_:forKey: "UserIsLoggedIn")`
      userIsLoggedIn := Function.update s.userIsLoggedIn p
        ((e.auth.map Auth.flag).getD (s.userIsLoggedIn p)) }
  else none

/-- One step of the installed apps. -/
def step : LaunchEvent → Option Installed
  | .session p e => s.session p e
  | .jumpToLogin p => s.jumpToLogin p
  | .launch p => s.launch p

end Installed

variable {s s' : Installed} {w : World} {c p : ℕ}

/-! ### Steps of a process -/

theorem present_eq_some {s s' : System} {x : Screens} (h : s.present c x = some s') :
    s'.world = s.world ∧ s'.screens = Function.update s.screens c x := by
  unfold System.present at h
  split_ifs at h
  obtain rfl := Option.some.inj h
  exact ⟨rfl, rfl⟩

theorem viewDidLoad_dev {w w' : World} {onTop : Bool} (h : System.viewDidLoad w c onTop = some w') :
    (w'.dev c).currentUser = (w.dev c).currentUser ∧ ∀ d, d ≠ c → w'.dev d = w.dev d := by
  unfold System.viewDidLoad at h
  split_ifs at h
  · obtain ⟨huser, -, hdev⟩ := step_user h
    exact ⟨huser, hdev⟩
  · obtain rfl := Option.some.inj h
    exact ⟨rfl, fun _ _ => rfl⟩

/-- What a step of process `c` does to the processes. -/
structure System.Taken (s : System) (e : SessionEvent) (s' : System) (c : ℕ) : Prop where
  dev : ∀ d, d ≠ c → s'.world.dev d = s.world.dev d
  screens : ∀ d, d ≠ c → s'.screens d = s.screens d
  user : (s'.world.dev c).currentUser =
    (e.auth.map Auth.user).getD (s.world.dev c).currentUser

theorem System.Taken.present {s s' : System} {x : Screens} {e : SessionEvent}
    (h : s.present c x = some s') (he : e.auth = none) : s.Taken e s' c := by
  obtain ⟨hworld, hscreens⟩ := present_eq_some h
  constructor
  · intro d _
    rw [hworld]
  · intro d hd
    rw [hscreens, Function.update_of_ne hd]
  · rw [hworld, he]
    rfl

theorem System.step_taken {s s' : System} {e : SessionEvent} (h : s.step e = some s')
    (he : e.process = some c) : s.Taken e s' c := by
  cases e with
  | loginPressed c =>
      obtain rfl := Option.some.inj he
      simp only [System.step, System.loginPressed] at h
      split_ifs at h
      exact .present h rfl
  | signupPressed c =>
      obtain rfl := Option.some.inj he
      simp only [System.step, System.signupPressed] at h
      split_ifs at h
      exact .present h rfl
  | cancelPressed c =>
      obtain rfl := Option.some.inj he
      obtain ⟨j, -, h⟩ := Option.bind_eq_some_iff.mp h
      exact .present h rfl
  | handleLogout c =>
      obtain rfl := Option.some.inj he
      obtain ⟨bar, -, h⟩ := Option.bind_eq_some_iff.mp h
      obtain ⟨w, hw, h⟩ := Option.bind_eq_some_iff.mp h
      obtain rfl := Option.some.inj h
      obtain ⟨huser, -, hdev⟩ := step_user hw
      exact ⟨hdev, fun d hd => Function.update_of_ne hd _ _, huser⟩
  | signedIn c i result =>
      obtain rfl := Option.some.inj he
      obtain ⟨n, -, h⟩ := Option.bind_eq_some_iff.mp h
      cases result with
      | none => exact .present h rfl
      | some uid =>
          obtain ⟨w, hw, h⟩ := Option.bind_eq_some_iff.mp h
          obtain ⟨w', hw', h⟩ := Option.bind_eq_some_iff.mp h
          obtain rfl := Option.some.inj h
          obtain ⟨huser, -, hdev⟩ := step_user hw
          obtain ⟨huser', hdev'⟩ := viewDidLoad_dev hw'
          constructor
          · intro d hd
            exact (hdev' d hd).trans (hdev d hd)
          · intro d hd
            exact Function.update_of_ne hd _ _
          · exact huser'.trans huser
  | other e =>
      cases e with
      | act c a =>
          obtain rfl := Option.some.inj he
          simp only [System.step, System.other] at h
          split_ifs at h with ho
          obtain ⟨w, hw, rfl⟩ := Option.map_eq_some_iff.mp h
          obtain ⟨huser, -, hdev⟩ := step_user hw
          refine ⟨hdev, fun d hd => Function.update_of_ne hd _ _, huser.trans ?_⟩
          cases a with
          | signIn uid => cases ho
          | signOut => cases ho
          | openTabs => cases ho
          | accountCreated j i result => cases result <;> rfl
          | _ => rfl
      | deliver i => cases he
      | reject i => cases he

theorem System.step_server {s s' : System} {e : SessionEvent} (h : s.step e = some s')
    (he : e.process = none) : e.auth = none ∧ s'.world.dev = s.world.dev ∧ s'.screens = s.screens := by
  cases e with
  | other e =>
      cases e with
      | act c a => cases he
      | deliver i =>
          obtain ⟨w, hw, rfl⟩ := Option.map_eq_some_iff.mp h
          obtain ⟨n, -, rfl⟩ := step_deliver hw
          exact ⟨rfl, rfl, rfl⟩
      | reject i =>
          obtain ⟨w, hw, rfl⟩ := Option.map_eq_some_iff.mp h
          obtain ⟨n, -, rfl⟩ := step_reject hw
          exact ⟨rfl, rfl, rfl⟩
  | _ => cases he

/-- As long as nobody touches the `LoginController`, nothing comes over it. -/
theorem System.step_covered {s s' : System} {e : SessionEvent} (h : s.step e = some s')
    (hl : s.screens c = .launch) (hc : e.process = some c) (he : e.atLogin = false) :
    s'.screens c = .launch := by
  cases e with
  | loginPressed c => cases he
  | signupPressed c => cases he
  | cancelPressed c =>
      obtain rfl := Option.some.inj hc
      obtain ⟨j, hj, -⟩ := Option.bind_eq_some_iff.mp h
      rw [hl] at hj
      cases hj
  | handleLogout c =>
      obtain rfl := Option.some.inj hc
      obtain ⟨bar, hbar, -⟩ := Option.bind_eq_some_iff.mp h
      rw [hl] at hbar
      cases hbar
  | signedIn c i result =>
      obtain rfl := Option.some.inj hc
      obtain ⟨n, hn, -⟩ := Option.bind_eq_some_iff.mp h
      rw [hl] at hn
      cases hn
  | other e =>
      cases e with
      | act c a =>
          obtain rfl := Option.some.inj hc
          simp only [System.step, System.other] at h
          split_ifs at h
          obtain ⟨w, -, rfl⟩ := Option.map_eq_some_iff.mp h
          simp only [Function.update_self, hl]
          unfold Screens.after
          split <;> rfl
      | deliver i => cases hc
      | reject i => cases hc

namespace Installed

/-! ### Launches -/

/-- A process that was never launched. -/
structure Fresh (s : System) (c : ℕ) : Prop where
  dev : s.world.dev c = .new
  screens : s.screens c = .launch

theorem restored_new {w : World} (hdev : w.dev c = .new) {user : Option String}
    (hu : ∀ uid, user = some uid → uid ∈ w.accounts) :
    ∃ w', restored w c user = some w' ∧
      w'.dev = Function.update w.dev c { Device.new with currentUser := user } ∧
      w'.server = w.server := by
  cases user with
  | none =>
      refine ⟨w, rfl, ?_, rfl⟩
      rw [eq_comm, Function.update_eq_self_iff, hdev]
      rfl
  | some uid =>
      have hreact : react w c (.signIn uid) =
          some (w.local { Device.new with currentUser := some uid }) := by
        unfold react
        rw [hdev, if_neg (by decide)]
        show w.signIn c uid = _
        rw [World.signIn, if_pos (hu uid rfl), hdev]
      refine ⟨w.apply c (w.local { Device.new with currentUser := some uid }), ?_, rfl, ?_⟩
      · show CommServe.step w (.act c (.signIn uid)) = _
        rw [CommServe.step, hreact]
        rfl
      · simp [World.apply, World.local, Net.issue]

theorem viewDidLoad_new {w : World} {user : Option String}
    (hdev : w.dev c = { Device.new with currentUser := user }) :
    ∃ w', System.viewDidLoad w c true = some w' ∧
      w'.dev = Function.update w.dev c { Device.new with currentUser := user, userId := user, tabs := true } ∧
      w'.server = w.server := by
  have hreact : react w c .openTabs =
      some (w.local { Device.new with currentUser := user, userId := user, tabs := true }) := by
    unfold react
    rw [hdev, if_neg (by simp [Device.new])]
    show w.openTabs c = _
    rw [World.openTabs, hdev]
    rfl
  refine ⟨w.apply c (w.local { Device.new with currentUser := user, userId := user, tabs := true }), ?_, rfl, ?_⟩
  · show CommServe.step w (.act c .openTabs) = _
    rw [CommServe.step, hreact]
    rfl
  · simp [World.apply, World.local, Net.issue]

/-- What the new process of phone `p` shows, and what is as before. -/
structure Launched (s s' : Installed) (p : ℕ) : Prop where
  launches : s'.launches = Function.update s.launches p (s.launches p + 1)
  defaults : s'.userIsLoggedIn = s.userIsLoggedIn
  welcome : s'.welcome = Function.update s.welcome p (!s.userIsLoggedIn p)
  server : s'.system.world.server = s.system.world.server
  dev : s'.system.world.dev = Function.update s.system.world.dev (s'.process p)
    { Device.new with
      currentUser := s.user p
      userId := if s.userIsLoggedIn p = true then s.user p else none
      tabs := s.userIsLoggedIn p }
  screens : s'.system.screens = Function.update s.system.screens (s'.process p)
    (if s.userIsLoggedIn p = true then .root ⟨s.user p⟩ else .launch)

theorem launched_process {s s' : Installed}
    (h : s'.launches = Function.update s.launches p (s.launches p + 1)) :
    s'.process p = Nat.pair p (s.launches p + 1) := by
  rw [process, h, Function.update_self]

/-- An app can be launched again when the account of its user exists. -/
theorem launch_eq_some {s : Installed} (hf : Fresh s.system (Nat.pair p (s.launches p + 1)))
    (hu : ∀ uid, s.user p = some uid → uid ∈ s.system.world.accounts) :
    ∃ s', s.launch p = some s' ∧ s.Launched s' p := by
  obtain ⟨w, hw, hdev, hserver⟩ := restored_new hf.dev hu
  have hself : w.dev (Nat.pair p (s.launches p + 1)) = { Device.new with currentUser := s.user p } := by
    rw [hdev, Function.update_self]
  unfold launch
  simp only [hw, Option.bind_eq_bind, Option.bind_some]
  by_cases hflag : s.userIsLoggedIn p = true
  · obtain ⟨w', hw', hdev', hserver'⟩ := viewDidLoad_new hself
    rw [if_pos hflag, hw']
    refine ⟨_, rfl, rfl, rfl, ?_, hserver'.trans hserver, ?_, ?_⟩
    · rw [hflag]
      rfl
    · rw [launched_process rfl, if_pos hflag]
      show w'.dev = _
      rw [hdev', hdev, Function.update_idem, hflag]
    · rw [launched_process rfl, if_pos hflag]
      show Function.update s.system.screens (Nat.pair p (s.launches p + 1))
        (.root ⟨(w'.dev (Nat.pair p (s.launches p + 1))).currentUser⟩) = _
      rw [hdev', Function.update_self]
  · rw [if_neg hflag]
    refine ⟨_, rfl, rfl, rfl, ?_, hserver, ?_, ?_⟩
    · rw [Bool.eq_false_iff.mpr hflag]
      rfl
    · rw [launched_process rfl, if_neg hflag, Bool.eq_false_iff.mpr hflag]
      exact hdev
    · rw [launched_process rfl, if_neg hflag, eq_comm, Function.update_eq_self_iff]
      exact hf.screens.symm

/-! ### Refinement -/

theorem restored_run {w w' : World} {user : Option String} (h : restored w c user = some w') :
    ∃ es, Run CommServe.step (fun _ _ => True) w es w' := by
  cases user with
  | none =>
      obtain rfl := Option.some.inj h
      exact ⟨[], .nil _⟩
  | some uid => exact ⟨[.act c (.signIn uid)], .cons trivial h (.nil _)⟩

theorem launch_run {s s' : Installed} (h : s.launch p = some s') :
    ∃ es, Run CommServe.step (fun _ _ => True) s.system.world es s'.system.world := by
  obtain ⟨w, hw, h⟩ := Option.bind_eq_some_iff.mp h
  obtain ⟨es, hes⟩ := restored_run hw
  split_ifs at h
  · obtain ⟨w', hw', h⟩ := Option.bind_eq_some_iff.mp h
    obtain rfl := Option.some.inj h
    have hopen : CommServe.step w (.act (Nat.pair p (s.launches p + 1)) .openTabs) = some w' := hw'
    exact ⟨es ++ [_], hes.trans (.cons trivial hopen (.nil _))⟩
  · obtain rfl := Option.some.inj h
    exact ⟨es, hes⟩

theorem step_run {s s' : Installed} {e : LaunchEvent} (h : s.step e = some s') :
    ∃ es, Run CommServe.step (fun _ _ => True) s.system.world es s'.system.world := by
  cases e with
  | session p e =>
      simp only [step, session] at h
      split_ifs at h
      obtain ⟨t, ht, rfl⟩ := Option.map_eq_some_iff.mp h
      exact System.step_run ht
  | jumpToLogin p =>
      simp only [step, jumpToLogin] at h
      split_ifs at h
      obtain rfl := Option.some.inj h
      exact ⟨[], .nil _⟩
  | launch p => exact launch_run h

/-- **The installed apps refine the world**, with a device for every process. -/
theorem refines {ok : Installed → LaunchEvent → Prop} {es : List LaunchEvent}
    (hr : Run Installed.step ok .init es s) :
    ∃ fs, Run CommServe.step (fun _ _ => True) .init fs s.system.world := by
  refine hr.invariant (fun s => ∃ fs, Run CommServe.step (fun _ _ => True) .init fs s.system.world)
    ?_ ⟨[], .nil _⟩
  intro s e s' hs _ hst
  obtain ⟨fs, hs⟩ := hs
  obtain ⟨gs, hst⟩ := step_run hst
  exact ⟨fs ++ gs, hs.trans hst⟩

/-! ### What outlives a process -/

/-- The invariant of the installed apps, with the last step that changed who is signed in on phone `p`. -/
structure Kept (p : ℕ) (s : Installed) (last : Option Auth) : Prop where
  filed : Filed s.system.world
  fresh : ∀ q k, s.launches q < k → Fresh s.system (Nat.pair q k)
  /-- Nothing was opened under the welcome pages. -/
  welcome : ∀ q, s.welcome q = true → s.system.screens (s.process q) = .launch
  user : s.user p = last.bind Auth.user
  flag : s.userIsLoggedIn p = (last.map Auth.flag).getD false

theorem Fresh.init : Fresh System.init c := ⟨rfl, rfl⟩

theorem Kept.init : Kept p .init none where
  filed := .init
  fresh _ _ _ := .init
  welcome _ _ := rfl
  user := rfl
  flag := rfl

theorem process_ne {q k : ℕ} (h : s.launches q < k) (p : ℕ) : Nat.pair q k ≠ s.process p := by
  intro he
  obtain ⟨rfl, rfl⟩ := Nat.pair_eq_pair.mp he
  omega

theorem process_inj {q : ℕ} (h : q ≠ p) : s.process q ≠ s.process p := by
  intro he
  exact h (Nat.pair_eq_pair.mp he).1

theorem session_eq_some {e : SessionEvent} (h : s.session p e = some s') :
    (∀ c, e.process = some c → c = s.process p) ∧ (e.atLogin = true → s.welcome p = false) ∧
      ∃ t, s.system.step e = some t ∧ s' = { s with
        system := t
        userIsLoggedIn := Function.update s.userIsLoggedIn p
          ((e.auth.map Auth.flag).getD (s.userIsLoggedIn p)) } := by
  unfold session at h
  split_ifs at h with hp
  obtain ⟨t, ht, rfl⟩ := Option.map_eq_some_iff.mp h
  refine ⟨?_, ?_, t, ht, rfl⟩
  · intro c hc
    simpa [hc] using hp.1
  · intro hl
    simpa [hl] using hp.2

variable {last : Option Auth}

theorem Kept.session {q : ℕ} (h : Kept p s last) {e : SessionEvent} (hst : s.session q e = some s')
    (hfiled : Filed s'.system.world) :
    Kept p s' (((LaunchEvent.session q e).auth p).or last) := by
  obtain ⟨hproc, hlogin, t, ht, rfl⟩ := session_eq_some hst
  -- a process that does not take the step is as before
  have hframe : ∀ d, d ≠ s.process q →
      t.world.dev d = s.system.world.dev d ∧ t.screens d = s.system.screens d := by
    intro d hd
    cases hc : e.process with
    | none =>
        obtain ⟨-, hdev, hscreens⟩ := System.step_server ht hc
        exact ⟨by rw [hdev], by rw [hscreens]⟩
    | some c =>
        obtain rfl := hproc c hc
        have htaken := System.step_taken ht hc
        exact ⟨htaken.dev d hd, htaken.screens d hd⟩
  constructor
  case filed => exact hfiled
  case fresh =>
    intro r k hk
    obtain ⟨hdev, hscreens⟩ := hframe _ (process_ne hk q)
    have hold := h.fresh r k hk
    exact ⟨hdev.trans hold.dev, hscreens.trans hold.screens⟩
  case welcome =>
    intro r hr
    show t.screens (s.process r) = _
    rcases eq_or_ne r q with rfl | hne
    · cases hc : e.process with
      | none => exact (System.step_server ht hc).2.2 ▸ h.welcome r hr
      | some c =>
          obtain rfl := hproc c hc
          refine System.step_covered ht (h.welcome r hr) hc ?_
          by_contra hl
          have hpages := hlogin (by simpa using hl)
          rw [hr] at hpages
          cases hpages
    · rw [(hframe _ (process_inj hne)).2]
      exact h.welcome r hr
  case user =>
    show (t.world.dev (s.process p)).currentUser = _
    rcases eq_or_ne p q with rfl | hne
    · have hauth : (t.world.dev (s.process p)).currentUser = (e.auth.map Auth.user).getD (s.user p) := by
        cases hc : e.process with
        | none =>
            obtain ⟨he, hdev, -⟩ := System.step_server ht hc
            rw [hdev, he]
            rfl
        | some c =>
            obtain rfl := hproc c hc
            exact (System.step_taken ht hc).user
      rw [hauth, h.user, LaunchEvent.auth, if_pos rfl]
      cases e.auth <;> rfl
    · rw [(hframe _ (process_inj hne)).1, LaunchEvent.auth, if_neg (Ne.symm hne)]
      exact h.user
  case flag =>
    show Function.update s.userIsLoggedIn q _ p = _
    rcases eq_or_ne p q with rfl | hne
    · rw [Function.update_self, h.flag, LaunchEvent.auth, if_pos rfl]
      cases e.auth <;> rfl
    · rw [Function.update_of_ne hne, LaunchEvent.auth, if_neg (Ne.symm hne)]
      exact h.flag

theorem Kept.launched {q : ℕ} (h : Kept p s last) (hl : s.Launched s' q)
    (hfiled : Filed s'.system.world) : Kept p s' last := by
  have hnew := launched_process hl.launches
  have hprocess : ∀ r, r ≠ q → s'.process r = s.process r := by
    intro r hr
    rw [process, hl.launches, Function.update_of_ne hr]
    rfl
  have hother : ∀ r, r ≠ q → s.process r ≠ s'.process q := by
    intro r hr
    exact hprocess r hr ▸ process_inj hr
  constructor
  case filed => exact hfiled
  case fresh =>
    intro r k hk
    have hne : Nat.pair r k ≠ s'.process q := process_ne hk q
    have hk' : s.launches r < k := by
      rw [hl.launches] at hk
      rcases eq_or_ne r q with rfl | hr
      · rw [Function.update_self] at hk
        omega
      · rwa [Function.update_of_ne hr] at hk
    have hold := h.fresh r k hk'
    constructor
    · rw [hl.dev, Function.update_of_ne hne]
      exact hold.dev
    · rw [hl.screens, Function.update_of_ne hne]
      exact hold.screens
  case welcome =>
    intro r hr
    rw [hl.welcome] at hr
    rcases eq_or_ne r q with rfl | hne
    · rw [Function.update_self] at hr
      have hflag : s.userIsLoggedIn r = false := by simpa using hr
      rw [hl.screens, Function.update_self, hflag]
      rfl
    · rw [Function.update_of_ne hne] at hr
      rw [hl.screens, hprocess r hne, Function.update_of_ne (hother r hne)]
      exact h.welcome r hr
  case user =>
    rw [← h.user]
    show (s'.system.world.dev (s'.process p)).currentUser = _
    rcases eq_or_ne p q with rfl | hne
    · rw [hl.dev, Function.update_self]
    · rw [hl.dev, hprocess p hne, Function.update_of_ne (hother p hne)]
      rfl
  case flag => rw [hl.defaults, h.flag]

theorem Kept.launch (h : Kept p s last) (q : ℕ) :
    ∃ s', s.launch q = some s' ∧ s.Launched s' q :=
  launch_eq_some (h.fresh q _ (Nat.lt_succ_self _)) fun uid hu => h.filed.user _ uid hu

theorem Kept.step (h : Kept p s last) {e : LaunchEvent} (hst : s.step e = some s') :
    Kept p s' ((e.auth p).or last) := by
  have hfiled : Filed s'.system.world := by
    obtain ⟨es, hrun⟩ := step_run hst
    exact hrun.invariant Filed (fun _ _ _ h _ hst => h.step hst) h.filed
  cases e with
  | session q e => exact h.session hst hfiled
  | jumpToLogin q =>
      simp only [Installed.step, Installed.jumpToLogin] at hst
      split_ifs at hst
      obtain rfl := Option.some.inj hst
      refine ⟨h.filed, h.fresh, ?_, h.user, h.flag⟩
      intro r hr
      rcases eq_or_ne r q with rfl | hne
      · have hclosed : Function.update s.welcome r false r = true := hr
        rw [Function.update_self] at hclosed
        cases hclosed
      · have hopen : Function.update s.welcome q false r = true := hr
        rw [Function.update_of_ne hne] at hopen
        exact h.welcome r hopen
  | launch q =>
      obtain ⟨t, ht, hl⟩ := h.launch q
      obtain rfl := Option.some.inj (hst.symm.trans ht)
      exact h.launched hl hfiled

theorem Kept.flag_iff (h : Kept p s last) :
    s.userIsLoggedIn p = true ↔ ∃ uid, last = some (.signedIn uid) := by
  rw [h.flag]
  constructor
  · intro hflag
    cases last with
    | none => cases hflag
    | some a =>
        cases a with
        | signedIn uid => exact ⟨uid, rfl⟩
        | signedUp uid => cases hflag
        | loggedOut => cases hflag
  · rintro ⟨uid, rfl⟩
    rfl

end Installed

/-! ### Every launch -/

/-- What the app of phone `p` is like when `s'` is the state after it was launched again in `s`. -/
structure Reopened (p : ℕ) (s s' : Installed) : Prop where
  user : s'.user p = s.user p
  running : (s'.system.world.dev (s'.process p)).crashed = false
  /-- The tab bar it shows, and its Add Post screen, are of the user who is signed in. -/
  tabs : s.userIsLoggedIn p = true → ∃ uid, s.user p = some uid ∧
    (s'.system.screens (s'.process p)).bar = some ⟨some uid⟩ ∧
    (s'.system.world.dev (s'.process p)).userId = some uid
  pages : s.userIsLoggedIn p = false →
    s'.welcome p = true ∧ (s'.system.screens (s'.process p)).bar = none
  /-- The other phones, and what the server stores and has been sent, are as before. -/
  others : ∀ q, q ≠ p → s'.process q = s.process q ∧ s'.welcome q = s.welcome q ∧
    s'.system.world.dev (s'.process q) = s.system.world.dev (s.process q) ∧
    s'.system.screens (s'.process q) = s.system.screens (s.process q)
  server : s'.system.world.server = s.system.world.server

theorem Installed.Kept.reopened {last : Option Auth} (h : Installed.Kept p s last)
    (hl : s.Launched s' p) : Reopened p s s' := by
  have hdev : s'.system.world.dev (s'.process p) = { Device.new with
      currentUser := s.user p
      userId := if s.userIsLoggedIn p = true then s.user p else none
      tabs := s.userIsLoggedIn p } := by
    rw [hl.dev, Function.update_self]
  have hscreens : s'.system.screens (s'.process p) =
      if s.userIsLoggedIn p = true then .root ⟨s.user p⟩ else .launch := by
    rw [hl.screens, Function.update_self]
  constructor
  case user =>
    show (s'.system.world.dev (s'.process p)).currentUser = _
    rw [hdev]
  case running =>
    rw [hdev]
    rfl
  case tabs =>
    intro hflag
    obtain ⟨uid, rfl⟩ := h.flag_iff.mp hflag
    have huser : s.user p = some uid := h.user
    refine ⟨uid, huser, ?_, ?_⟩
    · rw [hscreens, if_pos hflag, huser]
      rfl
    · rw [hdev, if_pos hflag, huser]
  case pages =>
    intro hflag
    constructor
    · rw [hl.welcome, Function.update_self, hflag]
      rfl
    · rw [hscreens, hflag]
      rfl
  case others =>
    intro q hq
    have hprocess : s'.process q = s.process q := by
      rw [Installed.process, hl.launches, Function.update_of_ne hq]
      rfl
    have hne : s.process q ≠ s'.process p := hprocess ▸ Installed.process_inj hq
    refine ⟨hprocess, ?_, ?_, ?_⟩
    · rw [hl.welcome, Function.update_of_ne hq]
    · rw [hprocess, hl.dev, Function.update_of_ne hne]
    · rw [hprocess, hl.screens, Function.update_of_ne hne]
  case server => exact hl.server

/-- **An app shows the tab bar of the signed-in user at a launch exactly if a sign-in came last.**  It can
be launched again at any moment of any run, and the run is one of the world. -/
theorem launch_shows_user {es : List LaunchEvent}
    (hr : Run Installed.step (fun _ _ => True) .init es s) (p : ℕ) :
    (∃ fs, Run CommServe.step (fun _ _ => True) .init fs s.system.world) ∧
      s.user p = (lastAuth p es).bind Auth.user ∧
      (s.userIsLoggedIn p = true ↔ ∃ uid, lastAuth p es = some (.signedIn uid)) ∧
      ∃ s', s.launch p = some s' ∧ Reopened p s s' := by
  have h : Installed.Kept p s (lastAuth p es) :=
    hr.history (Installed.Kept p) (fun last (e : LaunchEvent) => (e.auth p).or last)
      (fun _ _ _ _ h _ hst => h.step hst) .init
  obtain ⟨s', hs', hl⟩ := h.launch p
  exact ⟨Installed.refines hr, h.user, h.flag_iff, s', hs', h.reopened hl⟩

/-- A user signs up and in and presses Submit; then the process ends, and its callback with it.  The
submission stays with the old process, and the new one shows the tab bar of the user. -/
theorem launch_shows_user_submitting : ∃ s : Installed,
    s.process 0 = 1 ∧ s.system.world.asked.map Prod.fst = [0] ∧
    (s.system.screens 1).bar = some ⟨some "u"⟩ ∧
    ∃ s', s.launch 0 = some s' ∧ Reopened 0 s s' := by
  obtain ⟨s, hr, hproc, hasked, hbar⟩ := exists_run_of_exec Installed.step (fun _ _ => True) .init
    (.jumpToLogin 0 ::
      (signUpSession 0 0 "u" ++ [SessionEvent.loginPressed 0, .signedIn 0 0 (some "u")] ++
        ((submitScript 0 "p" (some "p.png")).take 1).map SessionEvent.other).map
          (LaunchEvent.session 0) ++ [.launch 0])
    (fun s => s.process 0 = 1 ∧ s.system.world.asked.map Prod.fst = [0] ∧
      (s.system.screens 1).bar = some ⟨some "u"⟩) (by decide +kernel)
  obtain ⟨-, -, -, hlaunch⟩ := launch_shows_user hr 0
  exact ⟨s, hproc, hasked, hbar, hlaunch⟩

end CommServe
