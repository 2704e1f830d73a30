import CommServe.World

/-! # The screens of an app

Which screen a user sees is a matter of what was presented over what.  `handleLogout` presents a new
`LoginController`, in a navigation stack of its own, over everything that is there, and nothing takes it
away again.  A sign-in that succeeds pushes a tab bar onto the stack of the `LoginController` that asked
for it, whether or not that stack is covered by then.  `signupPressed` presents a `SignUpController` over
the topmost stack, and a tab bar may be pushed underneath it.  Every tab bar captures the current user
when it is created, in `AddPostController.userId`.

`System` adds the screens of all devices to the world: a button can be tapped when the user sees it, a
callback comes when it comes.  The end of an authentication call changes the current user and runs the
callback in one step; that the tab bar on top is the one whose controllers the device holds is a theorem,
not part of the definition.

`signedIn` and `names` are history variables: the user signed in when Submit was pressed for a post, and
the name that the answer to this press held for that user. -/

namespace CommServe

open RecordStore

/-- A tab bar, with the `userId` of its `AddPostController`. -/
structure CustomTabBarController where
  userId : Option String
deriving DecidableEq, Repr

/-- The screens of a running app.  A `LoginController` is known by the number of stacks below its own. -/
structure Screens where
  /-- The tab bars on the topmost stack, the newest first; without any, its `LoginController` shows. -/
  top : List CustomTabBarController
  /-- The stacks below, the topmost first. -/
  covered : List (List CustomTabBarController)
  /-- The `SignUpController` over the topmost stack. -/
  signUp : Option ℕ
  /-- How many were opened so far. -/
  opened : ℕ
  /-- The `LoginController`s that wait for a sign-in. -/
  signIns : List ℕ
  bound : ∀ n ∈ signIns, n ≤ covered.length

namespace Screens

/-- An app that was just started shows a `LoginController`. -/
def launch : Screens := ⟨[], [], none, 0, [], by simp⟩

variable (s : Screens)

/-- The tab bar on the topmost stack. -/
def topBar : Option CustomTabBarController := s.top.head?

/-- The tab bar the user sees. -/
def bar : Option CustomTabBarController := if s.signUp = none then s.topBar else none

/-- The user sees a `LoginController`. -/
def AtLogin : Prop := s.signUp = none ∧ s.topBar = none

instance : Decidable s.AtLogin := inferInstanceAs (Decidable (_ ∧ _))

/-- `LoginController.loginPressed` asks for a sign-in. -/
def loginPressed : Screens :=
  { s with
    signIns := s.signIns ++ [s.covered.length]
    bound := by
      intro n hn
      rcases List.mem_append.mp hn with hn | hn
      · exact s.bound n hn
      · exact (List.mem_singleton.mp hn).le }

/-- The `i`-th sign-in is answered. -/
def answered (i : ℕ) : Screens :=
  { s with
    signIns := s.signIns.eraseIdx i
    bound := fun n hn => s.bound n (List.mem_of_mem_eraseIdx hn) }

/-- `navigationController?.pushViewController(customTabController)` of the `LoginController` `n`. -/
def pushViewController (n : ℕ) (bar : CustomTabBarController) : Screens :=
  if n = s.covered.length then { s with top := bar :: s.top }
  else
    { s with
      covered := s.covered.modify (s.covered.length - 1 - n) (bar :: ·)
      bound := by simpa using s.bound }

/-- `LoginController.signupPressed`. -/
def signupPressed : Screens := { s with signUp := some s.opened, opened := s.opened + 1 }

/-- `dismiss` of the `SignUpController` `j`; one that was dismissed before does nothing. -/
def dismiss (j : ℕ) : Screens := if s.signUp = some j then { s with signUp := none } else s

/-- `handleLogout` presents a new `LoginController`. -/
def handleLogout : Screens :=
  { s with
    top := []
    covered := s.top :: s.covered
    bound := fun n hn => (s.bound n hn).trans (by simp) }

/-- Whether an action can happen on these screens: a tap needs its screen, a callback nothing.  The
authentication calls and the tab bars have steps of their own. -/
def offers : Action → Bool
  | .signIn _ | .signOut | .openTabs => false
  | .submitPressed _ _ | .homePin _ _ | .homeCheck _ _ | .pinPin _ | .pinCheck _ |
    .userInfoPressed _ => s.bar.isSome
  | .signUpPressed j _ => decide (s.signUp = some j)
  | _ => true

/-- The screens after an action: the callback of a new account dismisses its screen. -/
def after : Action → Screens
  | .accountCreated j _ (some _) => s.dismiss j
  | _ => s

end Screens

/-- A step of the system with screens. -/
inductive SessionEvent where
  | loginPressed (c : ℕ)
  /-- The `i`-th sign-in of device `c` ends; `none` is an error. -/
  | signedIn (c i : ℕ) (result : Option String)
  | signupPressed (c : ℕ)
  | cancelPressed (c : ℕ)
  | handleLogout (c : ℕ)
  | other (e : Event)
deriving DecidableEq, Repr

structure System where
  world : World
  screens : ℕ → Screens
  signedIn : String → Option String
  names : String → Option String

namespace System

/-- Nothing stored, no account, every app just started. -/
def init : System := ⟨.init, fun _ => .launch, fun _ => none, fun _ => none⟩

variable (s : System)

/-- Device `c` shows the screens `x` instead, unless its app has crashed. -/
def present (c : ℕ) (x : Screens) : Option System :=
  if (s.world.dev c).crashed then none
  else some { s with screens := Function.update s.screens c x }

def loginPressed (c : ℕ) : Option System :=
  if (s.screens c).AtLogin then s.present c (s.screens c).loginPressed else none

/-- A new tab bar loads its controllers.  Those of a covered one are never seen; the device keeps the
others. -/
def viewDidLoad (w : World) (c : ℕ) (onTop : Bool) : Option World :=
  if onTop then CommServe.step w (.act c .openTabs) else some w

def signInEnded (c i : ℕ) (result : Option String) : Option System := do
  let n ← (s.screens c).signIns[i]?
  let x := (s.screens c).answered i
  match result with
  | none => s.present c x
  | some uid => do
      let w ← CommServe.step s.world (.act c (.signIn uid))
      let customTabController : CustomTabBarController := ⟨(w.dev c).currentUser⟩
      let w ← viewDidLoad w c (n = x.covered.length)
      some { s with
        world := w
        screens := Function.update s.screens c (x.pushViewController n customTabController) }

def signupPressed (c : ℕ) : Option System :=
  if (s.screens c).AtLogin then s.present c (s.screens c).signupPressed else none

def cancelPressed (c : ℕ) : Option System := do
  let j ← (s.screens c).signUp
  s.present c ((s.screens c).dismiss j)

def handleLogout (c : ℕ) : Option System := do
  let _bar ← (s.screens c).bar
  let w ← CommServe.step s.world (.act c .signOut)
  some { s with
    world := w, screens := Function.update s.screens c (s.screens c).handleLogout }

/-- Who was signed in at the presses of Submit, after an action of device `c`. -/
def pressed (c : ℕ) : Action → String → Option String
  | .submitPressed _ postId =>
      Function.update s.signedIn postId (s.world.dev c).currentUser
  | _ => s.signedIn

/-- The names in the answers to the presses of Submit, after an action of device `c`. -/
def named (c : ℕ) : Action → String → Option String
  | .submitSnapshot i k _ =>
      match s.world.asked[i]?, s.world.server.view c k with
      | some x, some db => Function.update s.names x.2.postId
          ((s.signedIn x.2.postId).bind fun uid => asString (db.node (.users uid) .username))
      | _, _ => s.names
  | _ => s.names

def other : Event → Option System
  | .act c a =>
      if (s.screens c).offers a then
        (CommServe.step s.world (.act c a)).map fun w =>
          ⟨w, Function.update s.screens c ((s.screens c).after a), s.pressed c a, s.named c a⟩
      else none
  | e => (CommServe.step s.world e).map fun w => { s with world := w }

/-- One step of the system with screens. -/
def step : SessionEvent → Option System
  | .loginPressed c => s.loginPressed c
  | .signedIn c i result => s.signInEnded c i result
  | .signupPressed c => s.signupPressed c
  | .cancelPressed c => s.cancelPressed c
  | .handleLogout c => s.handleLogout c
  | .other e => s.other e

end System

end CommServe
