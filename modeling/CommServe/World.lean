import CommServe.Transition
import CommServe.Pinned
import CommServe.Lists
import CommServe.AddPost
import CommServe.Account
import Mathlib

/-! # The system: one database, any number of devices

A device holds what the screens of one running app cache: the signed-in user, the arrays of the
lists, the user id the Add Post screen captured when the tab bar was built, and callbacks on the
way.  Devices are numbered; there is no bound on their number.

`react w c a` is what device `c` does in one action: a tap, a press, or a callback of a read, an
upload or an authentication call.  It yields the new state of the device and the writes it issues.
Snapshots are callbacks too, so a list is as stale as the run makes it: a snapshot action reads the
`k`-th latest server state, with the device's own writes in flight on top.  A handler that traps
ends the app: a crashed device acts no more, but its writes stay in flight.

`submitted` and `awards` are history variables: what every submission wrote, and for every
completion from the Pinned list that credited a user this user and the post. -/

namespace CommServe

open RecordStore Method Transition

/-- The state of one running app. -/
structure Device where
  currentUser : Option String
  crashed : Bool
  postArray : HomeCell → List UserPost
  pinController : PinController
  /-- Users whose pins `PinController.viewDidAppear` observes. -/
  observed : List String
  /-- Users whose record `PinController.fetchUserInfo` has asked for. -/
  fetching : List String
  checkedArray : List CheckPost
  usersArray : List AppUser
  /-- `AddPostController.userId`. -/
  userId : Option String
  signUp : ℕ → SignUpController
  /-- Names for which `UserInfoController.submitPressed` uploads an image. -/
  renames : List String
  /-- The tab bar with its five screens was opened. -/
  tabs : Bool
  /-- `CheckedController.viewDidAppear` observes the completed posts. -/
  checkedObserved : Bool
  /-- `KarmaController.viewDidAppear` observes the users. -/
  karmaObserved : Bool

/-- An app that was just started. -/
def Device.new : Device :=
  ⟨none, false, fun _ => [], .new, [], [], [], [], none, fun _ => .new, [], false, false, false⟩

/-- The app after a trap. -/
def Device.crash (d : Device) : Device := { d with crashed := true }

/-- The app after a handler: a trap ends it. -/
def Device.after (d : Device) {α : Type} (r : Except (Stop Trap) α × Effects) : Device :=
  if (trapOf r).isSome then d.crash else d

/-- What a device can do. -/
inductive Action where
  | signIn (uid : String)
  | signOut
  /-- `CustomTabBarController.viewDidLoad`: new controllers for all tabs. -/
  | openTabs
  | submitPressed (form : PostForm) (postId : String)
  /-- The user's record arrives for the `i`-th submission; `jpeg` tells whether the image could be
  encoded. -/
  | submitSnapshot (i k : ℕ) (jpeg : Bool)
  | submitUploaded (i : ℕ) (metadata : Option (Option String))
  | homeSnapshot (cell : HomeCell) (k : ℕ)
  | homePin (cell : HomeCell) (sender : UIButton)
  | homeCheck (cell : HomeCell) (tag : ℕ)
  /-- `PinController.viewDidLoad` calls `fetchUserInfo`. -/
  | pinLoad
  | pinUserInfo (i k : ℕ)
  | pinAppear
  | pinSnapshot (i k : ℕ)
  | pinPin (sender : UIButton)
  | pinCheck (tag : ℕ)
  | checkedAppear
  | checkedSnapshot (k : ℕ)
  | karmaAppear
  | karmaSnapshot (k : ℕ)
  | signUpPressed (j : ℕ) (form : SignUpForm)
  | signUpUploaded (j i : ℕ) (metadata : Option (Option String))
  /-- The answer of `createUserAndRetrieveData`; `none` is an error. -/
  | accountCreated (j i : ℕ) (result : Option String)
  | userInfoPressed (name : String)
  | userInfoUploaded (i : ℕ) (metadata : Option (Option String))
deriving DecidableEq, Repr

/-- A step of the system. -/
inductive Event where
  | act (c : ℕ) (a : Action)
  | deliver (i : ℕ)
  | reject (i : ℕ)
deriving DecidableEq, Repr

structure World where
  server : Server
  dev : ℕ → Device
  /-- User ids of the accounts that exist. -/
  accounts : List String
  /-- Post ids drawn so far. -/
  ids : List String
  /-- Submissions waiting for the user's record. -/
  asked : List (ℕ × Submission)
  /-- Submissions whose image is being uploaded, with the user's record. -/
  uploading : List (ℕ × Submission × Node)
  submitted : List Post
  awards : List (String × Option String)

/-- Nothing stored, no account, every app just started. -/
def World.init : World := ⟨.empty, fun _ => .new, [], [], [], [], [], []⟩

/-- What an action leads to: the device afterwards, the writes it issues, the callbacks of
submissions afterwards, and additions to the lists of the world. -/
structure Reaction where
  device : Device
  asked : List (ℕ × Submission)
  uploading : List (ℕ × Submission × Node)
  writes : List DbWrite := []
  accounts : List String := []
  ids : List String := []
  submitted : List Post := []
  awards : List (String × Option String) := []

/-- An action that changes the device only. -/
def World.local (w : World) (d : Device) : Reaction := ⟨d, w.asked, w.uploading, [], [], [], [], []⟩

/-- The award of a completion from the Pinned list: none unless the user was credited. -/
def awardOf (d : Device) (tag : ℕ) (writes : List DbWrite) : List (String × Option String) :=
  match writes, d.currentUser, d.pinController.favArray[tag]? with
  | _ :: _, some uid, some row => [(uid, row.postId)]
  | _, _, _ => []

/-! ### The actions

Each is `none` when it is not possible. -/

namespace World

variable (w : World) (c : ℕ)

def signIn (uid : String) : Option Reaction :=
  if uid ∈ w.accounts then some (w.local { w.dev c with currentUser := some uid }) else none

def signOut : Option Reaction := some (w.local { w.dev c with currentUser := none })

def openTabs : Option Reaction :=
  some (w.local { w.dev c with
    userId := (w.dev c).currentUser, postArray := fun _ => [], pinController := .new,
    observed := [], fetching := [], checkedArray := [], usersArray := [],
    tabs := true, checkedObserved := false, karmaObserved := false })

def submitPressed (form : PostForm) (postId : String) : Option Reaction :=
  if postId ∉ w.ids ∧ (form.selectedCategory = "" ∨ form.selectedCategory ∈ dropDownOptions) then
    match ((AddPostController.submitPressed (w.dev c).userId form postId).run ()).1 with
    | .ok submission =>
        some { w.local (w.dev c) with asked := w.asked ++ [(c, submission)], ids := [postId] }
    | .error .returned => some { w.local (w.dev c) with ids := [postId] }
    | .error (.trapped _) => some { w.local (w.dev c).crash with ids := [postId] }
  else none

def submitSnapshot (i k : ℕ) (jpeg : Bool) : Option Reaction := do
  let x ← w.asked[i]?
  let db ← w.server.view c k
  if x.1 = c then
    some { w.local (w.dev c) with
      asked := w.asked.eraseIdx i
      uploading := if jpeg then w.uploading ++ [(c, x.2, db.node (.users x.2.userId))]
        else w.uploading }
  else none

def submitUploaded (i : ℕ) (metadata : Option (Option String)) : Option Reaction := do
  let x ← w.uploading[i]?
  if x.1 = c then
    let r := { w.local (w.dev c) with uploading := w.uploading.eraseIdx i }
    match AddPostController.uploaded x.2.1 x.2.2 metadata with
    | some post => some { r with writes := [AddPostController.store post], submitted := [post] }
    | none => some r
  else none

-- the cell of a feed is made, and calls `fetchData`, when its page is turned to
def homeSnapshot (cell : HomeCell) (k : ℕ) : Option Reaction := do
  guard (w.dev c).tabs
  let db ← w.server.view c k
  match HomeViewCollection.fetchData (children db (.posts cell.tempCategory)) with
  | some posts =>
      some (w.local { w.dev c with
        postArray := Function.update (w.dev c).postArray cell posts })
  | none => some (w.local (w.dev c).crash)

def homePin (cell : HomeCell) (sender : UIButton) : Option Reaction :=
  let d := w.dev c
  let r := (HomeViewCollection.handlePinClick d.currentUser (d.postArray cell) sender).tap sender
  some { w.local (d.after r) with writes := r.2.writes }

-- no code ever selects a check button
def homeCheck (cell : HomeCell) (tag : ℕ) : Option Reaction :=
  let d := w.dev c
  let sender : UIButton := ⟨tag, false⟩
  let r := (HomeViewCollection.handleCheckClick d.currentUser (d.postArray cell) sender).tap sender
  some { w.local (d.after r) with writes := r.2.writes }

def pinLoad : Option Reaction := do
  guard (w.dev c).tabs
  match (w.dev c).currentUser with
  | some uid => some (w.local { w.dev c with fetching := (w.dev c).fetching ++ [uid] })
  | none => some (w.local (w.dev c))

def pinUserInfo (i k : ℕ) : Option Reaction := do
  let uid ← (w.dev c).fetching[i]?
  let db ← w.server.view c k
  let d := { w.dev c with fetching := (w.dev c).fetching.eraseIdx i }
  match PinController.fetchUserInfo uid (db.node (.users uid)) with
  | some user =>
      some (w.local { d with pinController := { d.pinController with appUser := some user } })
  | none => some (w.local d)

def pinAppear : Option Reaction := do
  guard (w.dev c).tabs
  match (w.dev c).currentUser with
  | some uid => some (w.local { w.dev c with observed := (w.dev c).observed ++ [uid] })
  | none => some (w.local (w.dev c))

def pinSnapshot (i k : ℕ) : Option Reaction := do
  let uid ← (w.dev c).observed[i]?
  let db ← w.server.view c k
  let d := w.dev c
  match PinController.viewDidAppear (children db (.pinned uid)) with
  | some favs => some (w.local { d with pinController := { d.pinController with favArray := favs } })
  | none => some (w.local d.crash)

def pinPin (sender : UIButton) : Option Reaction :=
  let d := w.dev c
  let r := (PinController.handlePinClick d.currentUser d.pinController sender).tap sender
  some { w.local (d.after r) with writes := r.2.writes }

def pinCheck (tag : ℕ) : Option Reaction :=
  let d := w.dev c
  let sender : UIButton := ⟨tag, false⟩
  let r := (PinController.handleCheckClick d.currentUser d.pinController sender).tap sender
  some { w.local (d.after r) with writes := r.2.writes, awards := awardOf d tag r.2.writes }

def checkedAppear : Option Reaction := do
  guard (w.dev c).tabs
  match (w.dev c).currentUser with
  | some _userId => some (w.local { w.dev c with checkedObserved := true })
  | none => some (w.local (w.dev c))

def checkedSnapshot (k : ℕ) : Option Reaction := do
  guard (w.dev c).checkedObserved
  let db ← w.server.view c k
  match CheckedController.viewDidAppear (children db .completed) with
  | some posts => some (w.local { w.dev c with checkedArray := posts })
  | none => some (w.local (w.dev c).crash)

def karmaAppear : Option Reaction := do
  guard (w.dev c).tabs
  match (w.dev c).currentUser with
  | some _userId => some (w.local { w.dev c with karmaObserved := true })
  | none => some (w.local (w.dev c))

def karmaSnapshot (k : ℕ) : Option Reaction := do
  guard (w.dev c).karmaObserved
  let db ← w.server.view c k
  match KarmaController.viewDidAppear (children db .users) with
  | some users => some (w.local { w.dev c with usersArray := users })
  | none => some (w.local (w.dev c).crash)

/-- Replaces the state of the sign-up screen `j`. -/
def withSignUp (j : ℕ) (s : SignUpController) : Device :=
  { w.dev c with signUp := Function.update (w.dev c).signUp j s }

def signUpPressed (j : ℕ) (form : SignUpForm) : Option Reaction :=
  match SignUpController.submitPressed form with
  | some request =>
      let s := (w.dev c).signUp j
      some (w.local (w.withSignUp c j { s with uploading := s.uploading ++ [request] }))
  | none => some (w.local (w.dev c))

def signUpUploaded (j i : ℕ) (metadata : Option (Option String)) : Option Reaction := do
  let s := (w.dev c).signUp j
  let request ← s.uploading[i]?
  let s := { s with uploading := s.uploading.eraseIdx i }
  match metadata with
  | some profileurl =>
      some (w.local (w.withSignUp c j
        { s with profileurl := profileurl, creating := s.creating ++ [request] }))
  | none => some (w.local (w.withSignUp c j s))

def accountCreated (j i : ℕ) (result : Option String) : Option Reaction := do
  let s := (w.dev c).signUp j
  let request ← s.creating[i]?
  let d := w.withSignUp c j { s with creating := s.creating.eraseIdx i }
  match result with
  | some uid =>
      if uid ∉ w.accounts then
        some { w.local { d with currentUser := some uid } with
          writes := [SignUpController.store (SignUpController.userData request uid s.profileurl)]
          accounts := [uid] }
      else none
  | none => some (w.local d)

def userInfoPressed (name : String) : Option Reaction :=
  some (w.local { w.dev c with renames := (w.dev c).renames ++ [name] })

def userInfoUploaded (i : ℕ) (metadata : Option (Option String)) : Option Reaction := do
  let name ← (w.dev c).renames[i]?
  let d := { w.dev c with renames := (w.dev c).renames.eraseIdx i }
  match metadata, d.currentUser with
  | none, _ => some (w.local d)
  | some _, none => some (w.local d.crash)
  | some _, some uid => some { w.local d with writes := [UserInfoController.store uid name] }

/-- What device `c` does in an action, if it has not crashed. -/
def reaction : Action → Option Reaction
  | .signIn uid => w.signIn c uid
  | .signOut => w.signOut c
  | .openTabs => w.openTabs c
  | .submitPressed form postId => w.submitPressed c form postId
  | .submitSnapshot i k jpeg => w.submitSnapshot c i k jpeg
  | .submitUploaded i metadata => w.submitUploaded c i metadata
  | .homeSnapshot cell k => w.homeSnapshot c cell k
  | .homePin cell sender => w.homePin c cell sender
  | .homeCheck cell tag => w.homeCheck c cell tag
  | .pinLoad => w.pinLoad c
  | .pinUserInfo i k => w.pinUserInfo c i k
  | .pinAppear => w.pinAppear c
  | .pinSnapshot i k => w.pinSnapshot c i k
  | .pinPin sender => w.pinPin c sender
  | .pinCheck tag => w.pinCheck c tag
  | .checkedAppear => w.checkedAppear c
  | .checkedSnapshot k => w.checkedSnapshot c k
  | .karmaAppear => w.karmaAppear c
  | .karmaSnapshot k => w.karmaSnapshot c k
  | .signUpPressed j form => w.signUpPressed c j form
  | .signUpUploaded j i metadata => w.signUpUploaded c j i metadata
  | .accountCreated j i result => w.accountCreated c j i result
  | .userInfoPressed name => w.userInfoPressed c name
  | .userInfoUploaded i metadata => w.userInfoUploaded c i metadata

end World

/-- What device `c` does in action `a`; a crashed app does nothing. -/
def react (w : World) (c : ℕ) (a : Action) : Option Reaction :=
  if (w.dev c).crashed then none else w.reaction c a

/-- The world after device `c` has reacted. -/
def World.apply (w : World) (c : ℕ) (r : Reaction) : World where
  server := w.server.issue c r.writes
  dev := Function.update w.dev c r.device
  accounts := w.accounts ++ r.accounts
  ids := w.ids ++ r.ids
  asked := r.asked
  uploading := r.uploading
  submitted := w.submitted ++ r.submitted
  awards := w.awards ++ r.awards

/-- One step of the system. -/
def step (w : World) : Event → Option World
  | .act c a => (react w c a).map (w.apply c)
  | .deliver i => (w.server.deliver i).map fun s => { w with server := s }
  | .reject i => (w.server.reject i).map fun s => { w with server := s }

/-- The server refuses no write. -/
def Event.Accepted : Event → Prop
  | .reject _ => False
  | _ => True

instance : DecidablePred Event.Accepted
  | .act _ _ => isTrue trivial
  | .deliver _ => isTrue trivial
  | .reject _ => isFalse id

/-- The write the server is about to apply. -/
def Event.delivered : Event → Option ℕ
  | .deliver i => some i
  | _ => none

/-- What `downloadURL()` yields at the end of a post's image upload, if there is metadata. -/
def Event.downloadURL : Event → Option (Option String)
  | .act _ (.submitUploaded _ metadata) => metadata
  | _ => none

/-- What the completion from the Pinned list that is about to pass its guards has in hand. -/
def World.crediting (w : World) : Event → Option PinController.Guards
  | .act c (.pinCheck tag) =>
      PinController.guards (w.dev c).currentUser (w.dev c).pinController tag
  | _ => none

/-- The id of the post that a tap is about to complete, from either list. -/
def World.completing (w : World) : Event → Option String
  | .act c (.homeCheck cell tag) => do
      let _uid ← (w.dev c).currentUser
      let row ← ((w.dev c).postArray cell)[tag]?
      let _url ← row.imageUrl
      row.postId
  | .act c (.pinCheck tag) => do
      let g ← PinController.guards (w.dev c).currentUser (w.dev c).pinController tag
      guard (g.point + 50 ≤ maxInt)
      let _url ← g.row.imageUrl
      g.row.postId
  | _ => none

/-! ### Scripts

Sequences of steps that concrete runs are put together from.  Each is meant for a moment at which
nothing else is on its way. -/

/-- Device `c` signs up `uid`, whose record is stored, and opens the tabs. -/
def signUpScript (c : ℕ) (uid : String) (profileurl : Option String) : List Event :=
  [.act c (.signUpPressed 0 ⟨some "a@b.c", some "secret", some ("name of " ++ uid), some "US",
      some "555"⟩),
    .act c (.signUpUploaded 0 0 (some profileurl)), .act c (.accountCreated 0 0 (some uid)),
    .deliver 0, .act c .openTabs]

/-- Device `c` submits a post, which is stored. -/
def submitScript (c : ℕ) (postId : String) (imageUrl : Option String) : List Event :=
  [.act c (.submitPressed ⟨some "Books", some "Moving books", "Study", some "Library"⟩ postId),
    .act c (.submitSnapshot 0 0 true), .act c (.submitUploaded 0 (some imageUrl)), .deliver 0]

/-- The post that `submitScript` submits for the user `uid` of `signUpScript`. -/
def scriptPost (uid postId : String) (imageUrl : Option String) : Post :=
  ⟨postId, "Books", "Moving books", "Study", "Library", imageUrl, "name of " ++ uid, uid⟩

/-- Device `c` pins the first post of its feed, which is stored. -/
def pinScript (c : ℕ) : List Event :=
  [.act c (.homeSnapshot .study 0), .act c (.homePin .study ⟨0, false⟩), .deliver 0]

/-- Device `c` opens the Pinned list; the user and the pins arrive. -/
def openPinsScript (c : ℕ) : List Event :=
  [.act c .pinLoad, .act c (.pinUserInfo 0 0), .act c .pinAppear, .act c (.pinSnapshot 0 0)]

/-- The server applies the next `n` writes in order. -/
def deliverScript (n : ℕ) : List Event := List.replicate n (.deliver 0)

end CommServe
