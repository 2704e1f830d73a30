import CommServe.Alone
import CommServe.Shown

/-! # No post gets stuck

A post can be completed from every state that the app can get into, by any user on any running app: the
writes in flight arrive, the user signs in, and the lists and taps of one app are enough.  From the Home
feed nothing is needed but the image of the post, without which both handlers trap; from the Pinned list
the user is credited as well, which takes a complete user record whose karma leaves room for 50 more.

`Ahead v c ws as w` says how far device `c` has got from a state `v` at rest: `ws` are the writes it has
issued, `as` the credits.  None of them needs to arrive before the last tap, as the app reads its own
writes. -/

namespace CommServe

open RecordStore Method Sync Transition

/-- Device `c` alone has led from `v` to `w`, with the writes `ws` on their way and the credits `as`. -/
structure Ahead (v : World) (c : ℕ) (ws : List DbWrite) (as : List (String × Option String)) (w : World) :
    Prop where
  run : ∃ es, Run step (fun s e => e.Orderly s ∧ e.By c) v es w
  sound : w.Sound
  only : w.Only c
  db : w.server.db = v.server.db
  pending : w.server.pending c = ws
  submitted : w.submitted = v.submitted
  awards : w.awards = v.awards ++ as

/-- The app runs, `uid` is signed in, the tab bar is open and the Pinned screen has not been opened. -/
structure Device.Fresh (d : Device) (uid : String) : Prop where
  running : d.crashed = false
  tabs : d.tabs = true
  user : d.currentUser = some uid
  fetching : d.fetching = []
  observed : d.observed = []

/-- What the completion of an open post from the Pinned list of `uid` makes of the database. -/
structure CompletedBy (uid : String) (post : Post) (db db' : Database) : Prop where
  closed : ¬ db'.Present (.posts post.postCategory post.postId)
  completed : ∃ name, db.node (.users uid) .username = some (.str name) ∧
    db'.node (.completed post.postId) = post.completedRecord name
  unpinned : ¬ db'.Present (.pinned uid post.postId)
  karma : ∃ k, db.node (.users uid) .karmaPoints = some (.int k) ∧
    db'.node (.users uid) .karmaPoints = some (.int (k + 50))
  profile : ∀ f, f ≠ .karmaPoints → db'.node (.users uid) f = db.node (.users uid) f
  others : ∀ k, k ∉ [Ref.posts post.postCategory post.postId, .completed post.postId,
    .pinned uid post.postId, .users uid] → db'.node k = db.node k

variable {v w : World} {c : ℕ} {ws : List DbWrite} {as : List (String × Option String)} {uid : String}
  {post : Post}

/-! ### One app from a state at rest -/

theorem Ahead.start (hs : v.Sound) (hq : v.server.Quiescent) : Ahead v c [] [] v where
  run := ⟨[], .nil v⟩
  sound := hs
  only := by
    intro x hx
    rw [show v.server.inFlight = [] from hq] at hx
    cases hx
  db := rfl
  pending := hq.pending c
  submitted := rfl
  awards := (List.append_nil _).symm

theorem Ahead.view (h : Ahead v c ws as w) : w.server.view c 0 = some (v.server.db.applyAll ws) := by
  rw [Net.view_zero, h.db, h.pending]

theorem Ahead.good (h : Ahead v c ws as w) : (v.server.db.applyAll ws).All (Good v.submitted) :=
  h.submitted ▸ h.sound.view h.view

/-- The app does one thing more. -/
theorem Ahead.act (h : Ahead v c ws as w) (hc : (w.dev c).crashed = false) {a : Action} {d : Device}
    {ws' : List DbWrite} {as' : List (String × Option String)} (ha : a.Newest)
    (hr : w.reaction c a = some { w.local d with writes := ws', awards := as' }) :
    ∃ w', Ahead v c (ws ++ ws') (as ++ as') w' ∧ w'.dev c = d := by
  have hstep : step w (.act c a) = some (w.apply c { w.local d with writes := ws', awards := as' }) := by
    show (react w c a).map (w.apply c) = _
    rw [react, if_neg (by simp [hc]), hr]
    rfl
  obtain ⟨es, hes⟩ := h.run
  have horder : (Event.act c a).Orderly w := ⟨trivial, by rintro i ⟨⟩⟩
  refine ⟨_, ⟨⟨_, hes.trans (.cons ⟨horder, rfl, ha⟩ hstep (.nil _))⟩, h.sound.step hstep,
    h.only.act hstep, h.db, ?_, ?_, ?_⟩, ?_⟩
  · show (w.server.issue c ws').pending c = ws ++ ws'
    rw [Net.pending_issue, if_pos rfl, h.pending]
  · show w.submitted ++ [] = v.submitted
    rw [List.append_nil, h.submitted]
  · show w.awards ++ as' = _
    rw [h.awards, List.append_assoc]
  · show Function.update w.dev c d c = d
    exact Function.update_self c d w.dev

theorem Ahead.local (h : Ahead v c ws as w) (hc : (w.dev c).crashed = false) {a : Action} {d : Device}
    (ha : a.Newest) (hr : w.reaction c a = some (w.local d)) : ∃ w', Ahead v c ws as w' ∧ w'.dev c = d := by
  have hact : ∃ w', Ahead v c (ws ++ []) (as ++ []) w' ∧ w'.dev c = d := h.act hc ha hr
  rwa [List.append_nil, List.append_nil] at hact

/-- The writes of the app can all arrive. -/
theorem Ahead.drain (h : Ahead v c ws as w) :
    ∃ es t, Run step (fun s e => e.Orderly s ∧ e.By c) v es t ∧ t.server.Quiescent ∧
      t.server.db = v.server.db.applyAll ws ∧ t.awards = v.awards ++ as := by
  obtain ⟨es, hes⟩ := h.run
  obtain ⟨t, ht, hq, hts⟩ := World.Only.drain _ h.only rfl
  refine ⟨_, t, hes.trans ht, hq, ?_, ?_⟩
  · have hdb : t.server.db.applyAll (t.server.pending c) = w.server.db.applyAll (w.server.pending c) :=
      congrArg (fun s : World => s.server.db) hts
    rw [hq.pending c, Store.applyAll_nil, h.db, h.pending] at hdb
    exact hdb
  · have hawards : (t.settled c).awards = (w.settled c).awards := by rw [hts]
    exact hawards.trans h.awards

/-! ### Screen by screen -/

theorem exists_fresh (hs : v.Sound) (hq : v.server.Quiescent) (hc : (v.dev c).crashed = false)
    (hu : uid ∈ v.accounts) : ∃ w, Ahead v c [] [] w ∧ (w.dev c).Fresh uid := by
  have hsign : v.reaction c (.signIn uid) = some (v.local { v.dev c with currentUser := some uid }) :=
    if_pos hu
  obtain ⟨w, hw, hdev⟩ := (Ahead.start hs hq).local hc (a := .signIn uid) trivial hsign
  have hc' : (w.dev c).crashed = false := by rw [hdev]; exact hc
  obtain ⟨w', hw', hdev'⟩ := hw.local hc' (a := .openTabs) trivial rfl
  refine ⟨w', hw', ?_⟩
  rw [hdev', hdev]
  exact ⟨hc, rfl, rfl, rfl, rfl⟩

theorem Good.mem_pins {ps : List Post} {db : Database} (hdb : db.All (Good ps)) {favs : List UserPost}
    (h : PinController.viewDidAppear (children db (.pinned uid)) = some favs)
    (hnode : db.Present (.pinned uid post.postId))
    (hpost : ∀ q ∈ ps, q.postId = post.postId → q = post) : UserPost.ofPost post ∈ favs := by
  obtain ⟨q, hq, hid, -, hrec⟩ := Good.pinned_post hdb hnode
  obtain rfl := hpost q hq hid
  exact mem_rebuild (fun _ _ => List.perm_append_comm) h (mem_children.mpr ⟨hnode, rfl⟩)
    (by rw [Folder.child, hrec]; exact UserPost.init_record q)

theorem Ahead.exists_row (h : Ahead v c ws as w) (hd : (w.dev c).Fresh uid) (hp : post ∈ v.submitted)
    (hcat : post.postCategory ∈ dropDownOptions)
    (hopen : (v.server.db.applyAll ws).Present (.posts post.postCategory post.postId)) :
    ∃ w', Ahead v c ws as w' ∧ (w'.dev c).Fresh uid ∧
      ∃ (cell : HomeCell) (tag : ℕ), ((w'.dev c).postArray cell)[tag]? = some (UserPost.ofPost post) := by
  obtain ⟨cell, hcell⟩ := HomeCell.exists_tempCategory hcat
  obtain ⟨posts, hposts⟩ := Good.exists_fetchData h.good cell
  have hreaction : w.reaction c (.homeSnapshot cell 0) = some (w.local
      { w.dev c with postArray := Function.update (w.dev c).postArray cell posts }) := by
    simp [World.reaction, World.homeSnapshot, hd.tabs, h.view, hposts]
  obtain ⟨w', hw', hdev⟩ := h.local hd.running (a := .homeSnapshot cell 0) rfl hreaction
  have hrow : UserPost.ofPost post ∈ posts :=
    Good.mem_feed h.good hposts (hcell ▸ hopen) fun q hq =>
      h.sound.unique (h.submitted ▸ hq) (h.submitted ▸ hp)
  obtain ⟨tag, htag⟩ := List.mem_iff_getElem?.mp hrow
  refine ⟨w', hw', ?_, cell, tag, ?_⟩
  · rw [hdev]
    exact ⟨hd.running, hd.tabs, hd.user, hd.fetching, hd.observed⟩
  · rw [hdev]
    show (Function.update (w.dev c).postArray cell posts cell)[tag]? = _
    rw [Function.update_self]
    exact htag

theorem Ahead.homeCheck (h : Ahead v c ws as w) (hd : (w.dev c).Fresh uid) {cell : HomeCell} {tag : ℕ}
    (hrow : ((w.dev c).postArray cell)[tag]? = some (UserPost.ofPost post)) {url : String}
    (hurl : post.imageUrl = some url) :
    ∃ w', Ahead v c (ws ++ [createCompleted post uid, removeOpen post]) as w' := by
  have htap : (HomeViewCollection.handleCheckClick (some uid) ((w.dev c).postArray cell) ⟨tag, false⟩).tap
      ⟨tag, false⟩ = (.ok (), ⟨false, [createCompleted post uid, removeOpen post]⟩) :=
    HomeViewCollection.handleCheckClick_ofPost hrow hurl rfl
  have hreaction : w.reaction c (.homeCheck cell tag) = some { w.local (w.dev c) with
      writes := [createCompleted post uid, removeOpen post], awards := [] } := by
    simp only [World.reaction, World.homeCheck, hd.user, htap]
    rfl
  obtain ⟨w', hw', -⟩ := h.act hd.running (a := .homeCheck cell tag) trivial hreaction
  rw [List.append_nil] at hw'
  exact ⟨w', hw'⟩

theorem Ahead.homePin (h : Ahead v c ws as w) (hd : (w.dev c).Fresh uid) {cell : HomeCell} {tag : ℕ}
    (hrow : ((w.dev c).postArray cell)[tag]? = some (UserPost.ofPost post)) {url : String}
    (hurl : post.imageUrl = some url) :
    ∃ w', Ahead v c (ws ++ [pinPost uid post]) as w' ∧ (w'.dev c).Fresh uid := by
  have htap : (HomeViewCollection.handlePinClick (some uid) ((w.dev c).postArray cell) ⟨tag, false⟩).tap
      ⟨tag, false⟩ = (.ok (), ⟨true, [pinPost uid post]⟩) := by
    unfold Handler.tap HomeViewCollection.handlePinClick subscript
    rw [hrow]
    simp [run_bind, copyFields_ofPost hurl]
  have hreaction : w.reaction c (.homePin cell ⟨tag, false⟩) = some { w.local (w.dev c) with
      writes := [pinPost uid post], awards := [] } := by
    simp only [World.reaction, World.homePin, hd.user, htap]
    rfl
  obtain ⟨w', hw', hdev⟩ := h.act hd.running (a := .homePin cell ⟨tag, false⟩) trivial hreaction
  rw [List.append_nil] at hw'
  exact ⟨w', hw', hdev ▸ hd⟩

theorem PinController.fetchUserInfo_eq_some {r : Node} {user : AppUser}
    (h : PinController.fetchUserInfo uid r = some user) : ∃ name point, user.username = some name ∧
      user.karmaPoints = some point ∧ r .username = some (.str name) ∧
        r .karmaPoints = some (.int point) := by
  obtain ⟨name, hname, h⟩ := Option.bind_eq_some_iff.mp h
  obtain ⟨_, -, h⟩ := Option.bind_eq_some_iff.mp h
  obtain ⟨_, -, h⟩ := Option.bind_eq_some_iff.mp h
  obtain ⟨_, -, h⟩ := Option.bind_eq_some_iff.mp h
  obtain ⟨_, -, h⟩ := Option.bind_eq_some_iff.mp h
  obtain ⟨_, -, h⟩ := Option.bind_eq_some_iff.mp h
  obtain ⟨point, hpoint, h⟩ := Option.bind_eq_some_iff.mp h
  obtain rfl := Option.some.inj h
  exact ⟨name, point, rfl, rfl, asString_eq_some hname, asInt_eq_some hpoint⟩

theorem Ahead.exists_pin (h : Ahead v c ws as w) (hd : (w.dev c).Fresh uid) (hp : post ∈ v.submitted)
    {user : AppUser}
    (huser : PinController.fetchUserInfo uid ((v.server.db.applyAll ws).node (.users uid)) = some user)
    (hpin : (v.server.db.applyAll ws).Present (.pinned uid post.postId)) :
    ∃ w', Ahead v c ws as w' ∧ (w'.dev c).crashed = false ∧ (w'.dev c).currentUser = some uid ∧
      (w'.dev c).pinController.appUser = some user ∧
      ∃ tag : ℕ, (w'.dev c).pinController.favArray[tag]? = some (UserPost.ofPost post) := by
  have hload : w.reaction c .pinLoad = some (w.local { w.dev c with fetching := [uid] }) := by
    simp [World.reaction, World.pinLoad, hd.tabs, hd.user, hd.fetching]
  obtain ⟨w₁, h₁, hd₁⟩ := h.local hd.running (a := .pinLoad) trivial hload
  have hrunning₁ : (w₁.dev c).crashed = false := by rw [hd₁]; exact hd.running
  have hinfo : w₁.reaction c (.pinUserInfo 0 0) = some (w₁.local { w.dev c with
      fetching := [], pinController := { (w.dev c).pinController with appUser := some user } }) := by
    simp [World.reaction, World.pinUserInfo, hd₁, h₁.view, huser]
  obtain ⟨w₂, h₂, hd₂⟩ := h₁.local hrunning₁ (a := .pinUserInfo 0 0) rfl hinfo
  have hrunning₂ : (w₂.dev c).crashed = false := by rw [hd₂]; exact hd.running
  have happear : w₂.reaction c .pinAppear = some (w₂.local { w₂.dev c with observed := [uid] }) := by
    simp [World.reaction, World.pinAppear, hd₂, hd.tabs, hd.user, hd.observed]
  obtain ⟨w₃, h₃, hd₃⟩ := h₂.local hrunning₂ (a := .pinAppear) trivial happear
  have hrunning₃ : (w₃.dev c).crashed = false := by rw [hd₃]; exact hrunning₂
  obtain ⟨favs, hfavs⟩ := Good.exists_viewDidAppear h₃.good uid
  have hsnapshot : w₃.reaction c (.pinSnapshot 0 0) = some (w₃.local { w₃.dev c with
      pinController := { (w₃.dev c).pinController with favArray := favs } }) := by
    simp [World.reaction, World.pinSnapshot, hd₃, h₃.view, hfavs]
  obtain ⟨w₄, h₄, hd₄⟩ := h₃.local hrunning₃ (a := .pinSnapshot 0 0) rfl hsnapshot
  have hrow : UserPost.ofPost post ∈ favs :=
    Good.mem_pins h₃.good hfavs hpin fun q hq => h.sound.unique (h.submitted ▸ hq) (h.submitted ▸ hp)
  obtain ⟨tag, htag⟩ := List.mem_iff_getElem?.mp hrow
  refine ⟨w₄, h₄, ?_, ?_, ?_, tag, ?_⟩
  · rw [hd₄]
    exact hrunning₃
  · rw [hd₄, hd₃, hd₂]
    exact hd.user
  · rw [hd₄, hd₃, hd₂]
  · rw [hd₄]
    exact htag

theorem Ahead.pinCheck (h : Ahead v c ws as w) (hc : (w.dev c).crashed = false)
    (hu : (w.dev c).currentUser = some uid) {user : AppUser} {name url : String} {point : ℤ} {tag : ℕ}
    (huser : (w.dev c).pinController.appUser = some user) (hname : user.username = some name)
    (hpoint : user.karmaPoints = some point) (hfit : point + 50 ≤ maxInt)
    (hrow : (w.dev c).pinController.favArray[tag]? = some (UserPost.ofPost post))
    (hurl : post.imageUrl = some url) :
    ∃ w', Ahead v c (ws ++ [updateKarma uid (point + 50), createCompleted post name,
      .remove (.pinned uid post.postId), removeOpen post]) (as ++ [(uid, some post.postId)]) w' := by
  have htap : (PinController.handleCheckClick (some uid) (w.dev c).pinController ⟨tag, false⟩).tap
      ⟨tag, false⟩ = (.ok (), ⟨false, [updateKarma uid (point + 50), createCompleted post name,
        .remove (.pinned uid post.postId), removeOpen post]⟩) :=
    PinController.handleCheckClick_ofPost hrow hurl huser hpoint hfit hname rfl
  have hreaction : w.reaction c (.pinCheck tag) = some { w.local (w.dev c) with
      writes := [updateKarma uid (point + 50), createCompleted post name,
        .remove (.pinned uid post.postId), removeOpen post]
      awards := [(uid, some post.postId)] } := by
    simp only [World.reaction, World.pinCheck, hu, htap, awardOf, hrow]
    rfl
  obtain ⟨w', hw', -⟩ := h.act hc (a := .pinCheck tag) trivial hreaction
  exact ⟨w', hw'⟩

/-! ### A post is completed -/

/-- What the five writes of a pin and a completion leave. -/
theorem CompletedBy.of_writes {ps : List Post} {db : Database} (hdb : db.All (Good ps)) {name : String}
    {point : ℤ} (hname : db.node (.users uid) .username = some (.str name))
    (hpoint : db.node (.users uid) .karmaPoints = some (.int point)) :
    CompletedBy uid post db (db.applyAll [pinPost uid post, updateKarma uid (point + 50),
      createCompleted post name, .remove (.pinned uid post.postId), removeOpen post]) := by
  have hnd : ([updateKarma uid (point + 50), createCompleted post name,
      .remove (.pinned uid post.postId), removeOpen post].map Write.key).Nodup := by
    simp [removeOpen]
  -- behind the pin the four writes are on four records
  have hnode := fun x hx => Store.applyAll_node_of_mem (w := x) hnd hx (db.apply (pinPost uid post))
  have hcompleted := hnode (createCompleted post name) (by simp)
  have hunpinned := hnode (.remove (.pinned uid post.postId)) (by simp)
  have hclosed := hnode (removeOpen post) (by simp)
  have hkarma := hnode (updateKarma uid (point + 50)) (by simp)
  have hpin : ∀ k, k ≠ .pinned uid post.postId → (db.apply (pinPost uid post)).node k = db.node k :=
    fun k hk => Store.apply_node_ne db hk
  constructor
  case closed =>
    intro h
    exact h.node_ne hclosed
  case completed =>
    refine ⟨name, hname, hcompleted.trans ?_⟩
    rw [key_createCompleted, hpin _ (by simp)]
    exact post.completed_on name _ fun _ => Good.completed_fields (hdb (.completed post.postId))
  case unpinned =>
    intro h
    exact h.node_ne hunpinned
  case karma =>
    exact ⟨point, hpoint, congrFun hkarma .karmaPoints⟩
  case profile =>
    intro f hf
    refine (congrFun hkarma f).trans ?_
    rw [key_updateKarma, hpin _ (by simp)]
    cases f <;> first | rfl | exact absurd rfl hf
  case others =>
    intro k hk
    simp only [List.mem_cons, List.not_mem_nil, or_false, not_or] at hk
    obtain ⟨hposts, hcompleted, hpinned, husers⟩ := hk
    refine Store.applyAll_node_ne ?_ db
    simp [removeOpen, hposts, hcompleted, hpinned, husers]

theorem exists_done (hs : v.Sound) (hq : v.server.Quiescent) (hc : (v.dev c).crashed = false)
    (hu : uid ∈ v.accounts) (hp : post ∈ v.submitted) (hcat : post.postCategory ∈ dropDownOptions)
    (hopen : v.Open post) {url : String} (hurl : post.imageUrl = some url) :
    ∃ es t, Run step (fun s e => e.Orderly s ∧ e.By c) v es t ∧ t.Done post := by
  obtain ⟨w₁, h₁, hd₁⟩ := exists_fresh hs hq hc hu
  obtain ⟨w₂, h₂, hd₂, cell, tag, hrow⟩ := h₁.exists_row hd₁ hp hcat hopen
  obtain ⟨w₃, h₃⟩ := h₂.homeCheck hd₂ hrow hurl
  obtain ⟨es, t, ht, -, hdb, -⟩ := h₃.drain
  refine ⟨es, t, ht, ?_⟩
  rw [World.Done, hdb]
  exact (Store.present_apply_ne (by simp [removeOpen])).mpr (present_create _ post uid)

/-- A user on a running app completes an open post from the Pinned list, and is credited. -/
theorem exists_completedBy (hs : v.Sound) (hq : v.server.Quiescent) (hc : (v.dev c).crashed = false)
    (hu : uid ∈ v.accounts) (hp : post ∈ v.submitted) (hcat : post.postCategory ∈ dropDownOptions)
    (hopen : v.Open post) {url : String} (hurl : post.imageUrl = some url) {user : AppUser}
    (huser : PinController.fetchUserInfo uid (v.server.db.node (.users uid)) = some user)
    (hfit : ∀ point, user.karmaPoints = some point → point + 50 ≤ maxInt) :
    ∃ es t, Run step (fun s e => e.Orderly s ∧ e.By c) v es t ∧ t.server.Quiescent ∧
      t.awards = v.awards ++ [(uid, some post.postId)] ∧ CompletedBy uid post v.server.db t.server.db := by
  obtain ⟨name, point, hname, hpoint, hstored, hkarma⟩ := PinController.fetchUserInfo_eq_some huser
  obtain ⟨w₁, h₁, hd₁⟩ := exists_fresh hs hq hc hu
  obtain ⟨w₂, h₂, hd₂, cell, i, hrow⟩ := h₁.exists_row hd₁ hp hcat hopen
  obtain ⟨w₃, h₃, hd₃⟩ := h₂.homePin hd₂ hrow hurl
  -- the app sees its own pin, and the user's record as it was
  have hpinned : (v.server.db.apply (pinPost uid post)).Present (.pinned uid post.postId) :=
    Store.present_update _ _ .postId (.str post.postId) rfl
  have hrecord : (v.server.db.apply (pinPost uid post)).node (.users uid) =
      v.server.db.node (.users uid) := Store.apply_node_ne _ (by simp)
  obtain ⟨w₄, h₄, hc₄, hu₄, happ, tag, hfav⟩ := h₃.exists_pin hd₃ hp (hrecord ▸ huser) hpinned
  obtain ⟨w₅, h₅⟩ := h₄.pinCheck hc₄ hu₄ happ hname hpoint (hfit point hpoint) hfav hurl
  obtain ⟨es, t, ht, hqt, hdb, hawards⟩ := h₅.drain
  refine ⟨es, t, ht, hqt, hawards, ?_⟩
  rw [hdb]
  exact CompletedBy.of_writes hs.net.db hstored hkarma

/-! ### Every run -/

/-- **No post gets stuck.**  In whatever state an orderly run leaves the app, a post can still be completed
exactly if it has an image.  Once the writes in flight have arrived, any user with a complete record and room
for 50 karma more can do so alone, on any app that runs: an open post is closed and completed, the user has
50 karma more, and nothing else has changed. -/
theorem completable_iff_image {es : List Event} (hr : Run step (fun s e => e.Orderly s) .init es w)
    (hp : post ∈ w.submitted) (hc : (w.dev c).crashed = false) (hu : uid ∈ w.accounts) :
    ((∃ fs t, Run step (fun s e => e.Orderly s) w fs t ∧ t.Done post) ↔
      ∃ url, post.imageUrl = some url) ∧
    ∀ v url user, w.Settles v → v.Open post → post.imageUrl = some url →
      PinController.fetchUserInfo uid (v.server.db.node (.users uid)) = some user →
      (∀ point, user.karmaPoints = some point → point + 50 ≤ maxInt) →
      ∃ fs t, Run step (fun s e => e.Orderly s ∧ e.By c) v fs t ∧ t.server.Quiescent ∧
        t.awards = v.awards ++ [(uid, some post.postId)] ∧ CompletedBy uid post v.server.db t.server.db := by
  have hcat : post.postCategory ∈ dropDownOptions := ((Run.filed hr).submitted post hp).1
  have hsettled : ∀ v, w.Settles v → v.Sound ∧ (v.dev c).crashed = false ∧ uid ∈ v.accounts ∧
      post ∈ v.submitted := by
    intro v hv
    obtain ⟨fs, hfs⟩ := hv.orderly
    obtain ⟨hdev, haccounts⟩ := hv.apps
    have hsub : v.submitted = w.submitted :=
      (hv.invariant (fun _ => True) (fun _ _ _ _ _ _ => id) trivial).2
    exact ⟨Run.sound (hr.trans hfs), by rw [hdev]; exact hc, haccounts ▸ hu, hsub ▸ hp⟩
  refine ⟨⟨?_, ?_⟩, ?_⟩
  · rintro ⟨fs, t, ht, hdone⟩
    have hst : t.Sound := Run.sound (hr.trans ht)
    obtain ⟨-, hpt⟩ := Run.stays (Run.sound hr) hp ht (fun _ => True) (fun _ _ _ _ _ _ _ => id) trivial
    obtain ⟨q, hq, hid, himage, -⟩ := Good.completed_post hst.net.db hdone
    obtain rfl := hst.unique hq hpt hid
    exact himage
  · rintro ⟨url, hurl⟩
    obtain ⟨v, hv⟩ := World.exists_settles _ w rfl
    obtain ⟨hsv, hcv, huv, hpv⟩ := hsettled v hv
    obtain ⟨fs, hfs⟩ := hv.orderly
    rcases (Run.lifecycle (hr.trans hfs) post hpv).exactly_one hv.1 with ⟨hopen, -⟩ | ⟨-, hdone⟩
    · obtain ⟨gs, t, ht, hdone⟩ := exists_done hsv hv.1 hcv huv hpv hcat hopen hurl
      exact ⟨_, t, hfs.trans (ht.mono fun _ _ => And.left), hdone⟩
    · exact ⟨fs, v, hfs, hdone⟩
  · intro v url user hv hopen hurl huser hfit
    obtain ⟨hsv, hcv, huv, hpv⟩ := hsettled v hv
    exact exists_completedBy hsv hv.1 hcv huv hpv hcat hopen hurl huser hfit

/-- A post of one user that nobody has pinned. -/
theorem completable_iff_image_sample : ∃ (v t : World) (fs : List Event), v.karma "u" = some (.int 0) ∧
    Run step (fun s e => e.Orderly s ∧ e.By 0) v fs t ∧ t.awards = [("u", some "p")] ∧
    t.karma "u" = some (.int 50) := by
  obtain ⟨w, hr, hp, hc, hu, hq, hopen, hk, ha, huser⟩ := exists_run_of_exec step
    (fun s e => e.Orderly s) .init
    (signUpScript 0 "u" (some "me.png") ++ submitScript 0 "p" (some "p.png"))
    (fun w => scriptPost "u" "p" (some "p.png") ∈ w.submitted ∧ (w.dev 0).crashed = false ∧
      "u" ∈ w.accounts ∧ w.server.Quiescent ∧ w.server.db.Present (.posts "Study" "p") ∧
      w.server.db.node (.users "u") .karmaPoints = some (.int 0) ∧ w.awards = [] ∧
      (PinController.fetchUserInfo "u" (w.server.db.node (.users "u"))).isSome = true) (by decide +kernel)
  obtain ⟨user, huser⟩ := Option.isSome_iff_exists.mp huser
  have hfit : ∀ point, user.karmaPoints = some point → point + 50 ≤ maxInt := by
    intro point hpoint
    obtain ⟨name, point', -, hpoint', -, hstored⟩ := PinController.fetchUserInfo_eq_some huser
    rw [hk] at hstored
    obtain rfl : point' = point := Option.some.inj (hpoint'.symm.trans hpoint)
    obtain rfl : 0 = point' := by simpa using hstored
    decide
  obtain ⟨fs, t, ht, -, hawards, hcompleted⟩ :=
    (completable_iff_image hr hp hc hu).2 w "p.png" user ⟨hq, [], .nil w⟩ hopen rfl huser hfit
  obtain ⟨k, hk', hkarma⟩ := hcompleted.karma
  rw [hk] at hk'
  obtain rfl : 0 = k := by simpa using hk'
  refine ⟨w, t, fs, hk, ht, ?_, hkarma⟩
  rw [hawards, ha]
  rfl

end CommServe
