import CommServe.Feed
import CommServe.Pinned

/-! # Taps and the rows they act on

A button knows its row by its tag, the position at the last layout, and its handler looks the row up in
the array as it is at the tap.  `ActsOn` says that a tap stays in range and writes nothing but records
of one post and of users.  Whether it is the post that the row shows depends on what was delivered
since the layout, in the Home feed and in the Pinned list alike.

`PinFeed` is the Pinned list with its cells; `cellForRowAt` makes a new cell for every row.  Its pin
buttons are left out here, since a tap on one of them ends the app. -/

namespace CommServe

open RecordStore Method Transition Cells HomeFeed

/-- The record belongs to the post with this id, or to a user. -/
def Ref.OfPost (postId : Option String) : Ref → Prop
  | .posts _ id => some id = postId
  | .pinned _ id => some id = postId
  | .completed id => some id = postId
  | .users _ => True

/-- The trap is an index out of range. -/
def Trap.IsSubscript : Trap → Prop
  | .subscript => True
  | _ => False

/-- A tap that has looked up no index out of range and has written for one post only. -/
structure ActsOn (r : Except (Stop Trap) Unit × Effects) (postId : Option String) : Prop where
  inRange : ∀ t, trapOf r = some t → ¬ t.IsSubscript
  writes : ∀ w ∈ r.2.writes, w.key.OfPost postId

/-! ### Handlers whose row is there -/

/-- No index is out of range. -/
def InRange {α : Type} (h : Handler α) : Prop := h.Avoids Trap.IsSubscript

theorem inRange_unwrapField {α : Type} {f : String → Handler α} {g : Field} {o : Option String}
    (hf : ∀ a, InRange (f a)) : InRange (unwrapField g o >>= f) :=
  .unwrap id fun a _ => hf a

theorem inRange_copyFields (row : UserPost) : InRange (copyFields row) := by
  unfold copyFields
  refine inRange_unwrapField fun _ => inRange_unwrapField fun _ => inRange_unwrapField fun _ =>
    inRange_unwrapField fun _ => inRange_unwrapField fun _ => inRange_unwrapField fun _ =>
    inRange_unwrapField fun _ => inRange_unwrapField fun _ => ?_
  exact .pure _

variable {currentUser : Option String} {postArray : List UserPost} {self : PinController}
  {sender : UIButton} {row : UserPost}

theorem HomeViewCollection.handleCheckClick_inRange (hrow : postArray[sender.tag]? = some row) :
    InRange (handleCheckClick currentUser postArray sender) := by
  refine .subscript_some hrow (inRange_unwrapField fun _ => ?_)
  split_ifs
  · refine .bind (.modify _) fun _ => .guardLet fun uid _ => .bind (inRange_copyFields row) fun _ => ?_
    exact .bind (.modify _) fun _ => inRange_unwrapField fun _ => .modify _
  · exact .pure _

theorem HomeViewCollection.handlePinClick_inRange (hrow : postArray[sender.tag]? = some row) :
    InRange (handlePinClick currentUser postArray sender) := by
  refine .guardLet fun uid _ => ?_
  split_ifs
  · refine .bind (.modify _) fun _ => .subscript_some hrow (inRange_unwrapField fun _ => ?_)
    exact .modify _
  · refine .bind (.modify _) fun _ => .subscript_some hrow (.bind (inRange_copyFields row) fun _ => ?_)
    exact .modify _

theorem PinController.handleCheckClick_inRange (hrow : self.favArray[sender.tag]? = some row) :
    InRange (handleCheckClick currentUser self sender) := by
  refine .guardLet fun uid _ => .subscript_some hrow (inRange_unwrapField fun _ => ?_)
  refine .guardLet fun user _ => .unwrap id fun point _ => inRange_unwrapField fun _ => ?_
  refine .unwrap id fun sum _ => .bind (.modify _) fun _ => ?_
  split_ifs
  · refine .bind (.modify _) fun _ => .guardLet fun uid' _ => .bind (inRange_copyFields row) fun _ => ?_
    refine .bind (.modify _) fun _ => inRange_unwrapField fun _ => .bind (.modify _) fun _ => ?_
    exact inRange_unwrapField fun _ => inRange_unwrapField fun _ => .modify _
  · exact .pure _

theorem HomeViewCollection.handleCheckClick_actsOn (hrow : postArray[sender.tag]? = some row) :
    ActsOn ((handleCheckClick currentUser postArray sender).tap sender) row.postId := by
  refine ⟨fun t => not_bad_of_trapOf (handleCheckClick_inRange hrow), ?_⟩
  intro w hw
  have hw' : w ∈ (handleCheckClick currentUser postArray sender).writes sender := hw
  rcases @handleCheckClick_cases currentUser postArray sender with
    h | ⟨uid, post, url, -, hpost, -, -, h⟩ <;> rw [h] at hw'
  · cases hw'
  · obtain rfl := Option.some.inj (hrow.symm.trans hpost)
    simp only [List.mem_cons, List.not_mem_nil, or_false] at hw'
    rcases hw' with rfl | rfl <;> rfl

theorem HomeViewCollection.handlePinClick_actsOn (hrow : postArray[sender.tag]? = some row) :
    ActsOn ((handlePinClick currentUser postArray sender).tap sender) row.postId := by
  refine ⟨fun t => not_bad_of_trapOf (handlePinClick_inRange hrow), ?_⟩
  intro w hw
  have hw' : w ∈ (handlePinClick currentUser postArray sender).writes sender := hw
  rcases @handlePinClick_cases currentUser postArray sender with h | ⟨uid, row', postId, -, -, hrow', hid, h⟩ |
      ⟨uid, post, url, -, -, hpost, -, h⟩ <;> rw [h] at hw'
  · cases hw'
  · obtain rfl := Option.some.inj (hrow.symm.trans hrow')
    obtain rfl := List.mem_singleton.mp hw'
    exact hid.symm
  · obtain rfl := Option.some.inj (hrow.symm.trans hpost)
    obtain rfl := List.mem_singleton.mp hw'
    rfl

theorem PinController.handleCheckClick_actsOn (hrow : self.favArray[sender.tag]? = some row) :
    ActsOn ((handleCheckClick currentUser self sender).tap sender) row.postId := by
  refine ⟨fun t => not_bad_of_trapOf (handleCheckClick_inRange hrow), ?_⟩
  intro w hw
  have hw' : w ∈ (handleCheckClick currentUser self sender).writes sender := hw
  rcases @handleCheckClick_cases currentUser self sender with
    h | ⟨g, hg, -, ⟨h, -⟩ | ⟨post, url, -, hpost, -, h⟩⟩ <;> rw [h] at hw'
  · cases hw'
  · obtain rfl := List.mem_singleton.mp hw'
    trivial
  · obtain ⟨-, hrow', -⟩ := guards_eq_some hg
    obtain rfl := Option.some.inj (hrow.symm.trans hrow')
    simp only [List.mem_cons, List.not_mem_nil, or_false] at hw'
    rcases hw' with rfl | rfl | rfl | rfl
    · trivial
    all_goals
      rw [hpost]
      rfl

/-! ### The Pinned list -/

/-- `PinController` with its cells; `table.rows` is `favArray`. -/
structure PinFeed where
  uid : String
  appUser : Option AppUser
  table : Table UserPost
  crashed : Bool

inductive PinFeedEvent where
  /-- A snapshot of `pinned/<uid>` arrives at the observer of `viewDidAppear`. -/
  | viewDidAppear (snapshot : List (String × Node))
  /-- The answer to `fetchUserInfo` arrives. -/
  | fetchUserInfo (data : Node)
  | cellForRowAt (k row : ℕ)
  | didEndDisplaying (k : ℕ)
  | handleCheckClick (k : ℕ)

namespace PinFeed

/-- A new list. -/
def opened (uid : String) : PinFeed := ⟨uid, none, .empty, false⟩

variable (s : PinFeed)

def crash : PinFeed := { s with crashed := true }

/-- The controller itself; nothing fills its `postArray`. -/
def controller : PinController := ⟨[], s.table.rows, s.appUser⟩

def viewDidAppear (snapshot : List (String × Node)) : PinFeed :=
  match PinController.viewDidAppear snapshot with
  | some favArray => { s with table := s.table.deliver favArray }
  | none => s.crash

def cellForRowAt (k row : ℕ) : PinFeed :=
  match ((PinController.cellForRowAt s.table.rows row).run ⟨false, []⟩).1, s.table.rows[row]? with
  | .ok _cell, some post => { s with table := s.table.layOut k row post }
  | _, _ => s.crash

/-- A tap on the check button of a visible cell. -/
def checkClick (c : Row UserPost) : Except (Stop Trap) Unit × Effects :=
  (PinController.handleCheckClick (some s.uid) s.controller ⟨c.tag, false⟩).tap ⟨c.tag, false⟩

def react : PinFeedEvent → Option PinFeed
  | .viewDidAppear snapshot => some (s.viewDidAppear snapshot)
  | .fetchUserInfo data =>
      some { s with appUser := (PinController.fetchUserInfo s.uid data).or s.appUser }
  | .cellForRowAt k row => some (s.cellForRowAt k row)
  | .didEndDisplaying k => some { s with table := s.table.hide k }
  | .handleCheckClick k => do
      let c ← s.table.cells k
      some { s with crashed := (trapOf (s.checkClick c)).isSome }

def step (e : PinFeedEvent) : Option PinFeed := if s.crashed then none else s.react e

/-- `s` is reached from a new list over the events `es`. -/
def Reached (es : List PinFeedEvent) : Prop :=
  ∃ uid, Run step (fun _ _ => True) (opened uid) es s

variable {s} {s' : PinFeed}

theorem sound_react (hs : s.table.Sound) {e : PinFeedEvent} (h : s.react e = some s') :
    s'.table.Sound := by
  cases e with
  | viewDidAppear snapshot =>
      obtain rfl := Option.some.inj h
      unfold PinFeed.viewDidAppear
      split
      · exact s.table.sound_deliver _
      · exact hs
  | fetchUserInfo data =>
      obtain rfl := Option.some.inj h
      exact hs
  | cellForRowAt k row =>
      obtain rfl := Option.some.inj h
      unfold PinFeed.cellForRowAt
      split
      case h_1 cell post hok hrow => exact hs.layOut hrow k
      case h_2 => exact hs
  | didEndDisplaying k =>
      obtain rfl := Option.some.inj h
      exact hs.hide k
  | handleCheckClick k =>
      obtain ⟨c, -, h⟩ := Option.bind_eq_some_iff.mp h
      obtain rfl := Option.some.inj h
      exact hs

theorem Reached.sound {es : List PinFeedEvent} (hr : s.Reached es) : s.table.Sound := by
  obtain ⟨uid, hr⟩ := hr
  refine hr.invariant (fun s => s.table.Sound) ?_ Table.sound_empty
  intro s e s' hs _ h
  unfold step at h
  split_ifs at h
  exact sound_react hs h

end PinFeed

/-! ### Taps on rows -/

/-- The array has the shown post at the tag of its row, and the taps act on this post only. -/
structure TapsShown (rows : List UserPost) (c : Row UserPost)
    (taps : List (Except (Stop Trap) Unit × Effects)) : Prop where
  current : (rows[c.tag]?).map (·.postId) = some c.shown.postId
  acts : ∀ r ∈ taps, ActsOn r c.shown.postId

/-- Whether the taps act on the shown post is decided by the array alone. -/
theorem tapsShown_iff {rows : List UserPost} {c : Row UserPost}
    {taps : List (Except (Stop Trap) Unit × Effects)}
    (hacts : ∀ row, rows[c.tag]? = some row → ∀ r ∈ taps, ActsOn r row.postId) :
    TapsShown rows c taps ↔ (rows[c.tag]?).map (·.postId) = some c.shown.postId := by
  constructor
  · exact TapsShown.current
  · intro hcurrent
    refine ⟨hcurrent, ?_⟩
    obtain ⟨row, hrow, hid⟩ := Option.map_eq_some_iff.mp hcurrent
    rw [← hid]
    exact hacts row hrow

/-- In the Home feed and in the Pinned list alike, the buttons of a row act on the post that it shows
exactly if the newest list delivered since its layout has kept the post at its position. -/
theorem tapsShown_iff_kept {es : List FeedEvent} {feed : HomeFeed} (hfeed : feed.Reached es)
    {fs : List PinFeedEvent} {pins : PinFeed} (hpins : pins.Reached fs) :
    (∀ k c, feed.table.cells k = some c →
      (TapsShown feed.table.rows c [feed.checkClick c, feed.pinClick k c] ↔ c.Kept (·.postId))) ∧
    ∀ k c, pins.table.cells k = some c →
      (TapsShown pins.table.rows c [pins.checkClick c] ↔ c.Kept (·.postId)) := by
  constructor
  · intro k c hc
    rw [← hfeed.sound.table.current_iff hc, tapsShown_iff]
    · rfl
    · intro row hrow r hr
      simp only [List.mem_cons, List.not_mem_nil, or_false] at hr
      rcases hr with rfl | rfl
      · exact HomeViewCollection.handleCheckClick_actsOn hrow
      · exact HomeViewCollection.handlePinClick_actsOn hrow
  · intro k c hc
    rw [← hpins.sound.current_iff hc, tapsShown_iff]
    · rfl
    · intro row hrow r hr
      obtain rfl := List.mem_singleton.mp hr
      exact PinController.handleCheckClick_actsOn hrow

/-- A feed and a Pinned list with a row each that was laid out after the newest snapshot. -/
theorem tapsShown_once : ∃ (feed : HomeFeed) (pins : PinFeed) (c d : Row UserPost),
    feed.Reached [twoPosts, .cellForItemAt 0 0] ∧
      pins.Reached [.viewDidAppear [("p", (picturedPost "p").record)], .cellForRowAt 0 0] ∧
      feed.table.cells 0 = some c ∧ pins.table.cells 0 = some d ∧
      TapsShown feed.table.rows c [feed.checkClick c, feed.pinClick 0 c] ∧
      TapsShown pins.table.rows d [pins.checkClick d] := by
  obtain ⟨feed, hfeed, hcell⟩ := exists_run_of_exec HomeFeed.step (fun _ _ => True) (.opened "u")
    [twoPosts, .cellForItemAt 0 0]
    (fun s => s.table.cells 0 = some ⟨0, UserPost.ofPost (picturedPost "q"), none⟩) (by decide)
  obtain ⟨pins, hpins, hrow⟩ := exists_run_of_exec PinFeed.step (fun _ _ => True) (.opened "u")
    [.viewDidAppear [("p", (picturedPost "p").record)], .cellForRowAt 0 0]
    (fun s => s.table.cells 0 = some ⟨0, UserPost.ofPost (picturedPost "p"), none⟩) (by decide)
  obtain ⟨hcells, hrows⟩ := tapsShown_iff_kept ⟨_, hfeed⟩ ⟨_, hpins⟩
  exact ⟨feed, pins, _, _, ⟨_, hfeed⟩, ⟨_, hpins⟩, hcell, hrow,
    (hcells 0 _ hcell).mpr (by decide), (hrows 0 _ hrow).mpr (by decide)⟩

/-- The row of `q` is tapped after a snapshot without `q`: the tap completes `p`.  With no post left it
looks up an index out of range. -/
theorem moved_row_tapped :
    (∃ (es : List FeedEvent) (s : HomeFeed) (c : Row UserPost), s.Reached es ∧
      s.table.cells 0 = some c ∧ c.shown.postId = some "q" ∧
        (s.checkClick c).2.writes =
          [createCompleted (picturedPost "p") "u", .remove (.posts "Study" "p")]) ∧
    ∃ (es : List FeedEvent) (s : HomeFeed) (c : Row UserPost), s.Reached es ∧
      s.table.cells 0 = some c ∧ trapOf (s.checkClick c) = some .subscript := by
  constructor
  · obtain ⟨s, hr, hcell, hwrites⟩ := exists_run_of_exec HomeFeed.step (fun _ _ => True)
      (.opened "u") [twoPosts, .cellForItemAt 0 0, .fetchData [("p", (picturedPost "p").record)]]
      (fun s => s.table.cells 0 = some ⟨0, UserPost.ofPost (picturedPost "q"),
          some [UserPost.ofPost (picturedPost "p")]⟩ ∧
        (s.checkClick ⟨0, UserPost.ofPost (picturedPost "q"),
            some [UserPost.ofPost (picturedPost "p")]⟩).2.writes =
          [createCompleted (picturedPost "p") "u", .remove (.posts "Study" "p")]) (by decide)
    exact ⟨_, s, _, ⟨_, hr⟩, hcell, rfl, hwrites⟩
  · obtain ⟨s, hr, hcell, htrap⟩ := exists_run_of_exec HomeFeed.step (fun _ _ => True)
      (.opened "u") [twoPosts, .cellForItemAt 0 0, .fetchData []]
      (fun s => s.table.cells 0 = some ⟨0, UserPost.ofPost (picturedPost "q"), some []⟩ ∧
        trapOf (s.checkClick ⟨0, UserPost.ofPost (picturedPost "q"), some []⟩) = some .subscript)
      (by decide)
    exact ⟨_, s, _, ⟨_, hr⟩, hcell, htrap⟩

end CommServe
