import CommServe.Transition
import CommServe.Cells
import CommServe.Home

/-! # The cells of the Home feed

`cellForItemAt` configures a cell from the row of `postArray` at an index path: the buttons get the
position as their tag, the download of the picture starts, and an observer of `pinned/<uid>` is
registered that keeps the state of the pin button.  Observers are never removed, downloads are never
cancelled, and a cell comes back with the picture and the button state it had.  A snapshot of the posts
replaces `postArray` at once, while `reloadData` only schedules the next layout.

`HomeFeed` is the feed of one category for one signed-in user, as an instance of a list view with
reusable cells. -/

namespace CommServe

open RecordStore Method Transition Cells

/-- `HomeViewCollection` with its cells: `table.rows` is `postArray`, `board` holds the observers of
`pinned/<uid>` and the state of the pin buttons, `album` the thumbnails by their URLs. -/
structure HomeFeed where
  uid : String
  table : Table UserPost
  board : Board String
  album : Album String
  crashed : Bool

/-- What can happen to the feed. -/
inductive FeedEvent where
  /-- A snapshot of the posts arrives. -/
  | fetchData (snapshot : List (String × Node))
  /-- Cell `k`, new or used before, is configured for a row. -/
  | cellForItemAt (k row : ℕ)
  | didEndDisplaying (k : ℕ)
  /-- A snapshot of `pinned/<uid>` arrives; after a write of the client's own it is a local event. -/
  | pinned (keys : List String)
  /-- The oldest observer without an event gets its first one. -/
  | firstPinned
  | handlePinClick (k : ℕ)
  | handleCheckClick (k : ℕ)
  /-- The `i`-th download ends; it may fail, or its data may not be an image. -/
  | imageLoaded (i : ℕ) (ok : Bool)

namespace HomeFeed

/-- A new feed. -/
def opened (uid : String) : HomeFeed := ⟨uid, .empty, .empty, .empty, false⟩

variable (s : HomeFeed)

def crash : HomeFeed := { s with crashed := true }

def fetchData (snapshot : List (String × Node)) : HomeFeed :=
  match HomeViewCollection.fetchData snapshot with
  | some postArray => { s with table := s.table.deliver postArray }
  | none => s.crash

def cellForItemAt (k row : ℕ) : HomeFeed :=
  match ((HomeViewCollection.cellForItemAt (some s.uid) s.table.rows row).run ⟨false, []⟩).1,
    s.table.rows[row]? with
  | .ok cell, some post => { s with
      table := s.table.layOut k row post
      -- the method has unwrapped `postId!`
      board := s.board.observe k (post.postId.getD "")
      album := s.album.configure k cell.image }
  | _, _ => s.crash

/-- `cell.pinnedView` of the visible cell `k`. -/
def pinnedView (k : ℕ) (c : Row UserPost) : UIButton := ⟨c.tag, (s.board.marks k).value⟩

/-- A tap on the pin button of the visible cell `k`. -/
def pinClick (k : ℕ) (c : Row UserPost) : Except (Stop Trap) Unit × Effects :=
  (HomeViewCollection.handlePinClick (some s.uid) s.table.rows (s.pinnedView k c)).tap
    (s.pinnedView k c)

/-- A tap on the check button of a visible cell; no code ever selects it. -/
def checkClick (c : Row UserPost) : Except (Stop Trap) Unit × Effects :=
  (HomeViewCollection.handleCheckClick (some s.uid) s.table.rows ⟨c.tag, false⟩).tap ⟨c.tag, false⟩

/-- What happens in an event. -/
def react : FeedEvent → Option HomeFeed
  | .fetchData snapshot => some (s.fetchData snapshot)
  | .cellForItemAt k row => some (s.cellForItemAt k row)
  | .didEndDisplaying k => some { s with table := s.table.hide k }
  | .pinned keys => some { s with board := s.board.deliver keys }
  | .firstPinned => s.board.first.map fun board => { s with board := board }
  | .handlePinClick k => do
      let c ← s.table.cells k
      let r := s.pinClick k c
      some { s with board := s.board.press k r.2.isSelected, crashed := (trapOf r).isSome }
  | .handleCheckClick k => do
      let c ← s.table.cells k
      some { s with crashed := (trapOf (s.checkClick c)).isSome }
  | .imageLoaded i ok => (s.album.finish i ok).map fun album => { s with album := album }

/-- One step of the feed; nothing happens after a crash. -/
def step (e : FeedEvent) : Option HomeFeed := if s.crashed then none else s.react e

/-- `s` is reached from a new feed over the events `es`. -/
def Reached (es : List FeedEvent) : Prop :=
  ∃ uid, Run step (fun _ _ => True) (opened uid) es s

/-! ### Reachable feeds -/

/-- Cells show rows of their list that have all fields but perhaps the image. -/
structure Sound : Prop where
  table : s.table.Sound
  board : s.board.Sound
  shown : ∀ k c, s.table.cells k = some c → ∃ post, c.shown = UserPost.ofPost post
  wanted : ∀ k c, s.table.cells k = some c → s.album.wanted k = c.shown.imageUrl

variable {s} {s' : HomeFeed}

theorem step_eq_some {e : FeedEvent} :
    step s e = some s' ↔ s.crashed = false ∧ s.react e = some s' := by
  unfold step
  split_ifs with hc <;> simp [hc]

theorem sound_opened (uid : String) : (opened uid).Sound := by
  refine ⟨Table.sound_empty, Board.sound_empty, ?_, ?_⟩
  · intro k c hc
    cases hc
  · intro k c hc
    cases hc

/-- A cell is configured for a row with all fields but perhaps the image, or the app ends. -/
theorem cellForItemAt_cases (s : HomeFeed) (k row : ℕ) :
    (∃ post, s.table.rows[row]? = some (UserPost.ofPost post) ∧ s.cellForItemAt k row = { s with
        table := s.table.layOut k row (UserPost.ofPost post)
        board := s.board.observe k post.postId
        album := s.album.configure k post.imageUrl }) ∨
      (∀ post, s.table.rows[row]? ≠ some (UserPost.ofPost post)) ∧
        s.cellForItemAt k row = s.crash := by
  unfold cellForItemAt
  cases hrun : ((HomeViewCollection.cellForItemAt (some s.uid) s.table.rows row).run ⟨false, []⟩).1 with
  | ok cell =>
      left
      obtain ⟨post, hrow, rfl⟩ := HomeViewCollection.cellForItemAt_ok.mp hrun
      refine ⟨post, hrow, ?_⟩
      rw [hrow]
      rfl
  | error stop =>
      right
      refine ⟨?_, rfl⟩
      intro post hrow
      rw [HomeViewCollection.cellForItemAt_ok.mpr ⟨post, hrow, rfl⟩] at hrun
      cases hrun

theorem Sound.fetchData (hs : s.Sound) (snapshot : List (String × Node)) :
    (s.fetchData snapshot).Sound := by
  unfold HomeFeed.fetchData
  cases HomeViewCollection.fetchData snapshot with
  | none => exact ⟨hs.table, hs.board, hs.shown, hs.wanted⟩
  | some postArray =>
      refine ⟨s.table.sound_deliver postArray, hs.board, ?_, ?_⟩
      · intro k c hc
        obtain ⟨c', hc', rfl⟩ := Option.map_eq_some_iff.mp hc
        exact hs.shown k c' hc'
      · intro k c hc
        obtain ⟨c', hc', rfl⟩ := Option.map_eq_some_iff.mp hc
        exact hs.wanted k c' hc'

theorem Sound.cellForItemAt (hs : s.Sound) (k row : ℕ) : (s.cellForItemAt k row).Sound := by
  rcases s.cellForItemAt_cases k row with ⟨post, hrow, heq⟩ | ⟨-, heq⟩ <;> rw [heq]
  · refine ⟨hs.table.layOut hrow k, hs.board.observe k post.postId, ?_, ?_⟩
    · intro k' c hc
      rcases Table.layOut_cells hc with ⟨rfl, -⟩ | ⟨-, hc⟩
      · exact ⟨post, rfl⟩
      · exact hs.shown k' c hc
    · intro k' c hc
      rcases Table.layOut_cells hc with ⟨rfl, rfl⟩ | ⟨hk, hc⟩
      · exact Album.wanted_configure_self
      · rw [Album.wanted_configure_of_ne hk]
        exact hs.wanted k' c hc
  · exact ⟨hs.table, hs.board, hs.shown, hs.wanted⟩

theorem Sound.react (hs : s.Sound) {e : FeedEvent} (h : s.react e = some s') : s'.Sound := by
  cases e with
  | fetchData snapshot =>
      obtain rfl := Option.some.inj h
      exact hs.fetchData snapshot
  | cellForItemAt k row =>
      obtain rfl := Option.some.inj h
      exact hs.cellForItemAt k row
  | didEndDisplaying k =>
      obtain rfl := Option.some.inj h
      exact ⟨hs.table.hide k, hs.board, fun k' c hc => hs.shown k' c (Table.hide_cells hc),
        fun k' c hc => hs.wanted k' c (Table.hide_cells hc)⟩
  | pinned keys =>
      obtain rfl := Option.some.inj h
      exact ⟨hs.table, hs.board.deliver keys, hs.shown, hs.wanted⟩
  | firstPinned =>
      obtain ⟨board, hboard, rfl⟩ := Option.map_eq_some_iff.mp h
      exact ⟨hs.table, hs.board.first hboard, hs.shown, hs.wanted⟩
  | handlePinClick k =>
      obtain ⟨c, -, h⟩ := Option.bind_eq_some_iff.mp h
      obtain rfl := Option.some.inj h
      exact ⟨hs.table, hs.board.press k _, hs.shown, hs.wanted⟩
  | handleCheckClick k =>
      obtain ⟨c, -, h⟩ := Option.bind_eq_some_iff.mp h
      obtain rfl := Option.some.inj h
      exact ⟨hs.table, hs.board, hs.shown, hs.wanted⟩
  | imageLoaded i ok =>
      obtain ⟨album, halbum, rfl⟩ := Option.map_eq_some_iff.mp h
      refine ⟨hs.table, hs.board, hs.shown, ?_⟩
      rw [Album.wanted_finish halbum]
      exact hs.wanted

theorem Reached.sound {es : List FeedEvent} (hr : s.Reached es) : s.Sound := by
  obtain ⟨uid, hr⟩ := hr
  refine hr.invariant Sound ?_ (sound_opened uid)
  intro s e s' hs _ h
  exact hs.react (step_eq_some.mp h).2

/-! ### The pin button -/

/-- A tap on the pin button of cell `k` toggles the pin of the post that the cell shows: the button is
selected exactly if the newest snapshot has the post, whose pin is then removed and otherwise added. -/
def TogglesPin (s : HomeFeed) (k : ℕ) : Prop :=
  ∀ c post, s.table.cells k = some c → c.shown = UserPost.ofPost post →
    (s.board.marks k).value = s.board.contains post.postId ∧
      (s.pinClick k c).2.writes =
        if s.board.contains post.postId then [.remove (.pinned s.uid post.postId)]
        else [pinPost s.uid post]

/-- What the newest event at the button says, about whichever post, and the flips since agree with the
shown post; and `postArray` has at the tag of the button the shown post, if this is pinned, and
otherwise the shown post as it is, with an image. -/
def PinInStep (s : HomeFeed) (k : ℕ) : Prop :=
  ∀ c post, s.table.cells k = some c → c.shown = UserPost.ofPost post →
    (s.board.marks k).reading s.board.contains = s.board.contains post.postId ∧
      if s.board.contains post.postId then
        (s.table.rows[c.tag]?).bind (·.postId) = some post.postId
      else s.table.rows[c.tag]? = some (UserPost.ofPost post) ∧ post.imageUrl ≠ none

theorem Sound.togglesPin_iff (hs : s.Sound) (k : ℕ) : s.TogglesPin k ↔ s.PinInStep k := by
  unfold TogglesPin PinInStep
  refine forall_congr' fun c => forall_congr' fun post => forall_congr' fun hc =>
    forall_congr' fun hpost => ?_
  rw [hs.board.value k]
  refine and_congr_right ?_
  intro hreading
  have hvalue : (s.pinnedView k c).isSelected = s.board.contains post.postId := by
    rw [← hreading]
    exact hs.board.value k
  cases hpinned : s.board.contains post.postId with
  | true =>
      rw [hpinned] at hvalue
      exact HomeViewCollection.handlePinClick_remove_iff hvalue
  | false =>
      rw [hpinned] at hvalue
      exact HomeViewCollection.handlePinClick_add_iff hvalue

/-- A button is in step when its newest event came from an observer of the shown post, there was no tap
since, and the array still has the post, with an image, at the tag. -/
theorem pinInStep_of_source {k : ℕ} {c : Row UserPost} {post : Post} (hc : s.table.cells k = some c)
    (hpost : c.shown = UserPost.ofPost post) (hsource : (s.board.marks k).source = some post.postId)
    (hflipped : (s.board.marks k).flipped = false)
    (hcurrent : s.table.rows[c.tag]? = some (UserPost.ofPost post)) (himage : post.imageUrl ≠ none) :
    s.PinInStep k := by
  intro c' post' hc' hpost'
  obtain rfl := Option.some.inj (hc.symm.trans hc')
  obtain rfl := UserPost.ofPost_injective (hpost.symm.trans hpost')
  refine ⟨by simp [Mark.reading, hsource, hflipped], ?_⟩
  split_ifs
  · rw [hcurrent]
    rfl
  · exact ⟨hcurrent, himage⟩

/-- In every reachable feed a tap on a pin button toggles the pin of the shown post exactly if the
button and the array are in step with it. -/
theorem togglesPin_iff_pinInStep {es : List FeedEvent} (hr : s.Reached es) (k : ℕ) :
    s.TogglesPin k ↔ s.PinInStep k :=
  hr.sound.togglesPin_iff k

/-- A post with a picture. -/
def picturedPost (postId : String) : Post :=
  ⟨postId, "Books", "Moving books", "Study", "Library", some ("https://images/" ++ postId), "ann", "u"⟩

/-- Two posts arrive; `q` is the first row and `p` the second. -/
def twoPosts : FeedEvent :=
  .fetchData [("p", (picturedPost "p").record), ("q", (picturedPost "q").record)]

/-- The pinned `q` is shown, and the observer of its cell has had its first event. -/
theorem togglesPin_once : ∃ s : HomeFeed,
    s.Reached [twoPosts, .cellForItemAt 0 0, .pinned ["q"], .firstPinned] ∧
      s.table.cells 0 ≠ none ∧ s.TogglesPin 0 := by
  obtain ⟨s, hr, hcell, hmark, hrows⟩ := exists_run_of_exec step (fun _ _ => True)
    (opened "u") [twoPosts, .cellForItemAt 0 0, .pinned ["q"], .firstPinned]
    (fun s => s.table.cells 0 = some ⟨0, UserPost.ofPost (picturedPost "q"), none⟩ ∧
      s.board.marks 0 = ⟨true, some "q", false⟩ ∧
      s.table.rows[0]? = some (UserPost.ofPost (picturedPost "q"))) (by decide)
  have hreached : s.Reached [twoPosts, .cellForItemAt 0 0, .pinned ["q"], .firstPinned] := ⟨_, hr⟩
  refine ⟨s, hreached, by simp [hcell], (togglesPin_iff_pinInStep hreached 0).mpr ?_⟩
  exact pinInStep_of_source hcell rfl (by rw [hmark]; rfl) (by rw [hmark]) hrows (by decide)

/-- The cell of the pinned `p` is used again for `q` and tapped before its new observer has an event:
it is selected, and the tap does not pin `q`. -/
theorem reused_button_selected : ∃ (es : List FeedEvent) (s : HomeFeed),
    s.Reached es ∧ ¬ s.TogglesPin 0 := by
  obtain ⟨s, hr, hcell, hvalue, hpinned⟩ := exists_run_of_exec step (fun _ _ => True) (opened "u")
    [twoPosts, .cellForItemAt 0 1, .pinned ["p"], .firstPinned, .didEndDisplaying 0,
      .cellForItemAt 0 0]
    (fun s => s.table.cells 0 = some ⟨0, UserPost.ofPost (picturedPost "q"), none⟩ ∧
      (s.board.marks 0).value = true ∧ s.board.contains "q" = false) (by decide)
  refine ⟨_, s, ⟨_, hr⟩, ?_⟩
  intro htoggles
  obtain ⟨hsame, -⟩ := htoggles _ _ hcell rfl
  rw [hvalue] at hsame
  exact absurd (hsame.trans hpinned) (by decide)

/-! ### The pictures -/

/-- Every visible cell has the picture of its post or the default one, and the picture of its post once
that has arrived. -/
def ShowsOwnPictures (s : HomeFeed) : Prop :=
  ∀ k c, s.table.cells k = some c →
    (s.album.shown k = none ∨ s.album.shown k = c.shown.imageUrl) ∧
      (s.album.arrived k = true → s.album.shown k = c.shown.imageUrl)

/-- A cell is configured for a post with an image only while it has the default picture or the one of
that post, and a visible cell only gets the picture of its post. -/
def KeepsPictures (s : HomeFeed) : FeedEvent → Prop
  | .cellForItemAt k row => ∀ post, s.table.rows[row]? = some (UserPost.ofPost post) →
      s.album.MayConfigure k post.imageUrl
  | .imageLoaded i ok => s.album.MayFinish (fun k => s.table.cells k ≠ none) i ok
  | _ => True

theorem Sound.showsOwnPictures_iff (hs : s.Sound) :
    s.ShowsOwnPictures ↔ ∀ k, s.table.cells k ≠ none → s.album.Own k := by
  constructor
  · intro h k hk
    obtain ⟨c, hc⟩ := Option.ne_none_iff_exists'.mp hk
    obtain ⟨hshown, harrived⟩ := h k c hc
    rw [← hs.wanted k c hc] at hshown harrived
    exact ⟨hshown, harrived⟩
  · intro h k c hc
    obtain ⟨hshown, harrived⟩ := h k (by simp [hc])
    rw [hs.wanted k c hc] at hshown harrived
    exact ⟨hshown, harrived⟩

theorem own_of_eq (hp : ∀ k, s.table.cells k ≠ none → s.album.Own k) (halbum : s'.album = s.album)
    (hcells : ∀ k, s'.table.cells k ≠ none → s.table.cells k ≠ none) :
    ∀ k, s'.table.cells k ≠ none → s'.album.Own k := by
  intro k hk
  rw [halbum]
  exact hp k (hcells k hk)

theorem own_cellForItemAt (hp : ∀ k, s.table.cells k ≠ none → s.album.Own k) (k row : ℕ) :
    (∀ k', (s.cellForItemAt k row).table.cells k' ≠ none → (s.cellForItemAt k row).album.Own k') ↔
      s.KeepsPictures (.cellForItemAt k row) := by
  rcases s.cellForItemAt_cases k row with ⟨post, hrow, heq⟩ | ⟨hne, heq⟩ <;> rw [heq]
  · have hself : (s.album.configure k post.imageUrl).Own k ↔
        s.KeepsPictures (.cellForItemAt k row) := by
      rw [Album.own_configure_self]
      constructor
      · intro h post' hrow'
        rw [hrow] at hrow'
        obtain rfl := UserPost.ofPost_injective (Option.some.inj hrow')
        exact h
      · intro h
        exact h post hrow
    rw [← hself]
    constructor
    · intro h
      exact h k (by simp [Table.layOut])
    · intro h k' hk'
      by_cases hkk : k' = k
      · rw [hkk]
        exact h
      · refine (Album.own_configure_of_ne hkk).mpr (hp k' ?_)
        simpa [Table.layOut, hkk] using hk'
  · constructor
    · intro _ post hrow
      exact absurd hrow (hne post)
    · intro _
      exact hp

theorem own_imageLoaded (hp : ∀ k, s.table.cells k ≠ none → s.album.Own k) {i : ℕ} {ok : Bool}
    {album : Album String} (h : s.album.finish i ok = some album) :
    (∀ k, s.table.cells k ≠ none → album.Own k) ↔ s.KeepsPictures (.imageLoaded i ok) := by
  obtain ⟨x, hx, -⟩ := Option.bind_eq_some_iff.mp h
  constructor
  · intro hown hok y hy hvisible
    obtain rfl := Option.some.inj (hx.symm.trans hy)
    simpa [hok] using (Album.own_finish hx h).mp (hown x.1 hvisible)
  · intro hkeeps k hk
    rw [Album.own_finish hx h]
    split_ifs with hcase
    · obtain ⟨hok, rfl⟩ := hcase
      exact hkeeps hok x hx hk
    · exact hp k hk

theorem own_react (hp : ∀ k, s.table.cells k ≠ none → s.album.Own k) {e : FeedEvent}
    (h : s.react e = some s') :
    (∀ k, s'.table.cells k ≠ none → s'.album.Own k) ↔ s.KeepsPictures e := by
  cases e with
  | fetchData snapshot =>
      obtain rfl := Option.some.inj h
      refine iff_of_true ?_ trivial
      unfold HomeFeed.fetchData
      split
      · exact own_of_eq hp rfl (by simp [Table.deliver])
      · exact hp
  | cellForItemAt k row =>
      obtain rfl := Option.some.inj h
      exact own_cellForItemAt hp k row
  | didEndDisplaying k =>
      obtain rfl := Option.some.inj h
      refine iff_of_true (own_of_eq hp rfl ?_) trivial
      intro k' hk'
      obtain ⟨c, hc⟩ := Option.ne_none_iff_exists'.mp hk'
      rw [Table.hide_cells hc]
      simp
  | pinned keys =>
      obtain rfl := Option.some.inj h
      exact iff_of_true hp trivial
  | firstPinned =>
      obtain ⟨board, -, rfl⟩ := Option.map_eq_some_iff.mp h
      exact iff_of_true hp trivial
  | handlePinClick k =>
      obtain ⟨c, -, h⟩ := Option.bind_eq_some_iff.mp h
      obtain rfl := Option.some.inj h
      exact iff_of_true hp trivial
  | handleCheckClick k =>
      obtain ⟨c, -, h⟩ := Option.bind_eq_some_iff.mp h
      obtain rfl := Option.some.inj h
      exact iff_of_true hp trivial
  | imageLoaded i ok =>
      obtain ⟨album, halbum, rfl⟩ := Option.map_eq_some_iff.mp h
      exact own_imageLoaded hp halbum

/-- All along a run the visible cells have their own pictures exactly if every step keeps them. -/
theorem showsOwnPictures_iff_keepsPictures {uid : String} {es : List FeedEvent}
    (hr : Run step (fun _ _ => True) (opened uid) es s) :
    (∀ before later u, es = before ++ later → Run step (fun _ _ => True) (opened uid) before u →
        u.ShowsOwnPictures) ↔ Run step KeepsPictures (opened uid) es s := by
  refine hr.always_iff Sound ShowsOwnPictures ?_ ?_ (sound_opened uid) ?_
  · intro s e s' hs h
    exact hs.react (step_eq_some.mp h).2
  · intro s e s' hs hp h
    have hreact := (step_eq_some.mp h).2
    rw [(hs.react hreact).showsOwnPictures_iff]
    exact own_react (hs.showsOwnPictures_iff.mp hp) hreact
  · intro k c hc
    cases hc

theorem showsOwnPictures_once : ∃ s : HomeFeed,
    Run step (fun _ _ => True) (opened "u") [twoPosts, .cellForItemAt 0 1, .imageLoaded 0 true] s ∧
      s.album.shown 0 = some "https://images/p" ∧ s.ShowsOwnPictures := by
  have hr : ∃ s : HomeFeed,
      Run step KeepsPictures (opened "u") [twoPosts, .cellForItemAt 0 1, .imageLoaded 0 true] s ∧
        s.album.shown 0 = some "https://images/p" := by
    refine ⟨_, .cons trivial rfl (.cons ?_ rfl (.cons ?_ rfl (.nil _))), rfl⟩
    · intro post _ url _
      exact Or.inl rfl
    · intro _ x hx _
      obtain rfl := Option.some.inj hx
      rfl
  obtain ⟨s, hr, hshown⟩ := hr
  have hrun := hr.mono (fun _ _ _ => trivial)
  exact ⟨s, hrun, hshown,
    (showsOwnPictures_iff_keepsPictures hrun).mpr hr _ [] s (List.append_nil _).symm hrun⟩

/-- The picture of `p` arrives in a cell that shows `q` by now. -/
theorem late_picture_shown : ∃ (es : List FeedEvent) (s : HomeFeed),
    Run step (fun _ _ => True) (opened "u") es s ∧ ¬ s.ShowsOwnPictures := by
  obtain ⟨s, hr, hcell, hshown⟩ := exists_run_of_exec step (fun _ _ => True) (opened "u")
    [twoPosts, .cellForItemAt 0 1, .didEndDisplaying 0, .cellForItemAt 0 0, .imageLoaded 0 true]
    (fun s => s.table.cells 0 = some ⟨0, UserPost.ofPost (picturedPost "q"), none⟩ ∧
      s.album.shown 0 = some "https://images/p") (by decide)
  refine ⟨_, s, hr, ?_⟩
  intro hown
  rcases (hown 0 _ hcell).1 with h | h <;> rw [hshown] at h
  · cases h
  · exact absurd h (by decide)

end HomeFeed

end CommServe
