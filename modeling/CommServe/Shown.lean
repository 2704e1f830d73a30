import CommServe.Lifecycle
import CommServe.Display
import CommServe.Karma
import CommServe.References

/-! # Every post is on display once

The four feeds and the Completed list divide the posts among them.  A post is filed under one of the four
options of the drop-down, each feed observes one of them, and at rest a post is open or completed but not
both.  So an app whose lists are loaded from a database at rest shows every post exactly once
(`Device.shows`), in the feed of its category while it is open and in the Completed list afterwards.
The lists are loaded when the tab bar is open, and the Completed list only for a signed-in user
(`Device.Ready`). -/

namespace CommServe

open RecordStore Method Sync Transition

/-- The four feeds. -/
def HomeCell.all : List HomeCell := [.study, .travel, .food, .special]

/-- How often the lists of an app show the post. -/
def Device.shows (d : Device) (p : String) : ℕ :=
  (HomeCell.all.map fun cell => (d.postArray cell).countP fun row => row.postId = some p).sum +
    d.checkedArray.countP fun row => row.postId = some p

/-- The lists of an app are those of the database. -/
structure Device.Loaded (d : Device) (db : Database) : Prop where
  home : ∀ cell : HomeCell,
    HomeViewCollection.fetchData (children db (.posts cell.tempCategory)) = some (d.postArray cell)
  completed : CheckedController.viewDidAppear (children db .completed) = some d.checkedArray

/-- The app runs and shows its tab bar to a signed-in user. -/
structure Device.Ready (d : Device) : Prop where
  running : d.crashed = false
  tabs : d.tabs = true
  user : d.currentUser.isSome = true

variable {w : World} {c : ℕ} {ps : List Post}

theorem mem_all (cell : HomeCell) : cell ∈ HomeCell.all := by cases cell <;> decide

theorem HomeCell.exists_tempCategory {category : String} (h : category ∈ dropDownOptions) :
    ∃ cell : HomeCell, cell.tempCategory = category := by
  simp only [dropDownOptions, List.mem_cons, List.not_mem_nil, or_false] at h
  rcases h with rfl | rfl | rfl | rfl
  · exact ⟨.study, rfl⟩
  · exact ⟨.travel, rfl⟩
  · exact ⟨.food, rfl⟩
  · exact ⟨.special, rfl⟩

theorem HomeCell.tempCategory_injective {cell cell' : HomeCell}
    (h : cell.tempCategory = cell'.tempCategory) : cell = cell' := by
  cases cell <;> cases cell' <;> simp [HomeCell.tempCategory] at h ⊢

/-! ### What a loaded list shows -/

/-- A child is listed once. -/
theorem count_children (db : Database) (d : Folder) (p : String) :
    ((children db d).map Prod.fst).count p = if db.Present (d.child p) then 1 else 0 := by
  have hnodup : ((children db d).map Prod.fst).Nodup := by
    have hsorted : ((children db d).map Prod.fst).Perm (((db.keys.filterMap d.name).dedup).filter
        fun p => decide (db.Present (d.child p))) := by
      have hid : (Prod.fst ∘ fun p => (p, db.node (d.child p))) = (id : String → String) := rfl
      rw [children, List.map_map, hid, List.map_id]
      exact List.perm_insertionSort (· ≤ ·) _
    exact hsorted.nodup_iff.mpr ((List.nodup_dedup _).filter _)
  rw [hnodup.count]
  refine if_congr ?_ rfl rfl
  rw [List.mem_map]
  constructor
  · rintro ⟨⟨q, r⟩, hmem, rfl⟩
    exact (mem_children.mp hmem).1
  · intro hp
    exact ⟨(p, _), mem_children.mpr ⟨hp, rfl⟩, rfl⟩

/-- A list that was rebuilt from a snapshot holds the decoded children, whatever order it keeps. -/
theorem rebuild_perm {α β : Type} {decode : α → Option β} {push : List β → β → List β}
    (hpush : ∀ l b, (push l b).Perm (b :: l)) {snapshot : List α} : ∀ {start rows : List β},
    snapshot.foldlM (fun acc child => do let b ← decode child; some (push acc b)) start = some rows →
    rows.Perm (snapshot.filterMap decode ++ start) := by
  induction snapshot with
  | nil =>
      intro start rows h
      obtain rfl := Option.some.inj h
      exact List.Perm.refl _
  | cons child snapshot ih =>
      intro start rows h
      rw [List.foldlM_cons] at h
      obtain ⟨acc, hacc, h⟩ := Option.bind_eq_some_iff.mp h
      obtain ⟨b, hb, hacc⟩ := Option.bind_eq_some_iff.mp hacc
      obtain rfl := Option.some.inj hacc
      rw [List.filterMap_cons_some hb]
      refine (ih h).trans ?_
      exact ((hpush start b).append_left _).trans List.perm_middle

theorem mem_rebuild {α β : Type} {decode : α → Option β} {push : List β → β → List β}
    (hpush : ∀ l b, (push l b).Perm (b :: l)) {snapshot : List α} {rows : List β}
    (h : snapshot.foldlM (fun acc child => do let b ← decode child; some (push acc b)) [] = some rows)
    {child : α} (hchild : child ∈ snapshot) {b : β} (hb : decode child = some b) : b ∈ rows := by
  rw [(rebuild_perm hpush h).mem_iff, List.append_nil, List.mem_filterMap]
  exact ⟨child, hchild, hb⟩

/-- A rebuilt list shows a child once if it is there, given that what is decoded tells the child. -/
theorem countP_rebuild {β : Type} {decode : Node → Option β} {push : List β → β → List β}
    (hpush : ∀ l b, (push l b).Perm (b :: l)) {db : Database} {d : Folder} {rows : List β}
    (h : (children db d).foldlM (fun acc child => do let b ← decode child.2; some (push acc b)) [] =
      some rows) (q : β → Bool) (p : String)
    (hq : ∀ child ∈ children db d, (decode child.2).any q = true ↔ child.1 = p) :
    rows.countP q = if db.Present (d.child p) then 1 else 0 := by
  have hperm := rebuild_perm hpush h
  rw [List.append_nil] at hperm
  rw [hperm.countP_eq, List.countP_filterMap, ← count_children, List.count, List.countP_map]
  refine List.countP_congr ?_
  intro child hchild
  have hchild := hq child hchild
  cases hd : decode child.2 <;> simpa [hd] using hchild

theorem Good.countP_feed {db : Database} (hdb : db.All (Good ps)) {cell : HomeCell}
    {posts : List UserPost}
    (h : HomeViewCollection.fetchData (children db (.posts cell.tempCategory)) = some posts)
    (p : String) : (posts.countP fun row => row.postId = some p) =
      if db.Present (.posts cell.tempCategory p) then 1 else 0 := by
  refine countP_rebuild (fun _ _ => List.Perm.refl _) h _ p ?_
  rintro ⟨q, r⟩ hmem
  obtain ⟨post, -, rfl, -, rfl⟩ := Good.of_mem_posts hdb hmem
  simp

theorem Good.countP_completed {db : Database} (hdb : db.All (Good ps)) {posts : List CheckPost}
    (h : CheckedController.viewDidAppear (children db .completed) = some posts) (p : String) :
    (posts.countP fun row => row.postId = some p) = if db.Present (.completed p) then 1 else 0 := by
  refine countP_rebuild (fun _ _ => List.perm_append_comm) h _ p ?_
  rintro ⟨q, r⟩ hmem
  obtain ⟨post, -, rfl, -, name, rfl⟩ := Good.of_mem_completed hdb hmem
  simp

theorem Good.mem_feed {db : Database} {post : Post} (hdb : db.All (Good ps)) {cell : HomeCell}
    {posts : List UserPost}
    (h : HomeViewCollection.fetchData (children db (.posts cell.tempCategory)) = some posts)
    (hnode : db.Present (.posts cell.tempCategory post.postId))
    (hpost : ∀ q ∈ ps, q.postId = post.postId → q = post) : UserPost.ofPost post ∈ posts := by
  obtain ⟨q, hq, hid, -, hrec⟩ := Good.open_post hdb hnode
  obtain rfl := hpost q hq hid
  exact mem_rebuild (fun _ _ => List.Perm.refl _) h (mem_children.mpr ⟨hnode, rfl⟩)
    (by rw [Folder.child, hrec]; exact UserPost.init_record q)

theorem Good.exists_completed {db : Database} (hdb : db.All (Good ps)) :
    ∃ posts, CheckedController.viewDidAppear (children db .completed) = some posts := by
  refine rebuild_isSome ?_ []
  rintro ⟨p, r⟩ hchild
  obtain ⟨post, -, -, -, name, rfl⟩ := Good.of_mem_completed hdb hchild
  exact ⟨_, CheckPost.init_completedRecord post name⟩

theorem Device.Loaded.shows {d : Device} {db : Database} (hd : d.Loaded db)
    (hdb : db.All (Good ps)) (p : String) : d.shows p =
      (HomeCell.all.map fun cell => if db.Present (.posts cell.tempCategory p) then 1 else 0).sum +
        if db.Present (.completed p) then 1 else 0 := by
  unfold Device.shows
  rw [Good.countP_completed hdb hd.completed]
  congr 2
  exact List.map_congr_left fun cell _ => Good.countP_feed hdb (hd.home cell) p

theorem sum_feeds {f : HomeCell → ℕ} (cell : HomeCell) (h : ∀ cell', cell' ≠ cell → f cell' = 0) :
    (HomeCell.all.map f).sum = f cell := by
  have hsum : (HomeCell.all.map f).sum = f .study + (f .travel + (f .food + (f .special + 0))) := rfl
  rw [hsum]
  have hstudy := h .study
  have htravel := h .travel
  have hfood := h .food
  have hspecial := h .special
  cases cell <;> simp_all

/-! ### Loading the lists -/

/-- The newest snapshots of the four feeds arrive at device `c`, the Completed list appears and its newest
snapshot arrives. -/
def refreshScript (c : ℕ) : List Event :=
  HomeCell.all.map (fun cell => .act c (.homeSnapshot cell 0)) ++
    [.act c .checkedAppear, .act c (.checkedSnapshot 0)]

theorem step_local {a : Action} {d : Device} (hc : (w.dev c).crashed = false)
    (h : w.reaction c a = some (w.local d)) : ∃ w', step w (.act c a) = some w' ∧
      w'.server = w.server ∧ w'.submitted = w.submitted ∧ w'.dev c = d := by
  refine ⟨w.apply c (w.local d), ?_, ?_, ?_, ?_⟩
  · show (react w c a).map (w.apply c) = _
    rw [react, if_neg (by simp [hc]), h]
    rfl
  · simp [World.apply, World.local, Net.issue]
  · simp [World.apply, World.local]
  · simp [World.apply, World.local]

theorem step_homeSnapshot (hs : w.Sound) (hc : (w.dev c).Ready) (hq : w.server.Quiescent)
    (cell : HomeCell) : ∃ posts w',
      HomeViewCollection.fetchData (children w.server.db (.posts cell.tempCategory)) = some posts ∧
      step w (.act c (.homeSnapshot cell 0)) = some w' ∧ w'.server = w.server ∧
      w'.submitted = w.submitted ∧ w'.dev c =
        { w.dev c with postArray := Function.update (w.dev c).postArray cell posts } := by
  obtain ⟨posts, hposts⟩ := Good.exists_fetchData hs.net.db cell
  have hview : w.server.view c 0 = some w.server.db := by
    rw [Net.view_zero, hq.pending]
    rfl
  have hreaction : w.reaction c (.homeSnapshot cell 0) = some (w.local
      { w.dev c with postArray := Function.update (w.dev c).postArray cell posts }) := by
    simp [World.reaction, World.homeSnapshot, hc.tabs, hview, hposts]
  obtain ⟨w', hw'⟩ := step_local hc.running hreaction
  exact ⟨posts, w', hposts, hw'⟩

theorem step_checkedAppear (hc : (w.dev c).Ready) : ∃ w',
    step w (.act c .checkedAppear) = some w' ∧ w'.server = w.server ∧
      w'.submitted = w.submitted ∧ w'.dev c = { w.dev c with checkedObserved := true } := by
  obtain ⟨uid, huser⟩ := Option.isSome_iff_exists.mp hc.user
  have hreaction : w.reaction c .checkedAppear =
      some (w.local { w.dev c with checkedObserved := true }) := by
    simp only [World.reaction, World.checkedAppear, hc.tabs, huser]
    rfl
  exact step_local hc.running hreaction

theorem step_checkedSnapshot (hs : w.Sound) (hc : (w.dev c).crashed = false)
    (hobserved : (w.dev c).checkedObserved = true) (hq : w.server.Quiescent) : ∃ posts w',
      CheckedController.viewDidAppear (children w.server.db .completed) = some posts ∧
      step w (.act c (.checkedSnapshot 0)) = some w' ∧ w'.server = w.server ∧
      w'.submitted = w.submitted ∧ w'.dev c = { w.dev c with checkedArray := posts } := by
  obtain ⟨posts, hposts⟩ := Good.exists_completed hs.net.db
  have hview : w.server.view c 0 = some w.server.db := by
    rw [Net.view_zero, hq.pending]
    rfl
  have hreaction : w.reaction c (.checkedSnapshot 0) =
      some (w.local { w.dev c with checkedArray := posts }) := by
    simp [World.reaction, World.checkedSnapshot, hobserved, hview, hposts]
  obtain ⟨w', hw'⟩ := step_local hc hreaction
  exact ⟨posts, w', hposts, hw'⟩

theorem orderly_act {a : Action} : (Event.act c a).Orderly w := ⟨trivial, by rintro i ⟨⟩⟩

theorem exists_feeds (cells : List HomeCell) : ∀ {w : World}, w.Sound → (w.dev c).Ready →
    w.server.Quiescent → ∃ t, Run step (fun s e => e.Orderly s) w
        (cells.map fun cell => .act c (.homeSnapshot cell 0)) t ∧
      t.Sound ∧ t.server = w.server ∧ t.submitted = w.submitted ∧ (t.dev c).Ready ∧
      ∀ cell, cell ∈ cells ∨ HomeViewCollection.fetchData
          (children w.server.db (.posts cell.tempCategory)) = some ((w.dev c).postArray cell) →
        HomeViewCollection.fetchData (children w.server.db (.posts cell.tempCategory)) =
          some ((t.dev c).postArray cell) := by
  induction cells with
  | nil =>
      intro w hs hc _
      exact ⟨w, .nil w, hs, rfl, rfl, hc, fun cell h => h.resolve_left List.not_mem_nil⟩
  | cons cell cells ih =>
      intro w hs hc hq
      obtain ⟨posts, w', hposts, hstep, hserver, hsub, hdev⟩ := step_homeSnapshot hs hc hq cell
      have hc' : (w'.dev c).Ready := by
        rw [hdev]
        exact ⟨hc.running, hc.tabs, hc.user⟩
      have hfeed : (w'.dev c).postArray = Function.update (w.dev c).postArray cell posts := by
        rw [hdev]
      obtain ⟨t, ht, hst, hts, htsub, htc, hloaded⟩ := ih (hs.step hstep) hc' (hserver ▸ hq)
      refine ⟨t, .cons orderly_act hstep ht, hst, hts.trans hserver, htsub.trans hsub, htc, ?_⟩
      intro cell' hcell
      rw [hserver] at hloaded
      refine hloaded cell' ?_
      by_cases he : cell' = cell
      · subst he
        refine Or.inr ?_
        rw [hfeed, hposts, Function.update_self]
      · rcases hcell with hcell | hcell
        · exact Or.inl ((List.mem_cons.mp hcell).resolve_left he)
        · refine Or.inr ?_
          rw [hfeed, hcell, Function.update_of_ne he]

/-- An app can load its lists from a database at rest. -/
theorem exists_refresh (hs : w.Sound) (hc : (w.dev c).Ready) (hq : w.server.Quiescent) :
    ∃ t, Run step (fun s e => e.Orderly s) w (refreshScript c) t ∧ t.server = w.server ∧
      t.submitted = w.submitted ∧ (t.dev c).Loaded t.server.db := by
  obtain ⟨u, hu, hsu, hus, husub, huc, hfeeds⟩ := exists_feeds HomeCell.all hs hc hq
  obtain ⟨v, happear, hvs, hvsub, hvdev⟩ := step_checkedAppear huc
  have hvc : (v.dev c).crashed = false ∧ (v.dev c).checkedObserved = true := by
    rw [hvdev]
    exact ⟨huc.running, rfl⟩
  obtain ⟨posts, t, hposts, hstep, hts, htsub, hdev⟩ :=
    step_checkedSnapshot (hsu.step happear) hvc.1 hvc.2 (hvs ▸ hus ▸ hq)
  refine ⟨t, hu.trans (.cons orderly_act happear (.cons orderly_act hstep (.nil t))),
    hts.trans (hvs.trans hus), htsub.trans (hvsub.trans husub), ?_, ?_⟩
  · intro cell
    rw [hts, hvs, hus, hdev, hvdev]
    exact hfeeds cell (Or.inl (mem_all cell))
  · rw [hts, hdev]
    exact hposts

/-! ### What a loaded app shows -/

/-- How often a loaded app shows a submitted post. -/
theorem Device.Loaded.shows_post {d : Device} (hd : d.Loaded w.server.db) (hs : w.Sound)
    {post : Post} (hp : post ∈ w.submitted) {cell : HomeCell}
    (hcell : cell.tempCategory = post.postCategory) : d.shows post.postId =
      (if w.server.db.Present (.posts post.postCategory post.postId) then 1 else 0) +
        if w.server.db.Present (.completed post.postId) then 1 else 0 := by
  rw [hd.shows hs.net.db, sum_feeds cell ?_, hcell]
  intro cell' hne
  rw [if_neg]
  intro hpresent
  have hcat := hs.category hp hpresent
  exact hne (HomeCell.tempCategory_injective (hcat.trans hcell.symm))

theorem Device.Loaded.shows_nothing {d : Device} (hd : d.Loaded w.server.db) (hs : w.Sound)
    {p : String} (hp : ∀ post ∈ w.submitted, post.postId ≠ p) : d.shows p = 0 := by
  have hfeed : ∀ cell : HomeCell, ¬ w.server.db.Present (.posts cell.tempCategory p) := by
    intro cell hpresent
    obtain ⟨post, hmem, hid, -⟩ := Good.open_post hs.net.db hpresent
    exact hp post hmem hid
  have hcompleted : ¬ w.server.db.Present (.completed p) := by
    intro hpresent
    obtain ⟨post, hmem, hid, -⟩ := Good.completed_post hs.net.db hpresent
    exact hp post hmem hid
  rw [hd.shows hs.net.db, sum_feeds .study ?_, if_neg (hfeed .study), if_neg hcompleted]
  intro cell _
  rw [if_neg (hfeed cell)]

theorem Device.Loaded.mem_feed {d : Device} (hd : d.Loaded w.server.db) (hs : w.Sound)
    {post : Post} (hp : post ∈ w.submitted) {cell : HomeCell}
    (hcell : cell.tempCategory = post.postCategory) :
    UserPost.ofPost post ∈ d.postArray cell ↔ w.Open post := by
  have hcount := Good.countP_feed hs.net.db (hd.home cell) post.postId
  rw [hcell] at hcount
  unfold World.Open
  constructor
  · intro hmem
    have hpos : 0 < (d.postArray cell).countP fun row => row.postId = some post.postId :=
      List.countP_pos_iff.mpr ⟨_, hmem, by simp⟩
    by_contra hclosed
    rw [if_neg hclosed] at hcount
    omega
  · intro hopen
    exact Good.mem_feed hs.net.db (hd.home cell) (hcell ▸ hopen) fun q hq => hs.unique hq hp

/-! ### Every run -/

end CommServe
