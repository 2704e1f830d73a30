import CommServe.Lifecycle

/-! # A completion whose writes are partly refused

Each `handleCheckClick` hands its writes to the database one by one, prints what fails and leaves it at
that.  `CheckClick.issued` lists them: Home issues two for a complete row and none for another; Pinned
credits the user first, so that for a row without an image it issues the karma update alone.  The
writes of one call act on different records (`CheckClick.keys_nodup`), so each takes effect or not on
its own, in whichever order the server handles them (`Outcome`). -/

namespace CommServe

open RecordStore Method Sync Transition

/-- One call of a `handleCheckClick`. -/
inductive CheckClick where
  | home (currentUser : Option String) (postArray : List UserPost) (sender : UIButton)
  | pinned (currentUser : Option String) (controller : PinController) (sender : UIButton)
deriving DecidableEq, Repr

/-- The writes of the call, in the order of issue. -/
def CheckClick.writes : CheckClick → List DbWrite
  | home currentUser postArray sender =>
      (HomeViewCollection.handleCheckClick currentUser postArray sender).writes sender
  | pinned currentUser controller sender =>
      (PinController.handleCheckClick currentUser controller sender).writes sender

/-! ### What a call issues -/

/-- The post of a row that has all eight fields. -/
def UserPost.toPost (row : UserPost) : Option Post := do
  let postId ← row.postId
  let postTitle ← row.postTitle
  let postDesc ← row.postDesc
  let postCategory ← row.postCategory
  let postLocation ← row.postLocation
  let imageUrl ← row.imageUrl
  let userName ← row.userName
  let userId ← row.userId
  some ⟨postId, postTitle, postDesc, postCategory, postLocation, some imageUrl, userName, userId⟩

/-- What a tap in the Home feed is to issue: both writes of a completion for a row with all its fields. -/
def HomeViewCollection.issued (currentUser : Option String) (postArray : List UserPost)
    (sender : UIButton) : List DbWrite :=
  match currentUser, (postArray[sender.tag]?).bind UserPost.toPost, sender.isSelected with
  | some uid, some post, false => [createCompleted post uid, removeOpen post]
  | _, _, _ => []

/-- What a tap in the Pinned list is to issue: the karma of the user once the guards are passed and the sum
fits, and with it the three writes of a completion if the row has all its fields. -/
def PinController.issued (currentUser : Option String) (controller : PinController)
    (sender : UIButton) : List DbWrite :=
  match guards currentUser controller sender.tag with
  | none => []
  | some g =>
      if g.point + 50 ≤ maxInt then
        updateKarma g.uid (g.point + 50) :: match g.row.toPost, sender.isSelected with
          | some post, false =>
              [createCompleted post g.name, .remove (.pinned g.uid post.postId), removeOpen post]
          | _, _ => []
      else []

/-- What a call is to issue. -/
def CheckClick.issued : CheckClick → List DbWrite
  | home currentUser postArray sender => HomeViewCollection.issued currentUser postArray sender
  | pinned currentUser controller sender => PinController.issued currentUser controller sender

theorem UserPost.toPost_eq_some {row : UserPost} {post : Post} :
    row.toPost = some post ↔ row = UserPost.ofPost post ∧ ∃ url, post.imageUrl = some url := by
  constructor
  · intro h
    obtain ⟨desc, id, title, userId, userName, category, location, imageUrl⟩ := row
    simp only [UserPost.toPost, Option.bind_eq_bind, Option.bind_eq_some_iff, Option.some.injEq] at h
    obtain ⟨_, rfl, _, rfl, _, rfl, _, rfl, _, rfl, url, rfl, _, rfl, _, rfl, rfl⟩ := h
    exact ⟨rfl, url, rfl⟩
  · rintro ⟨rfl, url, hurl⟩
    cases post
    obtain rfl := hurl
    rfl

theorem HomeViewCollection.writes_eq {currentUser : Option String} {postArray : List UserPost}
    {sender : UIButton} :
    (handleCheckClick currentUser postArray sender).writes sender =
      issued currentUser postArray sender := by
  have hcases := @handleCheckClick_cases currentUser postArray sender
  unfold issued
  split
  · rename_i uid post hpost hsel
    obtain ⟨row, hrow, hpost⟩ := Option.bind_eq_some_iff.mp hpost
    obtain ⟨rfl, url, hurl⟩ := UserPost.toPost_eq_some.mp hpost
    rw [Handler.writes, handleCheckClick_ofPost hrow hurl hsel]
    rfl
  · rename_i hno
    rcases hcases with h | ⟨uid, post, url, hu, hrow, hurl, hsel, -⟩
    · exact h
    · have hpost : (postArray[sender.tag]?).bind UserPost.toPost = some post := by
        rw [hrow]
        exact UserPost.toPost_eq_some.mpr ⟨rfl, url, hurl⟩
      exact (hno uid post hu hpost hsel).elim

theorem PinController.writes_eq {currentUser : Option String} {controller : PinController}
    {sender : UIButton} :
    (handleCheckClick currentUser controller sender).writes sender =
      issued currentUser controller sender := by
  unfold issued
  split
  · rename_i hg
    exact handleCheckClick_none hg
  · rename_i g hg
    split_ifs with hfit
    · rcases handleCheckClick_guarded hg hfit with ⟨hw, hpart⟩ | ⟨post, url, hsel, hrow, hurl, hw⟩
      · rw [hw]
        split
        · rename_i post hpost hsel
          obtain ⟨hrow, url, hurl⟩ := UserPost.toPost_eq_some.mp hpost
          exact absurd hurl (hpart.resolve_left (by simp [hsel]) post url hrow)
        · rfl
      · rw [hw, UserPost.toPost_eq_some.mpr ⟨hrow, url, hurl⟩, hsel]
        rfl
    · rw [Handler.writes, handleCheckClick_overflow hg (not_le.mp hfit)]

/-- What a call issues is decided by its row, its user and its button. -/
theorem CheckClick.writes_eq (call : CheckClick) : call.writes = call.issued := by
  cases call with
  | home currentUser postArray sender => exact HomeViewCollection.writes_eq
  | pinned currentUser controller sender => exact PinController.writes_eq

theorem CheckClick.writes_cases (call : CheckClick) :
    call.writes = [] ∨
      (∃ uid post, call.writes = [createCompleted post uid, removeOpen post]) ∨
      (∃ uid point, call.writes = [updateKarma uid point]) ∨
      ∃ uid point post name, call.writes = [updateKarma uid point, createCompleted post name,
        .remove (.pinned uid post.postId), removeOpen post] := by
  rw [call.writes_eq]
  cases call with
  | home currentUser postArray sender =>
      rw [issued]
      unfold HomeViewCollection.issued
      split
      · exact Or.inr (Or.inl ⟨_, _, rfl⟩)
      · exact Or.inl rfl
  | pinned currentUser controller sender =>
      rw [issued, PinController.issued]
      split
      · exact Or.inl rfl
      · split_ifs
        · split
          · exact Or.inr (Or.inr (Or.inr ⟨_, _, _, _, rfl⟩))
          · exact Or.inr (Or.inr (Or.inl ⟨_, _, rfl⟩))
        · exact Or.inl rfl

theorem CheckClick.keys_nodup (call : CheckClick) : (call.writes.map Write.key).Nodup := by
  rcases call.writes_cases with h | ⟨uid, post, h⟩ | ⟨uid, point, h⟩ | ⟨uid, point, post, name, h⟩ <;>
    simp [h, removeOpen]

theorem CheckClick.mem_writes {call : CheckClick} {x : DbWrite} (hx : x ∈ call.writes) :
    (∃ uid point, x = updateKarma uid point) ∨ (∃ post name, x = createCompleted post name) ∨
      (∃ uid p, x = .remove (.pinned uid p)) ∨ ∃ post, x = removeOpen post := by
  rcases call.writes_cases with h | ⟨uid, post, h⟩ | ⟨uid, point, h⟩ | ⟨uid, point, post, name, h⟩
  all_goals
    rw [h] at hx
    simp only [List.mem_cons, List.not_mem_nil, or_false] at hx
  · rcases hx with rfl | rfl
    · exact Or.inr (Or.inl ⟨_, _, rfl⟩)
    · exact Or.inr (Or.inr (Or.inr ⟨_, rfl⟩))
  · exact Or.inl ⟨_, _, hx⟩
  · rcases hx with rfl | rfl | rfl | rfl
    · exact Or.inl ⟨_, _, rfl⟩
    · exact Or.inr (Or.inl ⟨_, _, rfl⟩)
    · exact Or.inr (Or.inr (Or.inl ⟨_, _, rfl⟩))
    · exact Or.inr (Or.inr (Or.inr ⟨_, rfl⟩))

/-- A call issues one update of one user. -/
theorem CheckClick.karma_unique {call : CheckClick} {uid : String} {point point' : ℤ}
    (h : updateKarma uid point ∈ call.writes) (h' : updateKarma uid point' ∈ call.writes) :
    point = point' := by
  have hsame : updateKarma uid point = updateKarma uid point' :=
    List.inj_on_of_nodup_map call.keys_nodup h h' rfl
  simpa [updateKarma] using hsame

/-! ### What is left of a call -/

/-- What the server has handled when nothing is in flight any more: some of the writes, applied in
some order, and the rest refused. -/
theorem Run.outcome {w t : World} {es : List Event}
    (hr : Run step (fun _ e => ∀ c a, e ≠ .act c a) w es t) (hq : t.server.Quiescent) :
    ∃ accepted rejected, (accepted ++ rejected).Perm (w.server.inFlight.map Prod.snd) ∧
      t.server.db = w.server.db.applyAll accepted := by
  induction hr with
  | nil w => exact ⟨[], [], by rw [show w.server.inFlight = [] from hq]; rfl, rfl⟩
  | @cons w w' t e es he hst _ ih =>
      obtain ⟨accepted, rejected, hp, hdb⟩ := ih hq
      cases e with
      | act c a => exact absurd rfl (he c a)
      | deliver i =>
          obtain ⟨n, hn, rfl⟩ := step_deliver hst
          obtain ⟨l₁, x, l₂, hl, -, rfl⟩ := Net.deliver_eq_some hn
          refine ⟨x.2 :: accepted, rejected, ?_, hdb⟩
          rw [hl, List.map_append, List.map_cons]
          refine (hp.cons x.2).trans ?_
          rw [List.map_append]
          exact List.perm_middle.symm
      | reject i =>
          obtain ⟨n, hn, rfl⟩ := step_reject hst
          obtain ⟨l₁, x, l₂, hl, rfl⟩ := Net.reject_eq_some hn
          refine ⟨accepted, x.2 :: rejected, ?_, hdb⟩
          rw [hl, List.map_append, List.map_cons]
          refine List.perm_middle.trans ((hp.cons x.2).trans ?_)
          rw [List.map_append]
          exact List.perm_middle.symm

/-- One of the writes is on the record. -/
def Touches (ws : List DbWrite) (k : Ref) : Prop := ∃ x ∈ ws, x.key = k

/-- The post was open, and is neither open nor completed any more. -/
def Lost (db db' : Database) (category p : String) : Prop :=
  db.Present (.posts category p) ∧ ¬ db'.Present (.posts category p) ∧ ¬ db'.Present (.completed p)

/-- The karma of the user has changed, and the post is not completed. -/
def CreditedOnly (db db' : Database) (uid p : String) : Prop :=
  db'.node (.users uid) .karmaPoints ≠ db.node (.users uid) .karmaPoints ∧
    ¬ db'.Present (.completed p)

/-- The database after the accepted writes of a call, record by record. -/
structure Outcome (call : CheckClick) (db : Database) (accepted : List DbWrite) : Prop where
  acts : ∀ x ∈ accepted, (db.applyAll accepted).node x.key = x.on (db.node x.key)
  frame : ∀ k, ¬ Touches accepted k → (db.applyAll accepted).node k = db.node k
  completed : ∀ p, (db.applyAll accepted).Present (.completed p) ↔
    Touches accepted (.completed p) ∨ db.Present (.completed p)
  posts : ∀ category p, (db.applyAll accepted).Present (.posts category p) ↔
    db.Present (.posts category p) ∧ ¬ Touches accepted (.posts category p)
  karma : ∀ uid point, updateKarma uid point ∈ call.writes →
    (db.applyAll accepted).node (.users uid) .karmaPoints =
      if updateKarma uid point ∈ accepted then some (.int point)
      else db.node (.users uid) .karmaPoints
  lost : ∀ category p, Lost db (db.applyAll accepted) category p ↔
    db.Present (.posts category p) ∧ Touches accepted (.posts category p) ∧
      ¬ Touches accepted (.completed p) ∧ ¬ db.Present (.completed p)
  creditedOnly : ∀ uid p, CreditedOnly db (db.applyAll accepted) uid p ↔
    (∃ point, updateKarma uid point ∈ accepted ∧
      db.node (.users uid) .karmaPoints ≠ some (.int point)) ∧
      ¬ Touches accepted (.completed p) ∧ ¬ db.Present (.completed p)

theorem node_of_not_touches {ws : List DbWrite} {k : Ref} (h : ¬ Touches ws k) (db : Database) :
    (db.applyAll ws).node k = db.node k :=
  Store.applyAll_node_ne (fun x hx he => h ⟨x, hx, he.symm⟩) db

section Outcome

variable {call : CheckClick} {accepted rejected : List DbWrite}
  (h : (accepted ++ rejected).Perm call.writes) (db : Database)
include h

theorem CheckClick.mem_of_accepted {x : DbWrite} (hx : x ∈ accepted) : x ∈ call.writes :=
  h.subset (List.mem_append_left _ hx)

theorem CheckClick.node_accepted {x : DbWrite} (hx : x ∈ accepted) :
    (db.applyAll accepted).node x.key = x.on (db.node x.key) :=
  Store.applyAll_node_of_perm h call.keys_nodup hx db

theorem CheckClick.present_completed_iff (p : String) :
    (db.applyAll accepted).Present (.completed p) ↔
      Touches accepted (.completed p) ∨ db.Present (.completed p) := by
  by_cases ht : Touches accepted (.completed p)
  · obtain ⟨x, hx, hk⟩ := ht
    refine iff_of_true ⟨.postId, ?_⟩ (Or.inl ⟨x, hx, hk⟩)
    rw [← hk, CheckClick.node_accepted h db hx]
    rcases CheckClick.mem_writes (CheckClick.mem_of_accepted h hx) with
      ⟨uid, point, rfl⟩ | ⟨post, name, rfl⟩ | ⟨uid, q, rfl⟩ | ⟨post, rfl⟩
    · cases hk
    · rfl
    · cases hk
    · cases hk
  · unfold Store.Present
    rw [node_of_not_touches ht]
    exact (or_iff_right ht).symm

theorem CheckClick.present_posts_iff (category p : String) :
    (db.applyAll accepted).Present (.posts category p) ↔
      db.Present (.posts category p) ∧ ¬ Touches accepted (.posts category p) := by
  by_cases ht : Touches accepted (.posts category p)
  · refine iff_of_false ?_ fun hold => hold.2 ht
    rintro ⟨f, hf⟩
    obtain ⟨x, hx, hk⟩ := ht
    rw [← hk, CheckClick.node_accepted h db hx] at hf
    rcases CheckClick.mem_writes (CheckClick.mem_of_accepted h hx) with
      ⟨uid, point, rfl⟩ | ⟨post, name, rfl⟩ | ⟨uid, q, rfl⟩ | ⟨post, rfl⟩
    · cases hk
    · cases hk
    · cases hk
    · cases hf
  · unfold Store.Present
    rw [node_of_not_touches ht]
    exact (and_iff_left ht).symm

theorem CheckClick.karma_cases (uid : String) :
    (∃ point, updateKarma uid point ∈ accepted ∧
      (db.applyAll accepted).node (.users uid) .karmaPoints = some (.int point)) ∨
    (∀ point, updateKarma uid point ∉ accepted) ∧
      (db.applyAll accepted).node (.users uid) .karmaPoints = db.node (.users uid) .karmaPoints := by
  by_cases ht : Touches accepted (.users uid)
  · obtain ⟨x, hx, hk⟩ := ht
    have hnode := CheckClick.node_accepted h db hx
    rcases CheckClick.mem_writes (CheckClick.mem_of_accepted h hx) with
      ⟨v, point, rfl⟩ | ⟨post, name, rfl⟩ | ⟨v, q, rfl⟩ | ⟨post, rfl⟩
    · obtain rfl := Ref.users.inj hk
      rw [key_updateKarma] at hnode
      exact Or.inl ⟨point, hx, by rw [hnode]; rfl⟩
    · cases hk
    · cases hk
    · cases hk
  · exact Or.inr ⟨fun point hx => ht ⟨_, hx, rfl⟩, by rw [node_of_not_touches ht]⟩

theorem CheckClick.karmaPoints_outcome {uid : String} {point : ℤ}
    (hmem : updateKarma uid point ∈ call.writes) :
    (db.applyAll accepted).node (.users uid) .karmaPoints =
      if updateKarma uid point ∈ accepted then some (.int point)
      else db.node (.users uid) .karmaPoints := by
  rcases CheckClick.karma_cases h db uid with ⟨point', hin, hnode⟩ | ⟨hno, hnode⟩
  · obtain rfl := CheckClick.karma_unique (CheckClick.mem_of_accepted h hin) hmem
    rw [if_pos hin, hnode]
  · rw [if_neg (hno point), hnode]

theorem CheckClick.creditedOnly_iff (uid p : String) :
    CreditedOnly db (db.applyAll accepted) uid p ↔
      (∃ point, updateKarma uid point ∈ accepted ∧
        db.node (.users uid) .karmaPoints ≠ some (.int point)) ∧
        ¬ Touches accepted (.completed p) ∧ ¬ db.Present (.completed p) := by
  unfold CreditedOnly
  rw [CheckClick.present_completed_iff h, not_or]
  refine and_congr_left fun _ => ?_
  rcases CheckClick.karma_cases h db uid with ⟨point, hin, hnode⟩ | ⟨hno, hnode⟩
  · rw [hnode]
    constructor
    · intro hne
      exact ⟨point, hin, hne.symm⟩
    · rintro ⟨point', hin', hne⟩
      obtain rfl := CheckClick.karma_unique (CheckClick.mem_of_accepted h hin')
        (CheckClick.mem_of_accepted h hin)
      exact hne.symm
  · rw [hnode]
    refine iff_of_false (fun hne => hne rfl) ?_
    rintro ⟨point, hin, -⟩
    exact hno point hin

theorem CheckClick.outcome : Outcome call db accepted where
  acts x hx := CheckClick.node_accepted h db hx
  frame k hk := node_of_not_touches hk db
  completed := CheckClick.present_completed_iff h db
  posts := CheckClick.present_posts_iff h db
  karma uid point hmem := CheckClick.karmaPoints_outcome h db hmem
  lost category p := by
    unfold Lost
    rw [CheckClick.present_posts_iff h, CheckClick.present_completed_iff h]
    tauto
  creditedOnly := CheckClick.creditedOnly_iff h db

end Outcome

/-- **Each write of a completion takes effect on its own.**  A call issues what its row, its user and its
button make it issue.  Whatever part of these writes is accepted, and in whichever order the outcomes
come, the database ends as the accepted writes leave it, record by record: the post is lost exactly if
its removal is accepted, its creation is not and it was not completed before, and the karma changes
without a completed post exactly if its update is accepted with another value, and so on. -/
theorem completion_outcome (call : CheckClick) :
    call.writes = call.issued ∧
    (∀ (c : ℕ) (w t : World) (es : List Event),
      w.server.inFlight = call.writes.map (fun x => (c, x)) →
      Run step (fun _ e => ∀ c a, e ≠ .act c a) w es t → t.server.Quiescent →
      ∃ accepted rejected, (accepted ++ rejected).Perm call.writes ∧
        t.server.db = w.server.db.applyAll accepted) ∧
    ∀ (db : Database) (accepted rejected : List DbWrite),
      (accepted ++ rejected).Perm call.writes → Outcome call db accepted := by
  refine ⟨call.writes_eq, ?_, ?_⟩
  · intro c w t es hw hr hq
    obtain ⟨accepted, rejected, hp, hdb⟩ := Run.outcome hr hq
    refine ⟨accepted, rejected, ?_, hdb⟩
    rw [hw, List.map_map] at hp
    simpa [Function.comp_def] using hp
  · intro db accepted rejected h
    exact CheckClick.outcome h db

/-- An open post in the feed of a signed-in user. -/
def sampleDb : Database := Store.empty.apply (AddPostController.store (scriptPost "v" "p" (some "p.png")))

def sampleCall : CheckClick :=
  .home (some "u") [UserPost.ofPost (scriptPost "v" "p" (some "p.png"))] ⟨0, false⟩

/-- Only the creation is accepted. -/
theorem completion_outcome_created :
    (sampleDb.applyAll [createCompleted (scriptPost "v" "p" (some "p.png")) "u"]).Present
      (.completed "p") :=
  (((completion_outcome sampleCall).2.2 sampleDb
    [createCompleted (scriptPost "v" "p" (some "p.png")) "u"]
    [removeOpen (scriptPost "v" "p" (some "p.png"))] (List.Perm.refl _)).completed "p").mpr
      (Or.inl ⟨_, List.mem_cons_self, rfl⟩)

/-- Only the removal is accepted: the post is lost, and the call is neither done nor undone. -/
theorem completion_torn :
    ¬ ∀ (call : CheckClick) (db : Database) (accepted rejected : List DbWrite),
      (accepted ++ rejected).Perm call.writes →
      (∀ x ∈ call.writes, (db.applyAll accepted).node x.key = x.on (db.node x.key)) ∨
        (db.applyAll accepted).node = db.node := by
  intro h
  have hlost : ¬ (sampleDb.applyAll [removeOpen (scriptPost "v" "p" (some "p.png"))]).Present
      (.posts "Study" "p") ∧
      ¬ (sampleDb.applyAll [removeOpen (scriptPost "v" "p" (some "p.png"))]).Present
        (.completed "p") ∧ sampleDb.Present (.posts "Study" "p") := by
    decide +kernel
  rcases h sampleCall sampleDb [removeOpen (scriptPost "v" "p" (some "p.png"))]
    [createCompleted (scriptPost "v" "p" (some "p.png")) "u"] (List.Perm.swap _ _ _) with hall | hnone
  · have hnode := hall (createCompleted (scriptPost "v" "p" (some "p.png")) "u") List.mem_cons_self
    refine hlost.2.1 ⟨.postId, ?_⟩
    rw [show (Ref.completed "p") = (createCompleted (scriptPost "v" "p" (some "p.png")) "u").key
      from rfl, hnode]
    rfl
  · obtain ⟨f, hf⟩ := hlost.2.2
    exact hlost.1 ⟨f, by rw [hnone]; exact hf⟩

end CommServe
