import CommServe.Lifecycle

/-! # The board of posts

What the posts go through, said without a database: a post is `sent` under an unused id, then `opened`
for everybody, then `completed`, and that is all.  `Board.step` is this machine.  `World.board` reads the
board off the server and the writes in flight, and every orderly step of the system leaves it as it is
or makes one move on it. -/

namespace CommServe

open RecordStore Method Sync Transition

/-- How far a post has come. -/
inductive Stage where
  | sent | opened | completed
deriving DecidableEq, Repr

def Stage.rank : Stage → ℕ
  | .sent => 0
  | .opened => 1
  | .completed => 2

/-- The posts by their ids. -/
abbrev Board := String → Option (Post × Stage)

namespace Board

inductive Move where
  | submit (post : Post)
  | publish (p : String)
  | complete (p : String)
deriving DecidableEq, Repr

/-- Nothing was posted. -/
def empty : Board := fun _ => none

/-- Takes the post `p` from the stage `s` to the next one. -/
def advance (b : Board) (p : String) (s next : Stage) : Option Board :=
  match b p with
  | some (post, t) => if t = s then some (Function.update b p (some (post, next))) else none
  | none => none

def step (b : Board) : Move → Option Board
  | .submit post =>
      if b post.postId = none then some (Function.update b post.postId (some (post, .sent))) else none
  | .publish p => b.advance p .sent .opened
  | .complete p => b.advance p .opened .completed

theorem advance_of {b : Board} {post : Post} {s next : Stage}
    (h : b post.postId = some (post, s)) : b.advance post.postId s next =
      some (Function.update b post.postId (some (post, next))) := by
  simp [advance, h]

theorem advance_eq_some {b b' : Board} {p : String} {s next : Stage}
    (h : b.advance p s next = some b') :
    ∃ post, b p = some (post, s) ∧ b' = Function.update b p (some (post, next)) := by
  unfold advance at h
  split at h
  · split_ifs at h with hs
    exact ⟨_, hs ▸ ‹_›, (Option.some.inj h).symm⟩
  · cases h

theorem step_stays {b b' : Board} {m : Move} (h : b.step m = some b') {p : String} {post : Post}
    {s : Stage} (hp : b p = some (post, s)) :
    ∃ s', b' p = some (post, s') ∧ s.rank ≤ s'.rank := by
  -- at its own place a move goes from one stage to a later one
  have hadvance : ∀ {q : String} {s₁ s₂ : Stage}, s₁.rank ≤ s₂.rank →
      b.advance q s₁ s₂ = some b' → ∃ s', b' p = some (post, s') ∧ s.rank ≤ s'.rank := by
    intro q s₁ s₂ hle hq
    obtain ⟨post', hpost, rfl⟩ := advance_eq_some hq
    by_cases hpq : p = q
    · subst hpq
      obtain ⟨rfl, rfl⟩ := Prod.mk.inj (Option.some.inj (hpost.symm.trans hp))
      exact ⟨s₂, Function.update_self _ _ _, hle⟩
    · exact ⟨s, by rw [Function.update_of_ne hpq, hp], Nat.le_refl _⟩
  cases m with
  | submit q =>
      rw [step] at h
      split_ifs at h with hq
      obtain rfl := Option.some.inj h
      have hpq : p ≠ q.postId := by
        rintro rfl
        rw [hq] at hp
        cases hp
      exact ⟨s, by rw [Function.update_of_ne hpq, hp], Nat.le_refl _⟩
  | publish q => exact hadvance (by decide) h
  | complete q => exact hadvance (by decide) h

theorem run_stays {b b' : Board} {ms : List Move} (h : Run step (fun _ _ => True) b ms b')
    {p : String} {post : Post} {s : Stage} (hp : b p = some (post, s)) :
    ∃ s', b' p = some (post, s') ∧ s.rank ≤ s'.rank := by
  refine h.invariant (fun b => ∃ s', b p = some (post, s') ∧ s.rank ≤ s'.rank) ?_
    ⟨s, hp, Nat.le_refl _⟩
  rintro b m b' ⟨s₁, hs₁, hle⟩ - hstep
  obtain ⟨s₂, hs₂, hle'⟩ := step_stays hstep hs₁
  exact ⟨s₂, hs₂, hle.trans hle'⟩

end Board

/-- How far a submitted post has come. -/
noncomputable def World.stage (w : World) (post : Post) : Stage :=
  open Classical in
  if w.Submitting post then .sent else if w.Done post then .completed else .opened

/-- The board as the database and the writes in flight have it. -/
noncomputable def World.board (w : World) : Board := fun p =>
  (w.submitted.find? fun post => post.postId = p).map fun post => (post, w.stage post)

/-- What a stage says about the two places of the post. -/
def Stage.Reads (w : World) (post : Post) : Stage → Prop
  | .sent => ¬ w.Open post ∧ ¬ w.Done post
  | .opened => w.Open post ∧ ¬ w.Done post
  | .completed => w.Done post ∧ (w.server.Quiescent → ¬ w.Open post)

variable {w w' : World} {post : Post} {c : ℕ}

/-! ### Reading the board -/

theorem World.stage_sent (h : w.Submitting post) : w.stage post = .sent := if_pos h

theorem World.stage_completed (h : ¬ w.Submitting post) (hd : w.Done post) :
    w.stage post = .completed := by
  rw [World.stage, if_neg h, if_pos hd]

theorem World.stage_opened (h : ¬ w.Submitting post) (hd : ¬ w.Done post) :
    w.stage post = .opened := by
  rw [World.stage, if_neg h, if_neg hd]

/-- A stage is told by whether the submission is on its way and whether the post was completed. -/
theorem World.stage_congr (hs : w'.Submitting post ↔ w.Submitting post)
    (hd : w'.Done post ↔ w.Done post) : w'.stage post = w.stage post := by
  classical
  rw [World.stage, World.stage, if_congr hs rfl (if_congr hd rfl rfl)]

theorem World.Sound.board_post (hs : w.Sound) (hp : post ∈ w.submitted) :
    w.board post.postId = some (post, w.stage post) := by
  unfold World.board
  cases hf : w.submitted.find? (fun q => q.postId = post.postId) with
  | none =>
      have hnone := List.find?_eq_none.mp hf post hp
      simp at hnone
  | some q =>
      have hid : q.postId = post.postId := by simpa using List.find?_some hf
      obtain rfl := hs.unique (List.mem_of_find?_eq_some hf) hp hid
      rfl

theorem World.board_none {p : String} (h : ∀ q ∈ w.submitted, q.postId ≠ p) : w.board p = none := by
  unfold World.board
  rw [List.find?_eq_none.mpr (by simpa using h)]
  rfl

theorem World.board_some {p : String} {s : Stage} (h : w.board p = some (post, s)) :
    post ∈ w.submitted ∧ post.postId = p ∧ w.stage post = s := by
  obtain ⟨q, hq, he⟩ := Option.map_eq_some_iff.mp h
  obtain ⟨rfl, hs⟩ := Prod.mk.inj he
  exact ⟨List.mem_of_find?_eq_some hq, by simpa using List.find?_some hq, hs⟩

theorem World.Sound.board_congr (hs : w.Sound) (hs' : w'.Sound) {p : String}
    (hsub : ∀ q, q.postId = p → (q ∈ w'.submitted ↔ q ∈ w.submitted))
    (hst : ∀ q ∈ w.submitted, q.postId = p → w'.stage q = w.stage q) : w'.board p = w.board p := by
  by_cases hp : ∃ q ∈ w.submitted, q.postId = p
  · obtain ⟨q, hq, rfl⟩ := hp
    rw [hs.board_post hq, hs'.board_post ((hsub q rfl).mpr hq), hst q hq rfl]
  · have hnone : ∀ q ∈ w.submitted, q.postId ≠ p := by
      intro q hq he
      exact hp ⟨q, hq, he⟩
    rw [World.board_none hnone, World.board_none]
    intro q hq he
    exact hnone q ((hsub q he).mp hq) he

/-! ### An action -/

theorem World.Sound.stage_apply {a : Action} {r : Reaction} (hs' : (w.apply c r).Sound)
    (hr : r.Spec w c a) (hp : post ∈ w.submitted) : (w.apply c r).stage post = w.stage post := by
  refine World.stage_congr ?_ Iff.rfl
  have hns := hr.store_not_mem hs' hp
  constructor
  · rintro ⟨d, hd⟩
    rcases mem_pending_apply.mp hd with hd | ⟨-, hd⟩
    · exact ⟨d, hd⟩
    · exact absurd hd hns
  · rintro ⟨d, hd⟩
    exact ⟨d, mem_pending_apply.mpr (Or.inl hd)⟩

theorem Issues.submitted_cases {a : Action} {ws : List DbWrite} {us : List String} {qs : List Post}
    {as : List (String × Option String)} (h : Issues w c a ws us qs as) :
    qs = [] ∨ ∃ q, qs = [q] ∧ ws = [AddPostController.store q] := by
  cases h with
  | submit hx hq hc => exact Or.inr ⟨_, rfl, rfl⟩
  | _ => exact Or.inl rfl

theorem World.Sound.board_act (hs : w.Sound) {a : Action} {r : Reaction} (hr : r.Spec w c a)
    (hs' : (w.apply c r).Sound) :
    (w.apply c r).board = w.board ∨ ∃ m, w.board.step m = some (w.apply c r).board := by
  have hstage : ∀ q ∈ w.submitted, (w.apply c r).stage q = w.stage q :=
    fun q hq => hs'.stage_apply hr hq
  rcases hr.issues.submitted_cases with hqs | ⟨post, hqs, hws⟩
  · refine Or.inl (funext fun p => hs.board_congr hs' ?_ fun q hq _ => hstage q hq)
    intro q _
    show q ∈ w.submitted ++ r.submitted ↔ q ∈ w.submitted
    rw [hqs, List.append_nil]
  · have hmem : post ∈ r.submitted := by rw [hqs]; exact List.mem_singleton_self _
    have hnew := hs'.new_id hmem
    refine Or.inr ⟨.submit post, ?_⟩
    rw [Board.step, if_pos (World.board_none hnew)]
    congr 1
    funext p
    by_cases hp : p = post.postId
    · subst hp
      have hsent : (w.apply c r).stage post = .sent :=
        World.stage_sent ⟨c, mem_pending_apply.mpr (Or.inr ⟨rfl, by rw [hws]; simp⟩)⟩
      rw [Function.update_self, hs'.board_post (List.mem_append_right _ hmem), hsent]
    · rw [Function.update_of_ne hp]
      refine (hs.board_congr hs' ?_ fun q hq _ => hstage q hq).symm
      intro q hq
      show q ∈ w.submitted ++ r.submitted ↔ q ∈ w.submitted
      rw [hqs, List.mem_append, List.mem_singleton]
      constructor
      · rintro (h | rfl)
        · exact h
        · exact absurd hq.symm hp
      · exact Or.inl

/-! ### A delivery -/

/-- What is of other posts lies elsewhere. -/
theorem World.Sound.others_keys (hs : w.Sound) (hp : post ∈ w.submitted) {x : DbWrite}
    (hx : Shape (w.others post) x) :
    x.key ≠ .posts post.postCategory post.postId ∧ x.key ≠ .completed post.postId := by
  have hne : ∀ q ∈ w.others post, q.postId ≠ post.postId := by
    intro q hq hid
    obtain ⟨hq, hne⟩ := mem_others.mp hq
    exact hne (hs.unique hq hp hid)
  constructor
  · intro hk
    obtain ⟨q, hq, hid, -⟩ := hx.on_posts hk
    exact hne q hq hid
  · intro hk
    obtain ⟨q, hq, hid, -⟩ := hx.on_completed hk
    exact hne q hq hid

theorem Hidden.not_open (hs : w.Sound) (hp : post ∈ w.submitted) (h : Hidden post w c) :
    ¬ w.Open post := by
  intro ho
  obtain ⟨q, hq, hid, -⟩ := Good.open_post h.db ho
  obtain ⟨hq, hne⟩ := mem_others.mp hq
  exact hne (hs.unique hq hp hid)

section Deliver

variable {n : Server} {d : ℕ} {x : DbWrite} {q : List DbWrite} (h : w.server.Pops n d x q)
  (hl : Lifecycle post w)
include h hl

/-- Nothing about a post arrives before its submission. -/
theorem Lifecycle.arrives (hsub : w.Submitting post) :
    x = AddPostController.store post ∨ Shape (w.others post) x := by
  obtain ⟨c, hc⟩ := hsub
  have hh := hl.hidden c hc
  by_cases hd : d = c
  · obtain ⟨q₁, q₂, he, h₁, -⟩ := hh.queue
    rw [← hd, h.head] at he
    cases q₁ with
    | nil => exact Or.inl (List.cons.inj he).1
    | cons y q₁ =>
        obtain ⟨rfl, -⟩ := List.cons.inj he
        exact Or.inr (h₁ x List.mem_cons_self)
  · exact Or.inr (hh.queues d hd x h.mem)

theorem Lifecycle.arrived (hs : w.Sound) (hp : post ∈ w.submitted)
    (hx : x = AddPostController.store post) :
    ¬ World.Submitting { w with server := n } post := by
  subst hx
  have hh := hl.hidden d h.mem
  rintro ⟨c, hc⟩
  by_cases hd : c = d
  · subst hd
    obtain ⟨q₁, q₂, he, h₁, h₂⟩ := hh.queue
    rw [h.head] at he
    rw [h.tail] at hc
    cases q₁ with
    | nil => exact h₂ ((List.cons.inj he).2 ▸ hc)
    | cons y q₁ =>
        obtain ⟨rfl, -⟩ := List.cons.inj he
        exact (hs.others_keys hp (h₁ _ List.mem_cons_self)).1 rfl
  · exact (hs.others_keys hp (hh.queues c hd _ (h.sub hc))).1 rfl

/-- The stage of a post after a delivery: the submission opens it, the creation of the completed post
completes it, and nothing else moves it. -/
theorem Lifecycle.stage_pops (hs : w.Sound) (hp : post ∈ w.submitted) :
    (w.stage post = .sent ∧ World.stage { w with server := n } post = .opened ∧
        x = AddPostController.store post) ∨
      (w.stage post = .opened ∧ World.stage { w with server := n } post = .completed ∧
        x.key = .completed post.postId) ∨
      World.stage { w with server := n } post = w.stage post := by
  have hx : Shape w.submitted x := hs.net.inFlight _ (Net.mem_pending.mp h.mem)
  have hback : World.Submitting { w with server := n } post → w.Submitting post := by
    rintro ⟨c, hc⟩
    exact ⟨c, h.sub hc⟩
  have hdone : World.Done { w with server := n } post ↔
      w.Done post ∨ x.key = .completed post.postId := by
    unfold World.Done
    rw [h.db]
    by_cases hk : x.key = .completed post.postId
    · obtain ⟨q, -, hid, name, rfl⟩ := hx.on_completed hk
      refine ⟨fun _ => Or.inr hk, fun _ => ?_⟩
      rw [← hid]
      exact present_create _ q name
    · rw [Store.present_apply_ne (Ne.symm hk)]
      simp [hk]
  by_cases hsub : w.Submitting post
  · rcases hl.arrives h hsub with hstore | hother
    · -- the submission arrives, and the post was not completed before
      have hns := hl.arrived h hs hp hstore
      have hnd : ¬ World.Done { w with server := n } post := by
        obtain ⟨c, hc⟩ := hsub
        rw [hdone, hstore]
        simpa using (hl.hidden c hc).not_done hs hp
      exact Or.inl ⟨World.stage_sent hsub, World.stage_opened hns hnd, hstore⟩
    · obtain ⟨c, hc⟩ := hsub
      have hne : AddPostController.store post ≠ x := by
        rintro rfl
        exact (hs.others_keys hp hother).1 rfl
      refine Or.inr (Or.inr ?_)
      rw [World.stage_sent ⟨c, hc⟩, World.stage_sent ⟨c, h.stay hc hne⟩]
  · have hns : ¬ World.Submitting { w with server := n } post := fun hsub' => hsub (hback hsub')
    by_cases hd : w.Done post
    · refine Or.inr (Or.inr ?_)
      rw [World.stage_completed hsub hd, World.stage_completed hns (hdone.mpr (Or.inl hd))]
    by_cases hk : x.key = .completed post.postId
    · exact Or.inr (Or.inl ⟨World.stage_opened hsub hd,
        World.stage_completed hns (hdone.mpr (Or.inr hk)), hk⟩)
    · refine Or.inr (Or.inr ?_)
      have hnd : ¬ World.Done { w with server := n } post := fun h' =>
        (hdone.mp h').elim hd hk
      rw [World.stage_opened hsub hd, World.stage_opened hns hnd]

theorem Lifecycle.moved (hs : w.Sound) (hp : post ∈ w.submitted)
    (hne : World.stage { w with server := n } post ≠ w.stage post) :
    x.key = .posts post.postCategory post.postId ∨ x.key = .completed post.postId := by
  rcases hl.stage_pops h hs hp with ⟨-, -, hx⟩ | ⟨-, -, hx⟩ | hst
  · exact Or.inl (congrArg Write.key hx)
  · exact Or.inr hx
  · exact absurd hst hne

end Deliver

/-- A delivery makes one move on the board at most. -/
theorem World.Sound.board_pops (hs : w.Sound) (hl : ∀ post ∈ w.submitted, Lifecycle post w)
    {n : Server} {d : ℕ} {x : DbWrite} {q : List DbWrite} (h : w.server.Pops n d x q)
    (hs' : World.Sound { w with server := n }) :
    World.board { w with server := n } = w.board ∨
      ∃ m, w.board.step m = some (World.board { w with server := n }) := by
  have hothers : ∀ p, (∀ q ∈ w.submitted, q.postId = p →
      World.stage { w with server := n } q = w.stage q) →
      World.board { w with server := n } p = w.board p :=
    fun p hst => hs.board_congr hs' (fun _ _ => Iff.rfl) hst
  by_cases hmove : ∃ post ∈ w.submitted, World.stage { w with server := n } post ≠ w.stage post
  · obtain ⟨post, hp, hne⟩ := hmove
    -- a post that moves is the one the write is about
    have habout : ∀ q ∈ w.submitted, World.stage { w with server := n } q ≠ w.stage q →
        q.postId = post.postId := by
      intro q hq hqne
      rcases (hl q hq).moved h hs hq hqne with hk | hk <;>
        rcases (hl post hp).moved h hs hp hne with hk' | hk' <;>
        (rw [hk] at hk'; injection hk')
    have hrest : ∀ p, p ≠ post.postId → World.board { w with server := n } p = w.board p := by
      intro p hpne
      refine hothers p ?_
      intro q hq hid
      by_contra hqne
      exact hpne (hid.symm.trans (habout q hq hqne))
    have hupdate : ∀ next, World.stage { w with server := n } post = next →
        Function.update w.board post.postId (some (post, next)) =
          World.board { w with server := n } := by
      intro next hnext
      funext p
      by_cases hpid : p = post.postId
      · rw [hpid, Function.update_self, hs'.board_post hp, hnext]
      · rw [Function.update_of_ne hpid, hrest p hpid]
    rcases (hl post hp).stage_pops h hs hp with ⟨hst, hst', -⟩ | ⟨hst, hst', -⟩ | hst
    · refine Or.inr ⟨.publish post.postId, ?_⟩
      rw [Board.step, Board.advance_of (by rw [hs.board_post hp, hst]), hupdate _ hst']
    · refine Or.inr ⟨.complete post.postId, ?_⟩
      rw [Board.step, Board.advance_of (by rw [hs.board_post hp, hst]), hupdate _ hst']
    · exact absurd hst hne
  · refine Or.inl (funext fun p => hothers p ?_)
    intro q hq _
    by_contra hne
    exact hmove ⟨q, hq, hne⟩

/-! ### Every run -/

theorem World.Sound.board_step (hs : w.Sound) (hl : ∀ post ∈ w.submitted, Lifecycle post w)
    {e : Event} (he : e.Orderly w) (hstep : CommServe.step w e = some w') :
    w'.board = w.board ∨ ∃ m, w.board.step m = some w'.board := by
  have hs' := hs.step hstep
  cases e with
  | act c a =>
      obtain ⟨r, hr, rfl⟩ := step_act hstep
      exact hs.board_act hr hs'
  | deliver i =>
      obtain ⟨n, hn, rfl⟩ := step_deliver hstep
      obtain ⟨c, x, q, h⟩ := Net.deliver_inOrder hn (he.2 i rfl)
      exact hs.board_pops hl h hs'
  | reject i => exact he.1.elim

theorem Lifecycle.reads (hl : Lifecycle post w) (hs : w.Sound) (hp : post ∈ w.submitted) :
    (w.stage post).Reads w post := by
  by_cases hsub : w.Submitting post
  · obtain ⟨c, hc⟩ := hsub
    rw [World.stage_sent ⟨c, hc⟩]
    exact ⟨(hl.hidden c hc).not_open hs hp, (hl.hidden c hc).not_done hs hp⟩
  by_cases hd : w.Done post
  · rw [World.stage_completed hsub hd]
    refine ⟨hd, ?_⟩
    intro hq
    rcases hl.exactly_one hq with ⟨-, hnd⟩ | ⟨hno, -⟩
    · exact absurd hd hnd
    · exact hno
  · rw [World.stage_opened hsub hd]
    exact ⟨(hl.somewhere hsub).resolve_right hd, hd⟩

/-- **The system refines the board.**  What happens between two states of an orderly run is, seen from the
board, a run of no more moves; a post on it stays the same post and never goes back; the stage of a post
tells where it lies; and nothing lies open that is not on the board. -/
theorem board_refined {t : World} {es fs : List Event}
    (hr : Run CommServe.step (fun s e => e.Orderly s) .init es w)
    (ht : Run CommServe.step (fun s e => e.Orderly s) w fs t) :
    (∃ moves, moves.length ≤ fs.length ∧
      Run Board.step (fun _ _ => True) w.board moves t.board) ∧
    (∀ p post s, w.board p = some (post, s) →
      ∃ s', t.board p = some (post, s') ∧ s.rank ≤ s'.rank) ∧
    (∀ p post s, t.board p = some (post, s) → post.postId = p ∧ s.Reads t post) ∧
    (∀ cat p, t.server.db.Present (.posts cat p) →
      ∃ post s, t.board p = some (post, s) ∧ post.postCategory = cat) := by
  have hs := Run.sound (hr.trans ht)
  have hl := Run.lifecycle (hr.trans ht)
  obtain ⟨moves, hlen, hmoves⟩ := ht.refines World.board
    (fun s => s.Sound ∧ ∀ post ∈ s.submitted, Lifecycle post s)
    (fun _ _ _ h he hst => ⟨h.1.step hst, Lifecycle.step h.1 h.2 he hst⟩)
    (fun _ _ _ h he hst => h.1.board_step h.2 he hst) ⟨Run.sound hr, Run.lifecycle hr⟩
  refine ⟨⟨moves, hlen, hmoves⟩, fun p post s hp => Board.run_stays hmoves hp, ?_, ?_⟩
  · intro p post s hp
    obtain ⟨hmem, hid, rfl⟩ := World.board_some hp
    exact ⟨hid, (hl post hmem).reads hs hmem⟩
  · intro cat p hp
    obtain ⟨post, hmem, rfl, hcat, -⟩ := Good.open_post hs.net.db hp
    exact ⟨post, _, hs.board_post hmem, hcat⟩

/-- A post that is submitted, pinned, and completed from the Pinned list. -/
theorem board_refined_completed : ∃ (t : World) (moves : List Board.Move),
    moves.length ≤ 21 ∧ Run Board.step (fun _ _ => True) World.init.board moves t.board ∧
      t.Done (scriptPost "u" "p" (some "p.png")) := by
  obtain ⟨t, ht, hd⟩ := exists_run_of_exec CommServe.step (fun s e => e.Orderly s) .init
    (signUpScript 0 "u" (some "me.png") ++ submitScript 0 "p" (some "p.png") ++ pinScript 0 ++
      openPinsScript 0 ++ [.act 0 (.pinCheck 0)] ++ deliverScript 4)
    (fun w => w.server.db.Present (.completed "p")) (by decide +kernel)
  obtain ⟨⟨moves, hlen, hmoves⟩, -⟩ := board_refined (.nil _) ht
  exact ⟨t, moves, hlen.trans (by decide), hmoves, hd⟩

end CommServe
