import CommServe.Lifecycle

/-! # What is left when the writes have arrived

When nobody does anything any more and the writes in flight arrive, each device's in order, the order
between devices is up to the server.  For posts it makes no difference: which of them end up open and which
completed, and all that is stored of them, is settled by the taps; only the name of who completed a post is
that of the last one to arrive.  And a record that a single device is writing ends up as this device has
been seeing it all along. -/

namespace CommServe

open RecordStore Method Sync Transition

/-- The server handles a write that arrives. -/
def Event.Delivery : Event → Prop
  | .deliver _ => True
  | _ => False

instance : DecidablePred Event.Delivery
  | .act _ _ => isFalse id
  | .deliver _ => isTrue trivial
  | .reject _ => isFalse id

/-- From `w` on nothing happens but that all writes in flight arrive. -/
def World.Settles (w t : World) : Prop :=
  t.server.Quiescent ∧ ∃ es, Run step (fun s e => e.Orderly s ∧ e.Delivery) w es t

/-- The post `p` is completed, or somebody has completed it and the write has not arrived. -/
def World.Completing (w : World) (p : String) : Prop :=
  w.server.db.Present (.completed p) ∨ ∃ c, ∃ x ∈ w.server.pending c, x.key = .completed p

/-- What the database of `t` is like when the writes in flight in `w` have arrived. -/
structure World.Outcome (w t : World) : Prop where
  opened : ∀ post ∈ w.submitted, ¬ w.Completing post.postId →
    t.server.db.node (.posts post.postCategory post.postId) = post.record ∧
      ¬ t.server.db.Present (.completed post.postId)
  completed : ∀ post ∈ w.submitted, w.Completing post.postId →
    ¬ t.server.db.Present (.posts post.postCategory post.postId) ∧
      ∃ completedBy, t.server.db.node (.completed post.postId) = post.completedRecord completedBy
  nothing : ∀ p, (∀ post ∈ w.submitted, post.postId ≠ p) →
    (∀ cat, ¬ t.server.db.Present (.posts cat p)) ∧ ¬ t.server.db.Present (.completed p)
  own : ∀ c k, w.server.Solo c k → t.server.db.node k = w.server.seen c k

/-- The same posts are open and completed in both databases, each with the same fields. -/
structure SamePosts (db db' : Database) : Prop where
  opened : ∀ cat p, db.node (.posts cat p) = db'.node (.posts cat p)
  completed : ∀ p f, f ≠ .completedBy → db.node (.completed p) f = db'.node (.completed p) f

variable {w w' t u : World} {post : Post} {c : ℕ}

/-! ### The writes arrive -/

theorem step_oldest {x : ℕ × DbWrite} {l : List (ℕ × DbWrite)} (h : w.server.inFlight = x :: l) :
    ∃ w', step w (.deliver 0) = some w' ∧ (Event.deliver 0).Orderly w ∧ w'.server.inFlight = l := by
  have horder : (Event.deliver 0).Orderly w := by
    refine ⟨trivial, ?_⟩
    rintro i hi y hy
    obtain rfl := Option.some.inj hi
    cases hy
  refine ⟨{ w with server := ⟨w.server.db.apply x.2, w.server.db :: w.server.past, l⟩ }, ?_, horder, rfl⟩
  simp [step, Net.deliver, h]

theorem World.exists_settles : ∀ (k : ℕ) (w : World), w.server.inFlight.length = k → ∃ t, w.Settles t
  | 0, w, hk => ⟨w, List.length_eq_zero_iff.mp hk, [], .nil w⟩
  | k + 1, w, hk => by
      cases hflight : w.server.inFlight with
      | nil =>
          rw [hflight] at hk
          cases hk
      | cons x l =>
          obtain ⟨w', hw', horder, hl⟩ := step_oldest hflight
          have hlen : w'.server.inFlight.length = k := by
            rw [hflight, List.length_cons] at hk
            rw [hl]
            omega
          obtain ⟨t, hq, es, ht⟩ := World.exists_settles k w' hlen
          exact ⟨t, hq, _, .cons ⟨horder, trivial⟩ hw' ht⟩

/-- What every arrival keeps holds when all writes have arrived. -/
theorem World.Settles.invariant (h : w.Settles t) (I : Server → Prop)
    (hI : ∀ n n' d x q, n.Pops n' d x q → I n → I n') (hw : I w.server) :
    I t.server ∧ t.submitted = w.submitted := by
  obtain ⟨-, es, hr⟩ := h
  refine hr.invariant (fun s => I s.server ∧ s.submitted = w.submitted) ?_ ⟨hw, rfl⟩
  rintro s e s' ⟨hs, hsub⟩ ⟨he, hdel⟩ hst
  cases e with
  | act c a => exact hdel.elim
  | reject i => exact hdel.elim
  | deliver i =>
      obtain ⟨n, hn, rfl⟩ := step_deliver hst
      obtain ⟨d, x, q, hpops⟩ := Net.deliver_inOrder hn (he.2 i rfl)
      exact ⟨hI _ _ _ _ _ hpops hs, hsub⟩

theorem World.Settles.apps (h : w.Settles t) : t.dev = w.dev ∧ t.accounts = w.accounts := by
  obtain ⟨-, es, hr⟩ := h
  refine hr.invariant (fun s => s.dev = w.dev ∧ s.accounts = w.accounts) ?_ ⟨rfl, rfl⟩
  rintro s e s' hs ⟨-, hdel⟩ hst
  cases e with
  | act c a => exact hdel.elim
  | reject i => exact hdel.elim
  | deliver i =>
      obtain ⟨n, -, rfl⟩ := step_deliver hst
      exact hs

theorem World.Settles.orderly (h : w.Settles t) :
    ∃ es, Run step (fun s e => e.Orderly s) w es t := by
  obtain ⟨-, es, hr⟩ := h
  exact ⟨es, hr.mono fun _ _ => And.left⟩

/-! ### What is settled already -/

/-- A record that one device alone is writing ends up as this device sees it. -/
theorem World.Settles.own (h : w.Settles t) {k : Ref} (hs : w.server.Solo c k) :
    t.server.db.node k = w.server.seen c k := by
  obtain ⟨⟨-, hseen⟩, -⟩ := h.invariant (fun n => n.Solo c k ∧ n.seen c k = w.server.seen c k)
    (fun _ _ _ _ _ hpops hn => ⟨hpops.solo hn.1, (hpops.seen_eq hn.1).trans hn.2⟩) ⟨hs, rfl⟩
  rw [← hseen, h.1.seen]

theorem completing_pops {n n' : Server} {d : ℕ} {x : DbWrite} {q : List DbWrite} {ps : List Post}
    (h : n.Pops n' d x q) (hx : Shape ps x) (p : String) :
    (n'.db.Present (.completed p) ∨ ∃ c, ∃ y ∈ n'.pending c, y.key = .completed p) ↔
      (n.db.Present (.completed p) ∨ ∃ c, ∃ y ∈ n.pending c, y.key = .completed p) := by
  rw [h.db]
  by_cases hk : x.key = .completed p
  · refine iff_of_true (Or.inl ?_) (Or.inr ⟨d, x, h.mem, hk⟩)
    obtain ⟨post, -, rfl, name, rfl⟩ := hx.on_completed hk
    exact present_create n.db post name
  · rw [Store.present_apply_ne (Ne.symm hk)]
    refine or_congr_right ?_
    constructor
    · rintro ⟨c, y, hy, hyk⟩
      exact ⟨c, y, h.sub hy, hyk⟩
    · rintro ⟨c, y, hy, hyk⟩
      have hne : y ≠ x := by
        rintro rfl
        exact hk hyk
      exact ⟨c, y, h.stay hy hne, hyk⟩

theorem World.Settles.done_iff (h : w.Settles t) (hs : w.Sound) (p : String) :
    t.server.db.Present (.completed p) ↔ w.Completing p := by
  obtain ⟨⟨-, hiff⟩, -⟩ := h.invariant (fun n => (∀ d, ∀ x ∈ n.pending d, Shape w.submitted x) ∧
      ((n.db.Present (.completed p) ∨ ∃ c, ∃ y ∈ n.pending c, y.key = .completed p) ↔ w.Completing p))
    (fun n n' d x q hpops hn =>
      ⟨fun e y hy => hn.1 e y (hpops.sub hy),
        (completing_pops hpops (hn.1 d x hpops.mem) p).trans hn.2⟩)
    ⟨fun d x hx => hs.net.inFlight _ (Net.mem_pending.mp hx), Iff.rfl⟩
  rw [← hiff]
  constructor
  · exact Or.inl
  · rintro (hd | ⟨c, y, hy, -⟩)
    · exact hd
    · rw [h.1.pending c] at hy
      cases hy

/-! ### The outcome -/

theorem World.Settles.outcome {es : List Event}
    (hr : Run step (fun s e => e.Orderly s) .init es w) (h : w.Settles t) : w.Outcome t := by
  obtain ⟨fs, hfs⟩ := h.orderly
  have hs : w.Sound := Run.sound hr
  have ht : t.Sound := Run.sound (hr.trans hfs)
  have hsub : t.submitted = w.submitted := (h.invariant (fun _ => True) (fun _ _ _ _ _ _ => id) trivial).2
  have hplace : ∀ post ∈ w.submitted, (t.Open post ∧ ¬ t.Done post) ∨ (¬ t.Open post ∧ t.Done post) := by
    intro post hp
    exact (Run.lifecycle (hr.trans hfs) post (hsub ▸ hp)).exactly_one h.1
  constructor
  case opened =>
    intro post hp hc
    have hnd : ¬ t.Done post := fun hd => hc ((h.done_iff hs _).mp hd)
    have ho : t.Open post := ((hplace post hp).resolve_right fun hdone => hnd hdone.2).1
    obtain ⟨q, hq, hid, -, hrec⟩ := Good.open_post ht.net.db ho
    obtain rfl := ht.unique hq (hsub ▸ hp) hid
    exact ⟨hrec, hnd⟩
  case completed =>
    intro post hp hc
    have hd : t.Done post := (h.done_iff hs _).mpr hc
    have hno : ¬ t.Open post := ((hplace post hp).resolve_left fun hopen => hopen.2 hd).1
    obtain ⟨q, hq, hid, -, name, hrec⟩ := Good.completed_post ht.net.db hd
    obtain rfl := ht.unique hq (hsub ▸ hp) hid
    exact ⟨hno, name, hrec⟩
  case nothing =>
    intro p hp
    constructor
    · intro cat hcat
      obtain ⟨q, hq, hid, -⟩ := Good.open_post ht.net.db hcat
      exact hp q (hsub ▸ hq) hid
    · intro hd
      obtain ⟨q, hq, hid, -⟩ := Good.completed_post ht.net.db hd
      exact hp q (hsub ▸ hq) hid
  case own =>
    intro c k hk
    exact h.own hk

theorem node_of_not_present {db : Database} {k : Ref} (h : ¬ db.Present k) : db.node k = fun _ => none := by
  funext f
  by_contra hf
  exact h ⟨f, Option.isSome_iff_ne_none.mpr hf⟩

theorem World.Outcome.samePosts (h : w.Outcome t) (h' : w.Outcome u) (ht : t.Sound) (hu : u.Sound)
    (hsub : t.submitted = w.submitted) (hsub' : u.submitted = w.submitted) :
    SamePosts t.server.db u.server.db := by
  -- an open post of one state is one of the other
  have hopen : ∀ {s v : World}, w.Outcome s → w.Outcome v → s.Sound → s.submitted = w.submitted →
      ∀ cat p, s.server.db.Present (.posts cat p) →
        s.server.db.node (.posts cat p) = v.server.db.node (.posts cat p) := by
    intro s v hs hv hsound hsubs cat p hp
    obtain ⟨q, hq, rfl, rfl, hrec⟩ := Good.open_post hsound.net.db hp
    have hnc : ¬ w.Completing q.postId := fun hc => (hs.completed q (hsubs ▸ hq) hc).1 hp
    rw [hrec, (hv.opened q (hsubs ▸ hq) hnc).1]
  constructor
  · intro cat p
    by_cases hp : t.server.db.Present (.posts cat p)
    · exact hopen h h' ht hsub cat p hp
    by_cases hp' : u.server.db.Present (.posts cat p)
    · exact (hopen h' h hu hsub' cat p hp').symm
    rw [node_of_not_present hp, node_of_not_present hp']
  · intro p f hf
    by_cases hpost : ∃ post ∈ w.submitted, post.postId = p
    · obtain ⟨post, hp, rfl⟩ := hpost
      by_cases hc : w.Completing post.postId
      · obtain ⟨-, name, hrec⟩ := h.completed post hp hc
        obtain ⟨-, name', hrec'⟩ := h'.completed post hp hc
        rw [hrec, hrec', post.completedRecord_apply, post.completedRecord_apply, if_neg hf, if_neg hf]
      · rw [node_of_not_present (h.opened post hp hc).2, node_of_not_present (h'.opened post hp hc).2]
    · have hnone : ∀ post ∈ w.submitted, post.postId ≠ p := by
        intro post hp he
        exact hpost ⟨post, hp, he⟩
      rw [node_of_not_present (h.nothing p hnone).2, node_of_not_present (h'.nothing p hnone).2]

/-- **The order of arrival makes no difference for the posts.**  The writes in flight can always arrive,
and what is left of each post, but for who completed it, and of each record with one writer, is settled
before they do. -/
theorem settles_alike {es : List Event} (hr : Run step (fun s e => e.Orderly s) .init es w) :
    (∃ t, w.Settles t) ∧ (∀ t, w.Settles t → w.Outcome t) ∧
      ∀ t u, w.Settles t → w.Settles u → SamePosts t.server.db u.server.db := by
  refine ⟨World.exists_settles _ w rfl, fun t ht => ht.outcome hr, ?_⟩
  have hsound : ∀ s, w.Settles s → s.Sound ∧ s.submitted = w.submitted := by
    intro s hs
    obtain ⟨fs, hfs⟩ := hs.orderly
    exact ⟨Run.sound (hr.trans hfs), (hs.invariant (fun _ => True) (fun _ _ _ _ _ _ => id) trivial).2⟩
  intro t u ht hu
  obtain ⟨htsound, htsub⟩ := hsound t ht
  obtain ⟨husound, husub⟩ := hsound u hu
  exact (ht.outcome hr).samePosts (hu.outcome hr) htsound husound htsub husub

/-- Two users complete one post from the Home feed.  Both completions are in flight, and they disagree on who
completed it; the post itself ends up the same. -/
theorem settles_alike_race : ∃ w : World, w.server.inFlight.map Prod.fst = [0, 0, 1, 1] ∧
    (∃ t, w.Settles t) ∧ (∀ t, w.Settles t → w.Outcome t) ∧
      ∀ t u, w.Settles t → w.Settles u → SamePosts t.server.db u.server.db := by
  obtain ⟨w, hr, hw⟩ := exists_run_of_exec step (fun s e => e.Orderly s) .init
    (signUpScript 0 "u" (some "me.png") ++ signUpScript 1 "v" (some "you.png") ++
      submitScript 0 "p" (some "p.png") ++
      [.act 0 (.homeSnapshot .study 0), .act 1 (.homeSnapshot .study 0),
        .act 0 (.homeCheck .study 0), .act 1 (.homeCheck .study 0)])
    (fun w => w.server.inFlight.map Prod.fst = [0, 0, 1, 1]) (by decide +kernel)
  exact ⟨w, hw, settles_alike hr⟩

end CommServe
