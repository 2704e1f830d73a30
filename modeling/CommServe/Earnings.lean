import CommServe.Karma
import CommServe.Soundness

/-! # Karma is earned

A completion may be lost (see the karma updates that overwrite each other), but no karma comes from nowhere:
the karma of a user is always a multiple of 50, and at most 50 for each completion from a Pinned list that
passed its guards.  `Earnings B` says so of everything that carries a karma figure: the stored records, past
and present, the writes in flight, the user that a Pinned screen has loaded and the rows of the Karma list.
`B uid` bounds the number of credits the figure of `uid` is made of.  With the total number of credits for
`B` it holds in every run; with the credits of each user for it, in the runs in which nobody completes a post
while another user's record is loaded. -/

namespace CommServe

open RecordStore Method Sync Transition

/-- The value is made of at most `n` credits. -/
def Earned (n : ℕ) (v : Option Value) : Prop := ∀ x, v = some x → ∃ m : ℕ, m ≤ n ∧ x = .int (50 * m)

/-- What the record under a path says about karma. -/
def GoodKarma (B : String → ℕ) : Ref → Node → Prop
  | .users uid, r => Earned (B uid) (r .karmaPoints)
  | _, _ => True

/-- What a write in flight makes of the karma of its user. -/
def KarmaWrite (B : String → ℕ) (x : DbWrite) : Prop :=
  ∀ uid, x.key = .users uid → ∀ v, x.effect .karmaPoints = some v → Earned (B uid) v

/-- The karma of a decoded user. -/
def AppUser.Earned (n : ℕ) (user : AppUser) : Prop :=
  ∀ k, user.karmaPoints = some k → ∃ m : ℕ, m ≤ n ∧ k = 50 * m

/-- The karma figures an app has read. -/
structure Device.Figures (B : String → ℕ) (d : Device) : Prop where
  appUser : ∀ user, d.pinController.appUser = some user →
    ∃ owner, user.uid = some owner ∧ user.Earned (B owner)
  usersArray : ∀ user ∈ d.usersArray, ∃ owner, user.Earned (B owner)

structure Earnings (B : String → ℕ) (w : World) : Prop where
  net : w.server.Sound (GoodKarma B) (KarmaWrite B)
  figures : ∀ c, (w.dev c).Figures B

/-- Who completes a post from the Pinned list has loaded the own record. -/
def OwnRecord (w : World) : Event → Prop
  | .act c (.pinCheck _) => ∀ user ∈ (w.dev c).pinController.appUser,
      user.uid = (w.dev c).currentUser
  | _ => True

instance (w : World) : DecidablePred (OwnRecord w) := by
  intro e
  unfold OwnRecord
  split <;> infer_instance

/-- How many completions from the Pinned list have credited the user. -/
def World.credits (w : World) (uid : String) : ℕ := w.awards.countP (fun a => a.1 = uid)

variable {B B' : String → ℕ} {w w' : World} {c : ℕ}

/-! ### Records, writes and figures -/

theorem Earned.mono {n m : ℕ} {v : Option Value} (h : Earned n v) (hle : n ≤ m) : Earned m v := by
  intro x hx
  obtain ⟨k, hk, rfl⟩ := h x hx
  exact ⟨k, hk.trans hle, rfl⟩

theorem AppUser.Earned.mono {n m : ℕ} {user : AppUser} (h : user.Earned n) (hle : n ≤ m) :
    user.Earned m := by
  intro k hk
  obtain ⟨j, hj, rfl⟩ := h k hk
  exact ⟨j, hj.trans hle, rfl⟩

theorem GoodKarma.mono (h : ∀ uid, B uid ≤ B' uid) :
    ∀ (k : Ref) (r : Node), GoodKarma B k r → GoodKarma B' k r
  | .users uid, _, hr => Earned.mono hr (h uid)
  | .posts _ _, _, _ => trivial
  | .pinned _ _, _, _ => trivial
  | .completed _, _, _ => trivial

theorem KarmaWrite.mono (h : ∀ uid, B uid ≤ B' uid) {x : DbWrite} (hx : KarmaWrite B x) :
    KarmaWrite B' x := fun uid hk v hv => (hx uid hk v hv).mono (h uid)

theorem Device.Figures.mono (h : ∀ uid, B uid ≤ B' uid) {d : Device} (hd : d.Figures B) :
    d.Figures B' where
  appUser user huser := by
    obtain ⟨owner, howner, hk⟩ := hd.appUser user huser
    exact ⟨owner, howner, hk.mono (h owner)⟩
  usersArray user huser := by
    obtain ⟨owner, hk⟩ := hd.usersArray user huser
    exact ⟨owner, hk.mono (h owner)⟩

theorem KarmaWrite.keeps {x : DbWrite} (hx : KarmaWrite B x) : x.Keeps (GoodKarma B) := by
  intro r hr
  cases hk : x.key with
  | users uid =>
      rw [hk] at hr
      show Earned (B uid) ((x.effect .karmaPoints).getD (r .karmaPoints))
      cases he : x.effect .karmaPoints with
      | none => exact hr
      | some v => exact hx uid hk v he
  | _ => trivial

theorem GoodKarma.fetchUserInfo {db : Database} (hdb : db.All (GoodKarma B)) {uid : String}
    {user : AppUser}
    (h : PinController.fetchUserInfo uid (db.node (.users uid)) = some user) :
    user.uid = some uid ∧ user.Earned (B uid) := by
  have hr : Earned (B uid) (db.node (.users uid) .karmaPoints) := hdb (.users uid)
  obtain ⟨name, -, h⟩ := Option.bind_eq_some_iff.mp h
  obtain ⟨_, -, h⟩ := Option.bind_eq_some_iff.mp h
  obtain ⟨_, -, h⟩ := Option.bind_eq_some_iff.mp h
  obtain ⟨_, -, h⟩ := Option.bind_eq_some_iff.mp h
  obtain ⟨_, -, h⟩ := Option.bind_eq_some_iff.mp h
  obtain ⟨_, -, h⟩ := Option.bind_eq_some_iff.mp h
  obtain ⟨point, hpoint, h⟩ := Option.bind_eq_some_iff.mp h
  obtain rfl := Option.some.inj h
  refine ⟨rfl, ?_⟩
  intro k hk
  obtain rfl : point = k := Option.some.inj hk
  cases hv : db.node (.users uid) .karmaPoints with
  | none => simp [hv, asInt] at hpoint
  | some v =>
      obtain ⟨m, hm, rfl⟩ := hr v hv
      rw [hv] at hpoint
      exact ⟨m, hm, (Option.some.inj hpoint).symm⟩

theorem GoodKarma.viewDidAppear {db : Database} (hdb : db.All (GoodKarma B)) {users : List AppUser}
    (h : KarmaController.viewDidAppear (children db .users) = some users) :
    ∀ user ∈ users, ∃ owner, user.Earned (B owner) := by
  intro user huser
  obtain ⟨⟨uid, r⟩, hmem, hinit⟩ := KarmaController.mem_viewDidAppear h huser
  obtain ⟨-, rfl⟩ := mem_children.mp hmem
  have hr : Earned (B uid) (db.node (.users uid) .karmaPoints) := hdb (.users uid)
  refine ⟨uid, ?_⟩
  intro k hk
  unfold AppUser.init at hinit
  simp only [Option.bind_eq_bind, Option.bind_eq_some_iff, Option.some.injEq] at hinit
  obtain ⟨_, _, _, _, _, _, _, _, _, _, _, _, point, hpoint, rfl⟩ := hinit
  obtain rfl : point = some k := hk
  show ∃ m : ℕ, m ≤ B uid ∧ k = 50 * m
  cases hv : db.node (.users uid) .karmaPoints with
  | none =>
      change castInt (db.node (.users uid) .karmaPoints) = _ at hpoint
      rw [hv] at hpoint
      cases hpoint
  | some v =>
      obtain ⟨m, hm, rfl⟩ := hr v hv
      change castInt (db.node (.users uid) .karmaPoints) = _ at hpoint
      rw [hv] at hpoint
      exact ⟨m, hm, (Option.some.inj (Option.some.inj hpoint)).symm⟩

/-! ### An action -/

theorem Device.Figures.lists (hd : (w.dev c).Figures B)
    (hview : ∀ k db, w.server.view c k = some db → db.All (GoodKarma B)) {d : Device}
    (h : d.Lists w c) : d.Figures B where
  appUser user huser := by
    rcases h.appUser with he | he | ⟨uid, k, db, hv, he⟩
    · exact hd.appUser user (he ▸ huser)
    · rw [he] at huser
      cases huser
    · exact ⟨uid, GoodKarma.fetchUserInfo (hview k db hv) (he ▸ huser)⟩
  usersArray user huser := by
    rcases h.users with he | he | ⟨k, db, hv, he⟩
    · exact hd.usersArray user (he ▸ huser)
    · rw [he] at huser
      cases huser
    · exact GoodKarma.viewDidAppear (hview k db hv) he user huser

theorem Issues.award {a : Action} {ws : List DbWrite} {us : List String} {qs : List Post}
    {as : List (String × Option String)} (h : Issues w c a ws us qs as) {x : String × Option String}
    (hx : x ∈ as) : (∃ tag, a = .pinCheck tag) ∧ (w.dev c).currentUser = some x.1 := by
  cases h with
  | @credit tag g hg hfit hrow =>
      obtain rfl := List.mem_singleton.mp hx
      exact ⟨⟨tag, rfl⟩, (PinController.guards_eq_some hg).1⟩
  | @pinCheck tag g url post hg hfit hrow hurl =>
      obtain rfl := List.mem_singleton.mp hx
      exact ⟨⟨tag, rfl⟩, (PinController.guards_eq_some hg).1⟩
  | _ => cases hx

/-- The karma write of a credit is one credit more than what the app has loaded. -/
theorem Device.Figures.credit (hd : (w.dev c).Figures B) {tag : ℕ} {g : PinController.Guards}
    (hg : PinController.guards (w.dev c).currentUser (w.dev c).pinController tag = some g)
    (hnext : ∀ user owner, (w.dev c).pinController.appUser = some user → user.uid = some owner →
      B owner + 1 ≤ B' g.uid) : KarmaWrite B' (updateKarma g.uid (g.point + 50)) := by
  obtain ⟨-, -, -, user, huser, hpoint, -⟩ := PinController.guards_eq_some hg
  obtain ⟨owner, howner, hk⟩ := hd.appUser user huser
  obtain ⟨m, hm, he⟩ := hk g.point hpoint
  have hle := hnext user owner huser howner
  intro uid huid v hv x hx
  obtain rfl : g.uid = uid := Ref.users.inj huid
  obtain rfl := Option.some.inj hv
  obtain rfl := Option.some.inj hx
  refine ⟨m + 1, by omega, ?_⟩
  have hsum : g.point + 50 = 50 * ((m + 1 : ℕ) : ℤ) := by omega
  rw [hsum]

theorem Device.Figures.writes (hd : (w.dev c).Figures B) {a : Action} {ws : List DbWrite}
    {us : List String} {qs : List Post} {as : List (String × Option String)}
    (h : Issues w c a ws us qs as)
    (hnext : ∀ x ∈ as, ∀ user owner, (w.dev c).pinController.appUser = some user →
      user.uid = some owner → B owner + 1 ≤ B' x.1) : ∀ x ∈ ws, KarmaWrite B' x := by
  have helse : ∀ x : DbWrite, (∀ uid, x.key ≠ .users uid) → KarmaWrite B' x :=
    fun x hx uid hk => absurd hk (hx uid)
  cases h with
  | quiet => simp
  | submit hx hp hc => simpa using helse _ (by simp)
  | homeUnpin hu hrow hid hsel => simpa using helse _ (by simp)
  | homePin hu hrow hurl hsel => simpa using helse _ (by simp)
  | homeCheck hu hrow hurl => simpa using ⟨helse _ (by simp), helse _ (by simp)⟩
  | pinUnpin hu hrow hid => simpa using helse _ (by simp)
  | pinPin hu hrow hurl => simpa using helse _ (by simp)
  | credit hg hfit hrow => simpa using hd.credit hg (hnext _ (List.mem_singleton_self _))
  | pinCheck hg hfit hrow hurl =>
      simpa using ⟨hd.credit hg (hnext _ (List.mem_singleton_self _)), helse _ (by simp),
        helse _ (by simp), helse _ (by simp)⟩
  | @register j i uid request hu =>
      have hzero : KarmaWrite B' (SignUpController.store
          (SignUpController.userData request uid ((w.dev c).signUp j).profileurl)) := by
        intro uid' _ v hv x hx
        obtain rfl : some (Value.int 0) = v := Option.some.inj hv
        obtain rfl := Option.some.inj hx
        exact ⟨0, Nat.zero_le _, rfl⟩
      simpa using hzero
  | @rename i uid name metadata hu =>
      have hname : KarmaWrite B' (UserInfoController.store uid name) := by
        intro uid' _ v hv
        rw [UserInfoController.effect_store] at hv
        cases hv
      simpa using hname

theorem Earnings.act (h : Earnings B w) (hB : ∀ uid, B uid ≤ B' uid) {a : Action}
    (hnext : ∀ ws us qs as, Issues w c a ws us qs as → w'.awards = w.awards ++ as →
      ∀ x ∈ as, ∀ user owner, (w.dev c).pinController.appUser = some user →
        user.uid = some owner → B owner + 1 ≤ B' x.1)
    (hst : step w (.act c a) = some w') : Earnings B' w' := by
  obtain ⟨r, hspec, rfl⟩ := step_act hst
  have hnet : w.server.Sound (GoodKarma B') (KarmaWrite B') :=
    h.net.mono (GoodKarma.mono hB) fun _ hx => hx.mono hB
  refine ⟨hnet.issue ?_, ?_⟩
  · exact (h.figures c).writes hspec.issues (hnext _ _ _ _ hspec.issues rfl)
  · intro d
    simp only [World.apply]
    rcases eq_or_ne d c with rfl | hne
    · rw [Function.update_self]
      refine Device.Figures.mono hB ((h.figures d).lists ?_ hspec.lists)
      intro k db hv
      exact h.net.view (fun _ hx => hx.keeps) hv
    · rw [Function.update_of_ne hne]
      exact (h.figures d).mono hB

theorem Earnings.deliver (h : Earnings B w) {i : ℕ} (hst : step w (.deliver i) = some w') :
    Earnings B w' := by
  obtain ⟨n, hn, rfl⟩ := step_deliver hst
  exact ⟨h.net.deliver (fun _ hx => hx.keeps) hn, h.figures⟩

theorem Earnings.reject (h : Earnings B w) {i : ℕ} (hst : step w (.reject i) = some w') :
    Earnings B w' := by
  obtain ⟨n, hn, rfl⟩ := step_reject hst
  exact ⟨h.net.reject hn, h.figures⟩

theorem Earnings.init : Earnings B .init where
  net := by
    refine ⟨?_, by simp [World.init, Net.empty], by simp [World.init, Net.empty]⟩
    rintro (_ | _ | _ | uid)
    · trivial
    · trivial
    · trivial
    · rintro x ⟨⟩
  figures c := ⟨by rintro user ⟨⟩, by rintro user ⟨⟩⟩

/-! ### Every run -/

/-- A bound on the figures in terms of the awards, which grows with every award by one credit of the user
whose record was loaded. -/
theorem Run.earnings {ok : World → Event → Prop} (B : List (String × Option String) → String → ℕ)
    (hmono : ∀ as bs uid, B as uid ≤ B (as ++ bs) uid)
    (hnext : ∀ s d a ws us qs as, ok s (.act d a) → Issues s d a ws us qs as → ∀ x ∈ as,
      ∀ user owner, (s.dev d).pinController.appUser = some user → user.uid = some owner →
        B s.awards owner + 1 ≤ B (s.awards ++ as) x.1) {es : List Event}
    (hr : Run step ok .init es w) : Earnings (B w.awards) w := by
  refine hr.invariant (fun s => Earnings (B s.awards) s) ?_ .init
  intro s e s' h hok hst
  cases e with
  | act d a =>
      refine h.act ?_ ?_ hst
      · intro uid
        obtain ⟨ws, us, ps, as, -, -, -, -, hawards⟩ := step_issues hst
        rw [hawards]
        exact hmono _ _ _
      · intro ws us qs as hi hawards x hx user owner huser howner
        rw [hawards]
        exact hnext s d a ws us qs as hok hi x hx user owner huser howner
  | deliver i =>
      have h' := h.deliver hst
      obtain ⟨n, -, rfl⟩ := step_deliver hst
      exact h'
  | reject i =>
      have h' := h.reject hst
      obtain ⟨n, -, rfl⟩ := step_reject hst
      exact h'

theorem Run.earned {ok : World → Event → Prop} {es : List Event} (hr : Run step ok .init es w) :
    Earnings (fun _ => w.awards.length) w := by
  refine Run.earnings (fun as _ => as.length) ?_ ?_ hr
  · intro as bs uid
    rw [List.length_append]
    omega
  · intro s d a ws us qs as _ _ x hx user owner _ _
    have hpos : 0 < as.length := List.length_pos_of_mem hx
    show s.awards.length + 1 ≤ (s.awards ++ as).length
    rw [List.length_append]
    omega

/-- If nobody credits himself with what another user's record says, the credits of each user bound the
figures of that user. -/
theorem Run.earned_own {es : List Event} (hr : Run step (fun s e => OwnRecord s e) .init es w) :
    Earnings w.credits w := by
  refine Run.earnings (fun as uid => as.countP fun a => a.1 = uid) ?_ ?_ hr
  · intro as bs uid
    rw [List.countP_append]
    omega
  · intro s d a ws us qs as hown hi x hx user owner huser howner
    obtain ⟨⟨tag, rfl⟩, hu⟩ := hi.award hx
    have hsame : user.uid = some x.1 := (hown user huser).trans hu
    obtain rfl : owner = x.1 := Option.some.inj (howner.symm.trans hsame)
    have hpos : 0 < as.countP (fun y => y.1 = x.1) := List.countP_pos_iff.mpr ⟨x, hx, by simp⟩
    show s.awards.countP _ + 1 ≤ (s.awards ++ as).countP _
    rw [List.countP_append]
    omega

/-- **No karma comes from nowhere.**  In every run, whatever is refused and in whatever order the writes
arrive, a stored karma and every figure of a Karma list is 50 for each of at most as many credits as there
were; and if nobody completes a post while another user's record is loaded, a user's karma is 50 for each of
at most as many credits as this user got. -/
theorem karma_earned {es : List Event} (hr : Run step (fun _ _ => True) .init es w) :
    (∀ uid v, w.karma uid = some v → ∃ m : ℕ, m ≤ w.awards.length ∧ v = .int (50 * m)) ∧
    (∀ c, ∀ user ∈ (w.dev c).usersArray, ∀ k, user.karmaPoints = some k →
      ∃ m : ℕ, m ≤ w.awards.length ∧ k = 50 * m) ∧
    (Run step (fun s e => OwnRecord s e) .init es w →
      ∀ uid v, w.karma uid = some v → ∃ m : ℕ, m ≤ w.credits uid ∧ v = .int (50 * m)) := by
  refine ⟨?_, ?_, ?_⟩
  · intro uid v hv
    exact (Run.earned hr).net.db (.users uid) v hv
  · intro c user huser k hk
    obtain ⟨owner, howner⟩ := ((Run.earned hr).figures c).usersArray user huser
    exact howner k hk
  · intro hown uid v hv
    exact (Run.earned_own hown).net.db (.users uid) v hv

/-- Two completions from one list, of which one is lost. -/
theorem karma_earned_twice : ∃ w : World, w.karma "u" = some (.int 50) ∧ w.credits "u" = 2 ∧
    ∃ m : ℕ, m ≤ w.credits "u" ∧ Value.int 50 = .int (50 * m) := by
  obtain ⟨w, hr, hk, hc, hown⟩ := exists_run_of_exec step (fun _ _ => True) .init
    (twoPinsScript ++ completeFirst ++ completeSecond)
    (fun w => w.karma "u" = some (.int 50) ∧ w.credits "u" = 2 ∧
      (exec step (fun s e => OwnRecord s e) .init
        (twoPinsScript ++ completeFirst ++ completeSecond)).any (fun _ => decide True) = true)
    (by decide +kernel)
  obtain ⟨w', hw', -⟩ := exists_run_of_exec _ _ _ _ _ hown
  obtain rfl := hr.unique hw'
  exact ⟨w, hk, hc, (karma_earned hr).2.2 hw' "u" _ hk⟩

end CommServe
