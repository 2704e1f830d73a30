import CommServe.Display

/-! # User records

The record of a user is written once as a whole, by the `setValue` of the sign-up, and then in parts:
its name and its karma.  The sign-up does not look at the outcome of its write, and it writes whatever
`profileurl` is at that moment.  So an account has a complete record as long as `profileurl` has a
value at every sign-up and no sign-up write is refused; the writes in parts may be refused or arrive in
any order, before the whole record even.  The invariant is `Registered`: every account has a complete
record or its sign-up write is in flight. -/

namespace CommServe

open RecordStore Method Sync Transition

/-- The record decodes, with both decoders and to the same user. -/
def Decodes (uid : String) (r : Node) : Prop :=
  ∃ user, PinController.fetchUserInfo uid r = some user ∧ AppUser.init r = some user

/-- Every account has a record, every user record decodes, and the Karma list is shown. -/
structure Usable (w : World) : Prop where
  record : ∀ uid ∈ w.accounts, w.server.db.Present (.users uid)
  decodes : ∀ uid, w.server.db.Present (.users uid) →
    Decodes uid (w.server.db.node (.users uid))
  karma : ∃ users, KarmaController.viewDidAppear (children w.server.db .users) = some users ∧
    ∀ row, Unwraps (KarmaController.cellForRowAt users row)

/-- `profileurl` of the sign-up screen whose account is about to be created. -/
def World.registering (w : World) : Event → Option (Option String)
  | .act c (.accountCreated j _ (some _)) => some ((w.dev c).signUp j).profileurl
  | _ => none

/-- The write the server is about to refuse. -/
def World.refusing (w : World) : Event → Option DbWrite
  | .reject i => (w.server.inFlight[i]?).map Prod.snd
  | _ => none

/-- The write is a `setValue`; only sign-ups issue one. -/
def isSetValue : DbWrite → Bool
  | .set _ _ => true
  | _ => false

/-- A sign-up has the URL of its image, and its write is not refused. -/
def SignedUp (w : World) (e : Event) : Prop :=
  w.registering e ≠ some none ∧ (w.refusing e).any isSetValue = false

instance (w : World) : DecidablePred (SignedUp w) := fun _ => inferInstanceAs (Decidable (_ ∧ _))

/-- The record of the user `uid` is there, with all its fields. -/
def Complete (uid : String) (r : Node) : Prop :=
  ∃ a : Account, a.uid = uid ∧ (∃ url, a.profileurl = some url) ∧ r = a.record

/-- The writes in flight, as far as they are on user records, given the accounts. -/
inductive UserWrite (us : List String) : DbWrite → Prop where
  | store {a : Account} {url : String} :
      a.uid ∈ us → a.profileurl = some url → UserWrite us (SignUpController.store a)
  | rename {uid name : String} : uid ∈ us → UserWrite us (UserInfoController.store uid name)
  | karma {uid : String} {point : ℤ} : uid ∈ us → UserWrite us (updateKarma uid point)
  | other {x : DbWrite} : (∀ uid, x.key ≠ .users uid) → isSetValue x = false → UserWrite us x

/-- The invariant: every account has a complete record, or is about to get it. -/
structure Registered (w : World) : Prop where
  user : ∀ c uid, (w.dev c).currentUser = some uid → uid ∈ w.accounts
  writes : ∀ x, w.server.Flying x → UserWrite w.accounts x
  known : ∀ uid, w.server.db.Present (.users uid) → uid ∈ w.accounts
  record : ∀ uid ∈ w.accounts, Complete uid (w.server.db.node (.users uid)) ∨
    ∃ a url, a.uid = uid ∧ a.profileurl = some url ∧ w.server.Flying (SignUpController.store a)

variable {us us' : List String} {x : DbWrite} {w w' : World}

/-! ### Records -/

theorem Complete.decodes {uid : String} {r : Node} (h : Complete uid r) : Decodes uid r := by
  obtain ⟨a, rfl, ⟨url, hurl⟩, rfl⟩ := h
  exact ⟨AppUser.make a.username a.uid a.email url a.country a.phone a.karmaPoints,
    by simp [PinController.fetchUserInfo, Account.record_apply, hurl],
    by simp [AppUser.init, Account.record_apply, hurl, AppUser.make]⟩

theorem Complete.present {db : Database} {uid : String} (h : Complete uid (db.node (.users uid))) :
    db.Present (.users uid) := by
  obtain ⟨a, -, -, hr⟩ := h
  exact ⟨.uid, by rw [hr]; rfl⟩

theorem Decodes.fetched {uid : String} {r : Node} (h : Decodes uid r) :
    ∃ user : AppUser, AppUser.init r = some user ∧ user.Fetched := by
  obtain ⟨user, hfetch, hinit⟩ := h
  exact ⟨user, hinit, uid, r, hfetch⟩

theorem KarmaController.cellForRowAt_unwraps {users : List AppUser}
    (h : ∀ user ∈ users, user.Fetched) (row : ℕ) : Unwraps (cellForRowAt users row) := by
  refine .subscript not_field_subscript ?_
  intro user hu
  obtain ⟨point, name, hpoint, hname⟩ := (h user hu).complete
  rw [hpoint, hname]
  exact .pure _

theorem karma_shown {db : Database}
    (h : ∀ uid, db.Present (.users uid) → Decodes uid (db.node (.users uid))) :
    ∃ users, KarmaController.viewDidAppear (children db .users) = some users ∧
      ∀ row, Unwraps (KarmaController.cellForRowAt users row) := by
  have hchild : ∀ child ∈ children db .users, Decodes child.1 child.2 := by
    rintro ⟨uid, r⟩ hmem
    obtain ⟨hp, rfl⟩ := mem_children.mp hmem
    exact h uid hp
  obtain ⟨users, husers⟩ : ∃ users,
      KarmaController.viewDidAppear (children db .users) = some users := by
    refine rebuild_isSome ?_ []
    intro child hc
    obtain ⟨user, hinit, -⟩ := (hchild child hc).fetched
    exact ⟨user, hinit⟩
  refine ⟨users, husers, KarmaController.cellForRowAt_unwraps ?_⟩
  intro user hu
  obtain ⟨child, hc, hinit⟩ := KarmaController.mem_viewDidAppear husers hu
  obtain ⟨user', hinit', hfetched⟩ := (hchild child hc).fetched
  rw [hinit] at hinit'
  cases hinit'
  exact hfetched

/-! ### Writes -/

theorem UserWrite.mono (h : us ⊆ us') (hx : UserWrite us x) : UserWrite us' x := by
  cases hx with
  | store ha hurl => exact .store (h ha) hurl
  | rename hu => exact .rename (h hu)
  | karma hu => exact .karma (h hu)
  | other hk hs => exact .other hk hs

theorem UserWrite.mem (hx : UserWrite us x) {uid : String} (hk : x.key = .users uid) :
    uid ∈ us := by
  cases hx with
  | store ha hurl => cases hk; exact ha
  | rename hu => cases hk; exact hu
  | karma hu => cases hk; exact hu
  | other hne => exact absurd hk (hne uid)

theorem UserWrite.complete (hx : UserWrite us x) {uid : String} {r : Node} (hk : x.key = .users uid)
    (h : Complete uid r) : Complete uid (x.on r) := by
  obtain ⟨a, rfl, hurl, rfl⟩ := h
  cases hx with
  | @store b url hb hurl' =>
      exact ⟨b, Ref.users.inj hk, ⟨url, hurl'⟩, Account.store_on b _⟩
  | @rename uid name => exact ⟨{ a with username := name }, rfl, hurl, a.rename_on uid name⟩
  | @karma uid point => exact ⟨{ a with karmaPoints := point }, rfl, hurl, a.karma_on uid point⟩
  | other hne => exact absurd hk (hne _)

theorem exists_url_of_registering {c j i : ℕ} {uid : String}
    (h : w.registering (.act c (.accountCreated j i (some uid))) ≠ some none) :
    ∃ url, ((w.dev c).signUp j).profileurl = some url := by
  rw [← Option.ne_none_iff_exists']
  intro hnone
  exact h (congrArg some hnone)

theorem Issues.userWrites {c : ℕ} {a : Action} {ws : List DbWrite} {ps : List Post}
    {as : List (String × Option String)} (h : Issues w c a ws us ps as)
    (huser : ∀ uid, (w.dev c).currentUser = some uid → uid ∈ w.accounts)
    (hok : w.registering (.act c a) ≠ some none) : ∀ x ∈ ws, UserWrite (w.accounts ++ us) x := by
  cases h with
  | quiet => simp
  | submit hx hp hc => simpa using UserWrite.other (by simp) rfl
  | homeUnpin hu hrow hid hsel => simpa using UserWrite.other (by simp) rfl
  | homePin hu hrow hurl hsel => simpa using UserWrite.other (by simp) rfl
  | homeCheck hu hrow hurl =>
      simpa using ⟨UserWrite.other (by simp) rfl, UserWrite.other (by simp) rfl⟩
  | pinUnpin hu hrow hid => simpa using UserWrite.other (by simp) rfl
  | pinPin hu hrow hurl => simpa using UserWrite.other (by simp) rfl
  | credit hg hfit hrow =>
      obtain ⟨hu, -⟩ := PinController.guards_eq_some hg
      simpa using UserWrite.karma (huser _ hu)
  | pinCheck hg hfit hrow hurl =>
      obtain ⟨hu, -⟩ := PinController.guards_eq_some hg
      simpa using ⟨UserWrite.karma (huser _ hu), UserWrite.other (by simp) rfl,
        UserWrite.other (by simp) rfl, UserWrite.other (by simp) rfl⟩
  | @register j i uid request hu =>
      obtain ⟨url, hurl⟩ := exists_url_of_registering hok
      have hstore : UserWrite (w.accounts ++ [uid]) (SignUpController.store
          (SignUpController.userData request uid ((w.dev c).signUp j).profileurl)) :=
        .store (by simp [SignUpController.userData]) hurl
      simpa using hstore
  | rename hu => simpa using UserWrite.rename (huser _ hu)

theorem Issues.stored {c : ℕ} {a : Action} {ws : List DbWrite} {ps : List Post}
    {as : List (String × Option String)} (h : Issues w c a ws us ps as)
    (hok : w.registering (.act c a) ≠ some none) {uid : String} (hu : uid ∈ us) :
    ∃ b url, b.uid = uid ∧ b.profileurl = some url ∧ SignUpController.store b ∈ ws := by
  cases h with
  | @register j i uid' request _ =>
      obtain rfl := List.mem_singleton.mp hu
      obtain ⟨url, hurl⟩ := exists_url_of_registering hok
      exact ⟨_, url, rfl, hurl, List.mem_singleton.mpr rfl⟩
  | _ => cases hu

/-! ### Every run -/

theorem Registered.act (h : Registered w) {c : ℕ} {a : Action}
    (hok : w.registering (.act c a) ≠ some none) (hst : step w (.act c a) = some w') :
    Registered w' := by
  obtain ⟨r, hr, rfl⟩ := step_act hst
  have hsub : w.accounts ⊆ w.accounts ++ r.accounts := List.subset_append_left _ _
  have hws := hr.issues.userWrites (h.user c) hok
  constructor
  case user =>
    intro d uid hd
    simp only [World.apply] at hd
    rcases eq_or_ne d c with rfl | hne
    · rw [Function.update_self] at hd
      rcases hr.user with he | he | ⟨uid', hmem, he⟩
      · exact hsub (h.user d uid (he ▸ hd))
      · rw [he] at hd; cases hd
      · rw [he] at hd
        cases hd
        exact hmem
    · rw [Function.update_of_ne hne] at hd
      exact hsub (h.user d uid hd)
  case writes =>
    intro x hx
    rcases Net.flying_issue.mp hx with hx | hx
    · exact (h.writes x hx).mono hsub
    · exact hws x hx
  case known =>
    intro uid hp
    exact hsub (h.known uid hp)
  case record =>
    intro uid hu
    rcases List.mem_append.mp hu with hu | hu
    · rcases h.record uid hu with hc | ⟨b, url, hb, hurl, hx⟩
      · exact Or.inl hc
      · exact Or.inr ⟨b, url, hb, hurl, Net.flying_issue.mpr (Or.inl hx)⟩
    · obtain ⟨b, url, hb, hurl, hx⟩ := hr.issues.stored hok hu
      exact Or.inr ⟨b, url, hb, hurl, Net.flying_issue.mpr (Or.inr hx)⟩

theorem Registered.deliver (h : Registered w) {i : ℕ} (hst : step w (.deliver i) = some w') :
    Registered w' := by
  obtain ⟨s, hs, rfl⟩ := step_deliver hst
  obtain ⟨x, hx, hdb, hsub, hrest⟩ := Net.deliver_flying hs
  refine ⟨h.user, fun y hy => h.writes y (hsub y hy), ?_, ?_⟩
  · intro uid hp
    by_cases hk : Ref.users uid = x.key
    · exact (h.writes x hx).mem hk.symm
    · simp only [hdb, Store.present_apply_ne hk] at hp
      exact h.known uid hp
  · intro uid hu
    rcases h.record uid hu with hc | ⟨a, url, ha, hurl, hfly⟩
    · left
      by_cases hk : Ref.users uid = x.key
      · rw [hdb, hk, Store.apply_node_key, ← hk]
        exact (h.writes x hx).complete hk.symm hc
      · rwa [hdb, Store.apply_node_ne _ hk]
    · rcases hrest _ hfly with rfl | hfly
      · left
        rw [hdb, ← ha, ← SignUpController.key_store, Store.apply_node_key]
        exact ⟨a, rfl, ⟨url, hurl⟩, Account.store_on a _⟩
      · exact Or.inr ⟨a, url, ha, hurl, hfly⟩

theorem Registered.reject (h : Registered w) {i : ℕ}
    (hok : (w.refusing (.reject i)).any isSetValue = false)
    (hst : step w (.reject i) = some w') : Registered w' := by
  obtain ⟨s, hs, rfl⟩ := step_reject hst
  obtain ⟨x, hx, hdb, hsub, hrest⟩ := Net.reject_flying hs
  refine ⟨h.user, fun y hy => h.writes y (hsub y hy), ?_, ?_⟩
  · intro uid hp
    rw [hdb] at hp
    exact h.known uid hp
  · intro uid hu
    rw [hdb]
    rcases h.record uid hu with hc | ⟨a, url, ha, hurl, hfly⟩
    · exact Or.inl hc
    · rcases hrest _ hfly with rfl | hfly
      · simp [World.refusing, hx, SignUpController.store, isSetValue] at hok
      · exact Or.inr ⟨a, url, ha, hurl, hfly⟩

theorem Registered.step (h : Registered w) {e : Event} (hok : SignedUp w e)
    (hst : step w e = some w') : Registered w' := by
  cases e with
  | act c a => exact h.act hok.1 hst
  | deliver i => exact h.deliver hst
  | reject i => exact h.reject hok.2 hst

theorem Registered.init : Registered .init where
  user c uid h := by cases h
  writes x := by rintro ⟨c, hx⟩; cases hx
  known uid h := absurd h (Store.not_present_empty _)
  record uid h := by cases h

/-- At rest every account has a complete record, and there are no other user records. -/
theorem Registered.usable (h : Registered w) (hq : w.server.Quiescent) : Usable w := by
  have hcomplete : ∀ uid ∈ w.accounts, Complete uid (w.server.db.node (.users uid)) := by
    intro uid hu
    rcases h.record uid hu with hc | ⟨a, url, -, -, hx⟩
    · exact hc
    · exact absurd hx (hq.not_flying _)
  have hdecodes : ∀ uid, w.server.db.Present (.users uid) →
      Decodes uid (w.server.db.node (.users uid)) := by
    intro uid hp
    exact (hcomplete uid (h.known uid hp)).decodes
  refine ⟨?_, hdecodes, karma_shown hdecodes⟩
  intro uid hu
  exact (hcomplete uid hu).present

/-- **Every account has a usable record at rest**, if every sign-up has the URL of its image and the
server takes its write. -/
theorem accounts_usable {es : List Event} (hr : Run step SignedUp .init es w)
    (hq : w.server.Quiescent) : Usable w :=
  (hr.invariant Registered (fun _ _ _ h hok hst => h.step hok hst) .init).usable hq

/-- Two accounts, one of them renamed and credited. -/
theorem accounts_usable_sample : ∃ w : World, w.accounts = ["u", "v"] ∧
    w.server.db.node (.users "u") .karmaPoints = some (.int 50) ∧
    w.server.db.node (.users "u") .username = some (.str "me") ∧ Usable w := by
  obtain ⟨w, hr, hacc, hkarma, hname, hq⟩ := exists_run_of_exec step SignedUp .init
    (signUpScript 0 "u" (some "me.png") ++ submitScript 0 "p" (some "p.png") ++ pinScript 0 ++
      openPinsScript 0 ++ [.act 0 (.pinCheck 0), .act 0 (.userInfoPressed "me"),
      .act 0 (.userInfoUploaded 0 (some none))] ++ deliverScript 5 ++
      signUpScript 1 "v" (some "you.png"))
    (fun w => w.accounts = ["u", "v"] ∧
      w.server.db.node (.users "u") .karmaPoints = some (.int 50) ∧
      w.server.db.node (.users "u") .username = some (.str "me") ∧ w.server.Quiescent)
    (by decide +kernel)
  exact ⟨w, hacc, hkarma, hname, accounts_usable hr hq⟩

/-- A refused sign-up write leaves an account without a record; an edit of the name then makes one
that has nothing but a name. -/
theorem account_not_usable :
    ¬ ∀ (w : World) (es : List Event), Run step (fun _ _ => True) .init es w →
      w.server.Quiescent → Usable w := by
  intro h
  obtain ⟨w, hr, hq, hpresent, hnone⟩ := exists_run_of_exec step (fun _ _ => True) .init
    [.act 0 (.signUpPressed 0 ⟨some "a@b.c", some "secret", some "name", some "US", some "555"⟩),
      .act 0 (.signUpUploaded 0 0 (some (some "me.png"))),
      .act 0 (.accountCreated 0 0 (some "u")), .reject 0, .act 0 (.userInfoPressed "me"),
      .act 0 (.userInfoUploaded 0 (some (some "new.png"))), .deliver 0]
    (fun w => w.server.Quiescent ∧ w.server.db.Present (.users "u") ∧
      PinController.fetchUserInfo "u" (w.server.db.node (.users "u")) = none) (by decide +kernel)
  obtain ⟨user, hfetch, -⟩ := (h w _ hr hq).decodes "u" hpresent
  rw [hnone] at hfetch
  cases hfetch

end CommServe
