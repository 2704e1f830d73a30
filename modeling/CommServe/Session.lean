import CommServe.Screens
import CommServe.Soundness

/-! # The signed-in user

The screens act for the user whose uid their tab bar captured.  A tab bar on top of everything captures
the user it signs in, so the two can only part when somebody is signed in without a tab bar coming on top:
by a sign-in whose `LoginController` is covered, or by the creation of an account.  `Safe` asks that at
such a moment the tab bar on the topmost stack, if there is one, is of that very user; for the tab bars on
top of the stacks, hidden ones included, nothing weaker would do (`aligned_step_iff`).

Every run of the system with screens is a run of the world (`System.refines`), so what was proved of the
world holds here too. -/

namespace CommServe

open RecordStore Sync Transition

/-- The user somebody is about to be signed in as, with the tab bar that stays on the topmost stack. -/
def System.switching (s : System) : SessionEvent → Option (String × CustomTabBarController)
  | .signedIn c i (some uid) => do
      let n ← (s.screens c).signIns[i]?
      let bar ← (s.screens c).topBar
      if n = (s.screens c).covered.length then none else some (uid, bar)
  | .other (.act c (.accountCreated _ _ (some uid))) => do
      let bar ← (s.screens c).topBar
      some (uid, bar)
  | _ => none

/-- Nobody is signed in under the tab bar of another user. -/
def Safe (s : System) (e : SessionEvent) : Prop :=
  ∀ x ∈ s.switching e, x.2.userId = some x.1

instance (s : System) : DecidablePred (Safe s) := fun e =>
  inferInstanceAs (Decidable (∀ x ∈ s.switching e, x.2.userId = some x.1))

/-- The tab bar the user sees acts for the signed-in user, and every post is stored with the user who was
signed in when Submit was pressed, and with the name of this user. -/
structure ActsForUser (s : System) : Prop where
  visible : ∀ c bar, (s.screens c).bar = some bar →
    bar.userId = (s.world.dev c).currentUser
  posts : ∀ post ∈ s.world.submitted, s.signedIn post.postId = some post.userId ∧
    s.names post.postId = some post.userName

/-- The tab bar on top of the topmost stack is the one whose controllers the device holds. -/
def Linked (s : System) : Prop :=
  ∀ c bar, (s.screens c).topBar = some bar → bar.userId = (s.world.dev c).userId

/-- The tab bar on top of the topmost stack, seen or not, acts for the signed-in user. -/
def Aligned (s : System) : Prop :=
  ∀ c bar, (s.screens c).topBar = some bar → bar.userId = (s.world.dev c).currentUser

variable {s s' : System} {c : ℕ}

/-! ### Screens -/

namespace Screens

variable {x : Screens} {n : ℕ} {b : CustomTabBarController}

theorem topBar_push_top (h : n = x.covered.length) : (x.pushViewController n b).topBar = some b := by
  rw [pushViewController, if_pos h]
  rfl

theorem topBar_push_covered (h : n ≠ x.covered.length) :
    (x.pushViewController n b).topBar = x.topBar := by
  rw [pushViewController, if_neg h]
  rfl

theorem topBar_answered (i : ℕ) : (x.answered i).topBar = x.topBar := rfl

theorem topBar_dismiss (j : ℕ) : (x.dismiss j).topBar = x.topBar := by
  unfold dismiss
  split_ifs <;> rfl

theorem topBar_after (a : Action) : (x.after a).topBar = x.topBar := by
  unfold after
  split
  · exact topBar_dismiss _
  · rfl

theorem bar_eq_some (h : x.bar = some b) : x.topBar = some b := by
  unfold bar at h
  split_ifs at h
  exact h

end Screens

/-! ### Steps -/

/-- The ways in which the system goes from `s` to another state. -/
inductive System.Move (s : System) : SessionEvent → System → Prop where
  /-- Only screens change, and not the tab bar on top. -/
  | present {e : SessionEvent} {c : ℕ} {x : Screens} :
      s.switching e = none → x.topBar = (s.screens c).topBar →
      Move s e { s with screens := Function.update s.screens c x }
  /-- A sign-in ends whose `LoginController` is covered. -/
  | signIn {c i n : ℕ} {uid : String} {w : World} :
      (s.screens c).signIns[i]? = some n → n ≠ (s.screens c).covered.length →
      CommServe.step s.world (.act c (.signIn uid)) = some w →
      Move s (.signedIn c i (some uid)) { s with
        world := w
        screens := Function.update s.screens c
          (((s.screens c).answered i).pushViewController n ⟨(w.dev c).currentUser⟩) }
  /-- A sign-in ends whose `LoginController` is the topmost. -/
  | signInTop {c i n : ℕ} {uid : String} {w w' : World} :
      (s.screens c).signIns[i]? = some n → n = (s.screens c).covered.length →
      CommServe.step s.world (.act c (.signIn uid)) = some w →
      CommServe.step w (.act c .openTabs) = some w' →
      Move s (.signedIn c i (some uid)) { s with
        world := w'
        screens := Function.update s.screens c
          (((s.screens c).answered i).pushViewController n ⟨(w.dev c).currentUser⟩) }
  | logout {c : ℕ} {w : World} :
      CommServe.step s.world (.act c .signOut) = some w →
      Move s (.handleLogout c) { s with
        world := w, screens := Function.update s.screens c (s.screens c).handleLogout }
  | act {c : ℕ} {a : Action} {w : World} :
      (s.screens c).offers a = true → CommServe.step s.world (.act c a) = some w →
      Move s (.other (.act c a)) ⟨w, Function.update s.screens c ((s.screens c).after a),
        s.pressed c a, s.named c a⟩
  | server {e : Event} {n : Server} :
      s.switching (.other e) = none →
      CommServe.step s.world e = some { s.world with server := n } →
      Move s (.other e) { s with world := { s.world with server := n } }

theorem System.move_present {x : Screens} {e : SessionEvent} (h : s.present c x = some s')
    (he : s.switching e = none) (hx : x.topBar = (s.screens c).topBar) : s.Move e s' := by
  unfold System.present at h
  split_ifs at h
  obtain rfl := Option.some.inj h
  exact .present he hx

theorem System.move_signedIn {i : ℕ} {result : Option String}
    (h : s.signInEnded c i result = some s') : s.Move (.signedIn c i result) s' := by
  obtain ⟨n, hn, h⟩ := Option.bind_eq_some_iff.mp h
  cases result with
  | none => exact System.move_present h rfl rfl
  | some uid =>
      obtain ⟨w, hw, h⟩ := Option.bind_eq_some_iff.mp h
      obtain ⟨w', hw', h⟩ := Option.bind_eq_some_iff.mp h
      obtain rfl := Option.some.inj h
      have hlen : ((s.screens c).answered i).covered.length = (s.screens c).covered.length := rfl
      rw [System.viewDidLoad, hlen] at hw'
      by_cases htop : n = (s.screens c).covered.length
      · rw [if_pos (by simpa using htop)] at hw'
        exact .signInTop hn htop hw hw'
      · rw [if_neg (by simpa using htop)] at hw'
        obtain rfl := Option.some.inj hw'
        exact .signIn hn htop hw

theorem System.move_other {e : Event} (h : s.other e = some s') : s.Move (.other e) s' := by
  cases e with
  | act c a =>
      simp only [System.other] at h
      split_ifs at h with ho
      obtain ⟨w, hw, rfl⟩ := Option.map_eq_some_iff.mp h
      exact .act ho hw
  | deliver i =>
      obtain ⟨w, hw, rfl⟩ := Option.map_eq_some_iff.mp h
      obtain ⟨n, -, rfl⟩ := step_deliver hw
      exact .server rfl hw
  | reject i =>
      obtain ⟨w, hw, rfl⟩ := Option.map_eq_some_iff.mp h
      obtain ⟨n, -, rfl⟩ := step_reject hw
      exact .server rfl hw

/-- **What a step can do.** -/
theorem System.step_move {e : SessionEvent} (h : s.step e = some s') : s.Move e s' := by
  cases e with
  | loginPressed c =>
      simp only [System.step, System.loginPressed] at h
      split_ifs at h
      exact System.move_present h rfl rfl
  | signedIn c i result => exact System.move_signedIn h
  | signupPressed c =>
      simp only [System.step, System.signupPressed] at h
      split_ifs at h
      exact System.move_present h rfl rfl
  | cancelPressed c =>
      obtain ⟨j, -, h⟩ := Option.bind_eq_some_iff.mp h
      exact System.move_present h rfl (Screens.topBar_dismiss j)
  | handleLogout c =>
      obtain ⟨bar, -, h⟩ := Option.bind_eq_some_iff.mp h
      obtain ⟨w, hw, h⟩ := Option.bind_eq_some_iff.mp h
      obtain rfl := Option.some.inj h
      exact .logout hw
  | other e => exact System.move_other h

/-! ### The user on top -/

/-- What a step makes of the tab bar on top and of the user of device `c`. -/
inductive Turn (s : System) (e : SessionEvent) (s' : System) (c : ℕ) : Prop where
  | idle : s.switching e = none → (s'.screens c).topBar = (s.screens c).topBar →
      (s'.world.dev c).currentUser = (s.world.dev c).currentUser →
      (s'.world.dev c).userId = (s.world.dev c).userId → Turn s e s' c
  | pushed (uid : String) : s.switching e = none → (s'.screens c).topBar = some ⟨some uid⟩ →
      (s'.world.dev c).currentUser = some uid → (s'.world.dev c).userId = some uid → Turn s e s' c
  | switched (uid : String) :
      s.switching e = (s.screens c).topBar.map (fun bar => (uid, bar)) →
      (s'.screens c).topBar = (s.screens c).topBar → (s'.world.dev c).currentUser = some uid →
      (s'.world.dev c).userId = (s.world.dev c).userId → Turn s e s' c
  | covered : s.switching e = none → (s'.screens c).topBar = none → Turn s e s' c

/-- A step acts on one device. -/
structure System.Acts (s : System) (e : SessionEvent) (s' : System) (c : ℕ) : Prop where
  screens : ∀ d, d ≠ c → s'.screens d = s.screens d
  dev : ∀ d, d ≠ c → s'.world.dev d = s.world.dev d
  turn : Turn s e s' c

theorem System.Acts.of_signIn {i n : ℕ} {uid : String} {w : World}
    (hn : (s.screens c).signIns[i]? = some n) (htop : n ≠ (s.screens c).covered.length)
    (hw : CommServe.step s.world (.act c (.signIn uid)) = some w) :
    s.Acts (.signedIn c i (some uid)) { s with
      world := w
      screens := Function.update s.screens c
        (((s.screens c).answered i).pushViewController n ⟨(w.dev c).currentUser⟩) } c := by
  obtain ⟨hcur, hid, hdev⟩ := step_user hw
  have hswitch : s.switching (.signedIn c i (some uid)) =
      (s.screens c).topBar.map (fun bar => (uid, bar)) := by
    cases hbar : (s.screens c).topBar <;> simp [System.switching, hn, hbar, htop]
  have hpush := Screens.topBar_push_covered (x := (s.screens c).answered i)
    (b := ⟨(w.dev c).currentUser⟩) htop
  rw [Screens.topBar_answered] at hpush
  constructor
  · intro d hd
    exact Function.update_of_ne hd _ _
  · exact hdev
  · exact .switched uid hswitch (by simpa using hpush) hcur hid

theorem System.Acts.of_signInTop {i n : ℕ} {uid : String} {w w' : World}
    (hn : (s.screens c).signIns[i]? = some n) (htop : n = (s.screens c).covered.length)
    (hw : CommServe.step s.world (.act c (.signIn uid)) = some w)
    (hw' : CommServe.step w (.act c .openTabs) = some w') :
    s.Acts (.signedIn c i (some uid)) { s with
      world := w'
      screens := Function.update s.screens c
        (((s.screens c).answered i).pushViewController n ⟨(w.dev c).currentUser⟩) } c := by
  obtain ⟨hcur, -, hdev⟩ := step_user hw
  obtain ⟨hcur', hid', hdev'⟩ := step_user hw'
  have huser : (w.dev c).currentUser = some uid := hcur
  have hswitch : s.switching (.signedIn c i (some uid)) = none := by
    cases hbar : (s.screens c).topBar <;> simp [System.switching, hn, hbar, htop]
  have hpush := Screens.topBar_push_top (x := (s.screens c).answered i)
    (b := ⟨(w.dev c).currentUser⟩) htop
  rw [huser] at hpush
  constructor
  · intro d hd
    exact Function.update_of_ne hd _ _
  · intro d hd
    exact (hdev' d hd).trans (hdev d hd)
  · exact .pushed uid hswitch (by simpa [huser] using hpush) (hcur'.trans huser) (hid'.trans huser)

theorem System.Acts.of_act {a : Action} {w : World} (ho : (s.screens c).offers a = true)
    (hw : CommServe.step s.world (.act c a) = some w) :
    s.Acts (.other (.act c a)) ⟨w, Function.update s.screens c ((s.screens c).after a),
      s.pressed c a, s.named c a⟩ c := by
  obtain ⟨hcur, hid, hdev⟩ := step_user hw
  have hbar : ((s.screens c).after a).topBar = (s.screens c).topBar := Screens.topBar_after a
  refine ⟨fun d hd => Function.update_of_ne hd _ _, hdev, ?_⟩
  cases a with
  | signIn uid => cases ho
  | signOut => cases ho
  | openTabs => cases ho
  | accountCreated j i result =>
      cases result with
      | none => exact .idle rfl (by simp [hbar]) hcur hid
      | some uid =>
          refine .switched uid ?_ (by simp [hbar]) hcur hid
          cases hb : (s.screens c).topBar <;> simp [System.switching, hb]
  | _ => exact .idle rfl (by simp [hbar]) hcur hid

theorem System.Move.acts {e : SessionEvent} (h : s.Move e s') : ∃ c, s.Acts e s' c := by
  cases h with
  | @present e c x he hx =>
      exact ⟨c, fun d hd => Function.update_of_ne hd _ _, fun _ _ => rfl,
        .idle he (by simp [hx]) rfl rfl⟩
  | signIn hn htop hw => exact ⟨_, .of_signIn hn htop hw⟩
  | signInTop hn htop hw hw' => exact ⟨_, .of_signInTop hn htop hw hw'⟩
  | @logout c w hw =>
      obtain ⟨-, -, hdev⟩ := step_user hw
      refine ⟨c, fun d hd => Function.update_of_ne hd _ _, hdev, .covered rfl ?_⟩
      simp [Screens.handleLogout, Screens.topBar]
  | act ho hw => exact ⟨_, .of_act ho hw⟩
  | server he hw => exact ⟨0, fun _ _ => rfl, fun _ _ => rfl, .idle he rfl rfl rfl⟩

theorem Linked.step (hl : Linked s) {e : SessionEvent} (h : s.step e = some s') : Linked s' := by
  obtain ⟨c, hscreens, hdev, hturn⟩ := (System.step_move h).acts
  intro d bar hbar
  rcases eq_or_ne d c with rfl | hne
  · cases hturn with
    | idle _ htop _ hid => rw [hid]; exact hl d bar (htop ▸ hbar)
    | pushed uid _ htop _ hid =>
        rw [htop] at hbar
        cases hbar
        exact hid.symm
    | switched uid _ htop _ hid => rw [hid]; exact hl d bar (htop ▸ hbar)
    | covered _ htop => rw [htop] at hbar; cases hbar
  · rw [hdev d hne]
    exact hl d bar (hscreens d hne ▸ hbar)

/-- A step keeps the tab bars on top, hidden ones included, aligned with the users if and only if it signs
nobody in under the tab bar of another user. -/
theorem aligned_step_iff (ha : Aligned s) {e : SessionEvent} (h : s.step e = some s') :
    Aligned s' ↔ Safe s e := by
  obtain ⟨c, hscreens, hdev, hturn⟩ := (System.step_move h).acts
  -- the other devices are as before, so all depends on device `c`
  have hothers : Aligned s' ↔ ∀ bar, (s'.screens c).topBar = some bar →
      bar.userId = (s'.world.dev c).currentUser := by
    constructor
    · intro hall
      exact hall c
    · intro hc d bar hbar
      rcases eq_or_ne d c with rfl | hne
      · exact hc bar hbar
      · rw [hdev d hne]
        exact ha d bar (hscreens d hne ▸ hbar)
  rw [hothers]
  cases hturn with
  | idle he htop hcur _ =>
      refine iff_of_true ?_ (by simp [Safe, he])
      intro bar hbar
      rw [hcur]
      exact ha c bar (htop ▸ hbar)
  | pushed uid he htop hcur _ =>
      refine iff_of_true ?_ (by simp [Safe, he])
      intro bar hbar
      rw [htop] at hbar
      cases hbar
      exact hcur.symm
  | switched uid he htop hcur _ =>
      rw [htop, hcur, Safe, he]
      cases (s.screens c).topBar <;> simp
  | covered he htop =>
      refine iff_of_true ?_ (by simp [Safe, he])
      intro bar hbar
      rw [htop] at hbar
      cases hbar

/-! ### Refinement of the world -/

theorem System.step_run {e : SessionEvent} (h : s.step e = some s') :
    ∃ es, Run CommServe.step (fun _ _ => True) s.world es s'.world := by
  cases System.step_move h with
  | present => exact ⟨[], .nil _⟩
  | signIn _ _ hw => exact ⟨_, .cons trivial hw (.nil _)⟩
  | signInTop _ _ hw hw' => exact ⟨_, .cons trivial hw (.cons trivial hw' (.nil _))⟩
  | logout hw => exact ⟨_, .cons trivial hw (.nil _)⟩
  | act _ hw => exact ⟨_, .cons trivial hw (.nil _)⟩
  | server _ hw => exact ⟨_, .cons trivial hw (.nil _)⟩

/-- **The system with screens refines the world.** -/
theorem System.refines {ok : System → SessionEvent → Prop} {es : List SessionEvent}
    (hr : Run System.step ok .init es s) :
    ∃ fs, Run CommServe.step (fun _ _ => True) .init fs s.world := by
  refine hr.invariant (fun s => ∃ fs, Run CommServe.step (fun _ _ => True) .init fs s.world)
    ?_ ⟨[], .nil _⟩
  intro s e s' hs _ hst
  obtain ⟨fs, hs⟩ := hs
  obtain ⟨gs, hst⟩ := System.step_run hst
  exact ⟨fs ++ gs, hs.trans hst⟩

/-! ### Submissions -/

/-- The submissions and posts carry the user who was signed in at the press, and the posts the name of
this user. -/
structure Credited (asked : List (ℕ × Submission)) (uploading : List (ℕ × Submission × Node))
    (submitted : List Post) (signedIn names : String → Option String) : Prop where
  asked : ∀ x ∈ asked, signedIn x.2.postId = some x.2.userId
  uploading : ∀ x ∈ uploading, signedIn x.2.1.postId = some x.2.1.userId ∧
    names x.2.1.postId = asString (x.2.2 .username)
  submitted : ∀ post ∈ submitted, signedIn post.postId = some post.userId ∧
    names post.postId = some post.userName

/-- The invariant of the submissions in a state of the system. -/
def System.Credited (s : System) : Prop :=
  CommServe.Credited s.world.asked s.world.uploading s.world.submitted s.signedIn s.names

theorem System.Credited.press (h : s.Credited) (hs : s.world.Sound) {p : String}
    (hp : p ∉ s.world.ids) (user : Option String) :
    CommServe.Credited s.world.asked s.world.uploading s.world.submitted
      (Function.update s.signedIn p user) s.names := by
  have hne : ∀ q ∈ s.world.postIds, Function.update s.signedIn p user q = s.signedIn q := by
    intro q hq
    refine Function.update_of_ne ?_ _ _
    rintro rfl
    exact hp (hs.mem_ids hq)
  simp only [World.postIds, List.mem_append, List.mem_map] at hne
  constructor
  · intro x hx
    rw [hne _ (Or.inl (Or.inl ⟨x, hx, rfl⟩))]
    exact h.asked x hx
  · intro x hx
    rw [hne _ (Or.inl (Or.inr ⟨x, hx, rfl⟩))]
    exact h.uploading x hx
  · intro post hq
    rw [hne _ (Or.inr ⟨post, hq, rfl⟩)]
    exact h.submitted post hq

theorem System.Credited.answer (h : s.Credited) (hs : s.world.Sound) {x : ℕ × Submission}
    (hx : x ∈ s.world.asked) (name : Option String) (i : ℕ) :
    CommServe.Credited (s.world.asked.eraseIdx i) s.world.uploading s.world.submitted s.signedIn
      (Function.update s.names x.2.postId name) := by
  obtain ⟨huploading, hsubmitted⟩ := hs.asked_alone hx
  constructor
  · intro y hy
    exact h.asked y (List.mem_of_mem_eraseIdx hy)
  · intro y hy
    rw [Function.update_of_ne (huploading y hy)]
    exact h.uploading y hy
  · intro post hp
    rw [Function.update_of_ne (hsubmitted post hp)]
    exact h.submitted post hp

/-- An action keeps the submissions credited, if a press of Submit finds the captured user signed in. -/
theorem Flow.credited {a : Action} {asked : List (ℕ × Submission)}
    {uploading : List (ℕ × Submission × Node)} {ids : List String} {ps : List Post}
    (hf : Flow s.world c a asked uploading ids ps) (hs : s.world.Sound) (h : s.Credited)
    (huser : ∀ form p, a = .submitPressed form p →
      (s.world.dev c).userId = (s.world.dev c).currentUser) :
    Credited asked uploading (s.world.submitted ++ ps) (s.pressed c a) (s.named c a) := by
  cases hf with
  | same ha =>
      rw [List.append_nil]
      cases a with
      | submitPressed form p => cases ha
      | submitSnapshot i k jpeg => cases ha
      | _ => exact h
  | draw hp =>
      rw [List.append_nil]
      exact h.press hs hp _
  | @ask form x hx hid =>
      rw [List.append_nil]
      have hpress := h.press hs hx (s.world.dev c).currentUser
      refine ⟨?_, hpress.uploading, hpress.submitted⟩
      intro y hy
      rcases List.mem_append.mp hy with hy | hy
      · exact hpress.asked y hy
      · obtain rfl := List.mem_singleton.mp hy
        rw [huser form _ rfl] at hid
        simp [System.pressed, hid]
  | @drop i k jpeg x db hx hv =>
      rw [List.append_nil]
      simp only [System.named, hx, hv]
      exact h.answer hs (List.mem_of_getElem? hx) _ i
  | @upload i k jpeg x db hx hv =>
      rw [List.append_nil]
      simp only [System.named, hx, hv]
      have hmem := List.mem_of_getElem? hx
      have hanswer := h.answer hs hmem
        ((s.signedIn x.2.postId).bind fun uid => asString (db.node (.users uid) .username)) i
      refine ⟨hanswer.asked, ?_, hanswer.submitted⟩
      intro y hy
      rcases List.mem_append.mp hy with hy | hy
      · exact hanswer.uploading y hy
      · obtain rfl := List.mem_singleton.mp hy
        refine ⟨h.asked x hmem, ?_⟩
        rw [Function.update_self, h.asked x hmem]
        rfl
  | fail hx =>
      rw [List.append_nil]
      exact ⟨h.asked, fun y hy => h.uploading y (List.mem_of_mem_eraseIdx hy), h.submitted⟩
  | @submit i metadata x post hx hpost =>
      refine ⟨h.asked, fun y hy => h.uploading y (List.mem_of_mem_eraseIdx hy), ?_⟩
      intro q hq
      rcases List.mem_append.mp hq with hq | hq
      · exact h.submitted q hq
      · obtain rfl := List.mem_singleton.mp hq
        obtain ⟨hid, -, huid, -, hname⟩ := AddPostController.uploaded_eq_some hpost
        obtain ⟨hsigned, hnamed⟩ := h.uploading x (List.mem_of_getElem? hx)
        rw [hid, huid, ← hname]
        exact ⟨hsigned, hnamed⟩

theorem System.Credited.congr (h : s.Credited)
    (hw : s'.world.asked = s.world.asked ∧ s'.world.uploading = s.world.uploading ∧
      s'.world.submitted = s.world.submitted)
    (hsigned : s'.signedIn = s.signedIn) (hnames : s'.names = s.names) : s'.Credited := by
  obtain ⟨hasked, huploading, hsubmitted⟩ := hw
  unfold System.Credited
  rw [hasked, huploading, hsubmitted, hsigned, hnames]
  exact h

theorem System.Credited.step (h : s.Credited) (hs : s.world.Sound) (hl : Linked s) (ha : Aligned s)
    {e : SessionEvent} (hst : s.step e = some s') : s'.Credited := by
  cases System.step_move hst with
  | present => exact h
  | signIn _ _ hw => exact h.congr (step_idle hw rfl) rfl rfl
  | signInTop _ _ hw hw' =>
      obtain ⟨hasked, huploading, hsubmitted⟩ := step_idle hw rfl
      obtain ⟨hasked', huploading', hsubmitted'⟩ := step_idle hw' rfl
      exact h.congr ⟨hasked'.trans hasked, huploading'.trans huploading,
        hsubmitted'.trans hsubmitted⟩ rfl rfl
  | logout hw => exact h.congr (step_idle hw rfl) rfl rfl
  | @act c a w ho hw =>
      obtain ⟨ids, qs, hf, hsub⟩ := step_flow hw
      unfold System.Credited
      rw [hsub]
      refine hf.credited hs h ?_
      -- the tab bar in which Submit was pressed is on top
      rintro form p rfl
      obtain ⟨bar, hbar⟩ := Option.isSome_iff_exists.mp ho
      have htop := Screens.bar_eq_some hbar
      exact (hl c bar htop).symm.trans (ha c bar htop)
  | server _ hw => exact h

/-! ### Every run -/

/-- The invariant of the runs in which nobody is signed in under the tab bar of another user. -/
structure System.Sound (s : System) : Prop where
  world : s.world.Sound
  linked : Linked s
  aligned : Aligned s
  credited : s.Credited

theorem System.Sound.init : System.init.Sound where
  world := .init
  linked c bar h := by cases h
  aligned c bar h := by cases h
  credited := ⟨by simp [System.init, World.init], by simp [System.init, World.init],
    by simp [System.init, World.init]⟩

theorem System.Sound.step (h : s.Sound) {e : SessionEvent} (hok : Safe s e)
    (hst : s.step e = some s') : s'.Sound where
  world := by
    obtain ⟨es, hrun⟩ := System.step_run hst
    exact hrun.invariant World.Sound (fun _ _ _ hs _ hst => hs.step hst) h.world
  linked := h.linked.step hst
  aligned := (aligned_step_iff h.aligned hst).mpr hok
  credited := h.credited.step h.world h.linked h.aligned hst

theorem System.Sound.actsForUser (h : s.Sound) : ActsForUser s where
  visible c bar hbar := h.aligned c bar (Screens.bar_eq_some hbar)
  posts := h.credited.submitted

/-- **The screens act for the signed-in user**, if nobody is signed in under the tab bar of another
user. -/
theorem session_acts_for_user {es : List SessionEvent} (hr : Run System.step Safe .init es s) :
    ActsForUser s :=
  (hr.invariant System.Sound (fun _ _ _ h hok hst => h.step hok hst) .init).actsForUser

/-- Device `c` opens its next sign-up screen and signs up `uid`, whose record is stored. -/
def signUpSession (c j : ℕ) (uid : String) : List SessionEvent :=
  [.signupPressed c, .other (.act c (.signUpPressed j ⟨some "a@b.c", some "secret",
      some ("name of " ++ uid), some "US", some "555"⟩)),
    .other (.act c (.signUpUploaded j 0 (some (some "me.png")))),
    .other (.act c (.accountCreated j 0 (some uid))), .other (.deliver 0)]

/-- A user signs up, signs in and submits a post. -/
theorem session_acts_for_user_sample : ∃ s : System,
    (s.screens 0).bar = some ⟨some "u"⟩ ∧
    s.world.submitted = [scriptPost "u" "p" (some "p.png")] ∧ ActsForUser s := by
  obtain ⟨s, hr, hbar, hpost⟩ := exists_run_of_exec System.step Safe .init
    (signUpSession 0 0 "u" ++ [.loginPressed 0, .signedIn 0 0 (some "u")] ++
      (submitScript 0 "p" (some "p.png")).map .other)
    (fun s => (s.screens 0).bar = some ⟨some "u"⟩ ∧
      s.world.submitted = [scriptPost "u" "p" (some "p.png")]) (by decide +kernel)
  exact ⟨s, hbar, hpost, session_acts_for_user hr⟩

/-- While a sign-in of `u` is on the way, the user opens the sign-up screen for `v`.  The sign-in ends
first, under the sign-up screen; then the account is created, and the user sees the tab bar of `u`, signed
in as `v`. -/
theorem session_acts_for_another :
    ¬ ∀ (s : System) (es : List SessionEvent),
      Run System.step (fun _ _ => True) .init es s → ActsForUser s := by
  intro h
  obtain ⟨s, hr, hbar, huser⟩ := exists_run_of_exec System.step (fun _ _ => True) .init
    (signUpSession 0 0 "u" ++ [.loginPressed 0, .signupPressed 0,
      .other (.act 0 (.signUpPressed 1 ⟨some "c@d.e", some "secret", some "v", some "US",
        some "555"⟩)),
      .other (.act 0 (.signUpUploaded 1 0 (some (some "you.png")))), .signedIn 0 0 (some "u"),
      .other (.act 0 (.accountCreated 1 0 (some "v")))])
    (fun s => (s.screens 0).bar = some ⟨some "u"⟩ ∧
      (s.world.dev 0).currentUser = some "v") (by decide +kernel)
  have hvisible := (h s _ hr).visible 0 _ hbar
  rw [huser] at hvisible
  exact absurd hvisible (by decide)

end CommServe
