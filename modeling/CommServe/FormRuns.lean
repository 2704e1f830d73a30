import CommServe.World
import CommServe.SignUpScreen

/-! # The forms in the system

The world has a submission, or a sign-up, from its press on; the screens have the forms as well, with every
edit.  Here each screen is put on a running device of an arbitrary world, and what it does there is a run of
the world: an edit is not seen, and every other event of the screen is an action of the device.  So what was
proved of the posts and the accounts of the world is about posts and accounts that come out of the forms. -/

namespace CommServe

open RecordStore Method Sync Transition

variable {ι : Type} {w : World} {c j : ℕ}

theorem step_of_reaction {w' : World} (hlive : (w.dev c).crashed = false) {a : Action} {r : Reaction}
    (hr : w.reaction c a = some r) (happly : w.apply c r = w') : step w (.act c a) = some w' := by
  show (react w c a).map _ = _
  unfold react
  rw [hlive, hr, if_neg Bool.false_ne_true, Option.map_some, happly]

/-! ### Submitting a post -/

/-- The record as the device can see it. -/
def World.Reads (w : World) (c : ℕ) (k : Ref) (data : Node) : Prop :=
  ∃ base ∈ w.server.db :: w.server.past, (base.applyAll (w.server.pending c)).node k = data

instance (w : World) (c : ℕ) (k : Ref) (data : Node) : Decidable (w.Reads c k data) :=
  inferInstanceAs (Decidable (∃ base ∈ w.server.db :: w.server.past, _))

/-- The device can see the record still when it has issued writes on other records. -/
theorem World.Reads.issue {k : Ref} {data : Node} (h : w.Reads c k data) {ws : List DbWrite}
    (hws : ∀ x ∈ ws, k ≠ x.key) :
    ∃ i db, (w.server.issue c ws).view c i = some db ∧ db.node k = data := by
  obtain ⟨base, hbase, rfl⟩ := h
  obtain ⟨i, hi⟩ := List.mem_iff_getElem?.mp hbase
  refine ⟨i, base.applyAll (w.server.pending c ++ ws), ?_, ?_⟩
  · show ((w.server.db :: w.server.past)[i]?).map _ = _
    rw [hi, Option.map_some, Net.pending_issue, if_pos rfl]
  · rw [Store.applyAll_append, Store.applyAll_node_ne hws]

namespace AddPostScreen

/-- One step of the screen, with the post ids drawn so far: every press draws a new one. -/
def stepIds (s : AddPostScreen ι × List String) : FormEvent ι → Option (AddPostScreen ι × List String)
  | .submitPressed postId =>
      if postId ∉ s.2 then (step s.1 (.submitPressed postId)).map (·, s.2 ++ [postId]) else none
  | e => (step s.1 e).map (·, s.2)

/-- The submissions of the screen that wait for a record, as the world has them. -/
def waiting (s : AddPostScreen ι) (c : ℕ) : List (ℕ × Submission) := s.asked.map fun x => (c, x.1)

/-- The uploads of the screen, as the world has them. -/
def uploads (s : AddPostScreen ι) (c : ℕ) : List (ℕ × Submission × Node) :=
  s.uploading.map fun x => (c, x.submission, x.snapshot)

/-- The world `w` when, since then, nothing but the Add Post screen of the device `c` has acted, and the
post ids `ids` are drawn. -/
def world (s : AddPostScreen ι) (ids : List String) (w : World) (c : ℕ) : World :=
  { w with
    server := w.server.issue c (s.stored.map fun x => AddPostController.store x.post)
    dev := Function.update w.dev c (if s.crashed then (w.dev c).crash else w.dev c)
    ids := ids
    asked := w.asked ++ s.waiting c
    uploading := w.uploading ++ s.uploads c
    submitted := w.submitted ++ s.stored.map (·.post) }

/-- A record that arrives is one that the device can see. -/
def ReadsRecord (w : World) (c : ℕ) (s : AddPostScreen ι × List String) : FormEvent ι → Prop
  | .snapshot i data _ => ∀ x ∈ s.1.asked[i]?, w.Reads c (.users x.1.userId) data
  | _ => True

instance (w : World) (c : ℕ) (s : AddPostScreen ι × List String) : DecidablePred (ReadsRecord w c s)
  | .snapshot i _ _ => inferInstanceAs (Decidable (∀ x ∈ s.1.asked[i]?, _))
  | .titleEdited _ | .descEdited _ | .locationEdited _ | .dropDownPressed _ | .imagePicked _ _ |
    .locationChosen _ | .viewWillAppear | .submitPressed _ | .uploaded _ _ | .acknowledged _ _ =>
      isTrue trivial

/-- The screen of the device, with a category that the drop-down has. -/
structure Belongs (w : World) (c : ℕ) (s : AddPostScreen ι) : Prop where
  userId : s.userId = (w.dev c).userId
  category : s.form.selectedCategory = "" ∨ s.form.selectedCategory ∈ dropDownOptions

variable {s s' : AddPostScreen ι} {e : FormEvent ι} {ids ids' : List String}

theorem stepIds_eq_some {t t' : AddPostScreen ι × List String} (h : stepIds t e = some t') :
    t.1.crashed = false ∧ t.1.react e = some t'.1 ∧
      ((∃ postId, e = .submitPressed postId ∧ postId ∉ t.2 ∧ t'.2 = t.2 ++ [postId]) ∨
        (∀ postId, e ≠ .submitPressed postId) ∧ t'.2 = t.2) := by
  unfold stepIds at h
  split at h
  · rename_i postId
    split_ifs at h with hnew
    obtain ⟨s', hs, rfl⟩ := Option.map_eq_some_iff.mp h
    obtain ⟨hlive, hs⟩ := step_eq_some.mp hs
    exact ⟨hlive, hs, Or.inl ⟨postId, rfl, hnew, rfl⟩⟩
  · rename_i hother
    obtain ⟨s', hs, rfl⟩ := Option.map_eq_some_iff.mp h
    obtain ⟨hlive, hs⟩ := step_eq_some.mp hs
    exact ⟨hlive, hs, Or.inr ⟨hother, rfl⟩⟩

theorem Belongs.react (h : s.Belongs w c) (hs : s.react e = some s') : s'.Belongs w c := by
  cases e with
  | titleEdited _ | descEdited _ | locationEdited _ | locationChosen _ | viewWillAppear =>
      obtain rfl := Option.some.inj hs
      exact ⟨h.userId, h.category⟩
  | dropDownPressed row =>
      obtain ⟨string, hrow, rfl⟩ := Option.map_eq_some_iff.mp hs
      exact ⟨h.userId, Or.inr (List.mem_of_getElem? hrow)⟩
  | imagePicked editedImage originalImage =>
      obtain rfl := Option.some.inj hs
      unfold AddPostScreen.imagePicked
      split <;> exact ⟨h.userId, h.category⟩
  | submitPressed postId =>
      obtain rfl := Option.some.inj hs
      unfold AddPostScreen.submitPressed
      split <;> exact ⟨h.userId, h.category⟩
  | snapshot i data jpeg =>
      obtain ⟨x, -, hs⟩ := Option.bind_eq_some_iff.mp hs
      obtain rfl := Option.some.inj hs
      unfold AddPostScreen.startUpload
      split_ifs <;> exact ⟨h.userId, h.category⟩
  | uploaded i metadata =>
      obtain ⟨x, -, hs⟩ := Option.bind_eq_some_iff.mp hs
      split_ifs at hs
      obtain rfl := Option.some.inj hs
      unfold AddPostScreen.endUpload
      cases AddPostController.uploaded x.submission x.snapshot metadata <;> exact ⟨h.userId, h.category⟩
  | acknowledged i error =>
      obtain ⟨post, -, hs⟩ := Option.bind_eq_some_iff.mp hs
      obtain rfl := Option.some.inj hs
      split_ifs <;> exact ⟨h.userId, h.category⟩

theorem apply_world {device : Device} {asked : List (ℕ × Submission)}
    {uploading : List (ℕ × Submission × Node)} {writes : List DbWrite} {drawn : List String}
    {submitted : List Post}
    (hdevice : device = if s'.crashed then (w.dev c).crash else w.dev c)
    (hasked : asked = w.asked ++ s'.waiting c) (huploading : uploading = w.uploading ++ s'.uploads c)
    (hwrites : writes = submitted.map AddPostController.store)
    (hids : ids' = ids ++ drawn)
    (hsubmitted : s'.stored.map (·.post) = s.stored.map (·.post) ++ submitted) :
    (s.world ids w c).apply c ⟨device, asked, uploading, writes, [], drawn, submitted, []⟩ =
      s'.world ids' w c := by
  have hstored : s'.stored.map (fun x => AddPostController.store x.post) =
      s.stored.map (fun x => AddPostController.store x.post) ++ writes := by
    have hmap : ∀ l : List (StoredPost ι), l.map (fun x => AddPostController.store x.post) =
        (l.map (·.post)).map AddPostController.store := by simp
    rw [hmap, hmap, hsubmitted, List.map_append, hwrites]
  unfold world World.apply
  simp only [Function.update_idem, hdevice, hasked, huploading, hstored, hids, hsubmitted, Net.issue,
    List.map_append, List.append_assoc, List.append_nil]

theorem world_dev (hlive : s.crashed = false) : (s.world ids w c).dev c = w.dev c := by
  show Function.update w.dev c _ c = _
  rw [Function.update_self, hlive]
  rfl

theorem world_opened :
    (opened (w.dev c).userId : AddPostScreen ι).world w.ids w c = w := by
  unfold world
  have hdev : (if (opened (w.dev c).userId : AddPostScreen ι).crashed then (w.dev c).crash else w.dev c) =
      w.dev c := rfl
  rw [hdev, Function.update_eq_self]
  simp [opened, Net.issue, waiting, uploads]

theorem submitPressed_world (hlive : (w.dev c).crashed = false) (hcrashed : s.crashed = false)
    (h : s.Belongs w c) {postId : String} (hnew : postId ∉ ids) :
    CommServe.step (s.world ids w c) (.act c (.submitPressed s.form postId)) =
      some ((s.submitPressed postId).world (ids ++ [postId]) w c) := by
  have hdev : (s.world ids w c).dev c = w.dev c := world_dev hcrashed
  have hkept : (s.submitPressed postId).uploading = s.uploading ∧
      (s.submitPressed postId).stored = s.stored := by
    unfold AddPostScreen.submitPressed
    split <;> exact ⟨rfl, rfl⟩
  have hreaction : (s.world ids w c).reaction c (.submitPressed s.form postId) =
      some ⟨if (s.submitPressed postId).crashed then (w.dev c).crash else w.dev c,
        w.asked ++ (s.submitPressed postId).waiting c, w.uploading ++ s.uploads c, [], [], [postId],
        [], []⟩ := by
    show World.submitPressed _ c s.form postId = _
    unfold World.submitPressed AddPostScreen.submitPressed
    rw [if_pos ⟨hnew, h.category⟩, hdev, ← h.userId]
    split <;> simp_all [World.local, world, waiting]
  refine step_of_reaction (hdev ▸ hlive) hreaction (apply_world rfl rfl ?_ rfl rfl ?_)
  · unfold uploads
    rw [hkept.1]
  · rw [hkept.2, List.append_nil]

theorem answer_world (submitted : List Post) (hlive : (w.dev c).crashed = false)
    (hcrashed : s.crashed = false) (hcrashed' : s'.crashed = false) {a : Action}
    (hr : (s.world ids w c).reaction c a = some ⟨w.dev c, w.asked ++ s'.waiting c,
      w.uploading ++ s'.uploads c, submitted.map AddPostController.store, [], [], submitted, []⟩)
    (hsubmitted : s'.stored.map (·.post) = s.stored.map (·.post) ++ submitted) :
    CommServe.step (s.world ids w c) (.act c a) = some (s'.world ids w c) := by
  have hdev : (s.world ids w c).dev c = w.dev c := world_dev hcrashed
  have hdevice : w.dev c = if s'.crashed then (w.dev c).crash else w.dev c := by
    rw [hcrashed']
    rfl
  exact step_of_reaction (hdev ▸ hlive) hr
    (apply_world hdevice rfl rfl rfl (List.append_nil ids).symm hsubmitted)

theorem getElem?_append_add {α : Type} (l₁ l₂ : List α) (i : ℕ) : (l₁ ++ l₂)[l₁.length + i]? = l₂[i]? := by
  rw [List.getElem?_append_right (Nat.le_add_right _ _), Nat.add_sub_cancel_left]

theorem eraseIdx_append_add {α : Type} (l₁ l₂ : List α) (i : ℕ) :
    (l₁ ++ l₂).eraseIdx (l₁.length + i) = l₁ ++ l₂.eraseIdx i := by
  rw [List.eraseIdx_append_of_length_le (Nat.le_add_right _ _), Nat.add_sub_cancel_left]

theorem snapshot_world (hlive : (w.dev c).crashed = false) (hcrashed : s.crashed = false) {i : ℕ}
    {x : Submission × PressedForm ι} (hx : s.asked[i]? = some x) {data : Node}
    (hread : w.Reads c (.users x.1.userId) data) (jpeg : Bool) :
    ∃ b, CommServe.step (s.world ids w c) b =
      some (({ s with asked := s.asked.eraseIdx i }.startUpload x data jpeg).world ids w c) := by
  have hdev : (s.world ids w c).dev c = w.dev c := world_dev hcrashed
  have hposts : ∀ y ∈ s.stored.map (fun y => AddPostController.store y.post),
      Ref.users x.1.userId ≠ y.key := by
    simp
  obtain ⟨k, db, hview, rfl⟩ := hread.issue hposts
  have hview : (s.world ids w c).server.view c k = some db := hview
  have hentry : (s.world ids w c).asked[w.asked.length + i]? = some (c, x.1) := by
    show (w.asked ++ s.waiting c)[w.asked.length + i]? = _
    rw [getElem?_append_add, waiting, List.getElem?_map, hx]
    rfl
  have herase : (s.world ids w c).asked.eraseIdx (w.asked.length + i) =
      w.asked ++ (s.asked.eraseIdx i).map fun y => (c, y.1) := by
    show (w.asked ++ s.waiting c).eraseIdx (w.asked.length + i) = _
    rw [eraseIdx_append_add, waiting, List.eraseIdx_map]
  refine ⟨.act c (.submitSnapshot (w.asked.length + i) k jpeg), ?_⟩
  unfold AddPostScreen.startUpload
  split_ifs with hjpeg
  · refine answer_world [] hlive hcrashed ?_ ?_ (by simp)
    · exact hcrashed
    show World.submitSnapshot _ c _ k jpeg = _
    unfold World.submitSnapshot
    simp only [hentry, hview, herase, hdev, Option.bind_eq_bind, Option.bind_some, World.local]
    simp [world, waiting, uploads, hjpeg]
  · refine answer_world [] hlive hcrashed ?_ ?_ (by simp)
    · exact hcrashed
    show World.submitSnapshot _ c _ k jpeg = _
    unfold World.submitSnapshot
    simp only [hentry, hview, herase, hdev, Option.bind_eq_bind, Option.bind_some, World.local]
    simp [world, waiting, uploads, hjpeg]

theorem uploaded_world (hlive : (w.dev c).crashed = false) (hcrashed : s.crashed = false) {i : ℕ}
    {x : ImageUpload ι} (hx : s.uploading[i]? = some x) (metadata : Option (Option String)) :
    ∃ b, CommServe.step (s.world ids w c) b =
      some (({ s with uploading := s.uploading.eraseIdx i }.endUpload x metadata).world ids w c) := by
  have hdev : (s.world ids w c).dev c = w.dev c := world_dev hcrashed
  have hentry : (s.world ids w c).uploading[w.uploading.length + i]? = some (c, x.submission, x.snapshot) := by
    show (w.uploading ++ s.uploads c)[w.uploading.length + i]? = _
    rw [getElem?_append_add, uploads, List.getElem?_map, hx]
    rfl
  have herase : (s.world ids w c).uploading.eraseIdx (w.uploading.length + i) =
      w.uploading ++ (s.uploading.eraseIdx i).map fun y => (c, y.submission, y.snapshot) := by
    show (w.uploading ++ s.uploads c).eraseIdx (w.uploading.length + i) = _
    rw [eraseIdx_append_add, uploads, List.eraseIdx_map]
  refine ⟨.act c (.submitUploaded (w.uploading.length + i) metadata), ?_⟩
  unfold AddPostScreen.endUpload
  cases hpost : AddPostController.uploaded x.submission x.snapshot metadata with
  | none =>
      refine answer_world [] hlive hcrashed ?_ ?_ (by simp)
      · exact hcrashed
      show World.submitUploaded _ c _ metadata = _
      unfold World.submitUploaded
      simp only [hentry, hpost, herase, hdev, Option.bind_eq_bind, Option.bind_some, World.local]
      simp [world, waiting, uploads]
  | some post =>
      refine answer_world [post] hlive hcrashed ?_ ?_ (by simp)
      · exact hcrashed
      show World.submitUploaded _ c _ metadata = _
      unfold World.submitUploaded
      simp only [hentry, hpost, herase, hdev, Option.bind_eq_bind, Option.bind_some, World.local]
      simp [world, waiting, uploads]

/-- What is not a press is not seen in the world, or it is an answer. -/
theorem react_world (hlive : (w.dev c).crashed = false) (hcrashed : s.crashed = false)
    (hread : ReadsRecord w c (s, ids) e) (hother : ∀ postId, e ≠ .submitPressed postId)
    (hs : s.react e = some s') : s'.world ids w c = s.world ids w c ∨
      ∃ b, CommServe.step (s.world ids w c) b = some (s'.world ids w c) := by
  cases e with
  | titleEdited _ | descEdited _ | locationEdited _ | locationChosen _ | viewWillAppear =>
      obtain rfl := Option.some.inj hs
      exact Or.inl rfl
  | dropDownPressed row =>
      obtain ⟨string, -, rfl⟩ := Option.map_eq_some_iff.mp hs
      exact Or.inl rfl
  | imagePicked editedImage originalImage =>
      obtain rfl := Option.some.inj hs
      unfold AddPostScreen.imagePicked
      split <;> exact Or.inl rfl
  | submitPressed postId => exact absurd rfl (hother postId)
  | snapshot i data jpeg =>
      obtain ⟨x, hx, hs⟩ := Option.bind_eq_some_iff.mp hs
      obtain rfl := Option.some.inj hs
      exact Or.inr (snapshot_world hlive hcrashed hx (hread x hx) jpeg)
  | uploaded i metadata =>
      obtain ⟨x, hx, hs⟩ := Option.bind_eq_some_iff.mp hs
      split_ifs at hs
      obtain rfl := Option.some.inj hs
      exact Or.inr (uploaded_world hlive hcrashed hx metadata)
  | acknowledged i error =>
      obtain ⟨post, -, hs⟩ := Option.bind_eq_some_iff.mp hs
      obtain rfl := Option.some.inj hs
      split_ifs <;> exact Or.inl rfl

/-- **The Add Post form in the system**: what the form does on a running device of any world, the world does,
and then the writes in flight are the old ones and one for each stored post. -/
theorem posts_in_world (hlive : (w.dev c).crashed = false) {es : List (FormEvent ι)}
    (hr : Run stepIds (ReadsRecord w c) (opened (w.dev c).userId, w.ids) es (s, ids)) :
    ∃ bs, bs.length ≤ es.length ∧ Run CommServe.step (fun _ _ => True) w bs (s.world ids w c) := by
  have hopened : (opened (w.dev c).userId : AddPostScreen ι).Belongs w c := ⟨rfl, Or.inl rfl⟩
  obtain ⟨bs, hlen, hbs⟩ := hr.refines (fun t => t.1.world t.2 w c) (fun t => t.1.Belongs w c)
    (fun _ _ _ h _ hs => h.react (stepIds_eq_some hs).2.1)
    (fun t e t' h hok hs => by
      obtain ⟨hcrashed, hs, hids⟩ := stepIds_eq_some hs
      cases hids with
      | inl hpress =>
          obtain ⟨postId, rfl, hnew, hids⟩ := hpress
          obtain hs : t.1.submitPressed postId = t'.1 := Option.some.inj hs
          rw [← hs, hids]
          exact Or.inr ⟨_, submitPressed_world hlive hcrashed h hnew⟩
      | inr hother =>
          rw [hother.2]
          exact react_world hlive hcrashed hok hother.1 hs) hopened
  rw [world_opened] at hbs
  exact ⟨bs, hlen, hbs⟩

/-- A post of the form, in a world where its author has signed up. -/
theorem posts_in_world_once : ∃ (w : World) (bs : List Event) (w' : World),
    Run CommServe.step (fun _ _ => True) w bs w' ∧ w'.submitted.length = 1 := by
  obtain ⟨w, -, hlive, hpost⟩ := exists_run_of_exec CommServe.step (fun _ _ => True) .init
    (signUpScript 0 "u" (some "me.png"))
    (fun w => (w.dev 0).crashed = false ∧ (exec stepIds (ReadsRecord w 0)
      ((opened (w.dev 0).userId : AddPostScreen String), w.ids)
      (pressScript ++ [.snapshot 0 (w.server.db.node (.users "u")) true,
        .titleEdited (some "later"), .uploaded 0 (some (some "p.png"))])).any
      (fun t => decide (t.1.stored.length = 1 ∧ w.submitted = [])) = true) (by decide +kernel)
  obtain ⟨⟨s, ids⟩, hr, hstored, hnil⟩ := exists_run_of_exec _ _ _ _
    (fun t : AddPostScreen String × List String => t.1.stored.length = 1 ∧ w.submitted = []) hpost
  obtain ⟨bs, -, hbs⟩ := posts_in_world hlive hr
  refine ⟨w, bs, _, hbs, ?_⟩
  show (w.submitted ++ s.stored.map (·.post)).length = 1
  rw [hnil, List.nil_append, List.length_map]
  exact hstored

end AddPostScreen

/-! ### Signing up -/

namespace SignUpScreen

/-- The part of the screen that the world has. -/
def controller (s : SignUpScreen ι) : SignUpController :=
  ⟨s.profileurl, s.uploading.map (·.request), s.creating.map (·.request)⟩

/-- The device `c` of the world `w` when its sign-up screen `j` is in the state `s`. -/
def device (s : SignUpScreen ι) (w : World) (c j : ℕ) : Device :=
  { w.dev c with
    signUp := Function.update (w.dev c).signUp j s.controller
    currentUser := s.accounts.getLast?.or (w.dev c).currentUser }

/-- The world `w` when, since then, nothing but the sign-up screen `j` of the device `c` has acted. -/
def world (s : SignUpScreen ι) (w : World) (c j : ℕ) : World :=
  { w with
    server := w.server.issue c (s.stored.map fun x => SignUpController.store x.account)
    dev := Function.update w.dev c (s.device w c j)
    accounts := w.accounts ++ s.accounts }

/-- The user id of a new account is not one of the world's. -/
def NewAccount (w : World) : SignUpEvent ι → Prop
  | .accountCreated _ (some uid) => uid ∉ w.accounts
  | _ => True

instance (w : World) : DecidablePred (NewAccount w : SignUpEvent ι → Prop)
  | .accountCreated _ (some uid) => inferInstanceAs (Decidable (uid ∉ w.accounts))
  | .accountCreated _ none | .emailEdited _ | .passwordEdited _ | .nameEdited _ | .countryEdited _ |
    .phone _ | .imagePicked _ _ | .submitPressed _ | .uploaded _ _ => isTrue trivial

variable {s s' : SignUpScreen ι} {u : Unicode} {e : SignUpEvent ι}

theorem world_opened (hnew : (w.dev c).signUp j = .new) : (opened : SignUpScreen ι).world w c j = w := by
  have hcontroller : (opened : SignUpScreen ι).controller = (w.dev c).signUp j := hnew.symm
  have hdevice : (opened : SignUpScreen ι).device w c j = w.dev c := by
    unfold device
    rw [hcontroller, Function.update_eq_self]
    rfl
  unfold world
  rw [hdevice, Function.update_eq_self]
  simp [opened, Net.issue]

theorem world_dev (s : SignUpScreen ι) : (s.world w c j).dev c = s.device w c j :=
  Function.update_self ..

theorem signUp_device (s : SignUpScreen ι) : (s.device w c j).signUp j = s.controller :=
  Function.update_self ..

theorem apply_world (writes : List DbWrite) (accounts : List String)
    (huser : s'.accounts = s.accounts ++ accounts)
    (hstored : s'.stored.map (fun x => SignUpController.store x.account) =
      s.stored.map (fun x => SignUpController.store x.account) ++ writes) :
    (s.world w c j).apply c { (s.world w c j).local (s'.device w c j) with
      writes := writes
      accounts := accounts } = s'.world w c j := by
  unfold world World.apply World.local
  simp only [Function.update_idem, hstored, huser, Net.issue, List.map_append, List.append_assoc,
    List.append_nil]

theorem withSignUp_world (haccounts : s'.accounts = s.accounts) {signUp : SignUpController}
    (hcontroller : signUp = s'.controller) :
    (s.world w c j).withSignUp c j signUp = s'.device w c j := by
  unfold World.withSignUp
  rw [world_dev, hcontroller]
  unfold device
  rw [haccounts, Function.update_idem]

theorem step_world (hlive : (w.dev c).crashed = false) {a : Action} {r : Reaction}
    (hr : (s.world w c j).reaction c a = some r) (happly : (s.world w c j).apply c r = s'.world w c j) :
    CommServe.step (s.world w c j) (.act c a) = some (s'.world w c j) := by
  refine step_of_reaction ?_ hr happly
  rw [world_dev]
  exact hlive

theorem step_world_local (hlive : (w.dev c).crashed = false) {a : Action}
    (hr : (s.world w c j).reaction c a = some ((s.world w c j).local (s'.device w c j)))
    (haccounts : s'.accounts = s.accounts) (hstored : s'.stored = s.stored) :
    CommServe.step (s.world w c j) (.act c a) = some (s'.world w c j) := by
  refine step_world hlive hr ?_
  refine apply_world [] [] ?_ ?_
  · rw [haccounts, List.append_nil]
  · rw [hstored, List.append_nil]

theorem react_world (hlive : (w.dev c).crashed = false) (hok : NewAccount w e)
    (hs : s.react u e = some s') : s'.world w c j = s.world w c j ∨
      ∃ b, CommServe.step (s.world w c j) b = some (s'.world w c j) := by
  have hsignUp : ((s.world w c j).dev c).signUp j = s.controller := by
    rw [world_dev, signUp_device]
  cases e with
  | emailEdited _ | passwordEdited _ | nameEdited _ | countryEdited _ =>
      obtain rfl := Option.some.inj hs
      exact Or.inl rfl
  | phone e =>
      obtain ⟨phone, -, rfl⟩ := Option.map_eq_some_iff.mp hs
      exact Or.inl rfl
  | imagePicked editedImage originalImage =>
      obtain rfl := Option.some.inj hs
      unfold SignUpScreen.imagePicked
      split <;> exact Or.inl rfl
  | submitPressed jpeg =>
      obtain rfl := Option.some.inj hs
      unfold SignUpScreen.submitPressed
      split
      · rename_i request hrequest
        refine Or.inr ⟨.act c (.signUpPressed j s.form), step_world_local hlive ?_ rfl rfl⟩
        show World.signUpPressed _ c j s.form = _
        unfold World.signUpPressed
        rw [hrequest]
        simp only [hsignUp]
        refine congrArg (fun d => some ((s.world w c j).local d)) (withSignUp_world (by rfl) ?_)
        simp [controller]
      · exact Or.inl rfl
  | uploaded i metadata =>
      obtain ⟨x, hx, hs⟩ := Option.bind_eq_some_iff.mp hs
      refine Or.inr ⟨.act c (.signUpUploaded j i metadata), ?_⟩
      have hrequest : s.controller.uploading[i]? = some x.request := by
        simp [controller, hx]
      cases metadata with
      | none =>
          obtain rfl := Option.some.inj hs
          refine step_world_local hlive ?_ rfl rfl
          show World.signUpUploaded _ c j i none = _
          unfold World.signUpUploaded
          simp only [hsignUp, hrequest, Option.bind_eq_bind, Option.bind_some]
          refine congrArg (fun d => some ((s.world w c j).local d)) (withSignUp_world (by rfl) ?_)
          simp [controller, List.eraseIdx_map]
      | some profileurl =>
          simp only at hs
          split_ifs at hs
          obtain rfl := Option.some.inj hs
          refine step_world_local hlive ?_ rfl rfl
          show World.signUpUploaded _ c j i (some profileurl) = _
          unfold World.signUpUploaded
          simp only [hsignUp, hrequest, Option.bind_eq_bind, Option.bind_some]
          refine congrArg (fun d => some ((s.world w c j).local d)) (withSignUp_world (by rfl) ?_)
          simp [controller, endUpload, List.eraseIdx_map]
  | accountCreated i result =>
      obtain ⟨x, hx, hs⟩ := Option.bind_eq_some_iff.mp hs
      refine Or.inr ⟨.act c (.accountCreated j i result), ?_⟩
      have hrequest : s.controller.creating[i]? = some x.request := by
        simp [controller, hx]
      cases result with
      | none =>
          obtain rfl := Option.some.inj hs
          refine step_world_local hlive ?_ rfl rfl
          show World.accountCreated _ c j i none = _
          unfold World.accountCreated
          simp only [hsignUp, hrequest, Option.bind_eq_bind, Option.bind_some]
          refine congrArg (fun d => some ((s.world w c j).local d)) (withSignUp_world (by rfl) ?_)
          simp [controller, List.eraseIdx_map]
      | some uid =>
          simp only at hs
          split_ifs at hs with hnew
          obtain rfl := Option.some.inj hs
          have hfresh : uid ∉ (s.world w c j).accounts := by
            intro hmem
            cases List.mem_append.mp hmem with
            | inl hold => exact hok hold
            | inr hold => exact hnew hold
          have hreaction : (s.world w c j).reaction c (.accountCreated j i (some uid)) = some
              { (s.world w c j).local
                  (({ s with creating := s.creating.eraseIdx i }.store x uid).device w c j) with
                writes := [SignUpController.store (SignUpController.userData x.request uid s.profileurl)]
                accounts := [uid] } := by
            show World.accountCreated _ c j i (some uid) = _
            unfold World.accountCreated
            simp only [hsignUp, hrequest, Option.bind_eq_bind, Option.bind_some, if_pos hfresh]
            have hdevice : (s.world w c j).withSignUp c j
                { s.controller with creating := s.controller.creating.eraseIdx i } =
                  ({ s with creating := s.creating.eraseIdx i } : SignUpScreen ι).device w c j := by
              refine withSignUp_world (by rfl) ?_
              simp [controller, List.eraseIdx_map]
            rw [hdevice]
            simp [device, SignUpScreen.store, controller]
          refine step_world hlive hreaction (apply_world _ _ rfl ?_)
          simp [SignUpScreen.store]

/-- **The screen in the system**: what one new sign-up screen does on a running device of any world, the
world does, and then the writes in flight are the old ones and one `setValue` for each stored account. -/
theorem accounts_in_world (hnew : (w.dev c).signUp j = .new) (hlive : (w.dev c).crashed = false)
    {es : List (SignUpEvent ι)} (hr : Run (step u) (fun _ => NewAccount w) opened es s) :
    ∃ bs, bs.length ≤ es.length ∧ Run CommServe.step (fun _ _ => True) w bs (s.world w c j) := by
  obtain ⟨bs, hlen, hbs⟩ := hr.refines (fun s => s.world w c j) (fun _ => True)
    (fun _ _ _ _ _ _ => trivial)
    (fun _ _ _ _ hok hs => react_world hlive hok (step_eq_some hs).2) trivial
  rw [world_opened hnew] at hbs
  exact ⟨bs, hlen, hbs⟩

theorem accounts_in_world_once : ∃ (w : World) (bs : List Event),
    Run CommServe.step (fun _ _ => True) .init bs w ∧ w.accounts = ["u"] ∧
      w.server.inFlight.length = 1 := by
  obtain ⟨s, hr, haccounts, hstored⟩ := exists_run_of_exec (step .scalars)
    (fun _ => NewAccount .init) (opened : SignUpScreen String) (pressScript "me" ++ createScript)
    (fun s => s.accounts = ["u"] ∧ s.stored.length = 1) (by decide)
  obtain ⟨bs, -, hbs⟩ := accounts_in_world (w := .init) (c := 0) (j := 0) rfl rfl hr
  refine ⟨_, bs, hbs, haccounts, ?_⟩
  simp [world, World.init, Net.issue, Net.empty, hstored]

end SignUpScreen

end CommServe
