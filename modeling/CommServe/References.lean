import CommServe.Copies

/-! # References resolve

The records of the database refer to each other by strings: a post lies in the folder of its category and
names its author by uid, a pin lies in the folder of a uid, a user record under a uid.  The database checks
none of it.  In every run, whatever is refused and in whatever order the writes arrive, all of them resolve:
a post is filed under one of the four options of the drop-down, by an account that exists, and nobody but an
account has pins or a user record. -/

namespace CommServe

open RecordStore Method Sync Transition

/-- The submission is one that the form lets through, by an account that exists. -/
structure Submission.Proper (accounts : List String) (s : Submission) : Prop where
  category : s.postCategory ∈ dropDownOptions
  author : s.userId ∈ accounts

/-- Whatever is submitted or on the way is filed under an option of the drop-down and has an author. -/
structure Filed (w : World) : Prop where
  user : ∀ c uid, (w.dev c).currentUser = some uid → uid ∈ w.accounts
  userId : ∀ c uid, (w.dev c).userId = some uid → uid ∈ w.accounts
  asked : ∀ x ∈ w.asked, x.2.Proper w.accounts
  uploading : ∀ x ∈ w.uploading, x.2.1.Proper w.accounts
  submitted : ∀ post ∈ w.submitted, post.postCategory ∈ dropDownOptions ∧ post.userId ∈ w.accounts

/-- A record lies under the uid of an account only. -/
def GoodOwner (us : List String) : Ref → Node → Prop
  | .users uid, r => r = (fun _ => none) ∨ uid ∈ us
  | .pinned uid _, r => r = (fun _ => none) ∨ uid ∈ us
  | _, _ => True

/-- The write is on no record of somebody who has no account. -/
def OwnerWrite (us : List String) (x : DbWrite) : Prop :=
  ∀ uid, (x.key = .users uid ∨ ∃ p, x.key = .pinned uid p) → uid ∈ us

/-- What a record of a post refers to. -/
structure Resolves (us : List String) (r : Node) : Prop where
  category : ∃ category ∈ dropDownOptions, r .postCategory = some (.str category)
  author : ∃ author ∈ us, r .userId = some (.str author)

variable {w w' : World} {c : ℕ} {us us' : List String}

/-! ### Where posts are filed -/

theorem Submission.Proper.mono {us us' : List String} (h : us ⊆ us') {s : Submission}
    (hs : s.Proper us) : s.Proper us' := ⟨hs.category, h hs.author⟩

theorem submitPressed_proper {form : PostForm} {postId : String} {r : Reaction}
    (h : w.submitPressed c form postId = some r) {x : ℕ × Submission} (hx : x ∈ r.asked) :
    x ∈ w.asked ∨ (x.2.postCategory ∈ dropDownOptions ∧ (w.dev c).userId = some x.2.userId) := by
  unfold World.submitPressed at h
  split_ifs at h with hp
  split at h <;> rename_i hs <;> obtain rfl := Option.some.inj h
  · rcases List.mem_append.mp hx with hx | hx
    · exact Or.inl hx
    · obtain rfl := List.mem_singleton.mp hx
      obtain ⟨-, hcat, hne, huser⟩ := AddPostController.submitPressed_ok hs
      exact Or.inr ⟨hcat ▸ hp.2.resolve_left hne, huser⟩
  · exact Or.inl hx
  · exact Or.inl hx

section Flow

variable {a : Action} {asked : List (ℕ × Submission)} {uploading : List (ℕ × Submission × Node)}
  {ids : List String} {qs : List Post} (h : Flow w c a asked uploading ids qs)
include h

theorem Flow.of_asked {x : ℕ × Submission} (hx : x ∈ asked) :
    x ∈ w.asked ∨ ∃ form postId, a = .submitPressed form postId := by
  cases h with
  | @ask form s hs huser => exact Or.inr ⟨form, s.postId, rfl⟩
  | drop _ _ => exact Or.inl (List.mem_of_mem_eraseIdx hx)
  | upload _ _ => exact Or.inl (List.mem_of_mem_eraseIdx hx)
  | _ => exact Or.inl hx

theorem Flow.of_uploading {x : ℕ × Submission × Node} (hx : x ∈ uploading) :
    x ∈ w.uploading ∨ ∃ y ∈ w.asked, y.2 = x.2.1 := by
  cases h with
  | @upload i k jpeg y db hy hv =>
      rcases List.mem_append.mp hx with hx | hx
      · exact Or.inl hx
      · obtain rfl := List.mem_singleton.mp hx
        exact Or.inr ⟨y, List.mem_of_getElem? hy, rfl⟩
  | fail _ => exact Or.inl (List.mem_of_mem_eraseIdx hx)
  | submit _ _ => exact Or.inl (List.mem_of_mem_eraseIdx hx)
  | _ => exact Or.inl hx

theorem Flow.of_submitted {post : Post} (hp : post ∈ qs) :
    ∃ x ∈ w.uploading, post.postCategory = x.2.1.postCategory ∧ post.userId = x.2.1.userId := by
  cases h with
  | @submit i metadata x q hx hq =>
      obtain rfl := List.mem_singleton.mp hp
      obtain ⟨-, hcat, huser, -⟩ := AddPostController.uploaded_eq_some hq
      exact ⟨x, List.mem_of_getElem? hx, hcat, huser⟩
  | _ => cases hp

end Flow

theorem Filed.act (h : Filed w) {a : Action} (hst : step w (.act c a) = some w') : Filed w' := by
  obtain ⟨r, hr, rfl⟩ := Option.map_eq_some_iff.mp hst
  obtain ⟨-, hr⟩ := react_eq_some hr
  have hspec := reaction_spec hr
  have hsub : w.accounts ⊆ w.accounts ++ r.accounts := List.subset_append_left _ _
  have hmem : ∀ {i : ℕ} {α : Type} {l : List α} {y : α}, y ∈ l.eraseIdx i → y ∈ l :=
    fun hy => List.mem_of_mem_eraseIdx hy
  constructor
  case user =>
    intro d uid hd
    simp only [World.apply] at hd
    rcases eq_or_ne d c with rfl | hne
    · rw [Function.update_self] at hd
      rcases hspec.user with he | he | ⟨uid', hu, he⟩
      · exact hsub (h.user d uid (he ▸ hd))
      · rw [he] at hd
        cases hd
      · rw [he] at hd
        obtain rfl := Option.some.inj hd
        exact hu
    · rw [Function.update_of_ne hne] at hd
      exact hsub (h.user d uid hd)
  case userId =>
    intro d uid hd
    simp only [World.apply] at hd
    rcases eq_or_ne d c with rfl | hne
    · rw [Function.update_self, hspec.userId] at hd
      unfold Action.userId at hd
      split at hd
      · exact hsub (h.user d uid hd)
      · exact hsub (h.userId d uid hd)
    · rw [Function.update_of_ne hne] at hd
      exact hsub (h.userId d uid hd)
  case asked =>
    intro x hx
    rcases hspec.flow.of_asked hx with hold | ⟨form, postId, rfl⟩
    · exact (h.asked x hold).mono hsub
    · rcases submitPressed_proper hr hx with hold | ⟨hcat, huser⟩
      · exact (h.asked x hold).mono hsub
      · exact ⟨hcat, hsub (h.userId c _ huser)⟩
  case uploading =>
    intro x hx
    rcases hspec.flow.of_uploading hx with hold | ⟨y, hy, he⟩
    · exact (h.uploading x hold).mono hsub
    · exact he ▸ (h.asked y hy).mono hsub
  case submitted =>
    intro post hp
    rcases List.mem_append.mp hp with hp | hp
    · exact ⟨(h.submitted post hp).1, hsub (h.submitted post hp).2⟩
    · obtain ⟨x, hx, hcat, huser⟩ := hspec.flow.of_submitted hp
      have hproper := h.uploading x hx
      exact ⟨hcat ▸ hproper.category, hsub (huser ▸ hproper.author)⟩

theorem Filed.step (h : Filed w) {e : Event} (hst : CommServe.step w e = some w') : Filed w' := by
  cases e with
  | act c a => exact h.act hst
  | deliver i =>
      obtain ⟨n, -, rfl⟩ := step_deliver hst
      exact ⟨h.user, h.userId, h.asked, h.uploading, h.submitted⟩
  | reject i =>
      obtain ⟨n, -, rfl⟩ := step_reject hst
      exact ⟨h.user, h.userId, h.asked, h.uploading, h.submitted⟩

theorem Filed.init : Filed .init where
  user c uid h := by cases h
  userId c uid h := by cases h
  asked x h := by cases h
  uploading x h := by cases h
  submitted post h := by cases h

theorem Run.filed {ok : World → Event → Prop} {es : List Event} (hr : Run CommServe.step ok .init es w) :
    Filed w :=
  hr.invariant Filed (fun _ _ _ h _ hst => h.step hst) .init

/-! ### Whose records there are -/

theorem GoodOwner.mono (h : us ⊆ us') : ∀ (k : Ref) (r : Node), GoodOwner us k r → GoodOwner us' k r
  | .users _, _, hr => hr.imp_right fun hu => h hu
  | .pinned _ _, _, hr => hr.imp_right fun hu => h hu
  | .posts _ _, _, _ => trivial
  | .completed _, _, _ => trivial

theorem OwnerWrite.mono (h : us ⊆ us') {x : DbWrite} (hx : OwnerWrite us x) : OwnerWrite us' x :=
  fun uid hk => h (hx uid hk)

theorem OwnerWrite.keeps {x : DbWrite} (hx : OwnerWrite us x) : x.Keeps (GoodOwner us) := by
  intro r _
  cases hk : x.key with
  | users uid => exact Or.inr (hx uid (Or.inl hk))
  | pinned uid p => exact Or.inr (hx uid (Or.inr ⟨p, hk⟩))
  | posts category p => trivial
  | completed p => trivial

/-- An action writes records of accounts only. -/
theorem Filed.owner_writes (hf : Filed w) {a : Action} {ws : List DbWrite} {qs : List Post}
    {as : List (String × Option String)} (h : Issues w c a ws us qs as) :
    ∀ x ∈ ws, OwnerWrite (w.accounts ++ us) x := by
  have helse : ∀ x : DbWrite, (∀ uid, x.key ≠ .users uid) → (∀ uid p, x.key ≠ .pinned uid p) →
      OwnerWrite (w.accounts ++ us) x := by
    rintro x hx hx' uid (hk | ⟨p, hk⟩)
    · exact absurd hk (hx uid)
    · exact absurd hk (hx' uid p)
  have hpin : ∀ (x : DbWrite) uid p, (w.dev c).currentUser = some uid → x.key = .pinned uid p →
      OwnerWrite (w.accounts ++ us) x := by
    rintro x uid p hu hk v (hv | ⟨q, hv⟩)
    · rw [hk] at hv
      cases hv
    · rw [hk] at hv
      obtain ⟨rfl, rfl⟩ := Ref.pinned.inj hv
      exact List.mem_append_left _ (hf.user c uid hu)
  have huser : ∀ (x : DbWrite) uid, uid ∈ w.accounts ++ us → x.key = .users uid →
      OwnerWrite (w.accounts ++ us) x := by
    rintro x uid hu hk v (hv | ⟨q, hv⟩)
    · rw [hk] at hv
      obtain rfl := Ref.users.inj hv
      exact hu
    · rw [hk] at hv
      cases hv
  have hcurrent : ∀ uid, (w.dev c).currentUser = some uid → uid ∈ w.accounts ++ us :=
    fun uid hu => List.mem_append_left _ (hf.user c uid hu)
  cases h with
  | quiet => exact List.forall_mem_nil _
  | submit hx hp hc => exact List.forall_mem_singleton.mpr (helse _ (by simp) (by simp))
  | homeUnpin hu hrow hid hsel => exact List.forall_mem_singleton.mpr (hpin _ _ _ hu rfl)
  | homePin hu hrow hurl hsel => exact List.forall_mem_singleton.mpr (hpin _ _ _ hu rfl)
  | homeCheck hu hrow hurl =>
      refine List.forall_mem_cons.mpr ⟨helse _ (by simp) (by simp), ?_⟩
      exact List.forall_mem_singleton.mpr (helse _ (by simp) (by simp))
  | pinUnpin hu hrow hid => exact List.forall_mem_singleton.mpr (hpin _ _ _ hu rfl)
  | pinPin hu hrow hurl => exact List.forall_mem_singleton.mpr (hpin _ _ _ hu rfl)
  | credit hg hfit hrow =>
      have hu := (PinController.guards_eq_some hg).1
      exact List.forall_mem_singleton.mpr (huser _ _ (hcurrent _ hu) rfl)
  | pinCheck hg hfit hrow hurl =>
      have hu := (PinController.guards_eq_some hg).1
      refine List.forall_mem_cons.mpr ⟨huser _ _ (hcurrent _ hu) rfl, ?_⟩
      refine List.forall_mem_cons.mpr ⟨helse _ (by simp) (by simp), ?_⟩
      refine List.forall_mem_cons.mpr ⟨hpin _ _ _ hu rfl, ?_⟩
      exact List.forall_mem_singleton.mpr (helse _ (by simp) (by simp))
  | @register j i uid request hu =>
      refine List.forall_mem_singleton.mpr (huser _ uid ?_ rfl)
      exact List.mem_append_right _ (List.mem_singleton_self _)
  | rename hu => exact List.forall_mem_singleton.mpr (huser _ _ (hcurrent _ hu) rfl)

/-- The invariant: the records of users, and the writes on them, are of accounts. -/
def Owned (w : World) : Prop := w.server.Sound (GoodOwner w.accounts) (OwnerWrite w.accounts)

theorem Owned.step (h : Owned w) (hf : Filed w) {e : Event} (hst : CommServe.step w e = some w') :
    Owned w' := by
  cases e with
  | act c a =>
      obtain ⟨r, hr, rfl⟩ := step_act hst
      have hsub : w.accounts ⊆ w.accounts ++ r.accounts := List.subset_append_left _ _
      have hnet : w.server.Sound (GoodOwner (w.accounts ++ r.accounts))
          (OwnerWrite (w.accounts ++ r.accounts)) :=
        Net.Sound.mono h (GoodOwner.mono hsub) fun _ hx => hx.mono hsub
      exact hnet.issue (hf.owner_writes hr.issues)
  | deliver i =>
      obtain ⟨n, hn, rfl⟩ := step_deliver hst
      exact Net.Sound.deliver (fun _ hx => hx.keeps) h hn
  | reject i =>
      obtain ⟨n, hn, rfl⟩ := step_reject hst
      exact Net.Sound.reject h hn

theorem Owned.init : Owned .init := by
  refine ⟨?_, by simp [World.init, Net.empty], by simp [World.init, Net.empty]⟩
  rintro (_ | _ | _ | _)
  · trivial
  · exact Or.inl rfl
  · trivial
  · exact Or.inl rfl

theorem Run.owned {ok : World → Event → Prop} {es : List Event} (hr : Run CommServe.step ok .init es w) :
    Owned w :=
  hr.invariant_of Filed Owned (fun _ _ _ h _ hst => h.step hst)
    (fun _ _ _ hf h _ hst => h.step hf hst) .init .init

/-! ### Every run -/

theorem Filed.resolves (hf : Filed w) {post : Post} (hp : post ∈ w.submitted) {p : String} {r : Node}
    (hcopy : CopyOf post p r) : Resolves w.accounts r where
  category := by
    refine ⟨post.postCategory, (hf.submitted post hp).1, ?_⟩
    rw [hcopy.fields _ (by decide)]
    rfl
  author := by
    refine ⟨post.userId, (hf.submitted post hp).2, ?_⟩
    rw [hcopy.fields _ (by decide)]
    rfl

/-- **References resolve**: whatever record of a post there is, its category is an option of the drop-down and
its author an account; an open post lies in the folder of its own category; and all pins and user records are
of accounts. -/
theorem references_resolve {es : List Event}
    (hr : Run CommServe.step (fun _ _ => True) .init es w) :
    (∀ k : Ref, k.IsPost → w.server.db.Present k → Resolves w.accounts (w.server.db.node k)) ∧
    (∀ category p, w.server.db.Present (.posts category p) →
      w.server.db.node (.posts category p) .postCategory = some (.str category)) ∧
    (∀ uid p, w.server.db.Present (.pinned uid p) → uid ∈ w.accounts) ∧
    (∀ uid, w.server.db.Present (.users uid) → uid ∈ w.accounts) := by
  have hf := Run.filed hr
  have hs := (Run.sound hr).stored
  refine ⟨?_, ?_, ?_, ?_⟩
  · intro k hk hpresent
    cases k with
    | users uid => exact hk.elim
    | posts category p =>
        obtain ⟨post, hp, hcopy, -⟩ := hs.posts category p hpresent
        exact hf.resolves hp hcopy
    | pinned uid p =>
        obtain ⟨post, hp, hcopy⟩ := hs.pinned uid p hpresent
        exact hf.resolves hp hcopy
    | completed p =>
        obtain ⟨post, hp, hcopy⟩ := hs.completed p hpresent
        exact hf.resolves hp hcopy
  · intro category p hpresent
    obtain ⟨post, hp, hcopy, rfl⟩ := hs.posts category p hpresent
    rw [hcopy.fields _ (by decide)]
    rfl
  · intro uid p hpresent
    exact ((Run.owned hr).db (.pinned uid p)).resolve_left hpresent.node_ne
  · intro uid hpresent
    exact ((Run.owned hr).db (.users uid)).resolve_left hpresent.node_ne

/-- A post that a user other than its author has pinned. -/
theorem references_resolve_pinned : ∃ w : World, w.server.db.Present (.pinned "v" "p") ∧
    "v" ∈ w.accounts ∧ Resolves w.accounts (w.server.db.node (.pinned "v" "p")) := by
  obtain ⟨w, hr, hpresent⟩ := exists_run_of_exec CommServe.step (fun _ _ => True) .init
    (signUpScript 0 "u" (some "me.png") ++ signUpScript 1 "v" (some "me.png") ++
      submitScript 0 "p" (some "p.png") ++ pinScript 1)
    (fun w => w.server.db.Present (.pinned "v" "p")) (by decide +kernel)
  have hrefs := references_resolve hr
  exact ⟨w, hpresent, hrefs.2.2.1 _ _ hpresent, hrefs.1 _ trivial hpresent⟩

end CommServe
