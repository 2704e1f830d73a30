import CommServe.References

/-! # Profiles

Of a user record the app changes the name and the karma.  The rest, the uid, the email, the password, the
URL of the image, the country and the phone number, is written by the `setValue` of the sign-up and by
nothing else, so it is there as a whole or not at all, it is never changed and never lost, and whatever two
devices read of it, when they read it and whatever they have in flight, is the same. -/

namespace CommServe

open RecordStore Method Sync Transition

/-- The field of a user record is written at the sign-up only. -/
def Field.Fixed (f : Field) : Prop := f ≠ .username ∧ f ≠ .karmaPoints

instance (f : Field) : Decidable f.Fixed := inferInstanceAs (Decidable (f ≠ .username ∧ f ≠ .karmaPoints))

/-- The fixed fields of the record are those of the account. -/
def Written (a : Account) (r : Node) : Prop := ∀ f : Field, f.Fixed → r f = a.record f

/-- The fixed fields of a user record are those of the sign-up, or none is there. -/
def GoodProfile (d : String → Account) : Ref → Node → Prop
  | .users uid, r => (∀ f : Field, f.Fixed → r f = none) ∨ Written (d uid) r
  | _, _ => True

/-- The write leaves the fixed fields of a user record as they are, or writes those of the sign-up. -/
def ProfileWrite (d : String → Account) (x : DbWrite) : Prop :=
  ∀ uid, x.key = .users uid →
    (∀ r : Node, ∀ f : Field, f.Fixed → x.on r f = r f) ∨ ∀ r : Node, Written (d uid) (x.on r)

/-- The invariant: every user record, and every write on one, is from the one sign-up of its uid. -/
structure Profiled (d : String → Account) (w : World) : Prop where
  uid : ∀ uid, (d uid).uid = uid
  server : w.server.Sound (GoodProfile d) (ProfileWrite d)

/-- A user record was written with the data `d` and still has them. -/
def StillWritten (d : String → Account) (w w' : World) : Prop :=
  ∀ uid, Written (d uid) (w.server.db.node (.users uid)) → Written (d uid) (w'.server.db.node (.users uid))

variable {w w' : World} {c : ℕ} {d d' : String → Account} {us : List String} {uid : String}

/-! ### Records and writes -/

theorem GoodProfile.written {r : Node} {f : Field} {v : Value} (h : GoodProfile d (.users uid) r)
    (hf : f.Fixed) (hv : r f = some v) : Written (d uid) r := by
  refine h.resolve_left ?_
  intro hnone
  have hnone := hnone f hf
  rw [hv] at hnone
  cases hnone

theorem ProfileWrite.written {x : DbWrite} (hx : ProfileWrite d x) (hk : x.key = .users uid) {r : Node}
    (h : Written (d uid) r) : Written (d uid) (x.on r) := by
  cases hx uid hk with
  | inl hsame =>
      intro f hf
      exact (hsame r f hf).trans (h f hf)
  | inr hall => exact hall r

theorem ProfileWrite.keeps {x : DbWrite} (hx : ProfileWrite d x) : x.Keeps (GoodProfile d) := by
  intro r hr
  cases hk : x.key with
  | users uid =>
      rw [hk] at hr
      cases hr with
      | inl hnone =>
          cases hx uid hk with
          | inl hsame =>
              refine Or.inl ?_
              intro f hf
              exact (hsame r f hf).trans (hnone f hf)
          | inr hall => exact Or.inr (hall r)
      | inr hwritten => exact Or.inr (hx.written hk hwritten)
  | posts category p => trivial
  | pinned uid p => trivial
  | completed p => trivial

theorem GoodProfile.congr (hd : ∀ uid ∈ us, d' uid = d uid) :
    ∀ (k : Ref) (r : Node), GoodProfile d k r ∧ GoodOwner us k r → GoodProfile d' k r
  | .users uid, r, ⟨hgood, howner⟩ => by
      cases howner with
      | inl hnone =>
          refine Or.inl ?_
          intro f _
          exact congrFun hnone f
      | inr hu =>
          show (∀ f : Field, f.Fixed → r f = none) ∨ Written (d' uid) r
          rw [hd uid hu]
          exact hgood
  | .posts _ _, _, _ => trivial
  | .pinned _ _, _, _ => trivial
  | .completed _, _, _ => trivial

theorem ProfileWrite.congr (hd : ∀ uid ∈ us, d' uid = d uid) {x : DbWrite}
    (hx : ProfileWrite d x ∧ OwnerWrite us x) : ProfileWrite d' x := by
  intro uid hk
  have hu : uid ∈ us := hx.2 uid (Or.inl hk)
  rw [hd uid hu]
  exact hx.1 uid hk

theorem profileWrite_update {values : Dict Field Value} {k : Ref}
    (h : ∀ f : Field, f.Fixed → values.lookup f = none) : ProfileWrite d (.update k values) := by
  intro uid _
  refine Or.inl ?_
  intro r f hf
  rw [Write.on_update, h f hf]
  rfl

theorem profileWrite_other {x : DbWrite} (h : ∀ uid, x.key ≠ .users uid) : ProfileWrite d x :=
  fun uid hk => absurd hk (h uid)

theorem profileWrite_name (uid name : String) : ProfileWrite d (UserInfoController.store uid name) := by
  refine profileWrite_update ?_
  intro f hf
  have hne : (f == Field.username) = false := beq_false_of_ne hf.1
  rw [List.lookup_cons, hne]
  rfl

theorem profileWrite_karma (uid : String) (point : ℤ) : ProfileWrite d (updateKarma uid point) := by
  refine profileWrite_update ?_
  intro f hf
  have hne : (f == Field.karmaPoints) = false := beq_false_of_ne hf.2
  rw [List.lookup_cons, hne]
  rfl

/-- The data of the accounts, with those of a sign-up added. -/
theorem Issues.profile {a : Action} {ws : List DbWrite} {qs : List Post}
    {as : List (String × Option String)} (h : Issues w c a ws us qs as) (hd : ∀ uid, (d uid).uid = uid) :
    ∃ d', (∀ uid, (d' uid).uid = uid) ∧ (∀ uid ∈ w.accounts, d' uid = d uid) ∧
      ∀ x ∈ ws, ProfileWrite d' x := by
  have hsame : (∀ x ∈ ws, ProfileWrite d x) → ∃ d', (∀ uid, (d' uid).uid = uid) ∧
      (∀ uid ∈ w.accounts, d' uid = d uid) ∧ ∀ x ∈ ws, ProfileWrite d' x :=
    fun hws => ⟨d, hd, fun _ _ => rfl, hws⟩
  cases h with
  | quiet => exact hsame (List.forall_mem_nil _)
  | submit hx hp hc => exact hsame (List.forall_mem_singleton.mpr (profileWrite_other (by simp)))
  | homeUnpin hu hrow hid hsel =>
      exact hsame (List.forall_mem_singleton.mpr (profileWrite_other (by simp)))
  | homePin hu hrow hurl hsel =>
      exact hsame (List.forall_mem_singleton.mpr (profileWrite_other (by simp)))
  | homeCheck hu hrow hurl =>
      refine hsame (List.forall_mem_cons.mpr ⟨profileWrite_other (by simp), ?_⟩)
      exact List.forall_mem_singleton.mpr (profileWrite_other (by simp))
  | pinUnpin hu hrow hid =>
      exact hsame (List.forall_mem_singleton.mpr (profileWrite_other (by simp)))
  | pinPin hu hrow hurl =>
      exact hsame (List.forall_mem_singleton.mpr (profileWrite_other (by simp)))
  | credit hg hfit hrow => exact hsame (List.forall_mem_singleton.mpr (profileWrite_karma _ _))
  | pinCheck hg hfit hrow hurl =>
      refine hsame (List.forall_mem_cons.mpr ⟨profileWrite_karma _ _, ?_⟩)
      refine List.forall_mem_cons.mpr ⟨profileWrite_other (by simp), ?_⟩
      refine List.forall_mem_cons.mpr ⟨profileWrite_other (by simp), ?_⟩
      exact List.forall_mem_singleton.mpr (profileWrite_other (by simp))
  | @register j i uid request hu =>
      let account : Account := SignUpController.userData request uid ((w.dev c).signUp j).profileurl
      refine ⟨Function.update d uid account, ?_, ?_, ?_⟩
      · intro v
        by_cases hv : v = uid
        · rw [hv, Function.update_self]
          rfl
        · rw [Function.update_of_ne hv]
          exact hd v
      · intro v hv
        have hne : v ≠ uid := by
          rintro rfl
          exact hu hv
        exact Function.update_of_ne hne _ _
      · refine List.forall_mem_singleton.mpr ?_
        intro v hv
        obtain rfl : uid = v := Ref.users.inj hv
        refine Or.inr ?_
        intro r f _
        rw [Function.update_self]
        exact congrFun (account.store_on r) f
  | rename hu => exact hsame (List.forall_mem_singleton.mpr (profileWrite_name _ _))

/-! ### Every step -/

theorem step_accounts {e : Event} (hst : CommServe.step w e = some w') : w.accounts ⊆ w'.accounts := by
  cases e with
  | act c a =>
      obtain ⟨r, -, rfl⟩ := step_act hst
      exact List.subset_append_left _ _
  | deliver i =>
      obtain ⟨n, -, rfl⟩ := step_deliver hst
      exact List.Subset.refl _
  | reject i =>
      obtain ⟨n, -, rfl⟩ := step_reject hst
      exact List.Subset.refl _

theorem Profiled.step (h : Profiled d w) (ho : Owned w) {e : Event}
    (hst : CommServe.step w e = some w') :
    ∃ d', (∀ uid ∈ w.accounts, d' uid = d uid) ∧ Profiled d' w' ∧ StillWritten d w w' := by
  cases e with
  | act c a =>
      obtain ⟨r, hr, rfl⟩ := step_act hst
      obtain ⟨d', hd', hacc, hws⟩ := hr.issues.profile h.uid
      refine ⟨d', hacc, ⟨hd', ?_⟩, fun _ => id⟩
      have hboth : w.server.Sound (GoodProfile d') (ProfileWrite d') :=
        (h.server.both ho).mono (GoodProfile.congr hacc) fun _ hx => ProfileWrite.congr hacc hx
      exact hboth.issue hws
  | deliver i =>
      obtain ⟨n, hn, rfl⟩ := step_deliver hst
      refine ⟨d, fun _ _ => rfl, ⟨h.uid, Net.Sound.deliver (fun _ hx => hx.keeps) h.server hn⟩, ?_⟩
      obtain ⟨x, ⟨c, hx⟩, hdb, -, -⟩ := Net.deliver_flying hn
      intro uid hwritten
      show Written (d uid) (n.db.node (.users uid))
      rw [hdb, Store.apply_node]
      split_ifs with hk
      · exact (h.server.inFlight _ hx).written hk.symm hwritten
      · exact hwritten
  | reject i =>
      obtain ⟨n, hn, rfl⟩ := step_reject hst
      refine ⟨d, fun _ _ => rfl, ⟨h.uid, Net.Sound.reject h.server hn⟩, ?_⟩
      obtain ⟨x, -, hdb, -, -⟩ := Net.reject_flying hn
      intro uid hwritten
      show Written (d uid) (n.db.node (.users uid))
      rw [hdb]
      exact hwritten

theorem Profiled.init : Profiled (fun uid => ⟨"", uid, "", "", none, "", "", 0⟩) .init := by
  refine ⟨fun _ => rfl, ?_, by simp [World.init, Net.empty], by simp [World.init, Net.empty]⟩
  intro k
  cases k with
  | users uid => exact Or.inl fun _ _ => rfl
  | posts category p => trivial
  | pinned uid p => trivial
  | completed p => trivial

/-! ### Every run -/

/-- Along a run the data of the accounts stay, and so do the records that were written with them. -/
theorem Run.profiled {ok : World → Event → Prop} {es : List Event} (hr : Run CommServe.step ok w es w')
    (h : Profiled d w) (hf : Filed w) (ho : Owned w) :
    ∃ d', Profiled d' w' ∧ (∀ uid ∈ w.accounts, d' uid = d uid) ∧
      ∀ uid ∈ w.accounts, Written (d uid) (w.server.db.node (.users uid)) →
        Written (d uid) (w'.server.db.node (.users uid)) := by
  induction hr generalizing d with
  | nil w => exact ⟨d, h, fun _ _ => rfl, fun _ _ => id⟩
  | @cons w w₁ w₂ e es _ hst _ ih =>
      obtain ⟨d₁, hd₁, h₁, hstill⟩ := h.step ho hst
      obtain ⟨d₂, h₂, hd₂, hrest⟩ := ih h₁ (hf.step hst) (ho.step hf hst)
      have hsub : w.accounts ⊆ w₁.accounts := step_accounts hst
      refine ⟨d₂, h₂, ?_, ?_⟩
      · intro uid hu
        exact (hd₂ uid (hsub hu)).trans (hd₁ uid hu)
      · intro uid hu hwritten
        have hmid := hrest uid (hsub hu)
        rw [hd₁ uid hu] at hmid
        exact hmid (hstill uid hwritten)

theorem Profiled.view (h : Profiled d w) (ho : Owned w) {c k : ℕ} {db : Database} {f : Field} {v : Value}
    (hview : w.server.view c k = some db) (hf : f.Fixed) (hv : db.node (.users uid) f = some v) :
    uid ∈ w.accounts ∧ Written (d uid) (db.node (.users uid)) := by
  have hgood : db.All (GoodProfile d) := h.server.view (fun _ hx => hx.keeps) hview
  have howner : db.All (GoodOwner w.accounts) := Net.Sound.view (fun _ hx => hx.keeps) ho hview
  refine ⟨(howner (.users uid)).resolve_left ?_, (hgood (.users uid)).written hf hv⟩
  intro hnone
  rw [hnone] at hv
  cases hv

end CommServe
