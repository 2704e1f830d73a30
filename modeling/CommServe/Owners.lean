import CommServe.Reactions

/-! # Who changes a user's records

`users/<uid>` and everything under `pinned/<uid>` belong to the user `uid`.  No rule of the database keeps
others away from them; the code does, since every path to them is made with the uid of the signed-in user at
the time of the write, and a sign-up gets a uid that no account has.  So a record of `uid` changes only if,
on the way, an app with `uid` signed in pinned, unpinned or completed a post or updated the profile. -/

namespace CommServe

open RecordStore Sync Transition

/-- The record belongs to the user. -/
def Ref.BelongsTo (uid : String) : Ref → Prop
  | .users v => v = uid
  | .pinned v _ => v = uid
  | _ => False

/-- The action may write records of the signed-in user. -/
def Action.WritesOwn : Action → Prop
  | .homePin _ _ | .pinPin _ | .pinCheck _ | .userInfoUploaded _ _ => True
  | _ => False

/-- The step is no action of the user on records of the own. -/
def Elsewhere (uid : String) (w : World) : Event → Prop
  | .act c a => (w.dev c).currentUser = some uid → ¬ a.WritesOwn
  | _ => True

/-- The account exists, and no write on its records is in flight. -/
structure Undisturbed (uid : String) (w : World) : Prop where
  account : uid ∈ w.accounts
  inFlight : ∀ x, w.server.Flying x → ¬ x.key.BelongsTo uid

variable {w w' : World} {uid : String} {c : ℕ}

/-- Only the user writes the user's records. -/
theorem Issues.elsewhere {a : Action} {ws : List DbWrite} {us : List String} {qs : List Post}
    {as : List (String × Option String)} (h : Issues w c a ws us qs as) (hu : uid ∈ w.accounts)
    (he : Elsewhere uid w (.act c a)) : ∀ x ∈ ws, ¬ x.key.BelongsTo uid := by
  have hother : ∀ v, (w.dev c).currentUser = some v → a.WritesOwn → v ≠ uid := by
    rintro v hv ha rfl
    exact he hv ha
  cases h with
  | quiet => simp
  | submit hx hp hc => simp [AddPostController.store, Ref.BelongsTo]
  | homeUnpin hv hrow hid hsel => simpa [Ref.BelongsTo] using hother _ hv trivial
  | homePin hv hrow hurl hsel => simpa [Ref.BelongsTo] using hother _ hv trivial
  | homeCheck hv hrow hurl => simp [Ref.BelongsTo]
  | pinUnpin hv hrow hid => simpa [Ref.BelongsTo] using hother _ hv trivial
  | pinPin hv hrow hurl => simpa [Ref.BelongsTo] using hother _ hv trivial
  | credit hg hfit hrow =>
      simpa [Ref.BelongsTo] using hother _ (PinController.guards_eq_some hg).1 trivial
  | pinCheck hg hfit hrow hurl =>
      simpa [Ref.BelongsTo] using hother _ (PinController.guards_eq_some hg).1 trivial
  | @register j i v request hv =>
      have hne : v ≠ uid := by
        rintro rfl
        exact hv hu
      simpa [Ref.BelongsTo, SignUpController.userData] using hne
  | rename hv => simpa [Ref.BelongsTo] using hother _ hv trivial

theorem Undisturbed.step (h : Undisturbed uid w) {e : Event} (he : Elsewhere uid w e)
    (hst : CommServe.step w e = some w') : Undisturbed uid w' ∧
      ∀ k : Ref, k.BelongsTo uid → w'.server.db.node k = w.server.db.node k := by
  cases e with
  | act c a =>
      obtain ⟨r, hr, rfl⟩ := step_act hst
      refine ⟨⟨List.mem_append_left _ h.account, ?_⟩, fun _ _ => rfl⟩
      intro x hx
      rcases Net.flying_issue.mp hx with hx | hx
      · exact h.inFlight x hx
      · exact hr.issues.elsewhere h.account he x hx
  | deliver i =>
      obtain ⟨n, hn, rfl⟩ := step_deliver hst
      obtain ⟨x, hx, hdb, hsub, -⟩ := Net.deliver_flying hn
      refine ⟨⟨h.account, fun y hy => h.inFlight y (hsub y hy)⟩, ?_⟩
      intro k hk
      have hne : k ≠ x.key := by
        rintro rfl
        exact h.inFlight x hx hk
      rw [hdb, Store.apply_node_ne _ hne]
  | reject i =>
      obtain ⟨n, hn, rfl⟩ := step_reject hst
      obtain ⟨x, -, hdb, hsub, -⟩ := Net.reject_flying hn
      refine ⟨⟨h.account, fun y hy => h.inFlight y (hsub y hy)⟩, ?_⟩
      intro k _
      rw [hdb]

theorem Undisturbed.run {t : World} {es : List Event} (h : Undisturbed uid w)
    (hr : Run CommServe.step (fun s e => Elsewhere uid s e) w es t) :
    ∀ k : Ref, k.BelongsTo uid → t.server.db.node k = w.server.db.node k := by
  have hinv := hr.invariant (fun s => Undisturbed uid s ∧
    ∀ k : Ref, k.BelongsTo uid → s.server.db.node k = w.server.db.node k) ?_ ⟨h, fun _ _ => rfl⟩
  · exact hinv.2
  · rintro s e s' ⟨hs, hnode⟩ he hst
    obtain ⟨hs', hnode'⟩ := hs.step he hst
    exact ⟨hs', fun k hk => (hnode' k hk).trans (hnode k hk)⟩

end CommServe
