import CommServe.Transition
import CommServe.Models

/-! # The image cache

`loadImageUsingCacheWithUrlString` clears a view and fills it from `imageCache` or by a download that ends
later, whatever the view was asked for by then.  `NSCache` may drop an image at any moment, so a URL can be
downloaded many times and the downloads can overlap.

The navigation bars of all controllers share the cache.  `setupNavBarItems` makes a new title view at every
call, when the screen appears and when `appUser` is set, and never asks a view for a second image. -/

namespace CommServe

open Transition

/-- All `UIImageView`s that use `imageCache`, with images of type `ι`. -/
structure ImageViews (ι : Type) where
  imageCache : String → Option ι
  /-- The image of each view, with the URL it was set for. -/
  image : ℕ → Option (String × ι)
  /-- The data tasks that run, with the view and the URL of each. -/
  tasks : List (ℕ × String)
  crashed : Bool
  /-- History: the URL that each view was last asked to load. -/
  asked : ℕ → Option String
  /-- History: the images that were downloaded. -/
  downloaded : List (String × ι)

inductive ImageEvent (ι : Type) where
  | loadImageUsingCacheWithUrlString (k : ℕ) (urlString : String)
  /-- The `i`-th data task ends: with an error, with data that is no image, or with an image. -/
  | dataTask (i : ℕ) (result : Option (Option ι))
  /-- `NSCache` drops an image. -/
  | evict (urlString : String)

namespace ImageViews

variable {ι : Type}

def empty : ImageViews ι := ⟨fun _ => none, fun _ => none, [], false, fun _ => none, []⟩

/-- `loadImageUsingCacheWithUrlString` of view `k`; `valid` tells which strings are URLs. -/
def loadImageUsingCacheWithUrlString (valid : String → Bool) (s : ImageViews ι) (k : ℕ)
    (urlString : String) : ImageViews ι :=
  let s := { s with
    image := Function.update s.image k none
    asked := Function.update s.asked k (some urlString) }
  match s.imageCache urlString with
  | some cachedImage => { s with image := Function.update s.image k (some (urlString, cachedImage)) }
  | none =>
      -- `URLSession.shared.dataTask(with: url!)`
      if valid urlString = true then { s with tasks := s.tasks ++ [(k, urlString)] }
      else { s with crashed := true }

/-- The image `downloadedImage` of the task `x` is put into the cache and into its view. -/
def setDownloaded (s : ImageViews ι) (x : ℕ × String) (downloadedImage : ι) : ImageViews ι :=
  { s with
    imageCache := Function.update s.imageCache x.2 (some downloadedImage)
    image := Function.update s.image x.1 (some (x.2, downloadedImage))
    downloaded := s.downloaded ++ [(x.2, downloadedImage)] }

def dataTask (s : ImageViews ι) (i : ℕ) (result : Option (Option ι)) : Option (ImageViews ι) := do
  let x ← s.tasks[i]?
  let s := { s with tasks := s.tasks.eraseIdx i }
  match result with
  | some (some downloadedImage) => some (s.setDownloaded x downloadedImage)
  | _ => some s

/-- One step of the views; nothing happens after a crash. -/
def step (valid : String → Bool) (s : ImageViews ι) (e : ImageEvent ι) : Option (ImageViews ι) :=
  if s.crashed = true then none
  else match e with
    | .loadImageUsingCacheWithUrlString k urlString =>
        some (s.loadImageUsingCacheWithUrlString valid k urlString)
    | .dataTask i result => s.dataTask i result
    | .evict urlString => some { s with imageCache := Function.update s.imageCache urlString none }

/-- Every image, in the cache or in a view, was downloaded from the URL it is for. -/
structure Genuine (s : ImageViews ι) : Prop where
  imageCache : ∀ urlString image, s.imageCache urlString = some image →
    (urlString, image) ∈ s.downloaded
  image : ∀ k x, s.image k = some x → x ∈ s.downloaded

/-- Every view is empty or has an image for the URL that it was last asked to load. -/
def ShowsAsked (s : ImageViews ι) : Prop := ∀ k x, s.image k = some x → s.asked k = some x.1

/-- An image that arrives is for the URL that its view was last asked to load. -/
def Awaited (s : ImageViews ι) : ImageEvent ι → Prop
  | .dataTask i (some (some _)) => ∀ x ∈ s.tasks[i]?, s.asked x.1 = some x.2
  | _ => True

instance (s : ImageViews ι) : DecidablePred s.Awaited
  | .dataTask i (some (some _)) => inferInstanceAs (Decidable (∀ x ∈ s.tasks[i]?, s.asked x.1 = some x.2))
  | .dataTask _ (some none) | .dataTask _ none | .loadImageUsingCacheWithUrlString _ _ | .evict _ =>
    isTrue trivial

variable {valid : String → Bool} {s s' : ImageViews ι}

/-- What a load makes of the view, of the tasks and of the request: an image from the cache, or none as long
as its task runs. -/
theorem load_cases (valid : String → Bool) (s : ImageViews ι) (k : ℕ) (urlString : String) :
    ∃ image tasks crashed, s.loadImageUsingCacheWithUrlString valid k urlString =
        { s with
          image := Function.update s.image k (image.map (urlString, ·)), tasks := tasks,
          crashed := crashed, asked := Function.update s.asked k (some urlString) } ∧
      (∀ cachedImage, image = some cachedImage → s.imageCache urlString = some cachedImage) ∧
      ∀ x ∈ tasks, x ∈ s.tasks ∨ x = (k, urlString) := by
  unfold loadImageUsingCacheWithUrlString
  cases hc : s.imageCache urlString with
  | some cachedImage =>
      refine ⟨some cachedImage, s.tasks, s.crashed, ?_, fun _ h => h, fun _ => Or.inl⟩
      simp only [hc, Function.update_idem, Option.map_some]
  | none =>
      by_cases hv : valid urlString = true
      · refine ⟨none, s.tasks ++ [(k, urlString)], s.crashed, ?_, fun _ h => h, ?_⟩
        · simp only [hc, if_pos hv, Option.map_none]
        · intro x hx
          exact (List.mem_append.mp hx).imp_right List.mem_singleton.mp
      · refine ⟨none, s.tasks, true, ?_, fun _ h => h, fun _ => Or.inl⟩
        simp only [hc, if_neg hv, Option.map_none]

theorem Genuine.empty : (empty : ImageViews ι).Genuine where
  imageCache urlString image h := by cases h
  image k x h := by cases h

theorem Genuine.load (h : s.Genuine) (k : ℕ) (urlString : String) :
    (s.loadImageUsingCacheWithUrlString valid k urlString).Genuine := by
  obtain ⟨image, tasks, crashed, heq, hcached, -⟩ := load_cases valid s k urlString
  rw [heq]
  refine ⟨h.imageCache, ?_⟩
  intro j x hx
  have hx : Function.update s.image k (image.map (urlString, ·)) j = some x := hx
  by_cases hj : j = k
  · rw [hj, Function.update_self] at hx
    obtain ⟨cachedImage, hi, rfl⟩ := Option.map_eq_some_iff.mp hx
    exact h.imageCache urlString cachedImage (hcached cachedImage hi)
  · rw [Function.update_of_ne hj] at hx
    exact h.image j x hx

theorem Genuine.setDownloaded (h : s.Genuine) (x : ℕ × String) (downloadedImage : ι) :
    (s.setDownloaded x downloadedImage).Genuine := by
  constructor
  · intro urlString image hi
    have hi : Function.update s.imageCache x.2 (some downloadedImage) urlString = some image := hi
    by_cases hu : urlString = x.2
    · rw [hu, Function.update_self] at hi
      rw [hu, ← Option.some.inj hi]
      exact List.mem_append_right _ (List.mem_singleton_self _)
    · rw [Function.update_of_ne hu] at hi
      exact List.mem_append_left _ (h.imageCache urlString image hi)
  · intro k y hy
    have hy : Function.update s.image x.1 (some (x.2, downloadedImage)) k = some y := hy
    by_cases hk : k = x.1
    · rw [hk, Function.update_self] at hy
      rw [← Option.some.inj hy]
      exact List.mem_append_right _ (List.mem_singleton_self _)
    · rw [Function.update_of_ne hk] at hy
      exact List.mem_append_left _ (h.image k y hy)

theorem Genuine.step (h : s.Genuine) {e : ImageEvent ι} (hst : s.step valid e = some s') : s'.Genuine := by
  unfold ImageViews.step at hst
  split_ifs at hst
  cases e with
  | loadImageUsingCacheWithUrlString k urlString =>
      obtain rfl := Option.some.inj hst
      exact h.load k urlString
  | dataTask i result =>
      obtain ⟨x, -, hst⟩ := Option.bind_eq_some_iff.mp hst
      have hrest : Genuine { s with tasks := s.tasks.eraseIdx i } := ⟨h.imageCache, h.image⟩
      match result, hst with
      | some (some downloadedImage), hst =>
          obtain rfl := Option.some.inj hst
          exact hrest.setDownloaded x downloadedImage
      | some none, hst =>
          obtain rfl := Option.some.inj hst
          exact hrest
      | none, hst =>
          obtain rfl := Option.some.inj hst
          exact hrest
  | evict urlString =>
      obtain rfl := Option.some.inj hst
      refine ⟨?_, h.image⟩
      intro u image hu
      by_cases he : u = urlString
      · subst he
        simp at hu
      · exact h.imageCache u image (by simpa [he] using hu)

/-! ### Views that are used again -/

theorem ShowsAsked.load (h : s.ShowsAsked) (k : ℕ) (urlString : String) :
    (s.loadImageUsingCacheWithUrlString valid k urlString).ShowsAsked := by
  obtain ⟨image, tasks, crashed, heq, -, -⟩ := load_cases valid s k urlString
  rw [heq]
  intro j x hx
  have hx : Function.update s.image k (image.map (urlString, ·)) j = some x := hx
  show Function.update s.asked k (some urlString) j = some x.1
  by_cases hj : j = k
  · rw [hj, Function.update_self] at hx ⊢
    obtain ⟨cachedImage, -, rfl⟩ := Option.map_eq_some_iff.mp hx
    rfl
  · rw [Function.update_of_ne hj] at hx ⊢
    exact h j x hx

/-- An image that arrives fits if and only if it is awaited. -/
theorem showsAsked_setDownloaded (h : s.ShowsAsked) (x : ℕ × String) (downloadedImage : ι) :
    (s.setDownloaded x downloadedImage).ShowsAsked ↔ s.asked x.1 = some x.2 := by
  constructor
  · intro hs
    exact hs x.1 (x.2, downloadedImage) (by simp [setDownloaded])
  · intro hx k y hy
    have hy : Function.update s.image x.1 (some (x.2, downloadedImage)) k = some y := hy
    by_cases hk : k = x.1
    · rw [hk, Function.update_self] at hy
      rw [hk, ← Option.some.inj hy]
      exact hx
    · rw [Function.update_of_ne hk] at hy
      exact h k y hy

theorem showsAsked_step_iff (h : s.ShowsAsked) {e : ImageEvent ι} (hst : s.step valid e = some s') :
    s'.ShowsAsked ↔ s.Awaited e := by
  unfold step at hst
  split_ifs at hst
  cases e with
  | loadImageUsingCacheWithUrlString k urlString =>
      obtain rfl := Option.some.inj hst
      exact iff_of_true (h.load k urlString) trivial
  | evict urlString =>
      obtain rfl := Option.some.inj hst
      exact iff_of_true h trivial
  | dataTask i result =>
      obtain ⟨x, hx, hst⟩ := Option.bind_eq_some_iff.mp hst
      have hrest : ShowsAsked { s with tasks := s.tasks.eraseIdx i } := h
      match result, hst with
      | some (some downloadedImage), hst =>
          obtain rfl := Option.some.inj hst
          rw [showsAsked_setDownloaded hrest x downloadedImage]
          simp [Awaited, hx]
      | some none, hst =>
          obtain rfl := Option.some.inj hst
          exact iff_of_true hrest trivial
      | none, hst =>
          obtain rfl := Option.some.inj hst
          exact iff_of_true hrest trivial

/-- **The image of a view fits its URL as long as no late image arrives**: along a run every view shows
nothing or an image downloaded from the URL it was last asked to load exactly if every image that arrives is
for the URL its view was last asked to load.  What the cache holds is genuine in any case. -/
theorem views_show_asked_iff {es : List (ImageEvent ι)}
    (hr : Run (step valid) (fun _ _ => True) empty es s) :
    s.Genuine ∧
      ((∀ before later u, es = before ++ later → Run (step valid) (fun _ _ => True) empty before u →
          u.ShowsAsked) ↔ Run (step valid) Awaited empty es s) := by
  constructor
  · exact hr.invariant Genuine (fun _ _ _ h _ hst => h.step hst) .empty
  · refine hr.always_iff (fun _ => True) ShowsAsked (fun _ _ _ _ _ => trivial) ?_ trivial ?_
    · intro s e s' _ h hst
      exact showsAsked_step_iff h hst
    · intro k x hx
      cases hx

/-- A view is asked for another image while it waits for the first one, which comes too late. -/
theorem views_show_asked_iff_late : ∃ s : ImageViews ℕ, s.image 0 = some ("a", 1) ∧
    s.asked 0 = some "b" ∧ s.Genuine := by
  obtain ⟨s, hr, himage, hasked⟩ := exists_run_of_exec (step fun _ => true) (fun _ _ => True) empty
    [.loadImageUsingCacheWithUrlString 0 "a", .loadImageUsingCacheWithUrlString 0 "b",
      .dataTask 0 (some (some 1))]
    (fun s => s.image 0 = some ("a", 1) ∧ s.asked 0 = some "b") (by decide)
  obtain ⟨hgenuine, -⟩ := views_show_asked_iff hr
  exact ⟨s, himage, hasked, hgenuine⟩

end ImageViews

/-! ### The navigation bars -/

/-- The title views that `setupNavBarItems` has made so far, in all controllers; each loads its image into a
view of its own number. -/
structure NavBars (ι : Type) where
  views : ImageViews ι
  /-- `appUser` of the controller when the title view was made. -/
  titles : List (Option AppUser)

inductive NavBarEvent (ι : Type) where
  /-- `setupNavBarItems`; that of `AddPostController` is the one without the guard on the name. -/
  | setupNavBarItems (guarded : Bool) (appUser : Option AppUser)
  | dataTask (i : ℕ) (result : Option (Option ι))
  | evict (urlString : String)

namespace NavBars

variable {ι : Type}

def empty : NavBars ι := ⟨.empty, []⟩

def setupNavBarItems (valid : String → Bool) (s : NavBars ι) (guarded : Bool) (appUser : Option AppUser) :
    NavBars ι :=
  if guarded = true ∧ appUser.bind AppUser.username = none then s
  else
    { titles := s.titles ++ [appUser]
      views :=
        match appUser.bind AppUser.profileurl with
        | some profileImageUrl =>
            s.views.loadImageUsingCacheWithUrlString valid s.titles.length profileImageUrl
        | none => s.views }

/-- One step of the navigation bars; nothing happens after a crash. -/
def step (valid : String → Bool) (s : NavBars ι) : NavBarEvent ι → Option (NavBars ι)
  | .setupNavBarItems guarded appUser =>
      if s.views.crashed = true then none else some (s.setupNavBarItems valid guarded appUser)
  | .dataTask i result => (s.views.step valid (.dataTask i result)).map fun views => { s with views := views }
  | .evict urlString => (s.views.step valid (.evict urlString)).map fun views => { s with views := views }

/-- `nameLabel.text` of the `k`-th title view. -/
def nameLabel (s : NavBars ι) (k : ℕ) : Option String := s.titles[k]?.join.bind AppUser.username

/-- `profileImageView.image` of the `k`-th title view, with the URL it was downloaded from. -/
def profileImageView (s : NavBars ι) (k : ℕ) : Option (String × ι) := s.views.image k

/-- Every view was asked for the image of its user, and every task is for what its view was asked for. -/
structure Sound (s : NavBars ι) : Prop where
  genuine : s.views.Genuine
  shows : s.views.ShowsAsked
  tasks : ∀ x ∈ s.views.tasks, s.views.asked x.1 = some x.2
  asked : ∀ k appUser, s.titles[k]? = some appUser →
    s.views.asked k = appUser.bind AppUser.profileurl
  fresh : ∀ k, s.titles.length ≤ k → s.views.asked k = none

variable {valid : String → Bool} {s s' : NavBars ι}

theorem Sound.empty : (empty : NavBars ι).Sound where
  genuine := .empty
  shows k x h := by cases h
  tasks x h := by cases h
  asked k appUser h := by cases h
  fresh k _ := rfl

theorem Sound.setupNavBarItems (h : s.Sound) (guarded : Bool) (appUser : Option AppUser) :
    (s.setupNavBarItems valid guarded appUser).Sound := by
  unfold NavBars.setupNavBarItems
  split_ifs
  · exact h
  have hnew : s.views.asked s.titles.length = none := h.fresh _ (Nat.le_refl _)
  cases hurl : appUser.bind AppUser.profileurl with
  | none =>
      refine ⟨h.genuine, h.shows, h.tasks, ?_, ?_⟩
      · intro k u hu
        rcases getElem?_append_singleton hu with ⟨-, hu⟩ | ⟨rfl, rfl⟩
        · exact h.asked k u hu
        · rw [hurl]
          exact hnew
      · intro k hk
        rw [List.length_append, List.length_singleton] at hk
        exact h.fresh k (by omega)
  | some profileImageUrl =>
      have hgenuine :
          (s.views.loadImageUsingCacheWithUrlString valid s.titles.length profileImageUrl).Genuine :=
        h.genuine.load _ _
      have hshows :
          (s.views.loadImageUsingCacheWithUrlString valid s.titles.length profileImageUrl).ShowsAsked :=
        h.shows.load _ _
      obtain ⟨image, tasks, crashed, heq, -, htasks⟩ :=
        ImageViews.load_cases valid s.views s.titles.length profileImageUrl
      rw [heq] at hgenuine hshows
      simp only [heq]
      refine ⟨hgenuine, hshows, ?_, ?_, ?_⟩
      · intro x hx
        rcases htasks x hx with hx | rfl
        · have hne : x.1 ≠ s.titles.length := by
            intro he
            have hx := h.tasks x hx
            rw [he, hnew] at hx
            cases hx
          exact (Function.update_of_ne hne _ _).trans (h.tasks x hx)
        · exact Function.update_self ..
      · intro k u hu
        rcases getElem?_append_singleton hu with ⟨hk, hu⟩ | ⟨rfl, rfl⟩
        · exact (Function.update_of_ne (by omega) _ _).trans (h.asked k u hu)
        · rw [hurl]
          exact Function.update_self ..
      · intro k hk
        have hk : s.titles.length + 1 ≤ k := by simpa using hk
        exact (Function.update_of_ne (by omega) _ _).trans (h.fresh k (by omega))

theorem Sound.views (h : s.Sound) {e : ImageEvent ι} {views : ImageViews ι}
    (he : ∀ k urlString, e ≠ .loadImageUsingCacheWithUrlString k urlString)
    (hst : s.views.step valid e = some views) : Sound { s with views := views } := by
  have hawaited : s.views.Awaited e := by
    unfold ImageViews.Awaited
    split
    · intro x hx
      exact h.tasks x (List.mem_of_getElem? hx)
    · trivial
  have hshows : views.ShowsAsked := (ImageViews.showsAsked_step_iff h.shows hst).mpr hawaited
  have hrest : views.asked = s.views.asked ∧ ∀ x ∈ views.tasks, x ∈ s.views.tasks := by
    unfold ImageViews.step at hst
    split_ifs at hst
    cases e with
    | loadImageUsingCacheWithUrlString k urlString => exact absurd rfl (he k urlString)
    | evict urlString =>
        obtain rfl := Option.some.inj hst
        exact ⟨rfl, fun _ => id⟩
    | dataTask i result =>
        obtain ⟨x, -, hst⟩ := Option.bind_eq_some_iff.mp hst
        dsimp only at hst
        split at hst <;> obtain rfl := Option.some.inj hst <;>
          exact ⟨rfl, fun _ => List.mem_of_mem_eraseIdx⟩
  obtain ⟨hasked, htasks⟩ := hrest
  refine ⟨h.genuine.step hst, hshows, ?_, ?_, ?_⟩
  · intro x hx
    rw [hasked]
    exact h.tasks x (htasks x hx)
  · intro k u hu
    rw [hasked]
    exact h.asked k u hu
  · intro k hk
    rw [hasked]
    exact h.fresh k hk

theorem Sound.step (h : s.Sound) {e : NavBarEvent ι} (hst : s.step valid e = some s') : s'.Sound := by
  cases e with
  | setupNavBarItems guarded appUser =>
      unfold NavBars.step at hst
      split_ifs at hst
      obtain rfl := Option.some.inj hst
      exact h.setupNavBarItems guarded appUser
  | dataTask i result =>
      obtain ⟨views, hviews, rfl⟩ := Option.map_eq_some_iff.mp hst
      exact h.views (by simp) hviews
  | evict urlString =>
      obtain ⟨views, hviews, rfl⟩ := Option.map_eq_some_iff.mp hst
      exact h.views (by simp) hviews

/-- **The name and the picture in a navigation bar are of one user**, whatever the cache holds or drops and
in whatever order the images arrive: the picture was downloaded from the profile URL of the very user whose
name is shown. -/
theorem titles_show_one_user {es : List (NavBarEvent ι)}
    (hr : Run (step valid) (fun _ _ => True) empty es s) (k : ℕ) {x : String × ι}
    (hx : s.profileImageView k = some x) :
    ∃ user : AppUser, s.nameLabel k = user.username ∧ user.profileurl = some x.1 ∧
      x ∈ s.views.downloaded := by
  have h : s.Sound := hr.invariant Sound (fun _ _ _ h _ hst => h.step hst) .empty
  have hasked : s.views.asked k = some x.1 := h.shows k x hx
  have hlt : k < s.titles.length := by
    by_contra hk
    rw [h.fresh k (by omega)] at hasked
    cases hasked
  have htitle : s.titles[k]? = some s.titles[k] := List.getElem?_eq_getElem hlt
  obtain ⟨user, huser, hurl⟩ := Option.bind_eq_some_iff.mp ((h.asked k _ htitle).symm.trans hasked)
  refine ⟨user, ?_, hurl, h.genuine.image k x hx⟩
  rw [nameLabel, htitle, huser]
  rfl

/-- The user of the navigation bars. -/
def barUser (uid profileurl : String) : AppUser :=
  ⟨some ("name of " ++ uid), some uid, some "a@b.c", some profileurl, some "US", some "555", some 0⟩

/-- Two title views load one image at a time at which the cache has dropped it, and one of them fails. -/
theorem titles_show_one_user_evicted : ∃ (s : NavBars ℕ) (user : AppUser),
    s.profileImageView 0 = none ∧ s.nameLabel 1 = user.username ∧ user.profileurl = some "me.png" ∧
      ("me.png", 7) ∈ s.views.downloaded := by
  obtain ⟨s, hr, hnone, himage⟩ := exists_run_of_exec (step fun _ => true) (fun _ _ => True) empty
    [.setupNavBarItems true (some (barUser "u" "me.png")), .evict "me.png",
      .setupNavBarItems false (some (barUser "u" "me.png")), .dataTask 1 (some (some 7)),
      .dataTask 0 none]
    (fun s => s.profileImageView 0 = none ∧ s.profileImageView 1 = some ("me.png", 7)) (by decide)
  obtain ⟨user, hname, hurl, hdownloaded⟩ := titles_show_one_user hr 1 himage
  exact ⟨s, user, hnone, hname, hurl, hdownloaded⟩

end NavBars

end CommServe
