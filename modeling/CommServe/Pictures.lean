import CommServe.Feed
import CommServe.Pinned
import CommServe.Lists

/-! # The pictures of the tables

The Home feed uses its cells again, and its pictures can end up in the wrong one.  `cellForRowAt` of the
Pinned and of the Completed list loads pictures in the same way but makes a new cell for every row, also for
a row that is on the screen already. -/

namespace CommServe

open RecordStore Method Transition Cells

/-- What two table controllers with pictures differ in. -/
structure PictureTable (α β : Type) where
  viewDidAppear : List (String × Node) → Option (List α)
  cellForRowAt : List α → ℕ → Handler β
  /-- The URL of the image that a cell loads. -/
  image : β → Option String

def PinController.pictures : PictureTable UserPost PostRow where
  viewDidAppear := PinController.viewDidAppear
  cellForRowAt := PinController.cellForRowAt
  image := PostRow.image

def CheckedController.pictures : PictureTable CheckPost CompletedRow where
  viewDidAppear := CheckedController.viewDidAppear
  cellForRowAt := CheckedController.cellForRowAt
  image := CompletedRow.image

/-- A table on the screen; its cells are numbered in the order in which they are made. -/
structure PictureRows (α β : Type) where
  rows : List α
  cells : List β
  album : Album String
  crashed : Bool

inductive PictureEvent where
  | viewDidAppear (snapshot : List (String × Node))
  | cellForRowAt (row : ℕ)
  /-- The closure of the `i`-th `getImageFromWeb`; it may get no image. -/
  | getImageFromWeb (i : ℕ) (image : Bool)

namespace PictureTable

variable {α β : Type} (T : PictureTable α β)

def opened : PictureRows α β := ⟨[], [], .empty, false⟩

def react (s : PictureRows α β) : PictureEvent → Option (PictureRows α β)
  | .viewDidAppear snapshot =>
      match T.viewDidAppear snapshot with
      | some rows => some { s with rows := rows }
      | none => some { s with crashed := true }
  | .cellForRowAt row =>
      match ((T.cellForRowAt s.rows row).run ⟨false, []⟩).1 with
      | .ok cell => some { s with
          cells := s.cells ++ [cell]
          album := s.album.configure s.cells.length (T.image cell) }
      | .error _ => some { s with crashed := true }
  | .getImageFromWeb i image => (s.album.finish i image).map fun album => { s with album := album }

/-- One step of the table; nothing happens after a crash. -/
def step (s : PictureRows α β) (e : PictureEvent) : Option (PictureRows α β) :=
  if s.crashed = true then none else T.react s e

/-- Every cell shows no picture yet or the one of its row, and the one of its row once that has arrived. -/
def ShowsOwn (s : PictureRows α β) : Prop :=
  ∀ k cell, s.cells[k]? = some cell →
    (s.album.shown k = none ∨ s.album.shown k = T.image cell) ∧
      (s.album.arrived k = true → s.album.shown k = T.image cell)

/-- Every cell wants the picture of its row, and nothing is known of cells to come. -/
structure Sound (s : PictureRows α β) : Prop where
  faithful : s.album.Faithful
  wanted : ∀ k cell, s.cells[k]? = some cell → s.album.wanted k = T.image cell
  fresh : ∀ k, s.cells.length ≤ k → s.album.shown k = none ∧ s.album.wanted k = none

variable {T} {s s' : PictureRows α β}

theorem Sound.opened : T.Sound opened where
  faithful := .empty
  wanted k cell h := by cases h
  fresh k _ := ⟨rfl, rfl⟩

theorem Sound.showsOwn (h : T.Sound s) : T.ShowsOwn s := by
  intro k cell hcell
  have hown := h.faithful.own k
  rw [← h.wanted k cell hcell]
  exact ⟨hown.shown, hown.arrived⟩

/-- A new cell is one that nothing is on its way to. -/
theorem Sound.cellForRowAt (h : T.Sound s) (cell : β) :
    T.Sound { s with
      cells := s.cells ++ [cell]
      album := s.album.configure s.cells.length (T.image cell) } := by
  have hloads : ∀ x ∈ s.album.loads, x.1 ≠ s.cells.length := by
    rintro x hx he
    have hwanted := h.faithful.loads x hx
    rw [he, (h.fresh _ (Nat.le_refl _)).2] at hwanted
    cases hwanted
  constructor
  · exact h.faithful.configure (h.fresh _ (Nat.le_refl _)).1 hloads _
  · intro k c hc
    cases getElem?_append_singleton hc with
    | inl hold =>
        rw [Album.wanted_configure_of_ne (Nat.ne_of_lt hold.1)]
        exact h.wanted k c hold.2
    | inr hnew =>
        rw [hnew.1, hnew.2]
        exact Album.wanted_configure_self
  · intro k hk
    rw [List.length_append, List.length_singleton] at hk
    have hne : k ≠ s.cells.length := by omega
    obtain ⟨hshown, hwanted⟩ := h.fresh k (by omega)
    constructor
    · cases hu : T.image cell <;> simpa [Album.configure, hne] using hshown
    · rw [Album.wanted_configure_of_ne hne]
      exact hwanted

theorem Sound.getImageFromWeb (h : T.Sound s) {i : ℕ} {image : Bool} {album : Album String}
    (hf : s.album.finish i image = some album) : T.Sound { s with album := album } := by
  obtain ⟨hfaithful, -⟩ := h.faithful.finish hf
  have hwanted := Album.wanted_finish hf
  refine ⟨hfaithful, ?_, ?_⟩
  · intro k cell hcell
    show album.wanted k = _
    rw [hwanted]
    exact h.wanted k cell hcell
  · intro k hk
    have hnone : album.wanted k = none := by
      rw [hwanted]
      exact (h.fresh k hk).2
    refine ⟨?_, hnone⟩
    rcases (hfaithful.own k).shown with hshown | hshown
    · exact hshown
    · exact hshown.trans hnone

theorem Sound.step (h : T.Sound s) {e : PictureEvent} (hst : T.step s e = some s') : T.Sound s' := by
  unfold PictureTable.step at hst
  split_ifs at hst
  cases e with
  | viewDidAppear snapshot =>
      simp only [PictureTable.react] at hst
      split at hst <;> obtain rfl := Option.some.inj hst <;> exact ⟨h.faithful, h.wanted, h.fresh⟩
  | cellForRowAt row =>
      simp only [PictureTable.react] at hst
      split at hst <;> obtain rfl := Option.some.inj hst
      · exact h.cellForRowAt _
      · exact ⟨h.faithful, h.wanted, h.fresh⟩
  | getImageFromWeb i image =>
      obtain ⟨album, hf, rfl⟩ := Option.map_eq_some_iff.mp hst
      exact h.getImageFromWeb hf

theorem showsOwn_run {es : List PictureEvent} (hr : Run T.step (fun _ _ => True) opened es s) :
    T.ShowsOwn s :=
  (hr.invariant T.Sound (fun _ _ _ h _ hst => h.step hst) .opened).showsOwn

end PictureTable

/-- **A row of the Pinned and of the Completed list never shows another post's picture**, in whatever order
the lists change, the rows are laid out and the pictures arrive. -/
theorem tables_show_own_pictures :
    (∀ es s, Run PinController.pictures.step (fun _ _ => True) PictureTable.opened es s →
      PinController.pictures.ShowsOwn s) ∧
    ∀ es s, Run CheckedController.pictures.step (fun _ _ => True) PictureTable.opened es s →
      CheckedController.pictures.ShowsOwn s :=
  ⟨fun _ _ hr => PictureTable.showsOwn_run hr, fun _ _ hr => PictureTable.showsOwn_run hr⟩

/-- The first row is laid out for `p`, then another pin comes before it, and the row is laid out again before
the picture of `p` has arrived. -/
theorem tables_show_own_pictures_reloaded : ∃ s : PictureRows UserPost PostRow,
    s.album.shown 0 = some "https://images/p" ∧ s.album.shown 1 = some "https://images/o" ∧
    PinController.pictures.ShowsOwn s := by
  obtain ⟨s, hr, hfirst, hsecond⟩ := exists_run_of_exec PinController.pictures.step (fun _ _ => True)
    PictureTable.opened
    [.viewDidAppear [("p", (HomeFeed.picturedPost "p").record)], .cellForRowAt 0,
      .viewDidAppear [("o", (HomeFeed.picturedPost "o").record), ("p", (HomeFeed.picturedPost "p").record)], .cellForRowAt 0,
      .getImageFromWeb 1 true, .getImageFromWeb 0 true]
    (fun s => s.album.shown 0 = some "https://images/p" ∧ s.album.shown 1 = some "https://images/o")
    (by decide)
  exact ⟨s, hfirst, hsecond, tables_show_own_pictures.1 _ s hr⟩

end CommServe
