import CommServe.Sync
import CommServe.Method
import Mathlib.Data.List.Sort

/-! # The database tree of the app

The app keeps four trees in one realtime database:

* `posts/<category>/<postId>`, the open posts,
* `pinned/<uid>/<postId>`, the posts a user has pinned,
* `completed/<postId>`, the completed posts,
* `users/<uid>`, the user records.

`Ref` is the path of a single record, `Folder` the path of a node whose children are records.
A record is a dictionary from field names to leaf values; `updateChildValues`, `setValue` and
`removeValue` are the writes of `RecordStore`. -/

namespace CommServe

open RecordStore

/-- Field names of the stored records. -/
inductive Field where
  | postId | postTitle | postDesc | postCategory | postLocation | imageUrl | userName | userId
  | completedBy
  | username | uid | email | password | profileurl | country | phone | karmaPoints
deriving DecidableEq, Repr

/-- Every field name. -/
def Field.all : List Field :=
  [.postId, .postTitle, .postDesc, .postCategory, .postLocation, .imageUrl, .userName, .userId,
    .completedBy, .username, .uid, .email, .password, .profileurl, .country, .phone, .karmaPoints]

instance : Fintype Field := Fintype.ofList Field.all (fun f => by cases f <;> decide)

/-- Leaf values. -/
inductive Value where
  | str (s : String)
  | int (n : ℤ)
deriving DecidableEq, Repr

/-- The path of a record. -/
inductive Ref where
  | posts (category postId : String)
  | pinned (uid postId : String)
  | completed (postId : String)
  | users (uid : String)
deriving DecidableEq, Repr

/-- The path of a node whose children are records. -/
inductive Folder where
  | posts (category : String)
  | pinned (uid : String)
  | completed
  | users
deriving DecidableEq, Repr

abbrev Node := Record Field Value
abbrev Database := Store Ref Field Value
abbrev DbWrite := Write Ref Field Value
abbrev Server := Sync.Net Ref Field Value

namespace Folder

/-- `ref.child(name)`. -/
def child : Folder → String → Ref
  | posts c, p => .posts c p
  | pinned u, p => .pinned u p
  | completed, p => .completed p
  | users, u => .users u

/-- The last path component of a record that lies in the folder. -/
def name : Folder → Ref → Option String
  | posts c, .posts c' p => if c' = c then some p else none
  | pinned u, .pinned u' p => if u' = u then some p else none
  | completed, .completed p => some p
  | users, .users u => some u
  | _, _ => none

@[simp] theorem name_child (d : Folder) (p : String) : d.name (d.child p) = some p := by
  cases d <;> simp [name, child]

end Folder

/-- The children of a folder in key order, each with its record. -/
def children (db : Database) (d : Folder) : List (String × Node) :=
  ((((db.keys.filterMap d.name).dedup).filter (fun p => decide (db.Present (d.child p)))).insertionSort
    (· ≤ ·)).map (fun p => (p, db.node (d.child p)))

theorem mem_children {db : Database} {d : Folder} {p : String} {r : Node} :
    (p, r) ∈ children db d ↔ db.Present (d.child p) ∧ r = db.node (d.child p) := by
  simp only [children, List.mem_map, List.mem_insertionSort, List.mem_filter, List.mem_dedup,
    List.mem_filterMap, decide_eq_true_eq, Prod.mk.injEq]
  constructor
  · rintro ⟨q, ⟨-, hq⟩, rfl, rfl⟩
    exact ⟨hq, rfl⟩
  · rintro ⟨hp, rfl⟩
    exact ⟨p, ⟨⟨d.child p, hp.mem_keys, d.name_child p⟩, hp⟩, rfl, rfl⟩

/-- The observers of the lists rebuild an array by decoding one child after the other; whatever
the order they keep, a row of the array is a decoded child. -/
theorem mem_of_rebuild {α β : Type} {decode : α → Option β} {push : List β → β → List β}
    (hpush : ∀ l b x, x ∈ push l b → x = b ∨ x ∈ l) {snapshot : List α} {start rows : List β}
    (h : snapshot.foldlM (fun acc child => do let b ← decode child; some (push acc b)) start =
      some rows) {row : β} (hrow : row ∈ rows) :
    row ∈ start ∨ ∃ child ∈ snapshot, decode child = some row := by
  induction snapshot generalizing start with
  | nil =>
      obtain rfl := Option.some.inj h
      exact Or.inl hrow
  | cons child snapshot ih =>
      rw [List.foldlM_cons] at h
      obtain ⟨acc, hacc, h⟩ := Option.bind_eq_some_iff.mp h
      obtain ⟨b, hb, hacc⟩ := Option.bind_eq_some_iff.mp hacc
      obtain rfl := Option.some.inj hacc
      rcases ih h with hmem | ⟨child', hmem, hd⟩
      · rcases hpush _ _ _ hmem with rfl | hmem
        · exact Or.inr ⟨child, List.mem_cons_self, hb⟩
        · exact Or.inl hmem
      · exact Or.inr ⟨child', List.mem_cons_of_mem _ hmem, hd⟩

theorem rebuild_isSome {α β : Type} {decode : α → Option β} {push : List β → β → List β}
    {snapshot : List α} (h : ∀ child ∈ snapshot, ∃ b, decode child = some b) (start : List β) :
    ∃ rows, snapshot.foldlM (fun acc child => do let b ← decode child; some (push acc b)) start =
      some rows := by
  induction snapshot generalizing start with
  | nil => exact ⟨start, rfl⟩
  | cons child snapshot ih =>
      obtain ⟨b, hb⟩ := h child List.mem_cons_self
      obtain ⟨rows, hrows⟩ := ih (fun c hc => h c (List.mem_cons_of_mem _ hc)) (push start b)
      refine ⟨rows, ?_⟩
      rw [List.foldlM_cons, hb]
      exact hrows

theorem mem_append_singleton {β : Type} {l : List β} {b x : β} (h : x ∈ l ++ [b]) : x = b ∨ x ∈ l :=
  (List.mem_append.mp h).symm.imp_left List.mem_singleton.mp

theorem getElem?_append_singleton {β : Type} {l : List β} {b x : β} {k : ℕ}
    (h : (l ++ [b])[k]? = some x) : (k < l.length ∧ l[k]? = some x) ∨ (k = l.length ∧ x = b) := by
  rw [List.getElem?_append] at h
  split_ifs at h with hk
  · exact Or.inl ⟨hk, h⟩
  · obtain ⟨hlt, -⟩ := List.getElem?_eq_some_iff.mp h
    rw [List.length_singleton] at hlt
    have hk0 : k = l.length := by omega
    subst hk0
    have hx : b = x := by simpa using h
    exact Or.inr ⟨rfl, hx.symm⟩

/-! ### Casts of a stored leaf -/

/-- Reasons for which a handler traps. -/
inductive Trap where
  | field (f : Field)
  | currentUser
  | userId
  | subscript
  | overflow
deriving DecidableEq, Repr

/-- `value["f"] as! String!`: an absent key gives `nil`, a leaf of another type traps. -/
def castString : Option Value → Option (Option String)
  | none => some none
  | some (.str s) => some (some s)
  | some (.int _) => none

/-- `value["f"] as! Int!`. -/
def castInt : Option Value → Option (Option ℤ)
  | none => some none
  | some (.int n) => some (some n)
  | some (.str _) => none

/-- `data["f"] as? String`. -/
def asString : Option Value → Option String
  | some (.str s) => some s
  | _ => none

/-- `data["f"] as? Int`. -/
def asInt : Option Value → Option ℤ
  | some (.int n) => some n
  | _ => none

@[simp] theorem castString_none : castString none = some none := rfl
@[simp] theorem castString_str (s : String) : castString (some (.str s)) = some (some s) := rfl
@[simp] theorem castInt_int (n : ℤ) : castInt (some (.int n)) = some (some n) := rfl

@[simp] theorem castString_map_str (o : Option String) : castString (o.map .str) = some o := by
  cases o <;> rfl

@[simp] theorem asString_str (s : String) : asString (some (.str s)) = some s := rfl
@[simp] theorem asInt_int (n : ℤ) : asInt (some (.int n)) = some n := rfl

theorem asString_eq_some {v : Option Value} {s : String} (h : asString v = some s) : v = some (.str s) := by
  cases v with
  | none => cases h
  | some x =>
  cases x with
  | str t =>
      obtain rfl := Option.some.inj h
      rfl
  | int n => cases h

theorem asInt_eq_some {v : Option Value} {n : ℤ} (h : asInt v = some n) : v = some (.int n) := by
  cases v with
  | none => cases h
  | some x =>
  cases x with
  | int m =>
      obtain rfl := Option.some.inj h
      rfl
  | str t => cases h

end CommServe
