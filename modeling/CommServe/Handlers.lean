import CommServe.Models

/-! # Button handlers

A handler runs over the writes it has issued so far and the `isSelected` state of the button that
sent the tap.  `copyFields` is the block every handler of a post row starts with: eight forced
unwraps, in the order of the source.  On a row that was decoded from a stored post it can only
fail on `imageUrl` (`copyFields_ofPost`). -/

namespace CommServe

open RecordStore Method

/-- The part of a `UIButton` the handlers read. -/
structure UIButton where
  tag : ℕ
  isSelected : Bool
deriving DecidableEq, Repr

/-- What a handler has done so far. -/
structure Effects where
  isSelected : Bool
  writes : List DbWrite
deriving DecidableEq, Repr

abbrev Handler (α : Type) := Method Effects Trap α

/-- Hands a write to the database client. -/
def issue (w : DbWrite) : Handler Unit := modify fun s => { s with writes := s.writes ++ [w] }

/-- `sender.isSelected = b`. -/
def setSelected (b : Bool) : Handler Unit := modify fun s => { s with isSelected := b }

/-- `row.f!`. -/
def unwrapField (f : Field) (o : Option String) : Handler String := unwrap (.field f) o

/-- `Int.max`. -/
def maxInt : ℤ := 9223372036854775807

/-- `point + 50`, a sum of two `Int`s: it traps if it does not fit into an `Int`. -/
def addPoints (point : ℤ) : Handler ℤ :=
  unwrap .overflow (if point + 50 ≤ maxInt then some (point + 50) else none)

/-- Runs a handler on a tap. -/
def Handler.tap (h : Handler Unit) (sender : UIButton) : Except (Stop Trap) Unit × Effects :=
  h.run ⟨sender.isSelected, []⟩

/-- The writes a tap issues. -/
def Handler.writes (h : Handler Unit) (sender : UIButton) : List DbWrite := (h.tap sender).2.writes

/-- The trap a tap runs into, if any. -/
def trapOf {α σ : Type} : Except (Stop Trap) α × σ → Option Trap
  | (.error (.trapped t), _) => some t
  | _ => none

theorem not_bad_of_trapOf {α σ : Type} {bad : Trap → Prop} {x : Method σ Trap α} (hx : x.Avoids bad)
    {s : σ} {t : Trap} (ht : trapOf (x.run s) = some t) : ¬ bad t := by
  intro hbad
  have hne := hx s t hbad
  cases hrun : x.run s with
  | mk result s' =>
  rw [hrun] at hne ht
  cases result with
  | ok a => cases ht
  | error stop =>
  cases stop with
  | returned => cases ht
  | trapped reason =>
      obtain rfl := Option.some.inj ht
      exact hne rfl

/-- The eight forced unwraps `postId!`, …, `userId!` on a row. -/
def copyFields (row : UserPost) : Handler Post := do
  let postId ← unwrapField .postId row.postId
  let title ← unwrapField .postTitle row.postTitle
  let desc ← unwrapField .postDesc row.postDesc
  let postCategory ← unwrapField .postCategory row.postCategory
  let location ← unwrapField .postLocation row.postLocation
  let imageUrl ← unwrapField .imageUrl row.imageUrl
  let usrnm ← unwrapField .userName row.userName
  let userId ← unwrapField .userId row.userId
  pure ⟨postId, title, desc, postCategory, location, some imageUrl, usrnm, userId⟩

@[simp] theorem run_issue (w : DbWrite) (s : Effects) :
    (issue w).run s = (.ok (), { s with writes := s.writes ++ [w] }) := rfl

@[simp] theorem run_setSelected (b : Bool) (s : Effects) :
    (setSelected b).run s = (.ok (), { s with isSelected := b }) := rfl

@[simp] theorem run_unwrapField_some (f : Field) (x : String) (s : Effects) :
    (unwrapField f (some x)).run s = (.ok x, s) := rfl

@[simp] theorem run_unwrapField_none (f : Field) (s : Effects) :
    (unwrapField f none).run s = (.error (.trapped (.field f)), s) := rfl

theorem run_addPoints {point : ℤ} (h : point + 50 ≤ maxInt) (s : Effects) :
    (addPoints point).run s = (.ok (point + 50), s) := by
  rw [addPoints, if_pos h, run_unwrap_some]

theorem run_addPoints_overflow {point : ℤ} (h : maxInt < point + 50) (s : Effects) :
    (addPoints point).run s = (.error (.trapped .overflow), s) := by
  rw [addPoints, if_neg (not_le.mpr h), run_unwrap_none]

theorem copyFields_ofPost {post : Post} {url : String} (h : post.imageUrl = some url)
    (s : Effects) : (copyFields (UserPost.ofPost post)).run s = (.ok post, s) := by
  cases post
  obtain rfl := h
  rfl

theorem copyFields_ofPost_none {post : Post} (h : post.imageUrl = none) (s : Effects) :
    (copyFields (UserPost.ofPost post)).run s = (.error (.trapped (.field .imageUrl)), s) := by
  cases post
  obtain rfl := h
  rfl

/-- Either the row is a complete post with an image, or the block stops without an effect. -/
theorem copyFields_cases (row : UserPost) (s : Effects) :
    (∃ post url, row = UserPost.ofPost post ∧ post.imageUrl = some url ∧
      (copyFields row).run s = (.ok post, s)) ∨ (copyFields row).Stopped s := by
  obtain ⟨desc, id, title, userId, userName, category, location, imageUrl⟩ := row
  cases id with
  | none => exact Or.inr ⟨_, rfl⟩
  | some id =>
  cases title with
  | none => exact Or.inr ⟨_, rfl⟩
  | some title =>
  cases desc with
  | none => exact Or.inr ⟨_, rfl⟩
  | some desc =>
  cases category with
  | none => exact Or.inr ⟨_, rfl⟩
  | some category =>
  cases location with
  | none => exact Or.inr ⟨_, rfl⟩
  | some location =>
  cases imageUrl with
  | none => exact Or.inr ⟨_, rfl⟩
  | some url =>
  cases userName with
  | none => exact Or.inr ⟨_, rfl⟩
  | some userName =>
  cases userId with
  | none => exact Or.inr ⟨_, rfl⟩
  | some userId =>
      exact Or.inl ⟨⟨id, title, desc, category, location, some url, userName, userId⟩, url, rfl,
        rfl, rfl⟩

/-! ### The four writes on behalf of a post -/

/-- `checkRef.child(postId).updateChildValues(values)`. -/
def createCompleted (post : Post) (completedBy : String) : DbWrite :=
  .update (.completed post.postId) (post.completedValues completedBy)

/-- `favRef.child(uid).child(postId).updateChildValues(values)`. -/
def pinPost (uid : String) (post : Post) : DbWrite :=
  .update (.pinned uid post.postId) post.values

/-- `usersRef.child(uid).updateChildValues(["karmaPoints": point])`. -/
def updateKarma (uid : String) (point : ℤ) : DbWrite :=
  .update (.users uid) [(.karmaPoints, some (.int point))]

@[simp] theorem key_createCompleted (post : Post) (completedBy : String) :
    (createCompleted post completedBy).key = .completed post.postId := rfl

@[simp] theorem effect_createCompleted (post : Post) (completedBy : String) :
    (createCompleted post completedBy).effect .completedBy = some (some (.str completedBy)) := rfl

@[simp] theorem key_pinPost (uid : String) (post : Post) :
    (pinPost uid post).key = .pinned uid post.postId := rfl

theorem pinPost_injective {uid : String} {post post' : Post} (h : pinPost uid post = pinPost uid post') :
    post = post' := by
  obtain ⟨id, title, desc, category, location, imageUrl, userName, userId⟩ := post
  obtain ⟨id', title', desc', category', location', imageUrl', userName', userId'⟩ := post'
  simp only [pinPost, Post.values, Write.update.injEq, List.cons.injEq, Prod.mk.injEq,
    Option.some.injEq, Value.str.injEq, true_and, and_true] at h
  obtain ⟨-, rfl, rfl, rfl, rfl, rfl, himage, rfl, rfl⟩ := h
  cases imageUrl <;> cases imageUrl' <;> simp at himage ⊢
  exact himage

@[simp] theorem key_updateKarma (uid : String) (point : ℤ) :
    (updateKarma uid point).key = .users uid := rfl

@[simp] theorem effect_updateKarma (uid : String) (point : ℤ) :
    (updateKarma uid point).effect .karmaPoints = some (some (.int point)) := rfl

end CommServe
