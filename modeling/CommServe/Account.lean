import CommServe.Handlers

/-! # Creating and editing accounts

`SignUpController.submitPressed` uploads the profile image, then creates the account, then writes
the whole user record with a `setValue` whose outcome nobody looks at.  The image URL goes through
the controller's property `profileurl`, which the end of the upload sets and the record reads one
callback later.  `UserInfoController.submitPressed` uploads an image as well and then updates the
user name only.

`Account` is the complete form of a user record; `Account.record` is the node it makes. -/

namespace CommServe

open RecordStore Method

/-- A user record with all its fields; `profileurl` is there only if the upload yielded a URL. -/
structure Account where
  username : String
  uid : String
  email : String
  password : String
  profileurl : Option String
  country : String
  phone : String
  karmaPoints : ℤ
deriving DecidableEq, Repr

/-- The dictionary of a user record; a missing URL is written as null. -/
def Account.values (a : Account) : Dict Field Value :=
  [(.username, some (.str a.username)), (.uid, some (.str a.uid)), (.email, some (.str a.email)),
    (.password, some (.str a.password)), (.profileurl, a.profileurl.map .str),
    (.country, some (.str a.country)), (.phone, some (.str a.phone)),
    (.karmaPoints, some (.int a.karmaPoints))]

/-- The node of a user record. -/
def Account.record (a : Account) : Node := fun f => (a.values.lookup f).join

/-- The texts of the sign-up form. -/
structure SignUpForm where
  email : Option String
  password : Option String
  name : Option String
  country : Option String
  cellphone : Option String
deriving DecidableEq, Repr

/-- What the callbacks of one press on the sign-up form have captured. -/
structure SignUpRequest where
  email : String
  password : String
  name : String
  country : String
  cellphone : String
deriving DecidableEq, Repr

/-- A sign-up screen: its property `profileurl` and its callbacks on the way. -/
structure SignUpController where
  profileurl : Option String
  uploading : List SignUpRequest
  creating : List SignUpRequest
deriving DecidableEq, Repr

namespace SignUpController

/-- A screen that was just opened. -/
def new : SignUpController := ⟨none, [], []⟩

/-- `submitPressed`, up to the upload of the image. -/
def submitPressed (form : SignUpForm) : Option SignUpRequest := do
  let email ← form.email
  let password ← form.password
  let name ← form.name
  let country ← form.country
  let cellphone ← form.cellphone
  some ⟨email, password, name, country, cellphone⟩

/-- The record of the new account; its karma starts at 0. -/
def userData (request : SignUpRequest) (uid : String) (profileurl : Option String) : Account :=
  ⟨request.name, uid, request.email, request.password, profileurl, request.country,
    request.cellphone, 0⟩

/-- `self.ref.child("users/\(uid)").setValue(userData)`. -/
def store (account : Account) : DbWrite := .set (.users account.uid) account.values

@[simp] theorem key_store (account : Account) : (store account).key = .users account.uid := rfl

end SignUpController

/-- `usersReference.updateChildValues(["username": name])`. -/
def UserInfoController.store (uid name : String) : DbWrite :=
  .update (.users uid) [(.username, some (.str name))]

@[simp] theorem UserInfoController.key_store (uid name : String) :
    (UserInfoController.store uid name).key = .users uid := rfl

@[simp] theorem UserInfoController.effect_store (uid name : String) :
    (UserInfoController.store uid name).effect .karmaPoints = none := rfl

theorem Account.record_apply (a : Account) (f : Field) :
    a.record f = match f with
      | .username => some (.str a.username)
      | .uid => some (.str a.uid)
      | .email => some (.str a.email)
      | .password => some (.str a.password)
      | .profileurl => a.profileurl.map .str
      | .country => some (.str a.country)
      | .phone => some (.str a.phone)
      | .karmaPoints => some (.int a.karmaPoints)
      | _ => none := by
  cases f <;> rfl

/-- Setting a user record leaves nothing of the old node. -/
theorem Account.store_on (a : Account) (r : Node) : (SignUpController.store a).on r = a.record :=
  rfl

theorem Account.rename_on (a : Account) (uid name : String) :
    (UserInfoController.store uid name).on a.record = { a with username := name }.record := by
  funext f
  cases f <;> rfl

theorem Account.karma_on (a : Account) (uid : String) (point : ℤ) :
    (updateKarma uid point).on a.record = { a with karmaPoints := point }.record := by
  funext f
  cases f <;> rfl

end CommServe
