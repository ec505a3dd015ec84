import UsersService.Uuid

/-! The data of the `user` package: a `User`, the JSON document `encoding/json` writes for it,
the kinds of change event, and the error values of the service with the text `Error()` gives.
Timestamps are instants counted in clock ticks. -/

namespace UsersService

/-- `user.User`, one row of the `users` table. -/
structure User where
  id : UUID
  firstName : String
  lastName : String
  nickname : String
  password : String
  email : String
  country : String
  createdAt : Nat
  updatedAt : Nat
  deriving DecidableEq

/-- The JSON document `json.Marshal` writes for a `User`: every field but `Password`, which is
tagged `json:"-"`. The encoder is deterministic and writes each field, so two users have
byte-identical encodings exactly when their documents are equal. -/
structure UserJson where
  id : UUID
  firstName : String
  lastName : String
  nickname : String
  email : String
  country : String
  createdAt : Nat
  updatedAt : Nat
  deriving DecidableEq

/-- `json.Marshal(u)`. -/
@[simps]
def User.marshal (u : User) : UserJson :=
  ⟨u.id, u.firstName, u.lastName, u.nickname, u.email, u.country, u.createdAt, u.updatedAt⟩

/-- `json.Unmarshal` into a zero `User`: the password stays empty. -/
@[simps]
def UserJson.unmarshal (p : UserJson) : User :=
  ⟨p.id, p.firstName, p.lastName, p.nickname, "", p.email, p.country, p.createdAt, p.updatedAt⟩

@[simp] theorem UserJson.marshal_unmarshal (p : UserJson) : p.unmarshal.marshal = p := rfl

/-- Reading a cached user back loses exactly its password. -/
@[simp] theorem User.unmarshal_marshal (u : User) :
    u.marshal.unmarshal = { u with password := "" } := rfl

@[simp] theorem User.marshal_password (u : User) (s : String) :
    { u with password := s }.marshal = u.marshal := rfl

/-- `user.Filter`: a condition on one column. -/
structure Filter where
  field : String
  value : String
  deriving DecidableEq

/-- `user.ListParams`. `Limit` and `Offset` are Go `int`s, 64 bits wide. -/
structure ListParams where
  limit : BitVec 64
  offset : BitVec 64
  filters : List Filter
  orderBy : String
  orderDesc : Bool
  deriving DecidableEq

/-- The `events.EventType` of a change. -/
inductive EventType where
  | created
  | updated
  | deleted
  deriving DecidableEq, Repr

/-- An error value. The sentinels are those of `user/errors.go`; `sql`, `redis` and `bcrypt`
carry the text of a driver's error, and `wrap c e` is `fmt.Errorf("c: %w", e)`. -/
inductive Err where
  | notFound
  | alreadyExists
  | emailTaken
  | nicknameTaken
  | validation
  | sql (text : String)
  | redis (text : String)
  | bcrypt (text : String)
  | wrap (context : String) (cause : Err)
  deriving DecidableEq, Repr

/-- `err.Error()`. -/
def Err.error : Err → String
  | .notFound => "user not found"
  | .alreadyExists => "user already exists"
  | .emailTaken => "email is already taken"
  | .nicknameTaken => "nickname is already taken"
  | .validation => "validation error"
  | .sql text | .redis text | .bcrypt text => text
  | .wrap context cause => context ++ ": " ++ cause.error

/-- `errors.Is(err, target)` for a sentinel `target`: `err` is `target` or wraps it. -/
def Err.is : Err → Err → Bool
  | .wrap _ cause, target => cause.is target
  | err, target => err == target

/-- `redis.Nil`, the error `GET` returns for an absent key. -/
def redisNil : Err := .redis "redis: nil"

end UsersService
