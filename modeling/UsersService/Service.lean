import UsersService.Cache.Decorator

/-! `user.Service`: the operations on users, over any `Repository` and the event publisher.
`CreateUser` hashes the password, stamps the user and checks that its email and nickname are
free before the store does; `UpdateUser` merges the request's non-empty fields into the stored
user; a mutation that succeeds is announced to the publisher, whose failures are only logged.
Each mutation is written as the work before its store write, then `commit`: the write and the
event. The values `uuid.New()` and `bcrypt.GenerateFromPassword` return are inputs of
`createUser`. -/

namespace UsersService

namespace Service

/-- A call to the `Publisher`; its error is only logged, so the call is all that matters. -/
def publish (kind : EventType) (u : User) : Prog Unit := Prog.send (.publish kind u)

/-- `if cond { return nil, err }`. -/
def failIf (cond : Bool) (err : Err) : Prog Unit := if cond then throw err else pure ()

/-- The end of every mutation: the store write, its error wrapped with `context`, then the
event about `user`. -/
def commit (context : String) (write : Prog Unit) (kind : EventType) (user : User) : Prog Unit := do
  wrapErr context write
  publish kind user

/-- The lookup before `UpdateUser` and `DeleteUser`: `ErrNotFound` is returned as it is, any
other error wrapped with `context`. -/
def getForChange (repo : Repository) (id : UUID) (context : String) : Prog User :=
  (repo.getByID id).tryCatch fun err =>
    if err.is .notFound then throw err else throw (.wrap context err)

/-- `CreateUser` up to the store write: hash the password, assign the id and the timestamps, and
check that no user has the email or the nickname. `id` is the value of `uuid.New()` and `hashed`
the result of `bcrypt.GenerateFromPassword` on the password. -/
def prepareUser (repo : Repository) (user : User) (id : UUID) (hashed : Except Err String) :
    Prog User := do
  let hashedPassword ← wrapErr "failed to hash password" (.done hashed)
  let createdAt : Nat ← Prog.send .now
  let updatedAt : Nat ← Prog.send .now
  let user := { user with
    id := id
    password := hashedPassword
    createdAt := createdAt
    updatedAt := updatedAt }
  failIf (← (repo.getByEmail user.email).attempt).toBool .emailTaken
  failIf (← (repo.getByNickname user.nickname).attempt).toBool .nicknameTaken
  pure user

/-- `CreateUser`. -/
def createUser (repo : Repository) (user : User) (id : UUID) (hashed : Except Err String) :
    Prog User := do
  let user ← prepareUser repo user id hashed
  commit "failed to save user" (repo.create user) .created user
  pure user

/-- `GetUser`. -/
def getUser (repo : Repository) (id : UUID) : Prog User :=
  wrapErr "failed to get user" (repo.getByID id)

/-- The merge of one profile field of `UpdateUser`: the requested value when it is non-empty
and differs. -/
def mergeField (current requested : String) : String :=
  if requested ≠ "" ∧ current ≠ requested then requested else current

/-- The check of a new email in `UpdateUser`: refused when the lookup finds another user. -/
def checkEmail (repo : Repository) (id : UUID) (email : String) : Prog Unit := do
  match ← (repo.getByEmail email).attempt with
  | .ok existingUser => failIf (existingUser.id ≠ id) .emailTaken
  | .error _ => pure ()

/-- `UpdateUser` up to the store write: read the user, merge `FirstName`, `LastName`, `Nickname`
and `Country` as they are, and take a new email once no other user has it. -/
def prepareUpdate (repo : Repository) (id : UUID) (updatedUser : User) : Prog User := do
  let user ← getForChange repo id "failed to get user for update"
  let user := { user with
    firstName := mergeField user.firstName updatedUser.firstName
    lastName := mergeField user.lastName updatedUser.lastName
    nickname := mergeField user.nickname updatedUser.nickname
    country := mergeField user.country updatedUser.country }
  if updatedUser.email ≠ "" ∧ user.email ≠ updatedUser.email then
    checkEmail repo id updatedUser.email
    pure { user with email := updatedUser.email }
  else pure user

/-- `UpdateUser`. -/
def updateUser (repo : Repository) (id : UUID) (updatedUser : User) : Prog User := do
  let user ← prepareUpdate repo id updatedUser
  commit "failed to save user changes" (repo.update user) .updated user
  pure user

/-- `DeleteUser`: the event carries the user as read before the delete. -/
def deleteUser (repo : Repository) (id : UUID) : Prog Unit := do
  let user ← getForChange repo id "failed to get user for deletion"
  commit "failed to delete user from repository" (repo.delete id) .deleted user
  pure ()

end Service

end UsersService
