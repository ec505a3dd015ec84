import UsersService.World

/-! `database.UserRepository`: the methods of `user.Repository` over the users table, one SQL
statement each (two for `Update`, which reads the clock first). A refused statement is turned
into the service's errors by looking at the driver's text, as the Go code does. Database
transport errors (a lost connection) are not modelled: the store answers every statement. -/

namespace UsersService

/-- `strings.Contains(s, substr)`. -/
def strContains (s substr : String) : Bool := s.data.tails.any (substr.data.isPrefixOf ·)

/-- The error `Create` and `Update` return for a refused statement: `ErrEmailTaken` or
`ErrNicknameTaken` when the driver's text names a unique constraint and the column, and the text
wrapped with `context` otherwise. -/
def violationErr (context : String) (v : Violation) : Err :=
  if strContains v.text "unique constraint" then
    if strContains v.text "email" then .emailTaken
    else if strContains v.text "nickname" then .nicknameTaken
    else .wrap context (.sql v.text)
  else .wrap context (.sql v.text)

/-- A repeated email or nickname is reported as taken, a repeated id as an opaque error. -/
theorem violationErr_eq (context : String) :
    violationErr context .email = .emailTaken ∧
    violationErr context .nickname = .nicknameTaken ∧
    violationErr context .pkey = .wrap context (.sql Violation.pkey.text) := by
  refine ⟨?_, ?_, ?_⟩ <;> rfl

/-- `user.Repository`, but for `List`, which reads without caching (see `UsersService.List`). -/
structure Repository where
  create : User → Prog Unit
  getByID : UUID → Prog User
  getByEmail : String → Prog User
  getByNickname : String → Prog User
  update : User → Prog Unit
  delete : UUID → Prog Unit

namespace UserRepository

/-- `Create`: `INSERT INTO users ...`. -/
def create (u : User) : Prog Unit := do
  match (← Prog.send (.insert u) : Except Violation Unit) with
  | .ok () => pure ()
  | .error v => throw (violationErr "error creating user" v)

/-- `GetByID`, `GetByEmail` and `GetByNickname`: `SELECT * FROM users WHERE <column> = $1`, with
`sql.ErrNoRows` reported as `ErrNotFound`. -/
def getBy (q : Lookup) : Prog User := do
  match (← Prog.send (.select q) : Option User) with
  | some u => pure u
  | none => throw .notFound

/-- `GetByID`. -/
def getByID (id : UUID) : Prog User := getBy (.id id)

/-- `GetByEmail`. -/
def getByEmail (email : String) : Prog User := getBy (.email email)

/-- `GetByNickname`. -/
def getByNickname (nickname : String) : Prog User := getBy (.nickname nickname)

/-- `Update`: `UPDATE users SET ... updated_at = $7 WHERE id = $8` with `time.Now()` as `$7`;
no row affected is `ErrNotFound`. -/
def update (u : User) : Prog Unit := do
  let now : Nat ← Prog.send .now
  match (← Prog.send (.update u now) : Except Violation Nat) with
  | .error v => throw (violationErr "error updating user" v)
  | .ok 0 => throw .notFound
  | .ok _ => pure ()

/-- `Delete`: `DELETE FROM users WHERE id = $1`; no row affected is `ErrNotFound`. -/
def delete (id : UUID) : Prog Unit := do
  let n : Nat ← Prog.send (.delete id)
  if n = 0 then throw .notFound

variable (w : World)

theorem run_create (u : User) :
    (create u).run w =
      match w.table.insert u with
      | .ok t => (.ok (), { w with table := t })
      | .error v => (.error (violationErr "error creating user" v), w) := by
  rcases h : w.table.insert u with v | t <;> simp [create, Call.exec, h]

theorem run_getBy (q : Lookup) :
    (getBy q).run w = ((w.table.select q).elim (.error .notFound) .ok, w) := by
  cases h : w.table.select q <;> simp [getBy, Call.exec, h]

theorem run_update (u : User) :
    (update u).run w =
      match w.table.update u (w.clock + 1) with
      | .ok (0, t) => (.error .notFound, { w with table := t, clock := w.clock + 1 })
      | .ok (_ + 1, t) => (.ok (), { w with table := t, clock := w.clock + 1 })
      | .error v => (.error (violationErr "error updating user" v), { w with clock := w.clock + 1 })
  := by
  rcases h : w.table.update u (w.clock + 1) with v | ⟨_ | n, t⟩ <;> simp [update, Call.exec, h]

theorem run_delete (i : UUID) :
    (delete i).run w =
      ((if (w.table.delete i).1 = 0 then .error .notFound else .ok ()),
        { w with table := (w.table.delete i).2 }) := by
  by_cases h : (w.table.delete i).1 = 0 <;> simp [delete, Call.exec, h]

end UserRepository

/-- `NewUserRepository(db)`. -/
def newUserRepository : Repository :=
  ⟨UserRepository.create, UserRepository.getByID, UserRepository.getByEmail,
    UserRepository.getByNickname, UserRepository.update, UserRepository.delete⟩

end UsersService
