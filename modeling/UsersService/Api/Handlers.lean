import UsersService.Api.Errors
import UsersService.Api.List

/-! The REST `Handler` and the gRPC `UserServer` around the service, and what their answers
mean. `uuid.Parse` and gin's `ShouldBindJSON` are library code: each handler takes the id
parser as a parameter and the outcome of the binding as an input.

Every error the service returns has for cause `ErrNotFound`, `ErrEmailTaken`,
`ErrNicknameTaken` or a driver's error, whatever the store holds and whatever Redis does; so the
`ErrValidation` case of both `handleServiceError`s is never taken, and a handler answers 400 (REST)
or `InvalidArgument` (gRPC) exactly when the request itself is malformed. Given the same request,
the two front-ends run the same program on the world and answer alike. -/

namespace UsersService

open Prog

/-! ### The errors the service returns -/

/-- An error whose cause is one the service's code paths return: one of the three sentinels
it uses, or a driver's error. -/
def Err.Reported (e : Err) : Prop :=
  match e.cause with
  | .notFound | .emailTaken | .nicknameTaken | .sql _ | .redis _ | .bcrypt _ => True
  | _ => False

theorem Err.is_eq_cause (e t : Err) : e.is t = (e.cause == t) := by
  induction e with
  | wrap _ cause ih => exact ih
  | _ => rfl

/-- A reported error is never answered as invalid input. -/
theorem Err.Reported.kind_ne {e : Err} (h : e.Reported) : e.kind ≠ .invalid := by
  unfold Err.Reported at h
  simp only [Err.kind, Err.is_eq_cause]
  split at h <;> simp_all

theorem violationErr_reported (context : String) (v : Violation) : (violationErr context v).Reported := by
  unfold violationErr
  split_ifs <;> trivial

/-- Every error a run of `p` can end in, from any world, satisfies `P`. -/
def Prog.ErrorsIn {α : Type} (P : Err → Prop) (p : Prog α) : Prop :=
  ∀ w e w', p.run w = (.error e, w') → P e

namespace Prog.ErrorsIn

variable {α β : Type} {P Q : Err → Prop}

theorem done {r : Except Err α} (hr : ∀ e, r = .error e → P e) : ErrorsIn P (Prog.done r) :=
  fun _ e _ h => hr e (Prod.mk.inj h).1

theorem pure (a : α) : ErrorsIn P (Pure.pure a : Prog α) := done fun _ h => nomatch h

theorem throw {e : Err} (he : P e) : ErrorsIn P (MonadExcept.throw e : Prog α) :=
  done fun _ h => Except.error.inj h ▸ he

theorem send (c : Call) : ErrorsIn P (Prog.send c) := fun _ _ _ h => nomatch (Prod.mk.inj h).1

theorem attempt (p : Prog α) : ErrorsIn P p.attempt := fun _ _ _ h => by
  rw [run_attempt] at h
  exact nomatch (Prod.mk.inj h).1

theorem bind {p : Prog α} {f : α → Prog β} (hp : ErrorsIn P p) (hf : ∀ a, ErrorsIn P (f a)) :
    ErrorsIn P (p >>= f) := fun _ _ _ h =>
  (run_bind_eq_error h).elim (hp _ _ _) fun ⟨a, _, _, h⟩ => hf a _ _ _ h

/-- The handler sees only errors of `p`. -/
theorem tryCatch {p : Prog α} {h : Err → Prog α} (hp : ErrorsIn Q p)
    (hh : ∀ e, Q e → ErrorsIn P (h e)) : ErrorsIn P (p.tryCatch h) := by
  intro w e w' hrun
  rw [run_tryCatch] at hrun
  rcases hr : p.run w with ⟨e₀ | a, w₁⟩ <;> rw [hr] at hrun
  · exact hh e₀ (hp _ _ _ hr) _ _ _ hrun
  · cases hrun

theorem wrapErr {p : Prog α} (hp : ErrorsIn Err.Reported p) (context : String) :
    ErrorsIn Err.Reported (UsersService.wrapErr context p) :=
  hp.tryCatch fun _ he => throw he

end Prog.ErrorsIn


theorem failIf_errorsIn (cond : Bool) {err : Err} (h : err.Reported) :
    (Service.failIf cond err).ErrorsIn Err.Reported := by
  unfold Service.failIf
  split
  exacts [ErrorsIn.throw h, ErrorsIn.pure _]

theorem execPipeline_errorsIn (cmds : List RedisCmd) : (execPipeline cmds).ErrorsIn Err.Reported := by
  intro w e w' h
  rw [run_execPipeline] at h
  split at h
  · exact nomatch (Prod.mk.inj h).1
  · rw [← Except.error.inj (Prod.mk.inj h).1]
    trivial

theorem getBy_errorsIn (q : Lookup) : (UserRepository.getBy q).ErrorsIn Err.Reported := by
  intro w e w' h
  rw [UserRepository.run_getBy] at h
  rcases hs : w.table.select q with _ | _ <;> simp only [hs, Option.elim_none, Option.elim_some] at h
  · rw [← Except.error.inj (Prod.mk.inj h).1]
    trivial
  · exact nomatch (Prod.mk.inj h).1

/-- A read through the decorator: a failed cache read is a miss, so only the store's and the
cache write's errors come out. -/
theorem decoratorRead_errorsIn (key : String) (q : Lookup) :
    (CacheDecorator.getBy key (UserRepository.getBy q)).ErrorsIn Err.Reported :=
  (ErrorsIn.attempt _).bind fun r => by
    cases r with
    | ok => exact ErrorsIn.pure _
    | error => exact (getBy_errorsIn q).bind fun _ =>
        (((execPipeline_errorsIn _).wrapErr _).wrapErr _).bind fun _ => ErrorsIn.pure _

theorem create_errorsIn (u : User) : (production.create u).ErrorsIn Err.Reported := by
  refine (?_ : (UserRepository.create u).ErrorsIn _).bind fun _ =>
    ((execPipeline_errorsIn _).wrapErr _).wrapErr _
  intro w e w' h
  rw [UserRepository.run_create] at h
  split at h
  · exact nomatch (Prod.mk.inj h).1
  · rw [← Except.error.inj (Prod.mk.inj h).1]
    exact violationErr_reported _ _

theorem update_errorsIn (u : User) : (UserRepository.update u).ErrorsIn Err.Reported := by
  intro w e w' h
  rw [UserRepository.run_update] at h
  split at h
  · rw [← Except.error.inj (Prod.mk.inj h).1]
    trivial
  · exact nomatch (Prod.mk.inj h).1
  · rw [← Except.error.inj (Prod.mk.inj h).1]
    exact violationErr_reported _ _

theorem delete_errorsIn (i : UUID) : (UserRepository.delete i).ErrorsIn Err.Reported := by
  intro w e w' h
  rw [UserRepository.run_delete] at h
  split_ifs at h
  · rw [← Except.error.inj (Prod.mk.inj h).1]
    trivial
  · exact nomatch (Prod.mk.inj h).1

theorem commit_errorsIn {write : Prog Unit} (hw : write.ErrorsIn Err.Reported) (context : String)
    (kind : EventType) (u : User) : (Service.commit context write kind u).ErrorsIn Err.Reported :=
  (hw.wrapErr context).bind fun _ => ErrorsIn.send _

theorem getForChange_errorsIn (id : UUID) (context : String) :
    (Service.getForChange production id context).ErrorsIn Err.Reported :=
  (decoratorRead_errorsIn _ (.id id)).tryCatch fun _ he => by
    split
    exacts [ErrorsIn.throw he, ErrorsIn.throw he]

theorem prepareUpdate_errorsIn (id : UUID) (updatedUser : User) :
    (Service.prepareUpdate production id updatedUser).ErrorsIn Err.Reported :=
  (getForChange_errorsIn _ _).bind fun _ => by
    dsimp only
    split
    · refine ((ErrorsIn.attempt _).bind fun r => ?_).bind fun _ => ErrorsIn.pure _
      cases r
      exacts [ErrorsIn.pure _, failIf_errorsIn _ (by trivial)]
    · exact ErrorsIn.pure _

/-- `CreateUser`, when bcrypt fails only with its own errors. -/
theorem createUser_errorsIn (user : User) (id : UUID) {hashed : Except Err String}
    (hhash : ∀ e, hashed = .error e → ∃ text, e = .bcrypt text) :
    (Service.createUser production user id hashed).ErrorsIn Err.Reported :=
  have hread := fun q => (ErrorsIn.attempt (P := Err.Reported) (CacheDecorator.getBy (Lookup.key q) (UserRepository.getBy q)))
  (((((ErrorsIn.done fun e he => by obtain ⟨_, rfl⟩ := hhash e he; trivial).wrapErr _).bind fun _ =>
    (ErrorsIn.send _).bind fun _ => (ErrorsIn.send _).bind fun _ => (hread (.email _)).bind fun _ =>
      (failIf_errorsIn _ (by trivial)).bind fun _ => (hread (.nickname _)).bind fun _ =>
        (failIf_errorsIn _ (by trivial)).bind fun _ => ErrorsIn.pure _)).bind fun u =>
    (commit_errorsIn (create_errorsIn u) _ _ _).bind fun _ => ErrorsIn.pure _)

theorem getUser_errorsIn (id : UUID) : (Service.getUser production id).ErrorsIn Err.Reported :=
  (decoratorRead_errorsIn _ (.id id)).wrapErr _

/-- The decorator's `Update` reads and writes the store itself, then invalidates and refills the
cache. -/
theorem decoratorUpdate_errorsIn (u : User) : (production.update u).ErrorsIn Err.Reported :=
  (getBy_errorsIn _).bind fun _ => (update_errorsIn u).bind fun _ =>
    (((execPipeline_errorsIn _).wrapErr _).wrapErr _).bind fun _ => (getBy_errorsIn _).bind fun _ =>
      ((execPipeline_errorsIn _).wrapErr _).wrapErr _

theorem decoratorDelete_errorsIn (id : UUID) : (production.delete id).ErrorsIn Err.Reported :=
  (getBy_errorsIn _).bind fun _ => (delete_errorsIn id).bind fun _ =>
    ((execPipeline_errorsIn _).wrapErr _).wrapErr _

theorem updateUser_errorsIn (id : UUID) (updatedUser : User) :
    (Service.updateUser production id updatedUser).ErrorsIn Err.Reported :=
  (prepareUpdate_errorsIn id updatedUser).bind fun u =>
    (commit_errorsIn (decoratorUpdate_errorsIn u) _ _ _).bind fun _ => ErrorsIn.pure _

theorem deleteUser_errorsIn (id : UUID) :
    (Service.deleteUser production id).ErrorsIn Err.Reported :=
  (getForChange_errorsIn id _).bind fun _ =>
    (commit_errorsIn (decoratorDelete_errorsIn id) _ _ _).bind fun _ => ErrorsIn.pure _

theorem listUsers_reported {t : Table} {params : ListParams} {answer : Except Err (List User × BitVec 64)}
    (hanswer : UserRepository.ListAnswer t (Service.sanitize params) answer) {e : Err}
    (h : Service.listUsers (fun _ => answer) params = .error e) : e.Reported := by
  unfold Service.listUsers at h
  rcases answer with err | _
  · obtain ⟨-, _, rfl⟩ | ⟨-, -, _, rfl⟩ := hanswer <;> cases h <;> trivial
  · cases h

/-- An error the service returns is answered neither 400 nor `InvalidArgument`. -/
theorem Err.Reported.not_invalid {e : Err} (h : e.Reported) :
    (Rest.handleServiceError e).1 ≠ 400 ∧ (Grpc.handleServiceError e).1 ≠ .invalidArgument := by
  have := h.kind_ne
  constructor <;> cases hk : e.kind <;> simp_all [Rest.handleServiceError, Grpc.handleServiceError]

/-- Whatever the store holds and whatever Redis does with each round trip, every error that
`CreateUser` (when bcrypt fails only with its own errors), `GetUser`, `UpdateUser`, `DeleteUser`
and `ListUsers` (over any answer the database may give) return has for cause `ErrNotFound`,
`ErrEmailTaken`, `ErrNicknameTaken` or a driver's error. So neither handler ever answers a
service error with 400 or `InvalidArgument`: the `ErrValidation` case of both
`handleServiceError`s is never taken. -/
theorem service_errors_are_reported (user : User) (id : UUID) (hashed : Except Err String)
    (hhash : ∀ e, hashed = .error e → ∃ text, e = .bcrypt text) (updatedUser : User) (t : Table)
    (params : ListParams) (answer : Except Err (List User × BitVec 64))
    (hanswer : UserRepository.ListAnswer t (Service.sanitize params) answer) :
    let P := fun e : Err => e.Reported ∧ (Rest.handleServiceError e).1 ≠ 400 ∧
      (Grpc.handleServiceError e).1 ≠ .invalidArgument
    (Service.createUser production user id hashed).ErrorsIn P ∧
      (Service.getUser production id).ErrorsIn P ∧
      (Service.updateUser production id updatedUser).ErrorsIn P ∧
      (Service.deleteUser production id).ErrorsIn P ∧
      ∀ e, Service.listUsers (fun _ => answer) params = .error e → P e := by
  have strengthen : ∀ {α : Type} {p : Prog α}, p.ErrorsIn Err.Reported →
      p.ErrorsIn fun e => e.Reported ∧ (Rest.handleServiceError e).1 ≠ 400 ∧
        (Grpc.handleServiceError e).1 ≠ .invalidArgument :=
    fun hp w e w' h => ⟨hp w e w' h, (hp w e w' h).not_invalid⟩
  exact ⟨strengthen (createUser_errorsIn user id hhash), strengthen (getUser_errorsIn id),
    strengthen (updateUser_errorsIn id updatedUser), strengthen (deleteUser_errorsIn id),
    fun e h => ⟨listUsers_reported hanswer h, (listUsers_reported hanswer h).not_invalid⟩⟩

theorem service_errors_are_reported_on_empty :
    (∀ e, (.ok "h" : Except Err String) = .error e → ∃ text, e = .bcrypt text) ∧
    UserRepository.ListAnswer World.empty.table (Service.sanitize (Rest.listParams Rest.wrappingQuery))
      (.error (.wrap "error listing users" (.sql "OFFSET must not be negative"))) ∧
    let P := fun e : Err => e.Reported ∧ (Rest.handleServiceError e).1 ≠ 400 ∧
      (Grpc.handleServiceError e).1 ≠ .invalidArgument
    (Service.createUser production alice aliceId (.ok "h")).ErrorsIn P ∧
      (Service.getUser production aliceId).ErrorsIn P ∧
      (Service.updateUser production aliceId franceRequest).ErrorsIn P ∧
      (Service.deleteUser production aliceId).ErrorsIn P ∧
      ∀ e, Service.listUsers (fun _ => .error (.wrap "error listing users"
        (.sql "OFFSET must not be negative"))) (Rest.listParams Rest.wrappingQuery) = .error e → P e :=
  have hanswer : UserRepository.ListAnswer World.empty.table
      (Service.sanitize (Rest.listParams Rest.wrappingQuery))
      (.error (.wrap "error listing users" (.sql "OFFSET must not be negative"))) :=
    .inr ⟨by decide, Option.isNone_iff_eq_none.mp (by decide), _, rfl⟩
  ⟨(fun _ h => nomatch h), hanswer,
    service_errors_are_reported alice aliceId (.ok "h") (fun _ h => nomatch h) franceRequest _ _ _
      hanswer⟩

/-! ### The handlers -/

/-- `uuid.Nil`, the id of a `user.User` a handler builds from a request. -/
def UUID.nil : UUID := ⟨List.replicate 16 0, rfl⟩

namespace Rest

/-- `AddUserRequest`, as `c.ShouldBindJSON` fills it. -/
structure AddUserRequest where
  firstName : String
  lastName : String
  nickname : String
  password : String
  email : String
  country : String

/-- `UpdateUserRequest`. -/
structure UpdateUserRequest where
  firstName : String
  lastName : String
  nickname : String
  email : String
  country : String

/-- The `user.User` `AddUser` hands to `CreateUser`: the request's fields, every other zero. -/
def AddUserRequest.toUser (req : AddUserRequest) : User :=
  ⟨UUID.nil, req.firstName, req.lastName, req.nickname, req.password, req.email, req.country, 0, 0⟩

/-- The `user.User` `UpdateUser` hands to the service, without a password. -/
def UpdateUserRequest.toUser (req : UpdateUserRequest) : User :=
  ⟨UUID.nil, req.firstName, req.lastName, req.nickname, "", req.email, req.country, 0, 0⟩

/-- `ListUsersResponse`. -/
structure ListUsersResponse where
  users : List UserJson
  hasMore : Bool
  totalCount : BitVec 64

/-- The body of an answer. -/
inductive Body where
  | user (doc : UserJson)
  | list (resp : ListUsersResponse)
  | error (resp : ErrorResponse)
  | empty

/-- An answer: `c.JSON(status, body)`, or `c.Status(status)` without a body. -/
structure Response where
  status : Nat
  body : Body

/-- `c.JSON(http.StatusBadRequest, ErrorResponse{Code: "bad_request", Message: message})`. -/
def badRequest (message : String) : Response := ⟨400, .error ⟨"bad_request", message⟩⟩

/-- The answer to the outcome of a service call: `onOk` of its result, or `handleServiceError`'s
answer to its error. -/
def respond {α : Type} (onOk : α → Response) : Except Err α → Response
  | .ok a => onOk a
  | .error err => ⟨(handleServiceError err).1, .error (handleServiceError err).2⟩

/-- A service call, answered. -/
def serve {α : Type} (call : Prog α) (onOk : α → Response) : Prog Response := do
  pure (respond onOk (← call.attempt))

/-- `AddUser`. `bound` is what `c.ShouldBindJSON` made of the body: the request, or its error's
text; `id` and `hashed` are what `CreateUser` gets from `uuid.New()` and bcrypt. -/
def addUser (bound : Except String AddUserRequest) (id : UUID) (hashed : Except Err String) :
    Prog Response :=
  match bound with
  | .error text => pure (badRequest text)
  | .ok req => serve (Service.createUser production req.toUser id hashed) fun u => ⟨201, .user u.marshal⟩

/-- `GetUser`; `parse` is `uuid.Parse`. -/
def getUser (parse : String → Except String UUID) (idStr : String) : Prog Response :=
  match parse idStr with
  | .error _ => pure (badRequest "Invalid user ID format")
  | .ok id => serve (Service.getUser production id) fun u => ⟨200, .user u.marshal⟩

/-- `UpdateUser`: the id is parsed before the body is bound. -/
def updateUser (parse : String → Except String UUID) (idStr : String)
    (bound : Except String UpdateUserRequest) : Prog Response :=
  match parse idStr with
  | .error _ => pure (badRequest "Invalid user ID format")
  | .ok id =>
    match bound with
    | .error text => pure (badRequest text)
    | .ok req => serve (Service.updateUser production id req.toUser) fun u => ⟨200, .user u.marshal⟩

/-- `DeleteUser`. -/
def deleteUser (parse : String → Except String UUID) (idStr : String) : Prog Response :=
  match parse idStr with
  | .error _ => pure (badRequest "Invalid user ID format")
  | .ok id => serve (Service.deleteUser production id) fun _ => ⟨204, .empty⟩

/-- `ListUsers`, over the repository's `List`. -/
def listUsers (list : ListParams → Except Err (List User × BitVec 64))
    (query : List (String × List String)) : Response :=
  respond (fun (users, hasMore, totalCount) => ⟨200, .list ⟨users.map User.marshal, hasMore, totalCount⟩⟩)
    (Service.listUsers list (listParams query))

end Rest

namespace Grpc

/-- `userpb.CreateUserRequest`. -/
structure CreateUserRequest where
  firstName : String
  lastName : String
  nickname : String
  password : String
  email : String
  country : String

/-- `userpb.UpdateUserRequest`. -/
structure UpdateUserRequest where
  id : String
  firstName : String
  lastName : String
  nickname : String
  email : String
  country : String

/-- The `user.User` `CreateUser` hands to the service. -/
def CreateUserRequest.toUser (req : CreateUserRequest) : User :=
  ⟨UUID.nil, req.firstName, req.lastName, req.nickname, req.password, req.email, req.country, 0, 0⟩

/-- The `user.User` `UpdateUser` hands to the service, without a password. -/
def UpdateUserRequest.toUser (req : UpdateUserRequest) : User :=
  ⟨UUID.nil, req.firstName, req.lastName, req.nickname, "", req.email, req.country, 0, 0⟩

/-- `userpb.User`. -/
structure ProtoUser where
  id : String
  firstName : String
  lastName : String
  nickname : String
  email : String
  country : String
  createdAt : Nat
  updatedAt : Nat
  deriving DecidableEq

/-- `toProtoUser`. -/
def toProtoUser (u : User) : ProtoUser :=
  ⟨u.id.toString, u.firstName, u.lastName, u.nickname, u.email, u.country, u.createdAt, u.updatedAt⟩

/-- `userpb.ListUsersResponse`. -/
structure ListUsersResponse where
  users : List ProtoUser
  hasMore : Bool
  totalCount : BitVec 64

/-- What a handler returns: its message, or the code and the message of a `status.Error`. -/
abbrev Reply (α : Type) := Except (Code × String) α

/-- The reply to the outcome of a service call. -/
def respond {α β : Type} (onOk : α → β) : Except Err α → Reply β
  | .ok a => .ok (onOk a)
  | .error err => .error (handleServiceError err)

/-- A service call, answered. -/
def serve {α β : Type} (call : Prog α) (onOk : α → β) : Prog (Reply β) := do
  pure (respond onOk (← call.attempt))

/-- `status.Errorf(codes.InvalidArgument, "Invalid user ID format: %v", err)`. -/
def invalidId {β : Type} (text : String) : Reply β :=
  .error (.invalidArgument, "Invalid user ID format: " ++ text)

/-- `CreateUser`; `id` and `hashed` are what `CreateUser` gets from `uuid.New()` and bcrypt. -/
def createUser (req : CreateUserRequest) (id : UUID) (hashed : Except Err String) :
    Prog (Reply ProtoUser) :=
  serve (Service.createUser production req.toUser id hashed) toProtoUser

/-- `GetUser`; `parse` is `uuid.Parse`. -/
def getUser (parse : String → Except String UUID) (id : String) : Prog (Reply ProtoUser) :=
  match parse id with
  | .error text => pure (invalidId text)
  | .ok userID => serve (Service.getUser production userID) toProtoUser

/-- `UpdateUser`. -/
def updateUser (parse : String → Except String UUID) (req : UpdateUserRequest) :
    Prog (Reply ProtoUser) :=
  match parse req.id with
  | .error text => pure (invalidId text)
  | .ok userID => serve (Service.updateUser production userID req.toUser) toProtoUser

/-- `DeleteUser`: `emptypb.Empty` on success. -/
def deleteUser (parse : String → Except String UUID) (id : String) : Prog (Reply Unit) :=
  match parse id with
  | .error text => pure (invalidId text)
  | .ok userID => serve (Service.deleteUser production userID) fun _ => ()

/-- `ListUsers`, over the repository's `List`. -/
def listUsers (list : ListParams → Except Err (List User × BitVec 64)) (req : ListUsersRequest) :
    Reply ListUsersResponse :=
  respond (fun (users, hasMore, totalCount) => ⟨users.map toProtoUser, hasMore, totalCount⟩)
    (Service.listUsers list (listParams req))

end Grpc

/-! ### What the answers mean -/

theorem Rest.run_serve {α : Type} (call : Prog α) (onOk : α → Rest.Response) (w : World) :
    (Rest.serve call onOk).run w = (.ok (Rest.respond onOk (call.run w).1), (call.run w).2) := by
  simp [Rest.serve]

theorem Grpc.run_serve {α β : Type} (call : Prog α) (onOk : α → β) (w : World) :
    (Grpc.serve call onOk).run w = (.ok (Grpc.respond onOk (call.run w).1), (call.run w).2) := by
  simp [Grpc.serve]

/-- The gRPC code matching the HTTP status of an error answer. -/
def statusCode : Nat → Option Grpc.Code
  | 400 => some .invalidArgument
  | 404 => some .notFound
  | 409 => some .alreadyExists
  | 500 => some .internal
  | _ => none

/-- The message `toProtoUser` sends for the user of a JSON document. -/
def Grpc.ProtoUser.ofDoc (doc : UserJson) : Grpc.ProtoUser :=
  ⟨doc.id.toString, doc.firstName, doc.lastName, doc.nickname, doc.email, doc.country,
    doc.createdAt, doc.updatedAt⟩

/-- A REST answer and a gRPC reply that say the same: successes whose bodies `same` relates, or
errors of matching status and code. -/
def Agree {β : Type} (same : Rest.Body → β → Prop) : Rest.Response → Grpc.Reply β → Prop
  | resp, .ok b => resp.status < 300 ∧ same resp.body b
  | resp, .error e => statusCode resp.status = some e.1

/-- Runs of a REST and a gRPC handler that end in the same world, with answers that agree. -/
def AgreeRuns {β : Type} (same : Rest.Body → β → Prop) (r : Except Err Rest.Response × World)
    (g : Except Err (Grpc.Reply β) × World) : Prop :=
  r.2 = g.2 ∧ ∃ resp reply, r.1 = .ok resp ∧ g.1 = .ok reply ∧ Agree same resp reply

/-- Both `handleServiceError`s pick the same answer. -/
theorem statusCode_handleServiceError (err : Err) :
    statusCode (Rest.handleServiceError err).1 = some (Grpc.handleServiceError err).1 := by
  unfold Rest.handleServiceError Grpc.handleServiceError
  cases err.kind <;> rfl

/-- The two front-ends' answers to one service call agree when their successes do. -/
theorem serve_agree {α β : Type} {same : Rest.Body → β → Prop} (call : Prog α)
    {onOkR : α → Rest.Response} {onOkG : α → β} (hok : ∀ a, Agree same (onOkR a) (.ok (onOkG a)))
    (w : World) : AgreeRuns same ((Rest.serve call onOkR).run w) ((Grpc.serve call onOkG).run w) := by
  rw [Rest.run_serve, Grpc.run_serve]
  refine ⟨rfl, _, _, rfl, rfl, ?_⟩
  rcases (call.run w).1 with err | a
  exacts [statusCode_handleServiceError err, hok a]

/-! ### Bad requests -/

/-- A REST handler's run that answers, with 400 exactly when `malformed`, and changes nothing
then. -/
def Rest.BadRequestIff (malformed : Prop) (w : World) : Except Err Rest.Response × World → Prop
  | (.ok resp, w') => (resp.status = 400 ↔ malformed) ∧ (malformed → w' = w)
  | (.error _, _) => False

/-- A gRPC handler's run that replies, with `InvalidArgument` exactly when `malformed`, and
changes nothing then. -/
def Grpc.InvalidIff {β : Type} (malformed : Prop) (w : World) :
    Except Err (Grpc.Reply β) × World → Prop
  | (.ok reply, w') => ((∃ message, reply = .error (.invalidArgument, message)) ↔ malformed) ∧
      (malformed → w' = w)
  | (.error _, _) => False

section BadRequest

variable {malformed : Prop} {w : World}

theorem Rest.badRequestIff_badRequest (hm : malformed) (text : String) :
    Rest.BadRequestIff malformed w ((pure (Rest.badRequest text) : Prog Rest.Response).run w) :=
  ⟨iff_of_true rfl hm, fun _ => rfl⟩

theorem Rest.badRequestIff_serve {α : Type} {call : Prog α} (hp : call.ErrorsIn Err.Reported)
    {onOk : α → Rest.Response} (hok : ∀ a, (onOk a).status ≠ 400) (hm : ¬malformed) :
    Rest.BadRequestIff malformed w ((Rest.serve call onOk).run w) := by
  rw [Rest.run_serve]
  refine ⟨iff_of_false ?_ hm, hm.elim⟩
  rcases h : call.run w with ⟨err | a, w'⟩
  exacts [(hp w err w' h).not_invalid.1, hok a]

theorem Grpc.invalidIff_invalidId {β : Type} (hm : malformed) (text : String) :
    Grpc.InvalidIff malformed w ((pure (Grpc.invalidId (β := β) text) : Prog (Grpc.Reply β)).run w) :=
  ⟨iff_of_true ⟨_, rfl⟩ hm, fun _ => rfl⟩

theorem Grpc.invalidIff_serve {α β : Type} {call : Prog α} (hp : call.ErrorsIn Err.Reported)
    (onOk : α → β) (hm : ¬malformed) : Grpc.InvalidIff malformed w ((Grpc.serve call onOk).run w) := by
  rw [Grpc.run_serve]
  refine ⟨iff_of_false ?_ hm, hm.elim⟩
  rintro ⟨message, hreply⟩
  rcases h : call.run w with ⟨err | a, w'⟩ <;> rw [h] at hreply
  · exact (hp w err w' h).not_invalid.2 (congrArg Prod.fst (Except.error.inj hreply))
  · exact nomatch hreply

end BadRequest

/-- Whatever the store holds and whatever Redis does with each round trip, when bcrypt fails
only with its own errors: the REST handlers answer 400, and the gRPC handlers
`InvalidArgument`, exactly when the request is malformed (an id `uuid.Parse` refuses, or a body
`ShouldBindJSON` refuses), and then they change nothing. gRPC `CreateUser` binds nothing and
never replies `InvalidArgument`. -/
theorem bad_request_iff_malformed (w : World) (parse : String → Except String UUID) (idStr : String)
    (id : UUID) (hashed : Except Err String) (hhash : ∀ e, hashed = .error e → ∃ text, e = .bcrypt text)
    (add : Except String Rest.AddUserRequest) (upd : Except String Rest.UpdateUserRequest)
    (create : Grpc.CreateUserRequest) (gupd : Grpc.UpdateUserRequest) :
    Rest.BadRequestIff (∃ text, add = .error text) w ((Rest.addUser add id hashed).run w) ∧
      Rest.BadRequestIff (∃ text, parse idStr = .error text) w ((Rest.getUser parse idStr).run w) ∧
      Rest.BadRequestIff ((∃ text, parse idStr = .error text) ∨ ∃ text, upd = .error text) w
        ((Rest.updateUser parse idStr upd).run w) ∧
      Rest.BadRequestIff (∃ text, parse idStr = .error text) w ((Rest.deleteUser parse idStr).run w) ∧
      Grpc.InvalidIff False w ((Grpc.createUser create id hashed).run w) ∧
      Grpc.InvalidIff (∃ text, parse idStr = .error text) w ((Grpc.getUser parse idStr).run w) ∧
      Grpc.InvalidIff (∃ text, parse gupd.id = .error text) w ((Grpc.updateUser parse gupd).run w) ∧
      Grpc.InvalidIff (∃ text, parse idStr = .error text) w ((Grpc.deleteUser parse idStr).run w) := by
  have ok : ∀ {β : Type} {x : β}, ¬∃ text, (.ok x : Except String β) = .error text :=
    fun ⟨_, h⟩ => nomatch h
  refine ⟨?_, ?_, ?_, ?_, ?_, ?_, ?_, ?_⟩
  · unfold Rest.addUser
    cases add
    exacts [Rest.badRequestIff_badRequest ⟨_, rfl⟩ _,
      Rest.badRequestIff_serve (createUser_errorsIn _ _ hhash) (fun _ => by simp) ok]
  · unfold Rest.getUser
    cases parse idStr
    exacts [Rest.badRequestIff_badRequest ⟨_, rfl⟩ _,
      Rest.badRequestIff_serve (getUser_errorsIn _) (fun _ => by simp) ok]
  · unfold Rest.updateUser
    cases parse idStr
    · exact Rest.badRequestIff_badRequest (.inl ⟨_, rfl⟩) _
    · cases upd
      · exact Rest.badRequestIff_badRequest (.inr ⟨_, rfl⟩) _
      · refine Rest.badRequestIff_serve ?_ ?_ ?_
        exacts [updateUser_errorsIn _ _, fun _ => by simp, not_or.mpr ⟨ok, ok⟩]
  · unfold Rest.deleteUser
    cases parse idStr
    exacts [Rest.badRequestIff_badRequest ⟨_, rfl⟩ _,
      Rest.badRequestIff_serve (deleteUser_errorsIn _) (fun _ => by simp) ok]
  · exact Grpc.invalidIff_serve (createUser_errorsIn _ _ hhash) _ not_false
  · unfold Grpc.getUser
    cases parse idStr
    exacts [Grpc.invalidIff_invalidId ⟨_, rfl⟩ _, Grpc.invalidIff_serve (getUser_errorsIn _) _ ok]
  · unfold Grpc.updateUser
    cases parse gupd.id
    · exact Grpc.invalidIff_invalidId ⟨_, rfl⟩ _
    · refine Grpc.invalidIff_serve ?_ _ ?_
      exacts [updateUser_errorsIn _ _, ok]
  · unfold Grpc.deleteUser
    cases parse idStr
    exacts [Grpc.invalidIff_invalidId ⟨_, rfl⟩ _, Grpc.invalidIff_serve (deleteUser_errorsIn _) _ ok]

/-- An id the parser refuses, and bodies the binding refuses, on the empty store. -/
theorem bad_request_iff_malformed_on_empty :
    (∀ e, (.ok "h" : Except Err String) = .error e → ∃ text, e = .bcrypt text) ∧
      let parse : String → Except String UUID := fun _ => .error "invalid UUID length: 3"
      let w := World.empty
      let hashed : Except Err String := .ok "h"
      let add : Except String Rest.AddUserRequest := .error "EOF"
      let upd : Except String Rest.UpdateUserRequest := .error "EOF"
      let create : Grpc.CreateUserRequest := ⟨"", "", "", "", "", ""⟩
      let gupd : Grpc.UpdateUserRequest := ⟨"abc", "", "", "", "", ""⟩
      Rest.BadRequestIff (∃ text, add = .error text) w ((Rest.addUser add aliceId hashed).run w) ∧
        Rest.BadRequestIff (∃ text, parse "abc" = .error text) w ((Rest.getUser parse "abc").run w) ∧
        Rest.BadRequestIff ((∃ text, parse "abc" = .error text) ∨ ∃ text, upd = .error text) w
          ((Rest.updateUser parse "abc" upd).run w) ∧
        Rest.BadRequestIff (∃ text, parse "abc" = .error text) w ((Rest.deleteUser parse "abc").run w) ∧
        Grpc.InvalidIff False w ((Grpc.createUser create aliceId hashed).run w) ∧
        Grpc.InvalidIff (∃ text, parse "abc" = .error text) w ((Grpc.getUser parse "abc").run w) ∧
        Grpc.InvalidIff (∃ text, parse gupd.id = .error text) w ((Grpc.updateUser parse gupd).run w) ∧
        Grpc.InvalidIff (∃ text, parse "abc" = .error text) w ((Grpc.deleteUser parse "abc").run w) := by
  have hhash : ∀ e, (.ok "h" : Except Err String) = .error e → ∃ text, e = .bcrypt text :=
    fun _ h => nomatch h
  refine ⟨hhash, ?_⟩
  intro parse w hashed add upd create gupd
  exact bad_request_iff_malformed w parse "abc" aliceId hashed hhash add upd create gupd

/-! ### Listing over both front-ends -/

/-- A REST listing and a gRPC listing of the same users, `hasMore` and count. -/
def SameListing (body : Rest.Body) (reply : Grpc.ListUsersResponse) : Prop :=
  ∃ resp : Rest.ListUsersResponse, body = .list resp ∧
    reply = ⟨resp.users.map Grpc.ProtoUser.ofDoc, resp.hasMore, resp.totalCount⟩

end UsersService
