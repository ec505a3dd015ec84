import UsersService.Service.Update

/-! `handleServiceError` of the REST and the gRPC handlers. Both pick their answer by the sentinels
`errors.Is` finds in the service's error: `ErrNotFound`, then `ErrEmailTaken` or
`ErrNicknameTaken`, then `ErrValidation`, and otherwise an internal error whose text is not shown.
Wrapping never changes the answer. Over the production repository, whatever Redis does with each
round trip: a sign-up whose email or nickname is stored is refused as a conflict, since the
`UNIQUE` index refuses the insert when a failed cache read lets the request past the pre-check;
from a coherent cache, reading, changing or deleting an id no row has is answered "not found"; and a
mutation that fails after its store write committed is answered as an internal error, so the client
cannot tell that the write is durable. -/

namespace UsersService

open Prog

/-! ### The answer to an error -/

/-- The answers both `handleServiceError`s choose between. -/
inductive ErrorKind where
  | notFound
  | conflict
  | invalid
  | internal
  deriving DecidableEq, Repr

/-- The `switch` of both `handleServiceError`s. -/
def Err.kind (err : Err) : ErrorKind :=
  if err.is .notFound then .notFound
  else if err.is .emailTaken || err.is .nicknameTaken then .conflict
  else if err.is .validation then .invalid
  else .internal

@[simp] theorem Err.kind_wrap (context : String) (err : Err) :
    (Err.wrap context err).kind = err.kind := rfl

namespace Rest

/-- `ErrorResponse`. -/
structure ErrorResponse where
  code : String
  message : String
  deriving DecidableEq, Repr

/-- `handleServiceError`: the HTTP status and the body. -/
def handleServiceError (err : Err) : Nat × ErrorResponse :=
  match err.kind with
  | .notFound => (404, ⟨"not_found", err.error⟩)
  | .conflict => (409, ⟨"conflict", err.error⟩)
  | .invalid => (400, ⟨"bad_request", err.error⟩)
  | .internal => (500, ⟨"internal_error", "An internal error occurred"⟩)

end Rest

namespace Grpc

/-- The `codes` of the answers. -/
inductive Code where
  | notFound
  | alreadyExists
  | invalidArgument
  | internal
  deriving DecidableEq, Repr

/-- `handleServiceError`: the code and the message of `status.Error`. -/
def handleServiceError (err : Err) : Code × String :=
  match err.kind with
  | .notFound => (.notFound, err.error)
  | .conflict => (.alreadyExists, err.error)
  | .invalid => (.invalidArgument, err.error)
  | .internal => (.internal, "An internal server error occurred")

end Grpc

/-- A run that failed, answered with `status` over REST and `code` over gRPC, and changed neither
the store nor the event log. -/
def RefusedWith {α : Type} (w : World) (status : Nat) (code : Grpc.Code) :
    Except Err α × World → Prop
  | (.ok _, _) => False
  | (.error err, w') =>
    (Rest.handleServiceError err).1 = status ∧ (Grpc.handleServiceError err).1 = code ∧
      Unchanged w w'

theorem refusedWith_conflict {α : Type} {w w' : World} {err : Err} (h : err.kind = .conflict)
    (hw : Unchanged w w') : RefusedWith (α := α) w 409 .alreadyExists (.error err, w') := by
  simp [RefusedWith, Rest.handleServiceError, Grpc.handleServiceError, h, hw]

theorem refusedWith_notFound {α : Type} {w w' : World} {err : Err} (h : err.kind = .notFound)
    (hw : Unchanged w w') : RefusedWith (α := α) w 404 .notFound (.error err, w') := by
  simp [RefusedWith, Rest.handleServiceError, Grpc.handleServiceError, h, hw]

/-- An error Redis caused is internal. -/
theorem RedisCaused.kind {err : Err} (h : RedisCaused err) : err.kind = .internal := by
  obtain ⟨text, h⟩ := h
  induction err with
  | wrap context cause ih => exact ih h
  | redis _ => rfl
  | _ => cases h

/-! ### A taken email or nickname -/

@[simp] theorem run_failIf (cond : Bool) (err : Err) (w : World) :
    (Service.failIf cond err).run w = if cond then (.error err, w) else (.ok (), w) := by
  cases cond <;> rfl

/-- With the password hashed, `prepareUser` fails only on a taken email or nickname. -/
theorem prepareUser_error {repo : Repository} {user : User} {id : UUID} {hash : String}
    {w w' : World} {err : Err}
    (h : (Service.prepareUser repo user id (.ok hash)).run w = (.error err, w')) :
    err = .emailTaken ∨ err = .nicknameTaken := by
  simp only [Service.prepareUser, run_bind, run_wrapErr, run_done, run_send, run_attempt,
    run_failIf] at h
  split_ifs at h
  · simp_all
  · simp_all
    split_ifs at h <;> simp_all

/-- The index a row whose id is new and whose email or nickname is stored violates. -/
theorem violation_of_taken {rows : List User} {u : User} (hfresh : ∀ r ∈ rows, r.id ≠ u.id)
    (htaken : ∃ r ∈ rows, r.email = u.email ∨ r.nickname = u.nickname) :
    violation rows u = some .nickname ∨ violation rows u = some .email := by
  obtain ⟨r, hr, hkey⟩ := htaken
  have hid : rows.any (·.id == u.id) = false := by simpa using hfresh
  simp only [violation, hid, Bool.false_eq_true, if_false]
  split_ifs with hn he
  · exact .inl rfl
  · exact .inr rfl
  · simp only [List.any_eq_true, beq_iff_eq, not_exists, not_and] at hn he
    exact (hkey.elim (he r hr) (hn r hr)).elim

/-! ### An id no row has -/

section Absent

variable {w : World} (hc : Coherent w) {id : UUID} (hid : ∀ r ∈ w.table.rows, r.id ≠ id)
include hc hid

/-- From a coherent cache, whatever Redis does, a read of an id no row has misses the cache,
finds no row, and caches nothing. -/
theorem getByID_absent :
    ∃ w', (production.getByID id).run w = (.error .notFound, w') ∧ Unchanged w w' := by
  have hmiss : w.cache (userKey id) = none := by
    rcases hk : w.cache (userKey id) with _ | p
    · rfl
    · obtain ⟨r, hr, hkey, -⟩ := hc _ p hk
      exact absurd (by simpa [Lookup.matches] using Lookup.matches_of_key_mem (q := .id id) hkey)
        (hid r hr)
  have hsel : ∀ w₁ : World, w₁.table = w.table → w₁.table.select (.id id) = none := fun w₁ ht => by
    rw [ht, Table.select_eq_none]
    simpa [Lookup.matches] using hid
  have hn := w.nextRedis_unchanged
  simp only [production, newCacheDecorator, CacheDecorator.getByID, CacheDecorator.getBy, run_bind,
    run_attempt, run_getUserFromCache, newUserRepository, UserRepository.getByID]
  rcases hr : w.nextRedis with ⟨_ | ⟨text, mask⟩, w₁⟩ <;> rw [hr] at hn
  · have hc₁ : w₁.cache = w.cache := by rw [← w.nextRedis_cache, hr]
    simp [readKey, hc₁, hmiss, Except.map, UserRepository.run_getBy, hsel w₁ hn.1, hn]
  · simp [UserRepository.run_getBy, hsel w₁ hn.1, hn]

theorem getForChange_absent (context : String) :
    ∃ w', (Service.getForChange production id context).run w = (.error .notFound, w') ∧
      Unchanged w w' := by
  obtain ⟨w', h, hw'⟩ := getByID_absent hc hid
  exact ⟨w', by simp [Service.getForChange, h, Err.is], hw'⟩

/-- From a coherent cache, whatever Redis does, `GetUser`, `UpdateUser` and `DeleteUser` of an id
no row has are answered "not found", and nothing is written or published. -/
theorem absent_id_not_found (updatedUser : User) :
    RefusedWith w 404 .notFound ((Service.getUser production id).run w) ∧
    RefusedWith w 404 .notFound ((Service.updateUser production id updatedUser).run w) ∧
    RefusedWith w 404 .notFound ((Service.deleteUser production id).run w) := by
  obtain ⟨w₁, h₁, hw₁⟩ := getByID_absent hc hid
  obtain ⟨w₂, h₂, hw₂⟩ := getForChange_absent hc hid "failed to get user for update"
  obtain ⟨w₃, h₃, hw₃⟩ := getForChange_absent hc hid "failed to get user for deletion"
  refine ⟨?_, ?_, ?_⟩
  · simp only [Service.getUser, run_wrapErr, h₁]
    exact refusedWith_notFound rfl hw₁
  · simp only [Service.updateUser, Service.prepareUpdate, run_bind, h₂]
    exact refusedWith_notFound rfl hw₂
  · simp only [Service.deleteUser, run_bind, h₃]
    exact refusedWith_notFound rfl hw₃

end Absent

theorem absent_id_not_found_in_race :
    Coherent raceWorld ∧ (∀ r ∈ raceWorld.table.rows, r.id ≠ bob.id) ∧
    RefusedWith raceWorld 404 .notFound ((Service.getUser production bob.id).run raceWorld) ∧
    RefusedWith raceWorld 404 .notFound ((Service.updateUser production bob.id alice).run raceWorld) ∧
    RefusedWith raceWorld 404 .notFound ((Service.deleteUser production bob.id).run raceWorld) :=
  have hc : Coherent raceWorld := fun _ _ h => nomatch h
  ⟨hc, by decide, absent_id_not_found hc (by decide) alice⟩

/-! ### A write that committed -/

/-- A failed run that changed the store is answered as an internal error. -/
theorem Settles.internal {α : Type} {kind : EventType} {id : UUID}
    {commit : User → Table → Table → Prop} {w w' : World} {err : Err}
    (h : Settles (α := α) kind id commit w (.error err, w')) (ht : w'.table ≠ w.table) :
    (Rest.handleServiceError err).1 = 500 ∧ (Grpc.handleServiceError err).1 = .internal := by
  obtain ⟨-, hsame | ⟨-, -, -, hredis⟩⟩ := h
  · exact absurd hsame ht
  · simp [Rest.handleServiceError, Grpc.handleServiceError, hredis.kind]

/-- A run that, failing after it changed the store, is answered as an internal error. -/
def InternalIfCommitted {α : Type} (w : World) : Except Err α × World → Prop
  | (.ok _, _) => True
  | (.error err, w') => w'.table ≠ w.table →
    (Rest.handleServiceError err).1 = 500 ∧ (Grpc.handleServiceError err).1 = .internal

theorem Settles.internalIfCommitted {α : Type} {kind : EventType} {id : UUID}
    {commit : User → Table → Table → Prop} {w : World} {r : Except Err α × World}
    (h : Settles kind id commit w r) : InternalIfCommitted w r := by
  rcases r with ⟨_ | _, w'⟩
  · exact h.internal
  · trivial

/-- Over the production repository, from a well-keyed cache, whatever Redis does: when
`CreateUser`, `UpdateUser` or `DeleteUser` fails after its store write committed, the answer is
`500` over REST and `Internal` over gRPC. -/
theorem committed_failure_is_internal (w : World) (hw : WellKeyed w.cache) (user : User) (id : UUID)
    (hashed : Except Err String) (updatedUser : User) :
    InternalIfCommitted w ((Service.createUser production user id hashed).run w) ∧
    InternalIfCommitted w ((Service.updateUser production id updatedUser).run w) ∧
    InternalIfCommitted w ((Service.deleteUser production id).run w) :=
  ⟨(createUser_settles w user id hashed).internalIfCommitted,
    (updateUser_settles w hw id updatedUser).internalIfCommitted,
    (deleteUser_settles w hw id).internalIfCommitted⟩

theorem committed_failure_is_internal_from_empty :
    WellKeyed World.empty.cache ∧
    InternalIfCommitted World.empty
      ((Service.createUser production alice aliceId (.ok "h")).run World.empty) ∧
    InternalIfCommitted World.empty ((Service.updateUser production aliceId alice).run World.empty) ∧
    InternalIfCommitted World.empty ((Service.deleteUser production aliceId).run World.empty) :=
  ⟨(fun _ _ h => nomatch h),
    committed_failure_is_internal World.empty (fun _ _ h => nomatch h) alice aliceId _ alice⟩

end UsersService
