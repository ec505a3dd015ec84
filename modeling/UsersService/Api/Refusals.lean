import UsersService.Api.Handlers

/-! What a client is told when a request fails. `handleServiceError` answers an internal error
with a fixed text and every other error with `err.Error()`, the chain of the contexts the service
wrapped it in and the sentinel's text. Following each error from where the code raises it to the
handler gives, for each request, the few answers it can get, whatever the store holds and
whatever Redis does with each round trip: no driver or Redis text ever reaches a client. The
kind of a conflict does not depend on the layer that caught it, but its text does: the
service's pre-check answers "email is already taken", the store's `UNIQUE` index, when a
concurrent sign-up got past the pre-check, "failed to save user: email is already taken". -/

namespace UsersService

open Prog

/-- The error is internal, or one of `errs`. -/
def Err.InternalOr (errs : List Err) (e : Err) : Prop := e.kind = .internal ∨ e ∈ errs

namespace Prog.ErrorsIn

variable {α : Type} {P Q : Err → Prop}

theorem imp (h : ∀ e, P e → Q e) {p : Prog α} (hp : ErrorsIn P p) : ErrorsIn Q p :=
  fun w e w' hr => h e (hp w e w' hr)

theorem sub {errs errs' : List Err} (h : errs ⊆ errs') {p : Prog α}
    (hp : ErrorsIn (Err.InternalOr errs) p) : ErrorsIn (Err.InternalOr errs') p :=
  hp.imp fun _ he => he.imp_right fun hm => h hm

/-- Wrapping keeps an error's kind and wraps the listed ones. -/
theorem wrapIn {errs : List Err} {p : Prog α} (hp : ErrorsIn (Err.InternalOr errs) p)
    (context : String) :
    ErrorsIn (Err.InternalOr (errs.map (.wrap context))) (UsersService.wrapErr context p) :=
  hp.tryCatch fun _ he => throw (he.imp id fun hm => List.mem_map_of_mem _ hm)

end Prog.ErrorsIn

/-! ### Where each error comes from -/

theorem violationErr_internalOr (context : String) (v : Violation) :
    (violationErr context v).InternalOr [.emailTaken, .nicknameTaken] := by
  obtain ⟨he, hn, hp⟩ := violationErr_eq context
  cases v
  · exact .inl (by rw [hp]; rfl)
  · exact .inr (by rw [hn]; simp)
  · exact .inr (by rw [he]; simp)

theorem failIf_internalOr {errs : List Err} (cond : Bool) {err : Err} (h : err ∈ errs) :
    (Service.failIf cond err).ErrorsIn (Err.InternalOr errs) := by
  unfold Service.failIf
  split
  exacts [ErrorsIn.throw (Or.inr h), ErrorsIn.pure _]

theorem execPipeline_internal (cmds : List RedisCmd) :
    (execPipeline cmds).ErrorsIn (Err.InternalOr []) := by
  intro w e w' h
  rw [run_execPipeline] at h
  split at h
  · exact nomatch (Prod.mk.inj h).1
  · rw [← Except.error.inj (Prod.mk.inj h).1]
    exact .inl rfl

theorem cacheWrite_internal (cmds : List RedisCmd) (context context' : String) :
    (wrapErr context (wrapErr context' (execPipeline cmds))).ErrorsIn (Err.InternalOr []) :=
  ((execPipeline_internal cmds).wrapIn _).wrapIn _

theorem getBy_internalOr (q : Lookup) :
    (UserRepository.getBy q).ErrorsIn (Err.InternalOr [.notFound]) := by
  intro w e w' h
  rw [UserRepository.run_getBy] at h
  rcases hs : w.table.select q with _ | _ <;> simp only [hs, Option.elim_none, Option.elim_some] at h
  · rw [← Except.error.inj (Prod.mk.inj h).1]
    exact .inr (List.mem_singleton_self _)
  · exact nomatch (Prod.mk.inj h).1

/-- A read through the decorator: the store's `ErrNotFound`, or a failed cache write. -/
theorem decoratorRead_internalOr (key : String) (q : Lookup) :
    (CacheDecorator.getBy key (UserRepository.getBy q)).ErrorsIn (Err.InternalOr [.notFound]) :=
  (ErrorsIn.attempt _).bind fun r => by
    cases r with
    | ok => exact ErrorsIn.pure _
    | error => exact (getBy_internalOr q).bind fun _ =>
        ((cacheWrite_internal _ _ _).sub (List.nil_subset _)).bind fun _ => ErrorsIn.pure _

theorem create_internalOr (u : User) :
    (production.create u).ErrorsIn (Err.InternalOr [.emailTaken, .nicknameTaken]) := by
  refine (?_ : (UserRepository.create u).ErrorsIn _).bind fun _ =>
    (cacheWrite_internal _ _ _).sub (List.nil_subset _)
  intro w e w' h
  rw [UserRepository.run_create] at h
  split at h
  · exact nomatch (Prod.mk.inj h).1
  · rw [← Except.error.inj (Prod.mk.inj h).1]
    exact violationErr_internalOr _ _

theorem update_internalOr (u : User) :
    (UserRepository.update u).ErrorsIn (Err.InternalOr [.notFound, .emailTaken, .nicknameTaken]) := by
  intro w e w' h
  rw [UserRepository.run_update] at h
  split at h
  · rw [← Except.error.inj (Prod.mk.inj h).1]
    exact .inr (List.mem_cons_self _ _)
  · exact nomatch (Prod.mk.inj h).1
  · rw [← Except.error.inj (Prod.mk.inj h).1]
    exact (violationErr_internalOr _ _).imp_right fun hm => List.mem_cons_of_mem _ hm

theorem delete_internalOr (i : UUID) :
    (UserRepository.delete i).ErrorsIn (Err.InternalOr [.notFound]) := by
  intro w e w' h
  rw [UserRepository.run_delete] at h
  split_ifs at h
  · rw [← Except.error.inj (Prod.mk.inj h).1]
    exact .inr (List.mem_singleton_self _)
  · exact nomatch (Prod.mk.inj h).1

theorem decoratorUpdate_internalOr (u : User) :
    (production.update u).ErrorsIn (Err.InternalOr [.notFound, .emailTaken, .nicknameTaken]) :=
  ((getBy_internalOr _).sub (by simp)).bind fun _ => (update_internalOr u).bind fun _ =>
    ((cacheWrite_internal _ _ _).sub (List.nil_subset _)).bind fun _ =>
      ((getBy_internalOr _).sub (by simp)).bind fun _ => (cacheWrite_internal _ _ _).sub (List.nil_subset _)

theorem decoratorDelete_internalOr (id : UUID) :
    (production.delete id).ErrorsIn (Err.InternalOr [.notFound]) :=
  (getBy_internalOr _).bind fun _ => (delete_internalOr id).bind fun _ =>
    (cacheWrite_internal _ _ _).sub (List.nil_subset _)

theorem commit_internalOr {write : Prog Unit} {errs : List Err}
    (hw : write.ErrorsIn (Err.InternalOr errs)) (context : String) (kind : EventType) (u : User) :
    (Service.commit context write kind u).ErrorsIn (Err.InternalOr (errs.map (.wrap context))) :=
  (hw.wrapIn context).bind fun _ => ErrorsIn.send _

/-- `ErrNotFound` passes through as it is; any other error of the read is internal, and stays so
wrapped. -/
theorem getForChange_internalOr (id : UUID) (context : String) :
    (Service.getForChange production id context).ErrorsIn (Err.InternalOr [.notFound]) :=
  (decoratorRead_internalOr _ (.id id)).tryCatch fun e he => by
    split
    · exact ErrorsIn.throw he
    · rename_i hnf
      refine ErrorsIn.throw (Or.inl ?_)
      rcases he with hk | hm
      · exact hk
      · rw [List.mem_singleton.mp hm] at hnf
        exact absurd rfl hnf

theorem prepareUpdate_internalOr (id : UUID) (updatedUser : User) :
    (Service.prepareUpdate production id updatedUser).ErrorsIn
      (Err.InternalOr [.notFound, .emailTaken]) :=
  ((getForChange_internalOr _ _).sub (by simp)).bind fun _ => by
    dsimp only
    split
    · refine ((ErrorsIn.attempt _).bind fun r => ?_).bind fun _ => ErrorsIn.pure _
      cases r
      exacts [ErrorsIn.pure _, failIf_internalOr _ (by simp)]
    · exact ErrorsIn.pure _

/-- `CreateUser` up to the insert, when bcrypt fails only with its own errors: a conflict its
pre-check found, or an internal error. -/
theorem prepareUser_internalOr (user : User) (id : UUID) {hashed : Except Err String}
    (hhash : ∀ e, hashed = .error e → ∃ text, e = .bcrypt text) :
    (Service.prepareUser production user id hashed).ErrorsIn
      (Err.InternalOr [.emailTaken, .nicknameTaken]) :=
  have hbcrypt : ErrorsIn (Err.InternalOr []) (.done hashed : Prog String) := ErrorsIn.done fun e he => by
    obtain ⟨_, rfl⟩ := hhash e he
    exact Or.inl rfl
  ((hbcrypt.wrapIn _).sub (List.nil_subset _)).bind fun _ =>
    (ErrorsIn.send _).bind fun _ => (ErrorsIn.send _).bind fun _ => (ErrorsIn.attempt _).bind fun _ =>
      (failIf_internalOr _ (by simp)).bind fun _ => (ErrorsIn.attempt _).bind fun _ =>
        (failIf_internalOr _ (by simp)).bind fun _ => ErrorsIn.pure _

/-- `CreateUser`, when bcrypt fails only with its own errors: a conflict the pre-check found, one
the store found, or an internal error. -/
theorem createUser_internalOr (user : User) (id : UUID) {hashed : Except Err String}
    (hhash : ∀ e, hashed = .error e → ∃ text, e = .bcrypt text) :
    (Service.createUser production user id hashed).ErrorsIn (Err.InternalOr [.emailTaken,
      .nicknameTaken, .wrap "failed to save user" .emailTaken, .wrap "failed to save user" .nicknameTaken]) :=
  ((prepareUser_internalOr user id hhash).sub (by simp)).bind fun u =>
    ((commit_internalOr (create_internalOr u) _ _ _).sub (by simp)).bind fun _ => ErrorsIn.pure _

theorem getUser_internalOr (id : UUID) :
    (Service.getUser production id).ErrorsIn
      (Err.InternalOr [.wrap "failed to get user" .notFound]) :=
  (decoratorRead_internalOr _ (.id id)).wrapIn _

theorem updateUser_internalOr (id : UUID) (updatedUser : User) :
    (Service.updateUser production id updatedUser).ErrorsIn (Err.InternalOr [.notFound,
      .emailTaken, .wrap "failed to save user changes" .notFound,
      .wrap "failed to save user changes" .emailTaken,
      .wrap "failed to save user changes" .nicknameTaken]) :=
  ((prepareUpdate_internalOr id updatedUser).sub (by simp)).bind fun u =>
    ((commit_internalOr (decoratorUpdate_internalOr u) _ _ _).sub (by simp)).bind fun _ =>
      ErrorsIn.pure _

theorem deleteUser_internalOr (id : UUID) :
    (Service.deleteUser production id).ErrorsIn (Err.InternalOr [.notFound,
      .wrap "failed to delete user from repository" .notFound]) :=
  ((getForChange_internalOr id _).sub (by simp)).bind fun _ =>
    ((commit_internalOr (decoratorDelete_internalOr id) _ _ _).sub (by simp)).bind fun _ =>
      ErrorsIn.pure _

/-! ### The answers -/

/-- The REST answer to an error that is internal or one of `errs`. -/
theorem Rest.answer_mem {errs : List Err} {e : Err} (he : e.InternalOr errs) :
    Rest.handleServiceError e ∈
      errs.map Rest.handleServiceError ++ [(500, ⟨"internal_error", "An internal error occurred"⟩)] := by
  rcases he with hk | hm
  · exact List.mem_append_right _ (by simp [Rest.handleServiceError, hk])
  · exact List.mem_append_left _ (List.mem_map_of_mem _ hm)

/-- Whatever the store holds and whatever Redis does with each round trip, the REST handler
answers a failed `CreateUser` (when bcrypt fails only with its own errors), `GetUser`,
`UpdateUser` or `DeleteUser` only with one of these status codes and bodies. The internal answer
hides every driver and Redis text. A conflict is 409 whichever layer caught it, but its text
says which: the pre-check's bare sentinel, or the store's wrapped in the context of the write.
`UpdateUser` and `DeleteUser` answer a missing user with the bare "user not found" when their
read finds none, and wrapped when the row went away between the read and the write; `GetUser`
always wraps it. -/
theorem refusals_have_fixed_texts (user : User) (id : UUID) (hashed : Except Err String)
    (hhash : ∀ e, hashed = .error e → ∃ text, e = .bcrypt text) (updatedUser : User) :
    (Service.createUser production user id hashed).ErrorsIn (fun e => Rest.handleServiceError e ∈
      [(409, ⟨"conflict", "email is already taken"⟩), (409, ⟨"conflict", "nickname is already taken"⟩),
        (409, ⟨"conflict", "failed to save user: email is already taken"⟩),
        (409, ⟨"conflict", "failed to save user: nickname is already taken"⟩),
        (500, ⟨"internal_error", "An internal error occurred"⟩)]) ∧
    (Service.getUser production id).ErrorsIn (fun e => Rest.handleServiceError e ∈
      [(404, ⟨"not_found", "failed to get user: user not found"⟩),
        (500, ⟨"internal_error", "An internal error occurred"⟩)]) ∧
    (Service.updateUser production id updatedUser).ErrorsIn (fun e => Rest.handleServiceError e ∈
      [(404, ⟨"not_found", "user not found"⟩), (409, ⟨"conflict", "email is already taken"⟩),
        (404, ⟨"not_found", "failed to save user changes: user not found"⟩),
        (409, ⟨"conflict", "failed to save user changes: email is already taken"⟩),
        (409, ⟨"conflict", "failed to save user changes: nickname is already taken"⟩),
        (500, ⟨"internal_error", "An internal error occurred"⟩)]) ∧
    (Service.deleteUser production id).ErrorsIn (fun e => Rest.handleServiceError e ∈
      [(404, ⟨"not_found", "user not found"⟩),
        (404, ⟨"not_found", "failed to delete user from repository: user not found"⟩),
        (500, ⟨"internal_error", "An internal error occurred"⟩)]) :=
  ⟨(createUser_internalOr user id hhash).imp fun _ he => Rest.answer_mem he,
    (getUser_internalOr id).imp fun _ he => Rest.answer_mem he,
    (updateUser_internalOr id updatedUser).imp fun _ he => Rest.answer_mem he,
    (deleteUser_internalOr id).imp fun _ he => Rest.answer_mem he⟩

/-- Bob signs up under Alice's email while the pipeline caching Alice fails: the pre-check lets
him past, the store refuses the insert, and the client reads the store's conflict text. -/
theorem refusals_have_fixed_texts_past_the_precheck :
    let run := (Service.createUser production { bob with email := alice.email } bob.id (.ok "h")).run
      { raceWorld with redis := [.ok, .fail "connection reset by peer" []] }
    run.1 = .error (.wrap "failed to save user" .emailTaken) ∧
      Rest.handleServiceError (.wrap "failed to save user" .emailTaken) ∈
        [(409, ⟨"conflict", "email is already taken"⟩), (409, ⟨"conflict", "nickname is already taken"⟩),
          (409, ⟨"conflict", "failed to save user: email is already taken"⟩),
          (409, ⟨"conflict", "failed to save user: nickname is already taken"⟩),
          (500, ⟨"internal_error", "An internal error occurred"⟩)] :=
  ⟨rfl, (refusals_have_fixed_texts { bob with email := alice.email } bob.id (.ok "h")
    (fun _ h => nomatch h) franceRequest).1
    { raceWorld with redis := [.ok, .fail "connection reset by peer" []] } _ _ rfl⟩

end UsersService
