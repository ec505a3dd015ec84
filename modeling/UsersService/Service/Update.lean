import UsersService.Service.Outcome

/-! `UpdateUser` when Redis answers every round trip and the cache is coherent with the store. It
reads the user through the decorator, merges the request into it, and writes the whole row back
with `UPDATE users SET ..., password_hash = $4, ..., updated_at = $7 WHERE id = $8`. Two things
follow. A read from the cache comes back through `json.Unmarshal`, and `Password` is `json:"-"`,
so after a cache hit the row is written with an empty password hash. And the store stamps
`updated_at` with its own `time.Now()`, which the user returned and published never carries. -/

namespace UsersService

open Prog

/-! ### Redis answering every round trip -/

theorem Call.redis_exec_nil (c : Call) {w : World} (hr : w.redis = []) :
    (c.exec w).2.redis = [] := by
  cases c <;> simp only [Call.exec, nextRedis_of_nil w hr] <;> first | exact hr | split <;> exact hr

/-- A Redis that answers every round trip answers every later one. -/
theorem Prog.run_redis_nil {α : Type} (p : Prog α) {w : World} (hr : w.redis = []) :
    (p.run w).2.redis = [] := by
  induction p generalizing w with
  | done r => exact hr
  | call c k ih => exact ih _ (c.redis_exec_nil hr)

section Answering

variable {w w₁ : World} (hr : w.redis = [])
include hr

/-- The lookup before `UpdateUser` and `DeleteUser` answers the stored row of `id`, without its
password when it came from the cache. -/
theorem getForChange_of_nil (hc : Coherent w) {id : UUID} {context : String} {u : User}
    (h : (Service.getForChange production id context).run w = (.ok u, w₁)) :
    ∃ old, w.table.select (.id id) = some old ∧
      u = { old with password := if (w.cache (userKey id)).isSome then "" else old.password } := by
  rw [Service.getForChange, run_tryCatch, show production.getByID id =
    CacheDecorator.getBy (Lookup.id id).key (UserRepository.getBy (.id id)) from rfl,
    run_getBy_of_nil hr] at h
  rcases hk : w.cache (userKey id) with _ | p <;> simp only [Lookup.key, hk] at h
  · rcases hs : w.table.select (.id id) with _ | old <;>
      simp only [hs, Prod.mk.injEq, Except.ok.injEq] at h
    · simp [Err.is] at h
    · exact ⟨old, rfl, by simp [← h.1]⟩
  · obtain ⟨old, hs, rfl⟩ := hc.select_of_cache (q := .id id) hk
    obtain ⟨⟨⟩, -⟩ := Prod.mk.inj h
    exact ⟨old, hs, by simp⟩

/-- `UpdateUser` up to the store write answers the stored row of `id` with the request's
non-empty fields merged in, and the password as the read left it. -/
theorem prepareUpdate_of_nil (hc : Coherent w) {id : UUID} {r u : User}
    (h : (Service.prepareUpdate production id r).run w = (.ok u, w₁)) :
    ∃ old, w.table.select (.id id) = some old ∧
      u = { old with
        firstName := Service.mergeField old.firstName r.firstName
        lastName := Service.mergeField old.lastName r.lastName
        nickname := Service.mergeField old.nickname r.nickname
        email := Service.mergeField old.email r.email
        country := Service.mergeField old.country r.country
        password := if (w.cache (userKey id)).isSome then "" else old.password } := by
  obtain ⟨user, w₂, hu, h⟩ := run_bind_eq_ok h
  obtain ⟨old, hs, rfl⟩ := getForChange_of_nil hr hc hu
  refine ⟨old, hs, ?_⟩
  dsimp only at h
  split at h
  · rename_i hcond
    obtain ⟨_, _, -, h⟩ := run_bind_eq_ok h
    obtain ⟨⟨⟩, -⟩ := Prod.mk.inj h
    simp [Service.mergeField, hcond]
  · rename_i hcond
    obtain ⟨⟨⟩, -⟩ := Prod.mk.inj h
    simp [Service.mergeField, hcond]

/-- An update through the decorator that succeeds leaves the updated row under the id. -/
theorem CacheDecorator.update_ok_of_nil {u : User}
    (h : (CacheDecorator.update newUserRepository u).run w = (.ok (), w₁)) :
    ∃ old, w.table.select (.id u.id) = some old ∧
      w₁.table.select (.id u.id) = some (Table.updatedRow old u (w.clock + 1)) ∧
      w₁.published = w.published := by
  rw [run_update_of_nil hr] at h
  rcases hs : w.table.select (.id u.id) with _ | old <;> simp only [hs] at h
  · simp at h
  rcases hu : w.table.update u (w.clock + 1) with _ | ⟨_ | n, t⟩ <;> simp only [hu] at h
  · simp at h
  · simp at h
  rcases ht : t.select (.id u.id) with _ | new <;> simp only [ht] at h
  · simp at h
  obtain ⟨-, rfl⟩ := Prod.mk.inj h
  obtain ⟨old', hold', hs'⟩ := Table.select_update hu
  rw [hs, Option.some.injEq] at hold'
  subst hold'
  exact ⟨_, rfl, hs', rfl⟩

end Answering

/-- A request to move to France, every other field left empty. -/
def franceRequest : User := ⟨aliceId, "", "", "", "", "", "FR", 0, 0⟩

/-- Alice signs up, then asks to move to France: the two runs, one after the other. -/
def signUpThenMove : (Except Err User × World) × (Except Err User × World) :=
  let created := (Service.createUser production alice aliceId (.ok "$2a$10$hash")).run World.empty
  (created, (Service.updateUser production aliceId franceRequest).run created.2)

/-- `CreateUser` stores the bcrypt hash and caches Alice; the `UpdateUser` after it reads her from
the cache, without a password, and writes the row back with an empty `password_hash`. -/
theorem signUpThenMove_clears_password :
    (signUpThenMove.1.2.table.select (.id aliceId)).map (·.password) = some "$2a$10$hash" ∧
      signUpThenMove.2.1.toOption.isSome ∧
      (signUpThenMove.2.2.table.select (.id aliceId)).map (·.password) = some "" := by
  decide

/-- The update is stamped at time 3 in the store, while the user it returns and publishes keeps
the `UpdatedAt` of the sign-up, 2. -/
theorem signUpThenMove_returns_stale_updatedAt :
    signUpThenMove.2.1.toOption.map (·.updatedAt) = some 2 ∧
      (signUpThenMove.2.2.table.select (.id aliceId)).map (·.updatedAt) = some 3 ∧
      signUpThenMove.2.2.published.map (fun e => (e.1, e.2.updatedAt)) =
        [(.created, 2), (.updated, 2)] := by
  decide

end UsersService
