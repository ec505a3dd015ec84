import UsersService.Store.UserRepository
import UsersService.Cache.Keys

/-! `cache.CacheDecorator`: a `user.Repository` over another one, keeping users in Redis under
their three keys. Reads try the cache and fall back to the store, filling the cache; writes go to
the store first, then invalidate or fill the cache. A failed Redis read is a miss; a failed
Redis write after a store write is returned as an error. -/

namespace UsersService

/-- The three keys a cached document sits under. -/
def UserJson.keys (p : UserJson) : List String := [userKey p.id, emailKey p.email, nickKey p.nickname]

/-- The pipeline of `cacheUser`: the user's JSON under each of its keys. -/
def setCmds (u : User) : List RedisCmd :=
  [.set (userKey u.id) u.marshal, .set (emailKey u.email) u.marshal, .set (nickKey u.nickname) u.marshal]

/-- The pipeline of `invalidateUserCache`. -/
def delCmds (u : User) : List RedisCmd :=
  [.del (userKey u.id), .del (emailKey u.email), .del (nickKey u.nickname)]

/-- `pipe.Exec(ctx)`. -/
def execPipeline (cmds : List RedisCmd) : Prog Unit := do
  match (← Prog.send (.redisExec cmds) : Except Err Unit) with
  | .ok () => pure ()
  | .error e => throw e

/-- `cacheUser`. -/
def cacheUser (u : User) : Prog Unit :=
  wrapErr "error executing cache pipeline" (execPipeline (setCmds u))

/-- `invalidateUserCache`. -/
def invalidateUserCache (u : User) : Prog Unit :=
  wrapErr "error executing cache invalidation" (execPipeline (delCmds u))

/-- `getUserFromCache`: `GET key`, then `json.Unmarshal`. -/
def getUserFromCache (key : String) : Prog User := do
  match (← Prog.send (.redisGet key) : Except Err UserJson) with
  | .ok data => pure data.unmarshal
  | .error e => throw e

namespace CacheDecorator

/-- `Create`: the store first, then the cache. -/
def create (repo : Repository) (u : User) : Prog Unit := do
  repo.create u
  wrapErr "error caching user" (cacheUser u)

/-- The read path of `GetByID`, `GetByEmail` and `GetByNickname`: the user cached under `key`
when the read succeeds, and otherwise the store's, cached under its three keys. -/
def getBy (key : String) (fetch : Prog User) : Prog User := do
  match ← (getUserFromCache key).attempt with
  | .ok u => pure u
  | .error _ =>
    let u ← fetch
    wrapErr "error caching user" (cacheUser u)
    pure u

/-- `GetByID`. -/
def getByID (repo : Repository) (id : UUID) : Prog User := getBy (userKey id) (repo.getByID id)

/-- `GetByEmail`. -/
def getByEmail (repo : Repository) (email : String) : Prog User :=
  getBy (emailKey email) (repo.getByEmail email)

/-- `GetByNickname`. -/
def getByNickname (repo : Repository) (nickname : String) : Prog User :=
  getBy (nickKey nickname) (repo.getByNickname nickname)

/-- `Update`: read the stored user, update the store, drop the old keys, read the user again
and cache it under its new keys. -/
def update (repo : Repository) (u : User) : Prog Unit := do
  let oldUser ← repo.getByID u.id
  repo.update u
  wrapErr "error invalidating cache" (invalidateUserCache oldUser)
  let updatedUser ← repo.getByID u.id
  wrapErr "error caching updated user" (cacheUser updatedUser)

/-- `Delete`: read the stored user, delete it, drop its keys. -/
def delete (repo : Repository) (id : UUID) : Prog Unit := do
  let u ← repo.getByID id
  repo.delete id
  wrapErr "error invalidating cache" (invalidateUserCache u)

end CacheDecorator

/-- `NewCacheDecorator(repo, redis, cfg)`. -/
def newCacheDecorator (repo : Repository) : Repository :=
  ⟨CacheDecorator.create repo, CacheDecorator.getByID repo, CacheDecorator.getByEmail repo,
    CacheDecorator.getByNickname repo, CacheDecorator.update repo, CacheDecorator.delete repo⟩

/-- The repository `cmd/server/main.go` gives the service. -/
def production : Repository := newCacheDecorator newUserRepository

/-- An operation of the decorator over the store, as one caller starts it. -/
inductive DecoratorCall where
  | create (u : User)
  | getByID (id : UUID)
  | getByEmail (email : String)
  | getByNickname (nickname : String)
  | update (u : User)
  | delete (id : UUID)

/-- The program of an operation, its result dropped. -/
def DecoratorCall.prog : DecoratorCall → Prog Unit
  | .create u => CacheDecorator.create newUserRepository u
  | .getByID i => do let _ ← CacheDecorator.getByID newUserRepository i
  | .getByEmail e => do let _ ← CacheDecorator.getByEmail newUserRepository e
  | .getByNickname n => do let _ ← CacheDecorator.getByNickname newUserRepository n
  | .update u => CacheDecorator.update newUserRepository u
  | .delete i => CacheDecorator.delete newUserRepository i

/-! ### What the Redis calls do -/

section Redis

variable (w : World)

theorem run_execPipeline (cmds : List RedisCmd) :
    (execPipeline cmds).run w =
      match w.nextRedis with
      | (.ok, w') => (.ok (), { w' with cache := applyAll cmds w'.cache })
      | (.fail text mask, w') =>
        (.error (.redis text), { w' with cache := applyMarked cmds mask w'.cache }) := by
  rcases h : w.nextRedis with ⟨_ | ⟨text, mask⟩, w'⟩ <;> simp [execPipeline, Call.exec, h]

theorem run_getUserFromCache (key : String) :
    (getUserFromCache key).run w =
      match w.nextRedis with
      | (.ok, w') => ((readKey w'.cache key).map UserJson.unmarshal, w')
      | (.fail text _, w') => (.error (.redis text), w') := by
  rcases h : w.nextRedis with ⟨_ | ⟨text, mask⟩, w'⟩
  · cases hk : readKey w'.cache key <;> simp [getUserFromCache, Call.exec, h, hk, Except.map]
  · simp [getUserFromCache, Call.exec, h]

theorem nextRedis_of_nil (h : w.redis = []) : w.nextRedis = (.ok, w) := by
  simp [World.nextRedis, h]

@[simp] theorem applyMarked_nil_marks (cmds : List RedisCmd) (c : String → Option UserJson) :
    applyMarked cmds [] c = c := by
  induction cmds <;> simp [applyMarked, *]

theorem applyAll_cons (cmd : RedisCmd) (cmds : List RedisCmd) (c : String → Option UserJson) :
    applyAll (cmd :: cmds) c = applyAll cmds (cmd.apply c) := rfl

theorem applyAll_setCmds (u : User) (c : String → Option UserJson) (k : String) :
    applyAll (setCmds u) c k = if k ∈ u.marshal.keys then some u.marshal else c k := by
  simp only [setCmds, applyAll_cons, UserJson.keys, RedisCmd.apply, List.mem_cons,
    List.mem_singleton, User.marshal_id, User.marshal_email, User.marshal_nickname]
  simp only [applyAll, List.map_nil, applyMarked]
  by_cases h1 : k = nickKey u.nickname <;> by_cases h2 : k = emailKey u.email <;>
    by_cases h3 : k = userKey u.id <;> simp [h1, h2, h3]

theorem applyAll_delCmds (u : User) (c : String → Option UserJson) (k : String) :
    applyAll (delCmds u) c k = if k ∈ u.marshal.keys then none else c k := by
  simp only [delCmds, applyAll_cons, UserJson.keys, RedisCmd.apply, List.mem_cons,
    List.mem_singleton, User.marshal_id, User.marshal_email, User.marshal_nickname]
  simp only [applyAll, List.map_nil, applyMarked]
  by_cases h1 : k = nickKey u.nickname <;> by_cases h2 : k = emailKey u.email <;>
    by_cases h3 : k = userKey u.id <;> simp [h1, h2, h3]

end Redis

/-! ### The calls each operation makes -/

section Calls

open Prog

variable {P : Call → Prop}

theorem execPipeline_allCalls {cmds : List RedisCmd} (h : P (.redisExec cmds)) :
    (execPipeline cmds).AllCalls P :=
  (AllCalls.send h).bind fun r => by cases r <;> exact .done _

theorem getUserFromCache_allCalls {key : String} (h : P (.redisGet key)) :
    (getUserFromCache key).AllCalls P :=
  (AllCalls.send h).bind fun r => by cases r <;> exact .done _

theorem UserRepository.create_allCalls {u : User} (h : P (.insert u)) :
    (UserRepository.create u).AllCalls P :=
  (AllCalls.send h).bind fun r => by cases r <;> exact .done _

theorem UserRepository.getBy_allCalls {q : Lookup} (h : P (.select q)) :
    (UserRepository.getBy q).AllCalls P :=
  (AllCalls.send h).bind fun r => by cases r <;> exact .done _

theorem UserRepository.update_allCalls {u : User} (hnow : P .now) (h : ∀ t, P (.update u t)) :
    (UserRepository.update u).AllCalls P := by
  refine (AllCalls.send hnow).bind fun t => (AllCalls.send (h t)).bind fun r => ?_
  rcases r with _ | _ | _ <;> exact .done _

theorem UserRepository.delete_allCalls {i : UUID} (h : P (.delete i)) :
    (UserRepository.delete i).AllCalls P :=
  (AllCalls.send h).bind fun n => by split <;> exact .done _

theorem CacheDecorator.getBy_allCalls {key : String} {fetch : Prog User}
    (hget : P (.redisGet key)) (hfetch : fetch.AllCalls P) (hset : ∀ u, P (.redisExec (setCmds u))) :
    (CacheDecorator.getBy key fetch).AllCalls P :=
  (getUserFromCache_allCalls hget).attempt.bind fun r => by
    cases r with
    | ok u => exact .done _
    | error _ =>
      exact hfetch.bind fun u => (((execPipeline_allCalls (hset u)).wrapErr _).wrapErr _).bind
        fun _ => .done _

/-- The calls every operation of the decorator over the store can make: the store's (an
`INSERT` only from `Create`, of its own user), the clock, `GET`, and the pipelines of
`cacheUser` and `invalidateUserCache`. -/
theorem DecoratorCall.allCalls (c : DecoratorCall) (hinsert : ∀ u, c = .create u → P (.insert u))
    (hselect : ∀ q, P (.select q)) (hupdate : ∀ u t, P (.update u t)) (hdelete : ∀ i, P (.delete i))
    (hnow : P .now) (hget : ∀ key, P (.redisGet key)) (hset : ∀ u, P (.redisExec (setCmds u)))
    (hdel : ∀ u, P (.redisExec (delCmds u))) : c.prog.AllCalls P := by
  have hgetBy : ∀ q, (UserRepository.getBy q).AllCalls P := fun q =>
    UserRepository.getBy_allCalls (hselect q)
  have hcache : ∀ u, (wrapErr "error caching updated user" (cacheUser u)).AllCalls P := fun u =>
    ((execPipeline_allCalls (hset u)).wrapErr _).wrapErr _
  cases c with
  | create u =>
    exact (UserRepository.create_allCalls (hinsert u rfl)).bind fun _ =>
      ((execPipeline_allCalls (hset u)).wrapErr _).wrapErr _
  | getByID i => exact (CacheDecorator.getBy_allCalls (hget _) (hgetBy _) hset).bind fun _ => .done _
  | getByEmail e => exact (CacheDecorator.getBy_allCalls (hget _) (hgetBy _) hset).bind fun _ => .done _
  | getByNickname n =>
    exact (CacheDecorator.getBy_allCalls (hget _) (hgetBy _) hset).bind fun _ => .done _
  | update u =>
    exact (hgetBy _).bind fun old => (UserRepository.update_allCalls hnow (hupdate u)).bind fun _ =>
      (((execPipeline_allCalls (hdel old)).wrapErr _).wrapErr _).bind fun _ =>
        (hgetBy _).bind hcache
  | delete i =>
    exact (hgetBy _).bind fun u => (UserRepository.delete_allCalls (hdelete i)).bind fun _ =>
      ((execPipeline_allCalls (hdel u)).wrapErr _).wrapErr _

end Calls

end UsersService
