import UsersService.Service
import UsersService.Concurrency

/-! What a mutation through the service leaves behind when any Redis round trip may fail. The
store write and the Redis writes after it are not one transaction: the decorator returns the
error of a Redis write it makes after the store committed, and the service returns that error
and publishes nothing. What holds is this: a mutation that succeeds committed its store write
and published one event, about the user it wrote; one that fails published nothing, and left
the store as it was unless the write committed and the error came from Redis. -/

namespace UsersService

open Prog

/-- The error at the bottom of a chain of `%w` wraps. -/
def Err.cause : Err → Err
  | .wrap _ e => e.cause
  | e => e

/-- An error Redis returned, wrapped or not. -/
def RedisCaused (e : Err) : Prop := ∃ text, e.cause = .redis text

theorem RedisCaused.wrap {e : Err} (h : RedisCaused e) (context : String) :
    RedisCaused (.wrap context e) := h

/-! ### Runs that leave the store and the event log alone -/

/-- The store and the event log after a run are those before it. -/
def Unchanged (w w' : World) : Prop := w'.table = w.table ∧ w'.published = w.published

theorem Unchanged.refl (w : World) : Unchanged w w := ⟨rfl, rfl⟩

theorem Unchanged.trans {w w₁ w₂ : World} (h₁ : Unchanged w w₁) (h₂ : Unchanged w₁ w₂) :
    Unchanged w w₂ := ⟨h₂.1.trans h₁.1, h₂.2.trans h₁.2⟩

theorem World.nextRedis_unchanged (w : World) : Unchanged w w.nextRedis.2 := by
  unfold World.nextRedis
  split <;> exact ⟨rfl, rfl⟩

/-- A call that neither writes the store nor publishes: a read, the clock, or Redis. -/
def Call.Reads : Call → Prop
  | .insert _ | .update _ _ | .delete _ | .publish _ _ => False
  | _ => True

theorem Call.unchanged_exec {c : Call} (h : c.Reads) (w : World) : Unchanged w (c.exec w).2 := by
  have hn := w.nextRedis_unchanged
  cases c <;> simp only [Call.Reads] at h <;> simp only [Call.exec]
  all_goals first
    | exact ⟨rfl, rfl⟩
    | split <;> rename_i heq <;> simpa [heq, Unchanged] using hn

theorem Prog.AllCalls.unchanged {α : Type} {p : Prog α} (hp : p.AllCalls Call.Reads) (w : World) :
    Unchanged w (p.run w).2 :=
  hp.run_inv (I := Unchanged w) (fun _ w₁ hc h => h.trans (Call.unchanged_exec hc w₁))
    (Unchanged.refl w)

/-- A call that only looks things up: a `SELECT`, or a Redis round trip. -/
def Call.Looks : Call → Prop
  | .select _ | .redisGet _ | .redisExec _ => True
  | _ => False

theorem Call.Looks.reads {c : Call} (h : c.Looks) : c.Reads := by
  cases c <;> simp_all [Call.Looks, Call.Reads]

theorem World.nextRedis_clock (w : World) : w.nextRedis.2.clock = w.clock := by
  unfold World.nextRedis
  split <;> rfl

theorem Call.clock_exec {c : Call} (h : c.Looks) (w : World) : (c.exec w).2.clock = w.clock := by
  cases c <;> simp only [Call.Looks] at h <;> simp only [Call.exec]
  all_goals first
    | rfl
    | split <;> rename_i heq <;> simpa [heq] using w.nextRedis_clock

/-- A run of lookups leaves the store, the event log and the clock alone. -/
theorem Prog.AllCalls.looks_frame {α : Type} {p : Prog α} (hp : p.AllCalls Call.Looks) (w : World) :
    Unchanged w (p.run w).2 ∧ (p.run w).2.clock = w.clock :=
  hp.run_inv (I := fun w' => Unchanged w w' ∧ w'.clock = w.clock)
    (fun _ w₁ hc h => ⟨h.1.trans (Call.unchanged_exec hc.reads w₁), (Call.clock_exec hc w₁).trans h.2⟩)
    ⟨Unchanged.refl w, rfl⟩

/-- A read through the decorator only looks things up. -/
theorem decoratorRead_looks (key : String) (q : Lookup) :
    (CacheDecorator.getBy key (UserRepository.getBy q)).AllCalls Call.Looks :=
  CacheDecorator.getBy_allCalls trivial (UserRepository.getBy_allCalls trivial) fun _ => trivial

theorem Service.failIf_allCalls {P : Call → Prop} (cond : Bool) (err : Err) :
    (Service.failIf cond err).AllCalls P := by
  unfold Service.failIf
  split <;> exact .done _

/-! ### What a read through the decorator answers -/

/-- From a well-keyed cache, a user read under `key` has `key` among its keys. -/
theorem getUserFromCache_keys {key : String} {w : World} {u : User} (hw : WellKeyed w.cache)
    (h : ((getUserFromCache key).run w).1 = .ok u) : key ∈ u.marshal.keys := by
  rw [run_getUserFromCache] at h
  rcases hn : w.nextRedis with ⟨_ | _, w₁⟩ <;> rw [hn] at h
  · have hc : w₁.cache = w.cache := by rw [← w.nextRedis_cache, hn]
    unfold readKey at h
    rcases hk : w₁.cache key with _ | p <;> simp only [hk, Except.map, Except.ok.injEq] at h
    · cases h
    · rw [← h, UserJson.marshal_unmarshal]
      exact hw key p (hc ▸ hk)
  · cases h

/-- From a well-keyed cache, a read through the decorator answers a user the lookup matches,
whether it came from the cache or from the store. -/
theorem getBy_matches {q : Lookup} {w w' : World} {u : User} (hw : WellKeyed w.cache)
    (h : (CacheDecorator.getBy q.key (UserRepository.getBy q)).run w = (.ok u, w')) :
    q.matches u = true := by
  obtain ⟨r, w₁, hr, h⟩ := run_bind_eq_ok h
  obtain ⟨hr, -⟩ := Prod.mk.inj (run_attempt _ w ▸ hr)
  cases r with
  | ok v =>
    obtain ⟨⟨⟩, -⟩ := Prod.mk.inj h
    exact Lookup.matches_of_key_mem (getUserFromCache_keys hw (Except.ok.inj hr))
  | error _ =>
    obtain ⟨v, w₂, hv, h⟩ := run_bind_eq_ok h
    obtain ⟨_, _, -, h⟩ := run_bind_eq_ok h
    obtain ⟨⟨⟩, -⟩ := Prod.mk.inj h
    rw [UserRepository.run_getBy] at hv
    cases hs : w₁.table.select q <;> simp only [hs, Option.elim_none, Option.elim_some, Prod.mk.injEq] at hv
    · cases hv.1
    · exact (Table.select_eq_some.mp (hs.trans (Except.ok.inj hv.1 ▸ rfl))).2

/-- From a well-keyed cache, the lookup before `UpdateUser` and `DeleteUser` answers the user
with the id asked for. -/
theorem getForChange_id {id : UUID} {context : String} {w w' : World} {u : User}
    (hw : WellKeyed w.cache) (h : (Service.getForChange production id context).run w = (.ok u, w')) :
    u.id = id := by
  rw [Service.getForChange, run_tryCatch] at h
  rcases hg : (CacheDecorator.getByID newUserRepository id).run w with ⟨e | v, w₁⟩ <;>
    rw [show production.getByID id = CacheDecorator.getByID newUserRepository id from rfl, hg] at h
  · dsimp only at h
    split at h <;> cases h
  · obtain ⟨⟨⟩, -⟩ := Prod.mk.inj h
    simpa [Lookup.matches] using getBy_matches (q := .id id) hw hg

/-! ### Store writes through the decorator -/

/-- A program that from `w` on only talks to Redis: it leaves the store and the event log alone
and fails only with a Redis error. -/
def RedisTail (p : Prog Unit) (w : World) : Prop :=
  Unchanged w (p.run w).2 ∧ ∀ e, (p.run w).1 = .error e → RedisCaused e

theorem execPipeline_redisTail (cmds : List RedisCmd) (w : World) :
    RedisTail (execPipeline cmds) w := by
  refine ⟨(execPipeline_allCalls trivial).unchanged w, fun e he => ?_⟩
  rw [run_execPipeline] at he
  rcases hn : w.nextRedis with ⟨_ | ⟨text, _⟩, w₁⟩ <;> rw [hn] at he
  · cases he
  · cases he
    exact ⟨text, rfl⟩

theorem RedisTail.wrapErr {p : Prog Unit} {w : World} (h : RedisTail p w) (context : String) :
    RedisTail (UsersService.wrapErr context p) w := by
  obtain ⟨hu, he⟩ := h
  rcases hr : p.run w with ⟨e | _, w₁⟩ <;> rw [hr] at hu he
  · refine ⟨by simpa [hr] using hu, fun e' h' => ?_⟩
    simp only [run_wrapErr, hr, Except.error.injEq] at h'
    exact h' ▸ (he e rfl).wrap context
  · exact ⟨by simpa [hr] using hu, by simp [hr]⟩

theorem RedisTail.bind {p : Prog Unit} {f : Unit → Prog Unit} {w : World} (hp : RedisTail p w)
    (hf : ∀ w₁, Unchanged w w₁ → RedisTail (f ()) w₁) : RedisTail (p >>= f) w := by
  obtain ⟨hu, he⟩ := hp
  rcases hr : p.run w with ⟨e | ⟨⟩, w₁⟩ <;> rw [hr] at hu he
  · refine ⟨by simpa [hr] using hu, fun e' h' => ?_⟩
    simp only [run_bind, hr, Except.error.injEq] at h'
    exact h' ▸ he e rfl
  · obtain ⟨hu', he'⟩ := hf w₁ hu
    exact ⟨by simpa [hr] using hu.trans hu', by simpa [hr] using he'⟩

theorem RedisTail.getBy_bind {q : Lookup} {f : User → Prog Unit} {w : World} {r : User}
    (hs : w.table.select q = some r) (hf : RedisTail (f r) w) :
    RedisTail (UserRepository.getBy q >>= f) w := by
  simpa [RedisTail, UserRepository.run_getBy, hs] using hf

/-- What a store write through the decorator can end in, `commit` relating the store before and
after it: success, with the write committed; or an error, with the store as it was, or with the
write committed and the error from Redis. Nothing is published. -/
def Commits (commit : Table → Table → Prop) (w : World) : Except Err Unit × World → Prop
  | (r, w') => w'.published = w.published ∧
    match r with
    | .ok _ => commit w.table w'.table
    | .error e => w'.table = w.table ∨ commit w.table w'.table ∧ RedisCaused e

theorem Commits.of_unchanged {commit : Table → Table → Prop} {w w₁ : World}
    {x : Except Err Unit × World} (h : Unchanged w w₁) (hc : Commits commit w₁ x) :
    Commits commit w x := by
  obtain ⟨ht, hp⟩ := h
  rcases x with ⟨_ | _, w'⟩ <;> simpa only [Commits, ht, hp] using hc

/-- Reads, then a write. -/
theorem Commits.read_bind {α : Type} {commit : Table → Table → Prop} {p : Prog α}
    {f : α → Prog Unit} {w : World} (hp : Unchanged w (p.run w).2)
    (hf : ∀ a w₁, p.run w = (.ok a, w₁) → Commits commit w₁ ((f a).run w₁)) :
    Commits commit w ((p >>= f).run w) := by
  rcases hr : p.run w with ⟨e | a, w₁⟩ <;> rw [hr] at hp
  · simp only [run_bind, hr]
    exact ⟨hp.2, .inl hp.1⟩
  · simpa only [run_bind, hr] using (hf a w₁ hr).of_unchanged hp

/-- A write, then a Redis tail. -/
theorem Commits.bind {commit : Table → Table → Prop} {p : Prog Unit} {f : Unit → Prog Unit}
    {w : World} (hp : Commits commit w (p.run w))
    (hf : ∀ w₁, p.run w = (.ok (), w₁) → RedisTail (f ()) w₁) :
    Commits commit w ((p >>= f).run w) := by
  rcases hr : p.run w with ⟨e | ⟨⟩, w₁⟩ <;> rw [hr] at hp
  · simpa only [run_bind, hr] using hp
  · obtain ⟨⟨ht, hpub⟩, he⟩ := hf w₁ hr
    simp only [run_bind, hr]
    rcases ht' : (f ()).run w₁ with ⟨e | ⟨⟩, w₂⟩ <;> rw [ht'] at ht hpub he
    · exact ⟨hpub.trans hp.1, .inr ⟨ht ▸ hp.2, he e rfl⟩⟩
    · exact ⟨hpub.trans hp.1, ht ▸ hp.2⟩

/-- `INSERT` of `u` committed. -/
def insertCommits (u : User) (t t' : Table) : Prop := t.insert u = .ok t'

/-- `UPDATE` of `u` committed, at some time, on a row. -/
def updateCommits (u : User) (t t' : Table) : Prop := ∃ now n, t.update u now = .ok (n + 1, t')

/-- `DELETE` of id `i` committed on a row. -/
def deleteCommits (i : UUID) (t t' : Table) : Prop := (t.delete i).1 ≠ 0 ∧ t' = (t.delete i).2

theorem UserRepository.create_commits (u : User) (w : World) :
    Commits (insertCommits u) w ((UserRepository.create u).run w) := by
  rw [UserRepository.run_create]
  rcases h : w.table.insert u with _ | t
  · exact ⟨rfl, .inl rfl⟩
  · exact ⟨rfl, h⟩

theorem UserRepository.update_commits (u : User) (w : World) :
    Commits (updateCommits u) w ((UserRepository.update u).run w) := by
  rw [UserRepository.run_update]
  rcases h : w.table.update u (w.clock + 1) with _ | ⟨_ | n, t⟩
  · exact ⟨rfl, .inl rfl⟩
  · exact ⟨rfl, .inl (Table.update_ok_zero h)⟩
  · exact ⟨rfl, _, _, h⟩

/-- After an update that succeeds the id finds a row. -/
theorem UserRepository.update_found {u : User} {w w' : World}
    (h : (UserRepository.update u).run w = (.ok (), w')) : ∃ r, w'.table.select (.id u.id) = some r := by
  rw [UserRepository.run_update] at h
  rcases hu : w.table.update u (w.clock + 1) with _ | ⟨_ | n, t⟩ <;>
    simp only [hu, Prod.mk.injEq, reduceCtorEq, false_and] at h
  obtain ⟨-, rfl⟩ := h
  obtain ⟨_, -, hs⟩ := Table.select_update hu
  exact ⟨_, hs⟩

theorem UserRepository.delete_commits (i : UUID) (w : World) :
    Commits (deleteCommits i) w ((UserRepository.delete i).run w) := by
  rw [UserRepository.run_delete]
  by_cases h : (w.table.delete i).1 = 0
  · simp only [h, if_true]
    exact ⟨rfl, .inl (Table.delete_count_zero h)⟩
  · simp only [h, if_false]
    exact ⟨rfl, h, rfl⟩

theorem CacheDecorator.create_commits (u : User) (w : World) :
    Commits (insertCommits u) w ((CacheDecorator.create newUserRepository u).run w) :=
  Commits.bind (UserRepository.create_commits u w) fun w₁ _ =>
    ((execPipeline_redisTail _ w₁).wrapErr _).wrapErr _

theorem CacheDecorator.update_commits (u : User) (w : World) :
    Commits (updateCommits u) w ((CacheDecorator.update newUserRepository u).run w) :=
  Commits.read_bind ((UserRepository.getBy_allCalls trivial).unchanged w) fun _ w₁ _ =>
    Commits.bind (UserRepository.update_commits u w₁) fun _ h₂ =>
      have ⟨_, hs⟩ := UserRepository.update_found h₂
      (((execPipeline_redisTail _ _).wrapErr _).wrapErr _).bind fun _ h₃ =>
        RedisTail.getBy_bind (h₃.1 ▸ hs) (((execPipeline_redisTail _ _).wrapErr _).wrapErr _)

theorem CacheDecorator.delete_commits (i : UUID) (w : World) :
    Commits (deleteCommits i) w ((CacheDecorator.delete newUserRepository i).run w) :=
  Commits.read_bind ((UserRepository.getBy_allCalls trivial).unchanged w) fun _ w₁ _ =>
    Commits.bind (UserRepository.delete_commits i w₁) fun w₂ _ =>
      ((execPipeline_redisTail _ w₂).wrapErr _).wrapErr _

/-! ### Mutations through the service -/

/-- What a mutation through the service can end in, `commit u` relating the store before and
after the write about `u`: success, with the write about a user with id `id` committed and one
event of kind `kind` about that user published; or an error, with nothing published, and the
store as it was or the write committed and the error from Redis. -/
def Settles {α : Type} (kind : EventType) (id : UUID) (commit : User → Table → Table → Prop)
    (w : World) : Except Err α × World → Prop
  | (.ok _, w') => ∃ u, u.id = id ∧ commit u w.table w'.table ∧
      w'.published = w.published ++ [(kind, u)]
  | (.error e, w') => w'.published = w.published ∧
      (w'.table = w.table ∨ ∃ u, u.id = id ∧ commit u w.table w'.table ∧ RedisCaused e)

/-- Reads that end in a user with id `id`, then `commit`: the mutation settles. -/
theorem settles_of_commits {α : Type} {pre : Prog User} {write : User → Prog Unit}
    {f : User → α} {context : String} {kind : EventType} {id : UUID}
    {commit : User → Table → Table → Prop} {w : World} (hpre : Unchanged w (pre.run w).2)
    (hwrite : ∀ u w₁, pre.run w = (.ok u, w₁) → u.id = id ∧ Commits (commit u) w₁ ((write u).run w₁)) :
    Settles kind id commit w
      ((pre >>= fun u => Service.commit context (write u) kind u >>= fun _ => pure (f u)).run w) := by
  rcases hr : pre.run w with ⟨e | u, w₁⟩ <;> rw [hr] at hpre
  · simp only [run_bind, hr]
    exact ⟨hpre.2, .inl hpre.1⟩
  · obtain ⟨hid, hc⟩ := hwrite u w₁ hr
    replace hc := hc.of_unchanged hpre
    simp only [run_bind, hr, Service.commit, run_wrapErr]
    rcases hw : (write u).run w₁ with ⟨e | ⟨⟩, w₂⟩ <;> rw [hw] at hc
    · exact ⟨hc.1, hc.2.imp_right fun h => ⟨u, hid, h.1, h.2.wrap context⟩⟩
    · exact ⟨u, hid, hc.2, by simp [Service.publish, Call.exec, hc.1]⟩

/-- The calls of `prepareUser`: two clock readings and two reads through the decorator. -/
theorem prepareUser_allCalls {P : Call → Prop} (hnow : P .now)
    (hread : ∀ key q, (CacheDecorator.getBy key (UserRepository.getBy q)).AllCalls P)
    (user : User) (id : UUID) (hashed : Except Err String) :
    (Service.prepareUser production user id hashed).AllCalls P :=
  ((Prog.AllCalls.done _).wrapErr _).bind fun _ => (Prog.AllCalls.send hnow).bind fun _ =>
    (Prog.AllCalls.send hnow).bind fun _ => (hread _ _).attempt.bind fun _ =>
      (Service.failIf_allCalls _ _).bind fun _ => (hread _ _).attempt.bind fun _ =>
        (Service.failIf_allCalls _ _).bind fun _ => .done _

theorem prepareUser_reads (user : User) (id : UUID) (hashed : Except Err String) :
    (Service.prepareUser production user id hashed).AllCalls Call.Reads :=
  prepareUser_allCalls trivial (fun key q => (decoratorRead_looks key q).imp fun _ => Call.Looks.reads)
    user id hashed

/-- The user `prepareUser` returns has the id it was given, and the request's email and
nickname. -/
theorem prepareUser_keys {repo : Repository} {user : User} {id : UUID} {hashed : Except Err String}
    {w w' : World} {u : User} (h : (Service.prepareUser repo user id hashed).run w = (.ok u, w')) :
    u.id = id ∧ u.email = user.email ∧ u.nickname = user.nickname := by
  repeat obtain ⟨_, _, -, h⟩ := run_bind_eq_ok h
  obtain ⟨⟨⟩, -⟩ := Prod.mk.inj h
  exact ⟨rfl, rfl, rfl⟩

section Reads

variable {P : Call → Prop} (hread : ∀ key q, (CacheDecorator.getBy key (UserRepository.getBy q)).AllCalls P)
include hread

/-! The reads of `UpdateUser` and `DeleteUser` make only the calls of reads through the decorator. -/

theorem checkEmail_allCalls (id : UUID) (email : String) :
    (Service.checkEmail production id email).AllCalls P :=
  (hread _ _).attempt.bind fun r => by
    cases r <;> first | exact Service.failIf_allCalls _ _ | exact .done _

theorem getForChange_allCalls (id : UUID) (context : String) :
    (Service.getForChange production id context).AllCalls P :=
  (hread _ _).tryCatch fun _ => by split <;> exact .done _

theorem prepareUpdate_allCalls (id : UUID) (updatedUser : User) :
    (Service.prepareUpdate production id updatedUser).AllCalls P :=
  (getForChange_allCalls hread _ _).bind fun _ => by
    dsimp only
    split
    · exact (checkEmail_allCalls hread _ _).bind fun _ => .done _
    · exact .done _

end Reads

theorem getForChange_looks (id : UUID) (context : String) :
    (Service.getForChange production id context).AllCalls Call.Looks :=
  getForChange_allCalls decoratorRead_looks id context

theorem prepareUpdate_looks (id : UUID) (updatedUser : User) :
    (Service.prepareUpdate production id updatedUser).AllCalls Call.Looks :=
  prepareUpdate_allCalls decoratorRead_looks id updatedUser

theorem prepareUpdate_id {id : UUID} {updatedUser : User} {w w' : World} {u : User}
    (hw : WellKeyed w.cache) (h : (Service.prepareUpdate production id updatedUser).run w = (.ok u, w')) :
    u.id = id := by
  obtain ⟨user, w₁, hu, h⟩ := run_bind_eq_ok h
  have hid := getForChange_id hw hu
  dsimp only at h
  split at h
  · obtain ⟨_, _, -, h⟩ := run_bind_eq_ok h
    obtain ⟨⟨⟩, -⟩ := Prod.mk.inj h
    exact hid
  · obtain ⟨⟨⟩, -⟩ := Prod.mk.inj h
    exact hid

/-- Whatever Redis does with each round trip, from a well-keyed cache each mutation through the
service settles: one that succeeds committed its store write about a user with the id asked for
(for `CreateUser`, the id it assigned) and published one event of its kind about that user; one
that fails published nothing, and left the store as it was unless the write committed and the
error came from Redis. -/
theorem createUser_settles (w : World) (user : User) (id : UUID) (hashed : Except Err String) :
    Settles .created id insertCommits w ((Service.createUser production user id hashed).run w) :=
  settles_of_commits ((prepareUser_reads user id hashed).unchanged w) fun _ w₁ h =>
    ⟨(prepareUser_keys h).1, CacheDecorator.create_commits _ w₁⟩

theorem updateUser_settles (w : World) (hw : WellKeyed w.cache) (id : UUID) (updatedUser : User) :
    Settles .updated id updateCommits w ((Service.updateUser production id updatedUser).run w) :=
  settles_of_commits ((prepareUpdate_looks id updatedUser).looks_frame w).1 fun _ w₁ h =>
    ⟨prepareUpdate_id hw h, CacheDecorator.update_commits _ w₁⟩

theorem deleteUser_settles (w : World) (hw : WellKeyed w.cache) (id : UUID) :
    Settles .deleted id (fun u => deleteCommits u.id) w ((Service.deleteUser production id).run w) :=
  settles_of_commits ((getForChange_looks id _).looks_frame w).1 fun _ w₁ h =>
    have hid := getForChange_id hw h
    ⟨hid, hid ▸ CacheDecorator.delete_commits id w₁⟩

theorem mutations_settle (w : World) (hw : WellKeyed w.cache) (user : User) (id : UUID)
    (hashed : Except Err String) (updatedUser : User) :
    Settles .created id insertCommits w ((Service.createUser production user id hashed).run w) ∧
    Settles .updated id updateCommits w ((Service.updateUser production id updatedUser).run w) ∧
    Settles .deleted id (fun u => deleteCommits u.id) w ((Service.deleteUser production id).run w) :=
  ⟨createUser_settles w user id hashed, updateUser_settles w hw id updatedUser,
    deleteUser_settles w hw id⟩

theorem mutations_settle_from_empty :
    WellKeyed World.empty.cache ∧
      Settles .created aliceId insertCommits World.empty
        ((Service.createUser production alice aliceId (.ok "h")).run World.empty) ∧
      Settles .updated aliceId updateCommits World.empty
        ((Service.updateUser production aliceId alice).run World.empty) ∧
      Settles .deleted aliceId (fun u => deleteCommits u.id) World.empty
        ((Service.deleteUser production aliceId).run World.empty) :=
  ⟨(fun _ _ h => nomatch h), mutations_settle World.empty (fun _ _ h => nomatch h) alice aliceId _ alice⟩

/-- Redis answers the two lookups of `CreateUser` and fails the pipeline of `cacheUser`: the row
is committed, yet the service returns the Redis error and publishes nothing. -/
theorem createUser_commits_then_fails :
    let r := (Service.createUser production alice aliceId (.ok "$2a$10$hash")).run
      { World.empty with redis := [.ok, .ok, .fail "connection refused" []] }
    r.1 = .error (.wrap "failed to save user" (.wrap "error caching user"
      (.wrap "error executing cache pipeline" (.redis "connection refused")))) ∧
    r.2.table.rows = [{ alice with password := "$2a$10$hash", createdAt := 1, updatedAt := 2 }] ∧
    r.2.published = [] :=
  ⟨rfl, by decide, by decide⟩

end UsersService
