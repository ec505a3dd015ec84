import UsersService.Service.Answers

/-! Concurrent requests to the service. Nothing orders the steps of one `UpdateUser` against
another's: each reads the row, merges its request into what it read, writes back every column,
and only then hands the publisher its event. Two updates of one user that both read the row
before either writes lose the first one's change, though both succeed and the first announces
it. And between one update's store write and its call to the publisher, another can write and
publish: the events then reach Kafka in the other order than the writes reached the store, and a
consumer replaying them ends with a profile the store no longer holds. So the agreement of
`Service.Runs` between the event log and the store is a property of sequential runs only.

Nothing orders a read's cache fill after a delete either: a `GetUser` that read the row before a
`DeleteUser` can cache it after the delete dropped its keys, and until the entries expire every
`GetUser` answers a user the store and the event log say was deleted. -/

namespace UsersService

open Prog

/-! ### A caller running a program -/

namespace Prog

variable {α β γ : Type}

theorem pure_bind (a : α) (f : α → Prog β) : (pure a >>= f) = f a := rfl

theorem bind_assoc (p : Prog α) (f : α → Prog β) (g : β → Prog γ) :
    (p >>= f) >>= g = p >>= fun a => f a >>= g := by
  show (p.bind f).bind g = p.bind fun a => (f a).bind g
  induction p with
  | done r => cases r <;> rfl
  | call c k ih =>
    show Prog.call c (fun r => ((k r).bind f).bind g) = Prog.call c fun r => (k r).bind _
    exact congrArg _ (funext ih)

/-- An error handler around a sequence: the first program's outcome, then the rest under the
handler, or the handler on the first program's error. -/
theorem tryCatch_bind (p : Prog α) (f : α → Prog β) (h : Err → Prog β) :
    (p >>= f).tryCatch h = p.attempt >>= fun r => match r with
      | .ok a => (f a).tryCatch h
      | .error e => h e := by
  induction p with
  | done r => cases r <;> rfl
  | call c k ih => exact congrArg (Prog.call c) (funext ih)

end Prog

/-- Setting an entry of a list to the value it holds changes nothing. -/
theorem List.set_self_of_getElem? {α : Type} {l : List α} {i : Nat} {a : α} (h : l[i]? = some a) :
    l.set i a = l :=
  List.ext_getElem? fun j => by
    rw [List.getElem?_set]
    split_ifs with hj hlt
    · rw [← hj, h]
    · rw [List.getElem?_eq_none (Nat.le_of_not_lt hlt)] at h
      cases h
    · rfl

theorem interleave_append (s₁ s₂ : List Nat) (w : World) (ts : List (Prog Unit)) :
    interleave (s₁ ++ s₂) w ts = interleave s₂ (interleave s₁ w ts).1 (interleave s₁ w ts).2 := by
  induction s₁ generalizing w ts with
  | nil => rfl
  | cons i s₁ ih => exact ih _ _

/-- A caller scheduled once per call of the first part of its program runs that part to its end,
and then stands at the rest. -/
theorem interleave_bind {α : Type} (q : Prog α) (f : α → Prog Unit) {i : Nat} {w : World}
    {ts : List (Prog Unit)} (hi : ts[i]? = some (q >>= f)) :
    interleave (List.replicate (q.calls w) i) w ts =
      ((q.run w).2, ts.set i (Prog.bind (.done (q.run w).1) f)) := by
  induction q generalizing w ts with
  | done r => exact congrArg _ (List.set_self_of_getElem? hi).symm
  | call c k ih =>
    have hlt : i < ts.length := (List.getElem?_eq_some_iff.mp hi).1
    have hstep : stepThread i w ts = ((c.exec w).2, ts.set i ((k (c.exec w).1) >>= f)) := by
      unfold stepThread
      rw [hi]
      rfl
    rw [Prog.calls, List.replicate_succ, interleave, hstep, ih _ (List.getElem?_set_self hlt),
      List.set_set]
    rfl

/-! ### `UpdateUser` in two parts -/

/-- `UpdateUser` up to its call to the publisher: the read, the merge and the store write. -/
def Service.updateWrite (repo : Repository) (id : UUID) (updatedUser : User) : Prog User := do
  let user ← Service.prepareUpdate repo id updatedUser
  wrapErr "failed to save user changes" (repo.update user)
  pure user

theorem Service.updateUser_eq (repo : Repository) (id : UUID) (updatedUser : User) :
    Service.updateUser repo id updatedUser =
      Service.updateWrite repo id updatedUser >>= fun u =>
        Service.publish .updated u >>= fun _ => pure u := by
  simp only [Service.updateUser, Service.updateWrite, Service.commit, Prog.bind_assoc, Prog.pure_bind]

theorem Service.mergeField_empty (current : String) : Service.mergeField current "" = current :=
  if_neg fun h => h.1 rfl

theorem Service.mergeField_of_ne_empty (current : String) {requested : String}
    (h : requested ≠ "") : Service.mergeField current requested = requested := by
  unfold Service.mergeField
  split_ifs with hc
  · rfl
  · exact not_not.mp (not_and.mp hc h)

theorem Coherent.wellKeyed {w : World} (hc : Coherent w) : WellKeyed w.cache := fun k p hk => by
  obtain ⟨r, -, hkr, rfl⟩ := hc k p hk
  exact hkr

section Keeps

variable {w : World} (h : Holds w) {id : UUID}
include h

/-- The read and the merge of an `UpdateUser` of a stored user that changes neither the email nor
the nickname succeed, by reads only: the merged user keeps the row's id, email, nickname and
creation time. -/
theorem prepareUpdate_keeps {old : User} (hs : w.table.select (.id id) = some old) (r : User)
    (hkeep : r.email = "" ∧ r.nickname = "") :
    ∃ u w₁, (Service.prepareUpdate production id r).run w = (.ok u, w₁) ∧ ReadOnly w w₁ ∧
      u.id = id ∧ u.email = old.email ∧ u.nickname = old.nickname ∧ u.createdAt = old.createdAt ∧
      u.country = Service.mergeField old.country r.country := by
  obtain ⟨hold, hid⟩ := Table.select_eq_some.mp hs
  have hoid : old.id = id := by simpa [Lookup.matches] using hid
  obtain ⟨res, w₁, hrun, hw₁, hres⟩ := prepareUpdate_verdict h hs r
  cases res with
  | error e =>
    obtain ⟨-, hany⟩ := hres
    rw [hkeep.1, Service.mergeField_empty, Table.select_own hold (by simp [Lookup.matches])] at hany
    simp [hoid] at hany
  | ok u =>
    obtain ⟨old', hs', rfl⟩ := prepareUpdate_of_nil h.answering h.coherent hrun
    obtain rfl : old = old' := Option.some.inj (hs.symm.trans hs')
    exact ⟨_, w₁, hrun, hw₁, hoid, by rw [hkeep.1, Service.mergeField_empty],
      by rw [hkeep.2, Service.mergeField_empty], rfl, rfl⟩

/-- A write through the decorator of a user with a stored row's id, email and nickname succeeds:
the row becomes the user, with its creation time kept and the clock's next reading as
`UpdatedAt`; nothing is published, and the invariant holds on. -/
theorem decoratorUpdate_keeps {cur u : User} (hs : w.table.select (.id id) = some cur)
    (hid : u.id = id) (he : u.email = cur.email) (hn : u.nickname = cur.nickname) :
    ∃ w', (production.update u).run w = (.ok (), w') ∧ Holds w' ∧ w'.published = w.published ∧
      w'.table.select (.id id) = some (Table.updatedRow cur u (w.clock + 1)) := by
  subst hid
  obtain ⟨hcur, hcid⟩ := Table.select_eq_some.mp hs
  have hown : ∀ {q : Lookup}, q.matches cur → w.table.select q = some cur :=
    fun hq => Table.select_own hcur hq
  have hverdict := decoratorUpdate_verdict h hs
  rw [hn, he, hown (by simp [Lookup.matches]), hown (by simp [Lookup.matches])] at hverdict
  simp only [Lookup.matches, beq_iff_eq] at hcid
  simp only [Option.any_some, hcid, bne_self_eq_false, Bool.false_eq_true, if_false] at hverdict
  rcases hupd : (production.update u).run w with ⟨e | _, w'⟩ <;> rw [hupd] at hverdict
  · cases hverdict
  obtain ⟨cur', hs', hsel, hp⟩ := CacheDecorator.update_ok_of_nil h.answering hupd
  obtain rfl : cur = cur' := Option.some.inj (hs.symm.trans hs')
  have hkeep := keepsCoherent_update u w h.coherent h.answering
  rw [show CacheDecorator.update newUserRepository u = production.update u from rfl, hupd] at hkeep
  exact ⟨w', rfl, ⟨hkeep.1, hkeep.2⟩, hp, hsel⟩

/-- The store write of an `UpdateUser` of a stored user that changes neither the email nor the
nickname succeeds: it leaves the merged user's profile under the id, publishes nothing, and the
invariant holds on. -/
theorem updateWrite_keeps {old : User} (hs : w.table.select (.id id) = some old) (r : User)
    (hkeep : r.email = "" ∧ r.nickname = "") :
    ∃ u w', (Service.updateWrite production id r).run w = (.ok u, w') ∧ Holds w' ∧
      w'.published = w.published ∧ u.id = id ∧
      u.country = Service.mergeField old.country r.country ∧
      w'.table.profiles id = some u.marshal.profile := by
  obtain ⟨u, w₁, hrun, hw₁, hid, he, hn, hcr, hc⟩ := prepareUpdate_keeps h hs r hkeep
  obtain ⟨w₂, hupd, h₂, hp, hsel⟩ :=
    decoratorUpdate_keeps hw₁.holds (by rw [hw₁.unchanged.1]; exact hs) hid he hn
  refine ⟨u, w₂, ?_, h₂, hp.trans hw₁.unchanged.2, hid, hc, ?_⟩
  · rw [Service.updateWrite, run_bind, hrun]
    simp only [run_bind, run_wrapErr, hupd, run_pure]
  · rw [Table.profiles, hsel]
    simp [Table.updatedRow, UserJson.profile, hcr]

/-- A `DeleteUser` of a stored user succeeds, removes the row and logs the removal. -/
theorem deleteUser_removes {old : User} (hs : w.table.select (.id id) = some old) :
    ∃ w', (Service.deleteUser production id).run w = (.ok (), w') ∧ Holds w' ∧
      w'.table.select (.id id) = none ∧ Logged w w' := by
  have hv := deleteUser_verdict h id
  have hset := deleteUser_settles w h.coherent.wellKeyed id
  have hlog := deleteUser_logged h.answering h.coherent id
  have hholds := ServiceStep.holds (.deleteUser id) h
  simp only [ServiceStep.apply] at hholds
  rcases hrun : (Service.deleteUser production id).run w with ⟨e | ⟨⟩, w'⟩ <;>
    rw [hrun] at hv hset hlog hholds
  · simp [Directory.findVerdict, hs] at hv
  obtain ⟨u, hu, ⟨-, htab⟩, -⟩ := hset
  refine ⟨w', rfl, hholds, ?_, hlog⟩
  rcases hsel : w'.table.select (.id id) with _ | r
  · rfl
  obtain ⟨hr, hm⟩ := Table.select_eq_some.mp hsel
  rw [htab, Table.mem_delete] at hr
  exact absurd (by simpa [Lookup.matches, hu] using hm) hr.2

end Keeps

/-! ### Two updates racing -/

/-! ### A read racing a delete -/

/-- From a coherent cache, with Redis answering every round trip: take a stored user whose id key
is not cached, and a `GetUser` and a `DeleteUser` of it started together. Some interleaving lets
both succeed: the store holds no row of the id and the events' Kafka messages, replayed over the
profiles of the rows before, hold no profile for it; yet the `GetUser`, which read the row before
the delete, caches it after the delete dropped its keys, and a later `GetUser` answers the
deleted user. -/
theorem deleted_user_read_back (w : World) (hc : Coherent w) (hr : w.redis = []) {id : UUID}
    {old : User} (hs : w.table.select (.id id) = some old) (hmiss : w.cache (userKey id) = none) :
    let callers : List (Prog Unit) := [Service.getUser production id >>= fun _ => pure (),
      Service.deleteUser production id >>= fun _ => pure ()]
    ∃ sched, (interleave sched w callers).2 = [.done (.ok ()), .done (.ok ())] ∧
      (interleave sched w callers).1.table.select (.id id) = none ∧
      (∃ events, (interleave sched w callers).1.published = w.published ++ events ∧
        ∀ fresh, replay w.table.profiles
          ((UserEventPublisher.messages fresh events).filterMap KafkaMessage.decode) id = none) ∧
      ((Service.getUser production id).run (interleave sched w callers).1).1 =
        .ok old.marshal.unmarshal := by
  intro callers
  obtain ⟨w₃, hdel, h₃, hnone, events, hpub, hrep⟩ := deleteUser_removes ⟨hc, hr⟩ hs
  let g : User → Prog Unit := fun _ => pure ()
  let fill := wrapErr "failed to get user"
    (wrapErr "error caching user" (cacheUser old) >>= fun _ => pure old)
  have hq₁ : ((getUserFromCache (userKey id)).attempt.attempt).run w = (.ok (.ok (.error redisNil)), w) := by
    simp [run_getUserFromCache, nextRedis_of_nil _ hr, readKey, hmiss, Except.map]
  have hq₂ : ((UserRepository.getByID id).attempt).run w = (.ok (.ok old), w) := by
    simp [UserRepository.getByID, UserRepository.run_getBy, hs]
  have hfill : fill.run w₃ = (.ok old, { w₃ with cache := applyAll (setCmds old) w₃.cache }) := by
    simp [fill, run_cacheUser_of_nil h₃.answering]
  refine ⟨List.replicate ((getUserFromCache (userKey id)).attempt.attempt.calls w) 0 ++
    List.replicate ((UserRepository.getByID id).attempt.calls w) 0 ++
    List.replicate ((Service.deleteUser production id).calls w) 1 ++
    List.replicate (fill.calls w₃) 0, ?_⟩
  simp only [interleave_append]
  rw [interleave_bind _ _ (i := 0) (by
      show some ((CacheDecorator.getBy (userKey id) (UserRepository.getByID id)).tryCatch
        (fun e => throw (.wrap "failed to get user" e)) >>= g) = _
      rw [CacheDecorator.getBy, Prog.tryCatch_bind, Prog.bind_assoc]), hq₁,
    interleave_bind _ _ (i := 0) (by
      show some (((UserRepository.getByID id >>= _).tryCatch _) >>= g) = _
      rw [Prog.tryCatch_bind, Prog.bind_assoc]), hq₂,
    interleave_bind (Service.deleteUser production id) (fun _ => pure ()) (i := 1) rfl, hdel,
    interleave_bind fill g (i := 0) rfl, hfill]
  refine ⟨rfl, hnone, ⟨events, hpub, fun fresh => ?_⟩, ?_⟩
  · rw [decode_messages, hrep]
    simp [Table.profiles, hnone]
  · have hid : old.id = id := by
      simpa [Lookup.matches] using (Table.select_eq_some.mp hs).2
    have hkey : applyAll (setCmds old) w₃.cache (userKey id) = some old.marshal := by
      rw [applyAll_setCmds, if_pos (by simp [UserJson.keys, hid])]
    show ((wrapErr _ (CacheDecorator.getBy (Lookup.id id).key (UserRepository.getBy (.id id)))).run
      { w₃ with cache := applyAll (setCmds old) w₃.cache }).1 = _
    rw [run_wrapErr,
      run_getBy_of_nil (w := { w₃ with cache := applyAll (setCmds old) w₃.cache }) h₃.answering]
    simp [Lookup.key, hkey]

/-- Alice deleted while a `GetUser` of her fills the cache. -/
theorem deleted_user_read_back_for_alice :
    Coherent raceWorld ∧ raceWorld.redis = [] ∧ raceWorld.table.select (.id aliceId) = some alice ∧
      raceWorld.cache (userKey aliceId) = none ∧
      let callers : List (Prog Unit) := [Service.getUser production aliceId >>= fun _ => pure (),
        Service.deleteUser production aliceId >>= fun _ => pure ()]
      ∃ sched, (interleave sched raceWorld callers).2 = [.done (.ok ()), .done (.ok ())] ∧
        (interleave sched raceWorld callers).1.table.select (.id aliceId) = none ∧
        (∃ events, (interleave sched raceWorld callers).1.published = raceWorld.published ++ events ∧
          ∀ fresh, replay raceWorld.table.profiles
            ((UserEventPublisher.messages fresh events).filterMap KafkaMessage.decode) aliceId = none) ∧
        ((Service.getUser production aliceId).run (interleave sched raceWorld callers).1).1 =
          .ok alice.marshal.unmarshal :=
  have hc : Coherent raceWorld := fun _ _ h => nomatch h
  have hs : raceWorld.table.select (.id aliceId) = some alice := by decide
  ⟨hc, rfl, hs, rfl, deleted_user_read_back raceWorld hc rfl hs rfl⟩

end UsersService
