import UsersService.Cache.Decorator

/-! When Redis answers every round trip, the decorator keeps the cache coherent with the store:
every entry is the JSON of the one stored row it is a key of. Each operation of the decorator
over the store keeps this, and so does the expiry of an entry; hence it holds after every run
of them, and in every such state a cached read answers what the store would, and the entries
of one user agree. -/

namespace UsersService

/-- The key a lookup's cached copy sits under. -/
def Lookup.key : Lookup → String
  | .id i => userKey i
  | .email e => emailKey e
  | .nickname n => nickKey n

/-- A stored row is found by every lookup whose key is one of the row's keys. -/
theorem Lookup.matches_of_key_mem {q : Lookup} {r : User} (h : q.key ∈ r.marshal.keys) :
    q.matches r = true := by
  simp only [UserJson.keys, List.mem_cons, List.mem_singleton, List.not_mem_nil, or_false,
    User.marshal_id, User.marshal_email, User.marshal_nickname] at h
  cases q with
  | id i =>
    rcases h with h | h | h
    · simp [Lookup.matches, userKey_injective h.symm]
    · exact absurd h (userKey_ne_emailKey _ _)
    · exact absurd h (userKey_ne_nickKey _ _)
  | email e =>
    rcases h with h | h | h
    · exact absurd h.symm (userKey_ne_emailKey _ _)
    · simp [Lookup.matches, emailKey_injective h.symm]
    · exact absurd h (emailKey_ne_nickKey _ _)
  | nickname n =>
    rcases h with h | h | h
    · exact absurd h.symm (userKey_ne_nickKey _ _)
    · exact absurd h.symm (emailKey_ne_nickKey _ _)
    · simp [Lookup.matches, nickKey_injective h.symm]

/-- Every key is a key of at most one stored row. -/
theorem Table.eq_of_mem_keys {t : Table} {r r' : User} {k : String} (hr : r ∈ t.rows)
    (hr' : r' ∈ t.rows) (hk : k ∈ r.marshal.keys) (hk' : k ∈ r'.marshal.keys) : r = r' := by
  simp only [UserJson.keys, List.mem_cons, List.mem_singleton, List.not_mem_nil, or_false,
    User.marshal_id, User.marshal_email, User.marshal_nickname] at hk
  rcases hk with rfl | rfl | rfl
  · exact Table.eq_of_matches hr hr' (q := .id r.id) (by simp [Lookup.matches])
      (Lookup.matches_of_key_mem hk')
  · exact Table.eq_of_matches hr hr' (q := .email r.email) (by simp [Lookup.matches])
      (Lookup.matches_of_key_mem hk')
  · exact Table.eq_of_matches hr hr' (q := .nickname r.nickname) (by simp [Lookup.matches])
      (Lookup.matches_of_key_mem hk')

/-- Every cache entry is the JSON of a stored row it is a key of. -/
def Coherent (w : World) : Prop :=
  ∀ k p, w.cache k = some p → ∃ r ∈ w.table.rows, k ∈ r.marshal.keys ∧ p = r.marshal

namespace Coherent

variable {w : World}

/-- The entries of one user hold the same document. -/
theorem payload_eq (hc : Coherent w) {k k' : String} {p p' : UserJson} (h : w.cache k = some p)
    (h' : w.cache k' = some p') (hid : p.id = p'.id) : p = p' := by
  obtain ⟨r, hr, -, rfl⟩ := hc k p h
  obtain ⟨r', hr', -, rfl⟩ := hc k' p' h'
  rw [Table.eq_of_mem (t := w.table) hr hr' (.inl (by simpa using hid))]

/-- A cached lookup holds the document of the row the store finds. -/
theorem select_of_cache (hc : Coherent w) {q : Lookup} {p : UserJson} (h : w.cache q.key = some p) :
    ∃ r, w.table.select q = some r ∧ p = r.marshal := by
  obtain ⟨r, hr, hk, rfl⟩ := hc _ p h
  exact ⟨r, Table.select_eq_some.mpr ⟨hr, Lookup.matches_of_key_mem hk⟩, rfl⟩

theorem of_rows (hc : Coherent w) {t : Table} (h : ∀ r ∈ w.table.rows, r ∈ t.rows) :
    Coherent { w with table := t } := fun k p hk => by
  obtain ⟨r, hr, hkr, rfl⟩ := hc k p hk
  exact ⟨r, h r hr, hkr, rfl⟩

/-- Caching a stored row keeps the cache coherent. -/
theorem setCmds (hc : Coherent w) {u : User} (hu : u ∈ w.table.rows) :
    Coherent { w with cache := applyAll (setCmds u) w.cache } := fun k p hk => by
  simp only [applyAll_setCmds] at hk
  split at hk
  · cases hk
    exact ⟨u, hu, by assumption, rfl⟩
  · exact hc k p hk

/-- Dropping the keys of `old` and replacing the table with one that keeps every other row keeps
the cache coherent. -/
theorem delCmds (hc : Coherent w) {old : User} (hold : old ∈ w.table.rows) {t : Table}
    (hkeep : ∀ r ∈ w.table.rows, r.id ≠ old.id → r ∈ t.rows) :
    Coherent { w with table := t, cache := applyAll (delCmds old) w.cache } := fun k p hk => by
  simp only [applyAll_delCmds] at hk
  split at hk
  · cases hk
  · rename_i hnot
    obtain ⟨r, hr, hkr, rfl⟩ := hc k p hk
    refine ⟨r, hkeep r hr fun hid => hnot ?_, hkr, rfl⟩
    rwa [← Table.eq_of_mem hr hold (.inl hid)]

/-- Forgetting an entry keeps the cache coherent. -/
theorem expire (hc : Coherent w) (key : String) :
    Coherent { w with cache := fun k => if k = key then none else w.cache k } := fun k p hk => by
  dsimp only at hk
  split at hk
  · cases hk
  · exact hc k p hk

end Coherent

/-! ### The decorator's operations when Redis answers every round trip -/

section Runs

variable {w : World} (hr : w.redis = [])
include hr

theorem run_cacheUser_of_nil (u : User) :
    (cacheUser u).run w = (.ok (), { w with cache := applyAll (setCmds u) w.cache }) := by
  simp [cacheUser, run_execPipeline, nextRedis_of_nil _ hr]

theorem run_invalidateUserCache_of_nil (u : User) :
    (invalidateUserCache u).run w = (.ok (), { w with cache := applyAll (delCmds u) w.cache }) := by
  simp [invalidateUserCache, run_execPipeline, nextRedis_of_nil _ hr]

/-- A read through the decorator: the cached document if there is one, and otherwise the
store's row, cached on the way. -/
theorem run_getBy_of_nil (q : Lookup) :
    (CacheDecorator.getBy q.key (UserRepository.getBy q)).run w =
      match w.cache q.key with
      | some p => (.ok p.unmarshal, w)
      | none =>
        match w.table.select q with
        | some u => (.ok u, { w with cache := applyAll (setCmds u) w.cache })
        | none => (.error .notFound, w) := by
  rcases hk : w.cache q.key with _ | p
  · rcases hs : w.table.select q with _ | u <;>
      simp [CacheDecorator.getBy, run_getUserFromCache, nextRedis_of_nil _ hr, readKey, hk,
        UserRepository.run_getBy, hs, run_cacheUser_of_nil hr, Except.map]
  · simp [CacheDecorator.getBy, run_getUserFromCache, nextRedis_of_nil _ hr, readKey, hk,
      Except.map]

theorem run_create_of_nil (u : User) :
    (CacheDecorator.create newUserRepository u).run w =
      match w.table.insert u with
      | .ok t => (.ok (), { w with table := t, cache := applyAll (setCmds u) w.cache })
      | .error v => (.error (violationErr "error creating user" v), w) := by
  rcases h : w.table.insert u with v | t
  · simp [CacheDecorator.create, newUserRepository, UserRepository.run_create, h]
  · simp [CacheDecorator.create, newUserRepository, UserRepository.run_create, h,
      run_cacheUser_of_nil (w := { w with table := t }) hr]

/-- An update through the decorator: read the row, update the store, drop the old keys, read
the row again and cache it. -/
theorem run_update_of_nil (u : User) :
    (CacheDecorator.update newUserRepository u).run w =
      match w.table.select (.id u.id) with
      | none => (.error .notFound, w)
      | some old =>
        match w.table.update u (w.clock + 1) with
        | .error v =>
          (.error (violationErr "error updating user" v), { w with clock := w.clock + 1 })
        | .ok (0, t) => (.error .notFound, { w with table := t, clock := w.clock + 1 })
        | .ok (_ + 1, t) =>
          match t.select (.id u.id) with
          | none =>
            (.error .notFound,
              { w with table := t, clock := w.clock + 1, cache := applyAll (delCmds old) w.cache })
          | some new =>
            (.ok (),
              { w with
                table := t
                clock := w.clock + 1
                cache := applyAll (setCmds new) (applyAll (delCmds old) w.cache) }) := by
  rcases hs : w.table.select (.id u.id) with _ | old
  · simp [CacheDecorator.update, newUserRepository, UserRepository.getByID,
      UserRepository.run_getBy, hs]
  rcases hu : w.table.update u (w.clock + 1) with v | ⟨_ | n, t⟩
  · simp [CacheDecorator.update, newUserRepository, UserRepository.getByID,
      UserRepository.run_getBy, hs, UserRepository.run_update, hu]
  · simp [CacheDecorator.update, newUserRepository, UserRepository.getByID,
      UserRepository.run_getBy, hs, UserRepository.run_update, hu]
  · rcases ht : t.select (.id u.id) with _ | new <;>
    simp [CacheDecorator.update, newUserRepository, UserRepository.getByID,
      UserRepository.run_getBy, hs, UserRepository.run_update, hu, ht, run_cacheUser_of_nil,
      run_invalidateUserCache_of_nil, hr]

/-- A delete through the decorator: read the row, delete it, drop its keys. -/
theorem run_delete_of_nil (i : UUID) :
    (CacheDecorator.delete newUserRepository i).run w =
      match w.table.select (.id i) with
      | none => (.error .notFound, w)
      | some u =>
        if (w.table.delete i).1 = 0 then (.error .notFound, { w with table := (w.table.delete i).2 })
        else (.ok (), { w with table := (w.table.delete i).2, cache := applyAll (delCmds u) w.cache })
  := by
  rcases hs : w.table.select (.id i) with _ | u
  · simp [CacheDecorator.delete, newUserRepository, UserRepository.getByID,
      UserRepository.run_getBy, hs]
  · by_cases h0 : (w.table.delete i).1 = 0 <;>
    simp [CacheDecorator.delete, newUserRepository, UserRepository.getByID,
      UserRepository.run_getBy, hs, UserRepository.run_delete, h0, run_invalidateUserCache_of_nil,
      hr]

end Runs

/-! ### Every operation keeps the cache coherent -/

/-- A program that keeps the cache coherent when Redis answers every round trip, and leaves
Redis answering. -/
def KeepsCoherent {α : Type} (p : Prog α) : Prop :=
  ∀ w, Coherent w → w.redis = [] → Coherent (p.run w).2 ∧ (p.run w).2.redis = []

theorem keepsCoherent_getBy (q : Lookup) :
    KeepsCoherent (CacheDecorator.getBy q.key (UserRepository.getBy q)) := by
  intro w hc hr
  rw [run_getBy_of_nil hr]
  rcases hk : w.cache q.key with _ | p
  · rcases hs : w.table.select q with _ | u
    · exact ⟨hc, hr⟩
    · exact ⟨hc.setCmds (Table.select_eq_some.mp hs).1, hr⟩
  · exact ⟨hc, hr⟩

theorem keepsCoherent_create (u : User) :
    KeepsCoherent (CacheDecorator.create newUserRepository u) := by
  intro w hc hr
  rw [run_create_of_nil hr]
  rcases h : w.table.insert u with v | t
  · exact ⟨hc, hr⟩
  · have hrows := Table.insert_eq_ok h
    have ht : Coherent { w with table := t } :=
      hc.of_rows fun r hr => by rw [hrows]; exact List.mem_cons_of_mem _ hr
    exact ⟨ht.setCmds (show u ∈ t.rows by rw [hrows]; exact List.mem_cons_self _ _), hr⟩

theorem keepsCoherent_update (u : User) :
    KeepsCoherent (CacheDecorator.update newUserRepository u) := by
  intro w hc hr
  rcases hs : w.table.select (.id u.id) with _ | old
  · simp only [run_update_of_nil hr, hs]
    exact ⟨hc, hr⟩
  obtain ⟨hold, hid⟩ := Table.select_eq_some.mp hs
  simp only [Lookup.matches, beq_iff_eq] at hid
  rcases hu : w.table.update u (w.clock + 1) with v | ⟨_ | n, t⟩
  · simp only [run_update_of_nil hr, hs, hu]
    exact ⟨hc, hr⟩
  · simp only [run_update_of_nil hr, hs, hu, Table.update_ok_zero hu]
    exact ⟨hc, hr⟩
  · have hdel : Coherent { w with table := t, cache := applyAll (delCmds old) w.cache } :=
      hc.delCmds hold fun r hr' hne => Table.mem_update hu hr' (hid ▸ hne)
    rcases ht : t.select (.id u.id) with _ | new
    · simp only [run_update_of_nil hr, hs, hu, ht]
      exact ⟨hdel, hr⟩
    · simp only [run_update_of_nil hr, hs, hu, ht]
      exact ⟨hdel.setCmds (Table.select_eq_some.mp ht).1, hr⟩

theorem keepsCoherent_delete (i : UUID) :
    KeepsCoherent (CacheDecorator.delete newUserRepository i) := by
  intro w hc hr
  rcases hs : w.table.select (.id i) with _ | u
  · simp only [run_delete_of_nil hr, hs]
    exact ⟨hc, hr⟩
  obtain ⟨hu, hid⟩ := Table.select_eq_some.mp hs
  simp only [Lookup.matches, beq_iff_eq] at hid
  simp only [run_delete_of_nil hr, hs, Table.delete_count_pos hu hid, if_false]
  exact ⟨hc.delCmds hu fun r hr' hne => Table.mem_delete.mpr ⟨hr', hid ▸ hne⟩, hr⟩

/-- A read through the decorator answers what the store answers, on every field the JSON
document carries. -/
theorem getBy_agrees {w : World} (hc : Coherent w) (hr : w.redis = []) (q : Lookup) :
    ((CacheDecorator.getBy q.key (UserRepository.getBy q)).run w).1.map User.marshal =
      ((UserRepository.getBy q).run w).1.map User.marshal := by
  rw [run_getBy_of_nil hr, UserRepository.run_getBy]
  rcases hk : w.cache q.key with _ | p
  · rcases hs : w.table.select q with _ | u <;> rfl
  · obtain ⟨r, hs, rfl⟩ := hc.select_of_cache hk
    simp [hs, Except.map]

/-! ### Runs -/

/-- One step of a sequential run over the decorator: one of its operations, a `List`, or the
expiry of an entry. -/
inductive DecoratorStep where
  | op (c : DecoratorCall)
  /-- `List` passes to the store's `List`, which reads the table and changes nothing. -/
  | list (params : ListParams)
  | expire (key : String)

/-- The world after a step. -/
def DecoratorStep.apply (w : World) : DecoratorStep → World
  | .op c => (c.prog.run w).2
  | .list _ => w
  | .expire key => { w with cache := fun k => if k = key then none else w.cache k }

theorem KeepsCoherent.discard {α : Type} {p : Prog α} (hp : KeepsCoherent p) :
    KeepsCoherent (do let _ ← p) := by
  intro w hc hr
  obtain ⟨hc', hr'⟩ := hp w hc hr
  rcases h : p.run w with ⟨_ | _, w'⟩ <;> simp only [h] at hc' hr' <;> simp [h, hc', hr']

theorem DecoratorCall.keepsCoherent : (c : DecoratorCall) → KeepsCoherent c.prog
  | .create u => keepsCoherent_create u
  | .getByID i => (keepsCoherent_getBy (.id i)).discard
  | .getByEmail e => (keepsCoherent_getBy (.email e)).discard
  | .getByNickname n => (keepsCoherent_getBy (.nickname n)).discard
  | .update u => keepsCoherent_update u
  | .delete i => keepsCoherent_delete i

theorem DecoratorStep.coherent (s : DecoratorStep) {w : World} (hc : Coherent w)
    (hr : w.redis = []) : Coherent (DecoratorStep.apply w s) ∧ (DecoratorStep.apply w s).redis = [] := by
  cases s with
  | op c => exact c.keepsCoherent w hc hr
  | list _ => exact ⟨hc, hr⟩
  | expire key => exact ⟨hc.expire key, hr⟩

theorem coherent_foldl (steps : List DecoratorStep) {w : World} (hc : Coherent w)
    (hr : w.redis = []) :
    Coherent (steps.foldl DecoratorStep.apply w) ∧ (steps.foldl DecoratorStep.apply w).redis = [] := by
  induction steps generalizing w with
  | nil => exact ⟨hc, hr⟩
  | cons s steps ih =>
    obtain ⟨hc', hr'⟩ := s.coherent hc hr
    exact ih hc' hr'

/-- The empty table with an empty cache. -/
def World.empty : World := ⟨⟨[], List.Pairwise.nil⟩, fun _ => none, [], 0, []⟩

theorem coherent_empty : Coherent World.empty := fun _ _ h => nomatch h

end UsersService
