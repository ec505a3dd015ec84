import UsersService.Service.Update
import UsersService.Events

/-! Whole runs of the service when Redis answers every round trip. Every request keeps the cache
coherent with the store, and leaves behind in the event log exactly what it did to the store: a
mutation that succeeds committed its write and handed the publisher one event about the user it
wrote, and one that fails did neither. So after any sequence of sign-ups, reads, updates,
deletions, listings and expiries of cache entries, replaying the documents of the events in
order over the profiles of the rows before gives the profiles of the rows after. -/

namespace UsersService

open Prog

/-! ### What each statement does to the store's directory -/

namespace Table

variable {t t' : Table} {u : User} {now n : Nat}

/-- Two tables with the same rows of id `i` find the same row for it. -/
theorem select_id_congr {i : UUID} (h : ∀ r, r.id = i → (r ∈ t'.rows ↔ r ∈ t.rows)) :
    t'.select (.id i) = t.select (.id i) :=
  Option.ext fun r => by
    simp only [Option.mem_def, select_eq_some, Lookup.matches, beq_iff_eq]
    exact ⟨fun ⟨hr, hi⟩ => ⟨(h r hi).mp hr, hi⟩, fun ⟨hr, hi⟩ => ⟨(h r hi).mpr hr, hi⟩⟩

/-- A row whose id, email and nickname no stored row has is inserted ahead of the others. -/
theorem insert_of_fresh (h : ∀ r ∈ t.rows, r.id ≠ u.id ∧ r.email ≠ u.email ∧ r.nickname ≠ u.nickname) :
    ∃ t', t.insert u = .ok t' ∧ t'.rows = u :: t.rows := by
  have hv : violation t.rows u = none := by
    simp only [violation, List.any_eq_true, beq_iff_eq]
    split_ifs with h1 h2 h3
    · obtain ⟨r, hr, he⟩ := h1; exact absurd he (h r hr).1
    · obtain ⟨r, hr, he⟩ := h2; exact absurd he (h r hr).2.2
    · obtain ⟨r, hr, he⟩ := h3; exact absurd he (h r hr).2.1
    · rfl
  unfold insert
  split
  · simp_all
  · exact ⟨_, rfl, rfl⟩

theorem profiles_insert (h : t.insert u = .ok t') :
    t'.profiles = Function.update t.profiles u.id (some u.marshal.profile) := by
  funext i
  by_cases hi : i = u.id
  · subst hi
    simp [profiles, select, insert_eq_ok h, Lookup.matches]
  · rw [Function.update_noteq hi]
    simp [profiles, select, insert_eq_ok h, Lookup.matches, Ne.symm hi]

/-- An update changes no row of another id. -/
theorem select_update_ne (h : t.update u now = .ok (n, t')) {i : UUID} (hi : i ≠ u.id) :
    t'.select (.id i) = t.select (.id i) := by
  cases n with
  | zero => rw [update_ok_zero h]
  | succ n =>
    obtain ⟨old, -, hrows⟩ := update_ok_succ h
    refine select_id_congr fun r hr => ⟨fun hmem => ?_, fun hmem => mem_update h hmem (hr ▸ hi)⟩
    rw [hrows, List.mem_map] at hmem
    obtain ⟨r₀, hr₀, rfl⟩ := hmem
    by_cases h₀ : r₀.id = u.id
    · simp only [h₀, if_true, updatedRow] at hr
      exact absurd hr.symm hi
    · simpa [h₀] using hr₀

/-- An update whose user has the stored row's creation time sets the user's profile under its
id. -/
theorem profiles_update {old : User} (h : t.update u now = .ok (n + 1, t'))
    (hold : t.select (.id u.id) = some old) (hc : u.createdAt = old.createdAt) :
    t'.profiles = Function.update t.profiles u.id (some u.marshal.profile) := by
  obtain ⟨old', hold', hsel⟩ := select_update h
  obtain rfl : old' = old := Option.some.inj (hold'.symm.trans hold)
  funext i
  by_cases hi : i = u.id
  · subst hi
    simp [profiles, hsel, updatedRow, UserJson.profile, hc]
  · rw [Function.update_noteq hi]
    simp only [profiles, select_update_ne h hi]

theorem profiles_delete (i : UUID) : (t.delete i).2.profiles = Function.update t.profiles i none := by
  funext j
  by_cases hj : j = i
  · subst hj
    have : (t.delete j).2.select (.id j) = none :=
      select_eq_none.mpr fun r hr => by simpa [Lookup.matches] using (mem_delete.mp hr).2
    simp [profiles, this]
  · have : (t.delete i).2.select (.id j) = t.select (.id j) :=
      select_id_congr fun r hr => by simp [mem_delete, hr ▸ hj]
    simp only [profiles, this, Function.update_noteq hj]

end Table

/-! ### The event log of a run -/

/-- From `w` to `w'` the publisher was handed more events, and replaying their documents over
the store's directory at `w` gives the store's directory at `w'`. -/
def Logged (w w' : World) : Prop :=
  ∃ events, w'.published = w.published ++ events ∧
    replay w.table.profiles (documents events) = w'.table.profiles

theorem Logged.of_unchanged {w w' : World} (h : Unchanged w w') : Logged w w' :=
  ⟨[], by simp [h.2], by simp [documents, h.1]⟩

theorem Logged.trans {w w₁ w₂ : World} (h₁ : Logged w w₁) (h₂ : Logged w₁ w₂) : Logged w w₂ := by
  obtain ⟨e₁, hp₁, hr₁⟩ := h₁
  obtain ⟨e₂, hp₂, hr₂⟩ := h₂
  refine ⟨e₁ ++ e₂, by rw [hp₂, hp₁, List.append_assoc], ?_⟩
  rw [documents, List.map_append, replay_append]
  exact hr₁ ▸ hr₂

/-- What a store write through the decorator does from `w₁`: it succeeds, publishing nothing
itself, and changes the store's directory as the event `(kind, u)` says; or it fails and leaves
the store and the event log alone. -/
def WriteLogs (kind : EventType) (u : User) (w₁ : World) : Except Err Unit × World → Prop
  | (.ok _, w₂) => w₂.published = w₁.published ∧
      w₂.table.profiles = applyEvent w₁.table.profiles (kind, u.marshal)
  | (.error _, w₂) => Unchanged w₁ w₂

/-- Reads, then a write that logs, then the event: the mutation is logged. -/
theorem logged_of_writeLogs {α : Type} {pre : Prog User} {write : User → Prog Unit} {f : User → α}
    {context : String} {kind : EventType} {w : World} (hpre : Unchanged w (pre.run w).2)
    (hwrite : ∀ u w₁, pre.run w = (.ok u, w₁) → WriteLogs kind u w₁ ((write u).run w₁)) :
    Logged w ((pre >>= fun u => Service.commit context (write u) kind u >>= fun _ => pure (f u)).run w).2 := by
  rcases hr : pre.run w with ⟨e | u, w₁⟩ <;> rw [hr] at hpre <;> dsimp only at hpre
  · simp only [run_bind, hr]
    exact .of_unchanged hpre
  · have hw := hwrite u w₁ hr
    simp only [run_bind, hr, Service.commit, run_wrapErr]
    rcases hw' : (write u).run w₁ with ⟨e | ⟨⟩, w₂⟩ <;> rw [hw'] at hw
    · exact .of_unchanged (hpre.trans hw)
    · obtain ⟨hp, ht⟩ := hw
      refine ⟨[(kind, u)], ?_, ?_⟩
      · rw [← hpre.2, ← hp]
        rfl
      · rw [← hpre.1]
        exact ht.symm

section Answering

variable {w : World} (hr : w.redis = [])
include hr

theorem create_writeLogs (u : User) : WriteLogs .created u w ((production.create u).run w) := by
  rw [show production.create u = CacheDecorator.create newUserRepository u from rfl,
    run_create_of_nil hr]
  rcases h : w.table.insert u with v | t
  · exact Unchanged.refl w
  · exact ⟨rfl, Table.profiles_insert h⟩

/-- An update through the decorator of a user with the stored row's creation time logs. -/
theorem update_writeLogs {u old : User} (hold : w.table.select (.id u.id) = some old)
    (hc : u.createdAt = old.createdAt) : WriteLogs .updated u w ((production.update u).run w) := by
  rw [show production.update u = CacheDecorator.update newUserRepository u from rfl,
    run_update_of_nil hr, hold]
  rcases hu : w.table.update u (w.clock + 1) with v | ⟨_ | n, t⟩
  · exact ⟨rfl, rfl⟩
  · exact ⟨by simp [Table.update_ok_zero hu], rfl⟩
  · obtain ⟨_, _, hs⟩ := Table.select_update hu
    simp only [hs]
    exact ⟨rfl, Table.profiles_update hu hold hc⟩

theorem delete_writeLogs {u : User} {id : UUID} (hid : u.id = id) :
    WriteLogs .deleted u w ((production.delete id).run w) := by
  subst hid
  rw [show production.delete u.id = CacheDecorator.delete newUserRepository u.id from rfl,
    run_delete_of_nil hr]
  rcases w.table.select (.id u.id) with _ | r
  · exact Unchanged.refl w
  · split_ifs with h0
    · exact ⟨by simp [Table.delete_count_zero h0], rfl⟩
    · exact ⟨rfl, Table.profiles_delete u.id⟩

/-- Redis answers on after the part of a run that ends in `w₁`. -/
theorem answering_of_run {α : Type} {p : Prog α} {r : Except Err α} {w₁ : World}
    (h : p.run w = (r, w₁)) : w₁.redis = [] := by
  simpa [h] using run_redis_nil p hr

/-- From a coherent cache, a read of a lookup no row matches misses the cache and the store. -/
theorem getBy_miss_of_nil {q : Lookup} (hc : Coherent w)
    (hq : ∀ r ∈ w.table.rows, q.matches r = false) :
    (CacheDecorator.getBy q.key (UserRepository.getBy q)).run w = (.error .notFound, w) := by
  have hk : w.cache q.key = none := by
    rcases hk : w.cache q.key with _ | p
    · rfl
    · obtain ⟨r, hr, hkr, -⟩ := hc _ p hk
      exact absurd (Lookup.matches_of_key_mem hkr) (by simp [hq r hr])
  rw [run_getBy_of_nil hr, hk, Table.select_eq_none.mpr hq]

theorem createUser_logged (user : User) (id : UUID) (hashed : Except Err String) :
    Logged w ((Service.createUser production user id hashed).run w).2 :=
  logged_of_writeLogs ((prepareUser_reads user id hashed).unchanged w) fun u _ h =>
    create_writeLogs (answering_of_run hr h) u

theorem updateUser_logged (hc : Coherent w) (id : UUID) (updatedUser : User) :
    Logged w ((Service.updateUser production id updatedUser).run w).2 := by
  have hframe := (prepareUpdate_looks id updatedUser).looks_frame w
  refine logged_of_writeLogs hframe.1 fun u w₁ h => ?_
  obtain ⟨old, hs, rfl⟩ := prepareUpdate_of_nil hr hc h
  obtain rfl : old.id = id := by simpa [Lookup.matches] using (Table.select_eq_some.mp hs).2
  simp only [h] at hframe
  have hs₁ : w₁.table.select (.id old.id) = some old := hframe.1.1 ▸ hs
  exact update_writeLogs (answering_of_run hr h) hs₁ rfl

theorem deleteUser_logged (hc : Coherent w) (id : UUID) :
    Logged w ((Service.deleteUser production id).run w).2 := by
  refine logged_of_writeLogs ((getForChange_looks id _).looks_frame w).1 fun u w₁ h => ?_
  obtain ⟨old, hs, rfl⟩ := getForChange_of_nil hr hc h
  exact delete_writeLogs (answering_of_run hr h)
    (by simpa [Lookup.matches] using (Table.select_eq_some.mp hs).2)

end Answering

/-! ### Every request keeps the cache coherent -/

section Compose

variable {α β : Type}

theorem Coherent.congr {w w' : World} (h : Coherent w) (ht : w'.table = w.table)
    (hc : w'.cache = w.cache) : Coherent w' :=
  fun k p hk => ht ▸ h k p (hc ▸ hk)

theorem KeepsCoherent.done (r : Except Err α) : KeepsCoherent (Prog.done r) :=
  fun _ hc hr => ⟨hc, hr⟩

theorem KeepsCoherent.bind {p : Prog α} {f : α → Prog β} (hp : KeepsCoherent p)
    (hf : ∀ a, KeepsCoherent (f a)) : KeepsCoherent (p >>= f) := by
  intro w hc hr
  obtain ⟨hc₁, hr₁⟩ := hp w hc hr
  rw [run_bind]
  rcases h : p.run w with ⟨e | a, w₁⟩ <;> rw [h] at hc₁ hr₁
  exacts [⟨hc₁, hr₁⟩, hf a w₁ hc₁ hr₁]

theorem KeepsCoherent.tryCatch {p : Prog α} {h : Err → Prog α} (hp : KeepsCoherent p)
    (hh : ∀ e, KeepsCoherent (h e)) : KeepsCoherent (p.tryCatch h) := by
  intro w hc hr
  obtain ⟨hc₁, hr₁⟩ := hp w hc hr
  rw [run_tryCatch]
  rcases hp' : p.run w with ⟨e | a, w₁⟩ <;> rw [hp'] at hc₁ hr₁
  exacts [hh e w₁ hc₁ hr₁, ⟨hc₁, hr₁⟩]

theorem KeepsCoherent.attempt {p : Prog α} (hp : KeepsCoherent p) : KeepsCoherent p.attempt := by
  intro w hc hr
  rw [run_attempt]
  exact hp w hc hr

theorem KeepsCoherent.wrapErr {p : Prog α} (hp : KeepsCoherent p) (context : String) :
    KeepsCoherent (UsersService.wrapErr context p) :=
  hp.tryCatch fun _ => .done _

/-- A call that touches neither the store, the cache nor Redis. -/
theorem KeepsCoherent.send {c : Call}
    (h : ∀ w, (c.exec w).2.table = w.table ∧ (c.exec w).2.cache = w.cache ∧
      (c.exec w).2.redis = w.redis) : KeepsCoherent (Prog.send c) := by
  intro w hc hr
  obtain ⟨ht, hca, hre⟩ := h w
  exact ⟨hc.congr ht hca, hre.trans hr⟩

theorem keepsCoherent_now : KeepsCoherent (Prog.send .now) := .send fun _ => ⟨rfl, rfl, rfl⟩

theorem keepsCoherent_failIf (cond : Bool) (err : Err) : KeepsCoherent (Service.failIf cond err) := by
  unfold Service.failIf
  split <;> exact .done _

theorem keepsCoherent_commit {write : Prog Unit} (hw : KeepsCoherent write) (context : String)
    (kind : EventType) (u : User) : KeepsCoherent (Service.commit context write kind u) :=
  (hw.wrapErr context).bind fun _ => .send fun _ => ⟨rfl, rfl, rfl⟩

end Compose

theorem prepareUser_keepsCoherent (user : User) (id : UUID) (hashed : Except Err String) :
    KeepsCoherent (Service.prepareUser production user id hashed) :=
  ((KeepsCoherent.done _).wrapErr _).bind fun _ => keepsCoherent_now.bind fun _ =>
    keepsCoherent_now.bind fun _ => (keepsCoherent_getBy (.email _)).attempt.bind fun _ =>
      (keepsCoherent_failIf _ _).bind fun _ => (keepsCoherent_getBy (.nickname _)).attempt.bind fun _ =>
        (keepsCoherent_failIf _ _).bind fun _ => .done _

theorem getForChange_keepsCoherent (id : UUID) (context : String) :
    KeepsCoherent (Service.getForChange production id context) :=
  (keepsCoherent_getBy (.id id)).tryCatch fun _ => by split <;> exact .done _

theorem prepareUpdate_keepsCoherent (id : UUID) (updatedUser : User) :
    KeepsCoherent (Service.prepareUpdate production id updatedUser) :=
  (getForChange_keepsCoherent _ _).bind fun _ => by
    dsimp only
    split
    · exact ((keepsCoherent_getBy (.email _)).attempt.bind fun r => by
        cases r <;> first | exact keepsCoherent_failIf _ _ | exact .done _).bind fun _ => .done _
    · exact .done _

/-! ### Runs -/

/-- A request to the service, as one caller makes it, or the expiry of a cache entry. -/
inductive ServiceStep where
  | createUser (user : User) (id : UUID) (hashed : Except Err String)
  | getUser (id : UUID)
  | updateUser (id : UUID) (updatedUser : User)
  | deleteUser (id : UUID)
  /-- `ListUsers` goes to the store's `List`, which reads the table and changes nothing. -/
  | listUsers (params : ListParams)
  | expire (key : String)

/-- The world after a step. -/
def ServiceStep.apply (w : World) : ServiceStep → World
  | .createUser user id hashed => ((Service.createUser production user id hashed).run w).2
  | .getUser id => ((Service.getUser production id).run w).2
  | .updateUser id updatedUser => ((Service.updateUser production id updatedUser).run w).2
  | .deleteUser id => ((Service.deleteUser production id).run w).2
  | .listUsers _ => w
  | .expire key => { w with cache := fun k => if k = key then none else w.cache k }

/-- The invariant of runs in which Redis answers: the cache is coherent with the store, and Redis
answers every coming round trip. -/
structure Holds (w : World) : Prop where
  coherent : Coherent w
  answering : w.redis = []

theorem ServiceStep.holds (s : ServiceStep) {w : World} (h : Holds w) :
    Holds (ServiceStep.apply w s) := by
  have keeps : ∀ {α} {p : Prog α}, KeepsCoherent p → Holds (p.run w).2 := fun hp =>
    ⟨(hp w h.coherent h.answering).1, (hp w h.coherent h.answering).2⟩
  cases s with
  | createUser user id hashed =>
    exact keeps ((prepareUser_keepsCoherent user id hashed).bind fun u =>
      (keepsCoherent_commit (keepsCoherent_create u) _ _ _).bind fun _ => .done _)
  | getUser id => exact keeps ((keepsCoherent_getBy (.id id)).wrapErr _)
  | updateUser id updatedUser =>
    exact keeps ((prepareUpdate_keepsCoherent id updatedUser).bind fun u =>
      (keepsCoherent_commit (keepsCoherent_update u) _ _ _).bind fun _ => .done _)
  | deleteUser id =>
    exact keeps ((getForChange_keepsCoherent id _).bind fun _ =>
      (keepsCoherent_commit (keepsCoherent_delete id) _ _ _).bind fun _ => .done _)
  | listUsers _ => exact h
  | expire key => exact ⟨h.coherent.expire key, h.answering⟩

theorem ServiceStep.logged (s : ServiceStep) {w : World} (h : Holds w) :
    Logged w (ServiceStep.apply w s) := by
  cases s with
  | createUser user id hashed => exact createUser_logged h.answering user id hashed
  | getUser id =>
    exact .of_unchanged (((decoratorRead_looks _ (.id id)).wrapErr _).looks_frame w).1
  | updateUser id updatedUser => exact updateUser_logged h.answering h.coherent id updatedUser
  | deleteUser id => exact deleteUser_logged h.answering h.coherent id
  | listUsers _ => exact .of_unchanged (Unchanged.refl w)
  | expire key => exact .of_unchanged ⟨rfl, rfl⟩

theorem holds_foldl (steps : List ServiceStep) {w : World} (h : Holds w) :
    Holds (steps.foldl ServiceStep.apply w) ∧ Logged w (steps.foldl ServiceStep.apply w) := by
  induction steps generalizing w with
  | nil => exact ⟨h, .of_unchanged (Unchanged.refl w)⟩
  | cons s steps ih =>
    obtain ⟨h', hlog⟩ := ih (s.holds h)
    exact ⟨h', (s.logged h).trans hlog⟩

/-- Alice signs up, is read, moves to France and leaves. -/
def aliceLifetime : List ServiceStep :=
  [.createUser alice aliceId (.ok "$2a$10$hash"), .getUser aliceId,
    .updateUser aliceId franceRequest, .deleteUser aliceId]

end UsersService
