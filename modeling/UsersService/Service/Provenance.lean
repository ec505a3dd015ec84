import UsersService.Service.Deletes

/-! Where cached documents come from, under every interleaving. Concurrent callers can leave an
entry stale (`stale_fill_breaks_triple_consistency`) or cache a user after its delete
(`deleted_user_read_back`), but the cache never holds a document the store did not hold: every
`SET` the code sends is of a user it read from the store or has just inserted, so each entry is
the JSON of a user that was a stored row at some point of the run. This holds whatever Redis does
with each round trip.

The argument grows a set of users seen stored along the run. A caller may cache a user only once
the user is seen (`Prog.Grounded`); every call adds the rows of the world it runs in, so what a
caller read from the store stays seen whoever runs next.

Where no caller updates or deletes a row, a user once stored stays stored, so the same argument
shows that concurrent `CreateUser` and `GetUser` requests keep the cache coherent with the store:
staleness needs a write between a read and its `SET`. -/

namespace UsersService

/-! ### Keyspaces made of seen users -/

/-- Every entry of the keyspace is the JSON of a user `seen` holds. -/
def Sourced (seen : User → Prop) (cache : String → Option UserJson) : Prop :=
  ∀ k p, cache k = some p → ∃ u, seen u ∧ p = u.marshal

/-- A call whose pipeline sets only the JSON of users `seen` holds. -/
def Call.CachesSeen (seen : User → Prop) : Call → Prop
  | .redisExec cmds => ∀ k p, RedisCmd.set k p ∈ cmds → ∃ u, seen u ∧ p = u.marshal
  | _ => True

section Seen

variable {seen seen' : User → Prop}

theorem Sourced.mono (h : ∀ u, seen u → seen' u) {cache : String → Option UserJson}
    (hc : Sourced seen cache) : Sourced seen' cache := fun k p hk =>
  let ⟨u, hu, hp⟩ := hc k p hk
  ⟨u, h u hu, hp⟩

theorem Call.CachesSeen.mono (h : ∀ u, seen u → seen' u) {c : Call} (hc : c.CachesSeen seen) :
    c.CachesSeen seen' := by
  cases c with
  | redisExec cmds =>
    intro k p hk
    obtain ⟨u, hu, hp⟩ := hc k p hk
    exact ⟨u, h u hu, hp⟩
  | _ => trivial

theorem sourced_applyMarked {cmds : List RedisCmd}
    (h : ∀ k p, RedisCmd.set k p ∈ cmds → ∃ u, seen u ∧ p = u.marshal) (mask : List Bool)
    {cache : String → Option UserJson} (hc : Sourced seen cache) :
    Sourced seen (applyMarked cmds mask cache) := by
  induction cmds generalizing mask cache with
  | nil => exact hc
  | cons cmd cmds ih =>
    have hrest := fun k p hk => h k p (List.mem_cons_of_mem cmd hk)
    cases mask with
    | nil => exact ih hrest [] hc
    | cons b bs =>
      refine ih hrest bs ?_
      split
      · intro k p hk
        cases cmd with
        | set key v =>
          simp only [RedisCmd.apply] at hk
          split at hk
          · cases hk
            exact h key p (List.mem_cons_self _ _)
          · exact hc k p hk
        | del key =>
          simp only [RedisCmd.apply] at hk
          split at hk
          · cases hk
          · exact hc k p hk
      · exact hc

/-- A call that caches only seen users keeps the keyspace made of seen users, whatever Redis does
with it. -/
theorem Call.sourced_exec {c : Call} (h : c.CachesSeen seen) {w : World}
    (hw : Sourced seen w.cache) : Sourced seen (c.exec w).2.cache := by
  have hn : Sourced seen w.nextRedis.2.cache := by rw [World.nextRedis_cache]; exact hw
  cases c with
  | redisExec cmds =>
    simp only [Call.exec]
    split <;> rename_i heq <;> rw [heq] at hn
    exacts [sourced_applyMarked h _ hn, sourced_applyMarked h _ hn]
  | redisGet key =>
    simp only [Call.exec]
    split <;> rename_i heq <;> rw [heq] at hn <;> exact hn
  | insert u =>
    simp only [Call.exec]
    split <;> exact hw
  | update u t =>
    simp only [Call.exec]
    split <;> exact hw
  | select _ | delete _ | now | publish _ _ => exact hw

end Seen

/-! ### Callers that cache only seen users -/

/-- `seen'` holds what `seen` holds and the rows of the worlds before and after a call. -/
structure Grows (seen seen' : User → Prop) (w w' : World) : Prop where
  le : ∀ u, seen u → seen' u
  before : ∀ u ∈ w.table.rows, seen' u
  after : ∀ u ∈ w'.table.rows, seen' u

namespace Prog

variable {α β : Type}

/-- Every `SET` the program sends is of the JSON of a user seen by then, and every result
satisfies `Q` when it is returned. What is seen grows after each call by the rows of the worlds
before and after it, so a user the program read from the store, or inserted, is seen from then
on. -/
inductive Grounded (Q : (User → Prop) → α → Prop) : (User → Prop) → Prog α → Prop
  | ok {seen : User → Prop} {a : α} : Q seen a → Grounded Q seen (done (.ok a))
  | error (seen : User → Prop) (e : Err) : Grounded Q seen (done (.error e))
  | call {seen : User → Prop} {c : Call} {k : c.Ret → Prog α} : c.CachesSeen seen →
      (∀ w seen', Grows seen seen' w (c.exec w).2 → Grounded Q seen' (k (c.exec w).1)) →
      Grounded Q seen (call c k)

namespace Grounded

variable {Q : (User → Prop) → α → Prop} {seen : User → Prop}

/-- What is seen only grows, so a grounded program stays grounded. -/
theorem mono (hQ : ∀ s s' a, (∀ u, s u → s' u) → Q s a → Q s' a) {p : Prog α}
    (hp : Grounded Q seen p) {seen' : User → Prop} (hs : ∀ u, seen u → seen' u) :
    Grounded Q seen' p := by
  cases hp with
  | ok h => exact .ok (hQ _ _ _ hs h)
  | error => exact .error _ _
  | call hc hk =>
    exact .call (hc.mono hs) fun w s g => hk w s ⟨fun u hu => g.le u (hs u hu), g.before, g.after⟩

theorem bind {R : (User → Prop) → β → Prop} {p : Prog α} {f : α → Prog β}
    (hp : Grounded Q seen p) (hf : ∀ s a, Q s a → Grounded R s (f a)) :
    Grounded R seen (p >>= f) := by
  show Grounded R seen (p.bind f)
  induction hp with
  | ok h => exact hf _ _ h
  | error s e => exact .error s e
  | call hc _ ih => exact .call hc ih

theorem tryCatch {p : Prog α} {h : Err → Prog α} (hp : Grounded Q seen p)
    (hh : ∀ s e, Grounded Q s (h e)) : Grounded Q seen (p.tryCatch h) := by
  induction hp with
  | ok h => exact .ok h
  | error s e => exact hh s e
  | call hc _ ih => exact .call hc ih

theorem wrapErr {p : Prog α} (hp : Grounded Q seen p) (context : String) :
    Grounded Q seen (UsersService.wrapErr context p) :=
  hp.tryCatch fun s _ => .error s _

theorem attempt {p : Prog α} (hp : Grounded Q seen p) :
    Grounded (fun s r => ∀ a, r = .ok a → Q s a) seen p.attempt := by
  induction hp with
  | ok h => exact .ok fun _ ha => by cases ha; exact h
  | error s e => exact .ok fun _ ha => nomatch ha
  | call hc _ ih => exact .call hc ih

/-- A program followed by `return b`. -/
theorem discard {p : Prog α} (hp : Grounded (fun _ _ => True) seen p) (b : β) :
    Grounded (fun _ _ => True) seen (p >>= fun _ => pure b) :=
  hp.bind fun _ _ _ => .ok trivial

/-- One call, its answer satisfying `Q` in every world it can be made in. -/
theorem send {c : Call} (hc : c.CachesSeen seen)
    {Q : (User → Prop) → c.Ret → Prop} (hQ : ∀ w s, Grows seen s w (c.exec w).2 → Q s (c.exec w).1) :
    Grounded Q seen (Prog.send c) :=
  .call hc fun w s g => .ok (hQ w s g)

end Grounded

/-- A program that sets nothing is grounded from any set of seen users. -/
theorem AllCalls.grounded {p : Prog α} (hp : p.AllCalls (Call.CachesSeen fun _ => False))
    (seen : User → Prop) : Grounded (fun _ _ => True) seen p := by
  induction hp generalizing seen with
  | done r => cases r with
    | ok a => exact .ok trivial
    | error e => exact .error _ e
  | call hc _ ih => exact .call (hc.mono fun _ h => h.elim) fun w s _ => ih _ s

end Prog

/-! ### The store, the cache and the service -/

open Prog

section Calls

variable (seen : User → Prop)

/-- A read of the store returns a user seen from then on. -/
theorem UserRepository.getBy_grounded (q : Lookup) :
    (UserRepository.getBy q).Grounded (fun s u => s u) seen :=
  (Grounded.send (c := .select q) (Q := fun s r => ∀ u, r = some u → s u) trivial
    fun w s g u hu => g.before u (Table.select_eq_some.mp hu).1).bind fun s r hr => by
      cases r with
      | some u => exact .ok (hr u rfl)
      | none => exact .error _ _

/-- An insert that succeeds makes its user seen. -/
theorem UserRepository.create_grounded (u : User) :
    (UserRepository.create u).Grounded (fun s _ => s u) seen := by
  refine (Grounded.send (c := .insert u) (Q := fun s r => r = .ok () → s u) trivial
    fun w s g hr => g.after u ?_).bind fun s r hr => ?_
  · simp only [Call.exec] at hr ⊢
    split at hr
    · rename_i t ht
      rw [Table.insert_eq_ok ht]
      exact List.mem_cons_self _ _
    · cases hr
  · rcases r with _ | ⟨⟩
    exacts [.error _ _, .ok (hr rfl)]

theorem execPipeline_grounded {cmds : List RedisCmd} (h : (Call.redisExec cmds).CachesSeen seen) :
    (execPipeline cmds).Grounded (fun _ _ => True) seen :=
  (Grounded.send (Q := fun _ _ => True) h fun _ _ _ => trivial).bind fun s r _ => by
    rcases r with e | ⟨⟩
    exacts [.error s e, .ok trivial]

theorem setCmds_cachesSeen {u : User} (hu : seen u) : (Call.redisExec (setCmds u)).CachesSeen seen :=
  fun k p hk => ⟨u, hu, by
    obtain ⟨-, rfl⟩ | ⟨-, rfl⟩ | ⟨-, rfl⟩ := by simpa [setCmds] using hk
    all_goals rfl⟩

theorem delCmds_cachesSeen (u : User) : (Call.redisExec (delCmds u)).CachesSeen seen :=
  fun k p hk => by simp [delCmds] at hk

theorem cacheUser_grounded {u : User} (hu : seen u) (context : String) :
    (wrapErr context (cacheUser u)).Grounded (fun _ _ => True) seen :=
  ((execPipeline_grounded seen (setCmds_cachesSeen seen hu)).wrapErr _).wrapErr _

theorem invalidateUserCache_grounded (u : User) (context : String) :
    (wrapErr context (invalidateUserCache u)).Grounded (fun _ _ => True) seen :=
  ((execPipeline_grounded seen (delCmds_cachesSeen seen u)).wrapErr _).wrapErr _

/-- A read through the cache caches only what it read from the store. -/
theorem CacheDecorator.getBy_grounded (key : String) {fetch : Prog User}
    (hf : ∀ s, fetch.Grounded (fun s u => s u) s) :
    (CacheDecorator.getBy key fetch).Grounded (fun _ _ => True) seen :=
  ((getUserFromCache_allCalls trivial).attempt.grounded seen).bind fun s r _ => by
    cases r with
    | ok u => exact .ok trivial
    | error _ => exact (hf s).bind fun s _ hu => (cacheUser_grounded s hu _).bind fun _ _ _ => .ok trivial

theorem decoratorRead_grounded (key : String) (q : Lookup) :
    (CacheDecorator.getBy key (UserRepository.getBy q)).Grounded (fun _ _ => True) seen :=
  CacheDecorator.getBy_grounded seen key fun s => UserRepository.getBy_grounded s q

theorem CacheDecorator.create_grounded (u : User) :
    (CacheDecorator.create newUserRepository u).Grounded (fun _ _ => True) seen :=
  (UserRepository.create_grounded seen u).bind fun s _ hu => cacheUser_grounded s hu _

theorem CacheDecorator.update_grounded (u : User) :
    (CacheDecorator.update newUserRepository u).Grounded (fun _ _ => True) seen :=
  (UserRepository.getBy_grounded seen _).bind fun s old _ =>
    ((UserRepository.update_allCalls trivial fun _ => trivial).grounded s).bind fun s _ _ =>
      (invalidateUserCache_grounded s old _).bind fun s _ _ =>
        (UserRepository.getBy_grounded s _).bind fun s _ hn => cacheUser_grounded s hn _

theorem CacheDecorator.delete_grounded (id : UUID) :
    (CacheDecorator.delete newUserRepository id).Grounded (fun _ _ => True) seen :=
  (UserRepository.getBy_grounded seen _).bind fun s u _ =>
    ((UserRepository.delete_allCalls trivial).grounded s).bind fun s _ _ =>
      invalidateUserCache_grounded s u _

theorem commit_grounded {write : Prog Unit} (hw : write.Grounded (fun _ _ => True) seen)
    (context : String) (k : EventType) (u : User) :
    (Service.commit context write k u).Grounded (fun _ _ => True) seen :=
  (hw.wrapErr _).bind fun s _ _ => (AllCalls.send (c := .publish k u) trivial).grounded s

theorem getForChange_grounded (id : UUID) (context : String) :
    (Service.getForChange production id context).Grounded (fun _ _ => True) seen :=
  (decoratorRead_grounded seen _ _).tryCatch fun s _ => by split <;> exact .error _ _

theorem prepareUser_grounded (user : User) (id : UUID) (hashed : Except Err String) :
    (Service.prepareUser production user id hashed).Grounded (fun _ _ => True) seen :=
  (((AllCalls.done _).wrapErr _).grounded seen).bind fun s _ _ =>
    ((AllCalls.send trivial).grounded s).bind fun s _ _ =>
      ((AllCalls.send trivial).grounded s).bind fun s _ _ =>
        (decoratorRead_grounded s _ _).attempt.bind fun s _ _ =>
          ((Service.failIf_allCalls _ _).grounded s).bind fun s _ _ =>
            (decoratorRead_grounded s _ _).attempt.bind fun s _ _ =>
              ((Service.failIf_allCalls _ _).grounded s).bind fun _ _ _ => .ok trivial

theorem checkEmail_grounded (id : UUID) (email : String) :
    (Service.checkEmail production id email).Grounded (fun _ _ => True) seen :=
  (decoratorRead_grounded seen _ _).attempt.bind fun s r _ => by
    cases r
    · exact .ok trivial
    · exact (Service.failIf_allCalls _ _).grounded s

theorem prepareUpdate_grounded (id : UUID) (updatedUser : User) :
    (Service.prepareUpdate production id updatedUser).Grounded (fun _ _ => True) seen :=
  (getForChange_grounded seen _ _).bind fun s _ _ => by
    dsimp only
    split
    · exact (checkEmail_grounded s _ _).discard _
    · exact .ok trivial

end Calls

/-- Every request caches only users it read from the store or inserted. -/
theorem Request.grounded (seen : User → Prop) :
    (r : Request) → r.prog.Grounded (fun _ _ => True) seen
  | .createUser user id hashed =>
    ((prepareUser_grounded seen user id hashed).bind fun s u _ =>
      (commit_grounded s (CacheDecorator.create_grounded s u) _ _ _).discard u).discard ()
  | .getUser _ => ((decoratorRead_grounded seen _ _).wrapErr _).discard ()
  | .updateUser id updatedUser =>
    ((prepareUpdate_grounded seen id updatedUser).bind fun s u _ =>
      (commit_grounded s (CacheDecorator.update_grounded s u) _ _ _).discard u).discard ()
  | .deleteUser id =>
    ((getForChange_grounded seen id _).bind fun s _ _ =>
      (commit_grounded s (CacheDecorator.delete_grounded s id) _ _ _).discard ()).discard ()

/-! ### Every interleaving -/

theorem stepThread_sourced (j : Nat) {seen seen' : User → Prop} {w : World}
    {ts : List (Prog Unit)} (hc : Sourced seen w.cache)
    (hts : ∀ t ∈ ts, t.Grounded (fun _ _ => True) seen)
    (hg : Grows seen seen' w (stepThread j w ts).1) :
    Sourced seen' (stepThread j w ts).1.cache ∧
      ∀ t ∈ (stepThread j w ts).2, t.Grounded (fun _ _ => True) seen' := by
  have hmono : ∀ t ∈ ts, t.Grounded (fun _ _ => True) seen' := fun t ht =>
    (hts t ht).mono (fun _ _ _ _ _ => trivial) hg.le
  unfold stepThread at hg ⊢
  rcases hj : ts[j]? with _ | _ | ⟨c, k⟩ <;> simp only [hj] at hg ⊢
  · exact ⟨hc.mono hg.le, hmono⟩
  · exact ⟨hc.mono hg.le, hmono⟩
  · cases hts _ (List.getElem?_mem hj) with
    | call hc' hk =>
      refine ⟨(Call.sourced_exec hc' hc).mono hg.le, fun t ht => ?_⟩
      rcases List.mem_or_eq_of_mem_set ht with ht | rfl
      exacts [hmono t ht, hk w seen' hg]

theorem interleave_sourced (sched : List Nat) (seen : User → Prop) {w : World}
    {ts : List (Prog Unit)} (hrows : ∀ u ∈ w.table.rows, seen u) (hc : Sourced seen w.cache)
    (hts : ∀ t ∈ ts, t.Grounded (fun _ _ => True) seen) :
    Sourced (fun u => seen u ∨ ∃ n, u ∈ (interleave (sched.take n) w ts).1.table.rows)
      (interleave sched w ts).1.cache := by
  induction sched generalizing seen w ts with
  | nil => exact hc.mono fun _ => .inl
  | cons j sched ih =>
    have hg : Grows seen (fun u => seen u ∨ u ∈ (stepThread j w ts).1.table.rows) w
        (stepThread j w ts).1 :=
      ⟨fun _ => .inl, fun u hu => .inl (hrows u hu), fun _ => .inr⟩
    obtain ⟨hc', hts'⟩ := stepThread_sourced j hc hts hg
    refine (ih _ (fun _ => .inr) hc' hts').mono fun u hu => ?_
    rcases hu with (hu | hu) | ⟨n, hn⟩
    · exact .inl hu
    · exact .inr ⟨1, hu⟩
    · exact .inr ⟨n + 1, hn⟩

/-! ### Sign-ups and reads keep the cache coherent -/

/-- The requests that change no stored row: `CreateUser` and `GetUser`. -/
def Request.KeepsRows : Request → Prop
  | .createUser .. | .getUser _ => True
  | .updateUser .. | .deleteUser _ => False

/-- Callers that keep every row: the rows after any prefix of the schedule are rows at the end. -/
theorem interleave_take_rows_subset (sched : List Nat) (n : Nat) {w : World} {ts : List (Prog Unit)}
    (hts : ∀ t ∈ ts, t.AllCalls Call.KeepsRows) :
    (interleave (sched.take n) w ts).1.table.rows ⊆ (interleave sched w ts).1.table.rows := by
  induction sched generalizing n w ts with
  | nil => rw [List.take_nil]; exact List.Subset.refl _
  | cons j sched ih =>
    cases n with
    | zero =>
      exact interleave_inv (I := fun w' => w.table.rows ⊆ w'.table.rows)
        (fun _ _ hc h _ hr => Call.rows_exec hc (h hr)) (j :: sched) (List.Subset.refl _) hts
    | succ n =>
      exact ih n (stepThread_inv (I := fun _ => True) (fun _ _ _ _ => trivial) j trivial hts).2

theorem Request.keepsRows_allCalls : (r : Request) → r.KeepsRows → r.prog.AllCalls Call.KeepsRows
  | .createUser user id hashed, _ => SignUp.keepsRows ⟨user, id, hashed⟩
  | .getUser id, _ =>
    (((decoratorRead_looks _ (.id id)).imp fun c _ => by cases c <;> trivial).wrapErr _).bind
      fun _ => .done _

/-- Every request writes to Redis only `SET`s of documents under their own keys, and `DEL`s. -/
theorem Request.writesOwnKeys (r : Request) : r.prog.AllCalls Call.WritesOwnKeys := by
  have hread : ∀ key q, (CacheDecorator.getBy key (UserRepository.getBy q)).AllCalls
      Call.WritesOwnKeys := fun _ _ =>
    CacheDecorator.getBy_allCalls trivial (UserRepository.getBy_allCalls trivial) setCmds_writeOwnKey
  have hcommit := fun c => commit_allCalls (DecoratorCall.writesOwnKeys c) fun _ _ => trivial
  cases r with
  | createUser user id hashed =>
    exact ((prepareUser_allCalls trivial hread user id hashed).bind fun u =>
      (hcommit (.create u) _ _ _).bind fun _ => .done _).bind fun _ => .done _
  | getUser id => exact ((hread _ _).wrapErr _).bind fun _ => .done _
  | updateUser id updatedUser =>
    exact ((prepareUpdate_allCalls hread id updatedUser).bind fun u =>
      (hcommit (.update u) _ _ _).bind fun _ => .done _).bind fun _ => .done _
  | deleteUser id =>
    exact ((getForChange_allCalls hread id _).bind fun _ =>
      (hcommit (.delete id) _ _ _).bind fun _ => .done _).bind fun _ => .done _

end UsersService
