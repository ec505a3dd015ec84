import UsersService.Service.Announcements

/-! Every request returns after a bounded number of calls, whatever the store and Redis answer:
the service and the decorator have no loop and no retry, and a failed Redis read falls back to
the store once. `CreateUser` makes at most 11 calls, `GetUser` 3, `UpdateUser` 13 and `DeleteUser`
7. So under every interleaving, a schedule that gives each caller as many turns as its request's
bound has every caller returned at its end, whoever else runs in between.

The bound is `Prog.Within`: a program within `n` calls is done, or makes a call after which,
whatever the answer, it is within `n - 1`. Each building block gets its bound once; the requests'
bounds add them up along the code. -/

namespace UsersService

namespace Prog

/-- A program that returns after at most `n` calls, whatever each call answers. -/
inductive Within {α : Type} : Nat → Prog α → Prop
  | done {n : Nat} (r : Except Err α) : Within n (.done r)
  | call {n : Nat} {c : Call} {k : c.Ret → Prog α} : (∀ a, Within n (k a)) → Within (n + 1) (.call c k)

namespace Within

variable {α β : Type} {n m : Nat}

theorem mono {p : Prog α} (h : Within n p) (hle : n ≤ m) : Within m p := by
  induction h generalizing m with
  | done r => exact .done r
  | call _ ih =>
    obtain ⟨m, rfl⟩ : ∃ m', m = m' + 1 := ⟨m - 1, by omega⟩
    exact .call fun a => ih a (by omega)

/-- A program within no call has returned. -/
theorem finished {p : Prog α} (h : Within 0 p) : p.finished = true := by
  cases h
  rfl

theorem of_call {c : Call} {k : c.Ret → Prog α} (h : Within n (.call c k)) (a : c.Ret) :
    Within (n - 1) (k a) := by
  cases h with
  | call hk => exact hk a

theorem send (c : Call) : Within 1 (Prog.send c) := .call fun _ => .done _

theorem bind {p : Prog α} {f : α → Prog β} (hp : Within n p) (hf : ∀ a, Within m (f a)) :
    Within (n + m) (p >>= f) := by
  show Within (n + m) (p.bind f)
  induction hp with
  | done r => cases r with
    | error e => exact .done _
    | ok a => exact (hf a).mono (by omega)
  | call _ ih =>
    rw [Nat.add_right_comm]
    exact .call ih

theorem tryCatch {p : Prog α} {h : Err → Prog α} (hp : Within n p) (hh : ∀ e, Within m (h e)) :
    Within (n + m) (p.tryCatch h) := by
  induction hp with
  | done r => cases r with
    | error e => exact (hh e).mono (by omega)
    | ok a => exact .done _
  | call _ ih =>
    rw [Nat.add_right_comm]
    exact .call ih

theorem attempt {p : Prog α} (hp : Within n p) : Within n p.attempt := by
  induction hp with
  | done r => exact .done _
  | call _ ih => exact .call ih

theorem wrapErr {p : Prog α} (hp : Within n p) (context : String) :
    Within n (UsersService.wrapErr context p) :=
  hp.tryCatch (m := 0) fun _ => .done _

end Within

end Prog

open Prog

/-! ### The bound of each operation -/

theorem execPipeline_within (cmds : List RedisCmd) : (execPipeline cmds).Within 1 :=
  (Within.send _).bind (m := 0) fun r => by cases r <;> exact .done _

theorem getUserFromCache_within (key : String) : (getUserFromCache key).Within 1 :=
  (Within.send _).bind (m := 0) fun r => by cases r <;> exact .done _

theorem UserRepository.getBy_within (q : Lookup) : (UserRepository.getBy q).Within 1 :=
  (Within.send _).bind (m := 0) fun r => by cases r <;> exact .done _

theorem UserRepository.create_within (u : User) : (UserRepository.create u).Within 1 :=
  (Within.send _).bind (m := 0) fun r => by cases r <;> exact .done _

theorem UserRepository.update_within (u : User) : (UserRepository.update u).Within 2 :=
  (Within.send _).bind fun _ => (Within.send _).bind (m := 0) fun r => by
    rcases r with _ | _ | _ <;> exact .done _

theorem UserRepository.delete_within (i : UUID) : (UserRepository.delete i).Within 1 :=
  (Within.send _).bind (m := 0) fun _ => by split <;> exact .done _

theorem cacheUser_within (u : User) : (wrapErr "error caching user" (cacheUser u)).Within 1 :=
  ((execPipeline_within _).wrapErr _).wrapErr _

/-- A read through the decorator: `GET`, and on a miss the store's read and `cacheUser`. -/
theorem CacheDecorator.getBy_within (key : String) (q : Lookup) :
    (CacheDecorator.getBy key (UserRepository.getBy q)).Within 3 :=
  (getUserFromCache_within key).attempt.bind (m := 2) fun r => by
    cases r with
    | ok u => exact .done _
    | error _ => exact (UserRepository.getBy_within q).bind fun _ =>
        (cacheUser_within _).bind (m := 0) fun _ => .done _

theorem CacheDecorator.create_within (u : User) : (production.create u).Within 2 :=
  (UserRepository.create_within u).bind fun _ => cacheUser_within u

theorem CacheDecorator.update_within (u : User) : (production.update u).Within 6 :=
  (UserRepository.getBy_within _).bind fun _ => (UserRepository.update_within u).bind fun _ =>
    (((execPipeline_within _).wrapErr _).wrapErr _).bind fun _ =>
      (UserRepository.getBy_within _).bind fun _ => ((execPipeline_within _).wrapErr _).wrapErr _

theorem CacheDecorator.delete_within (i : UUID) : (production.delete i).Within 3 :=
  (UserRepository.getBy_within _).bind fun _ => (UserRepository.delete_within i).bind fun _ =>
    ((execPipeline_within _).wrapErr _).wrapErr _

theorem commit_within {write : Prog Unit} (hw : write.Within n) (context : String) (k : EventType)
    (u : User) : (Service.commit context write k u).Within (n + 1) :=
  (hw.wrapErr _).bind fun _ => Within.send _

theorem failIf_within (cond : Bool) (err : Err) : (Service.failIf cond err).Within 0 := by
  unfold Service.failIf
  split <;> exact .done _

theorem prepareUser_within (user : User) (id : UUID) (hashed : Except Err String) :
    (Service.prepareUser production user id hashed).Within 8 :=
  ((Within.done _).wrapErr _).bind fun _ => (Within.send _).bind fun _ =>
    (Within.send _).bind fun _ => (CacheDecorator.getBy_within _ _).attempt.bind fun _ =>
      (failIf_within _ _).bind fun _ => (CacheDecorator.getBy_within _ _).attempt.bind fun _ =>
        (failIf_within _ _).bind (m := 0) fun _ => .done _

theorem checkEmail_within (id : UUID) (email : String) :
    (Service.checkEmail production id email).Within 3 :=
  (CacheDecorator.getBy_within _ _).attempt.bind (m := 0) fun r => by
    cases r <;> first | exact failIf_within _ _ | exact .done _

theorem getForChange_within (id : UUID) (context : String) :
    (Service.getForChange production id context).Within 3 :=
  (CacheDecorator.getBy_within _ _).tryCatch (m := 0) fun _ => by split <;> exact .done _

theorem prepareUpdate_within (id : UUID) (updatedUser : User) :
    (Service.prepareUpdate production id updatedUser).Within 6 :=
  (getForChange_within _ _).bind (m := 3) fun _ => by
    dsimp only
    split
    · exact (checkEmail_within _ _).bind (m := 0) fun _ => .done _
    · exact .done _

/-! ### The requests -/

/-- A bound on the calls a request makes: the calls of the steps of its code, added up. -/
def Request.turns : Request → Nat
  | .createUser .. => 11
  | .getUser _ => 3
  | .updateUser .. => 13
  | .deleteUser _ => 7

theorem Request.within (r : Request) : r.prog.Within r.turns := by
  cases r with
  | createUser user id hashed =>
    exact ((prepareUser_within user id hashed).bind fun u =>
      (commit_within (CacheDecorator.create_within u) _ _ _).bind (m := 0) fun _ => .done _).bind
        (m := 0) fun _ => .done _
  | getUser id =>
    exact ((CacheDecorator.getBy_within _ _).wrapErr _).bind (m := 0) fun _ => .done _
  | updateUser id updatedUser =>
    exact ((prepareUpdate_within id updatedUser).bind fun u =>
      (commit_within (CacheDecorator.update_within u) _ _ _).bind (m := 0) fun _ => .done _).bind
        (m := 0) fun _ => .done _
  | deleteUser id =>
    exact ((getForChange_within id _).bind fun _ =>
      (commit_within (CacheDecorator.delete_within id) _ _ _).bind (m := 0) fun _ => .done _).bind
        (m := 0) fun _ => .done _

/-! ### Every interleaving -/

theorem stepThread_length (i : Nat) (w : World) (ts : List (Prog Unit)) :
    (stepThread i w ts).2.length = ts.length := by
  unfold stepThread
  split
  · exact List.length_set ..
  · rfl

/-- A turn leaves every other caller as it is. -/
theorem stepThread_getElem?_ne {i j : Nat} (h : j ≠ i) (w : World) (ts : List (Prog Unit)) :
    (stepThread i w ts).2[j]? = ts[j]? := by
  unfold stepThread
  split
  · exact List.getElem?_set_ne (Ne.symm h)
  · rfl

/-- One turn lowers the bound of the caller it schedules by one and leaves the others'. -/
theorem stepThread_within (i : Nat) {w : World} {ts : List (Prog Unit)} {b : Nat → Nat}
    (hts : ∀ (j : Nat) (t : Prog Unit), ts[j]? = some t → t.Within (b j)) :
    ∀ (j : Nat) (t : Prog Unit), (stepThread i w ts).2[j]? = some t →
      t.Within (if j = i then b i - 1 else b j) := by
  intro j t
  by_cases hji : j = i
  · subst hji
    rw [if_pos rfl]
    unfold stepThread
    split
    · rename_i c k hj
      rw [List.getElem?_set_self (List.getElem?_eq_some_iff.mp hj).1, Option.some.injEq]
      rintro rfl
      exact (hts j _ hj).of_call _
    · rename_i hnot
      intro hj
      cases t with
      | done r => exact .done r
      | call c k => exact absurd hj (hnot c k)
  · rw [if_neg hji, stepThread_getElem?_ne hji]
    exact hts j t

/-- A schedule that names each caller at least as often as its bound has every caller returned
at its end. -/
theorem interleave_finished (sched : List Nat) {w : World} {ts : List (Prog Unit)} {b : Nat → Nat}
    (hts : ∀ (j : Nat) (t : Prog Unit), ts[j]? = some t → t.Within (b j))
    (hb : ∀ j < ts.length, b j ≤ sched.count j) :
    ∀ t ∈ (interleave sched w ts).2, t.finished = true := by
  induction sched generalizing w ts b with
  | nil =>
    intro t ht
    change t ∈ ts at ht
    obtain ⟨j, hj, rfl⟩ := List.getElem_of_mem ht
    have hzero : b j = 0 := by simpa using hb j hj
    exact (hzero ▸ hts j _ (List.getElem?_eq_getElem hj)).finished
  | cons i sched ih =>
    refine ih (stepThread_within i hts) fun j hj => ?_
    rw [stepThread_length] at hj
    have hcount := hb j hj
    rw [List.count_cons] at hcount
    by_cases hji : j = i
    · subst hji
      simp only [beq_self_eq_true, if_true] at hcount ⊢
      omega
    · simpa only [hji, if_false, beq_iff_eq, Ne.symm hji] using hcount

/-- Under every interleaving of concurrent requests, whatever the store and Redis answer: a
schedule that gives each caller as many turns as its request's bound (11 for `CreateUser`, 3 for
`GetUser`, 13 for `UpdateUser`, 7 for `DeleteUser`) has every caller returned at its end. -/
theorem requests_finish_within_their_turns (sched : List Nat) (w : World) (reqs : List Request)
    (hturns : ∀ j (h : j < reqs.length), reqs[j].turns ≤ sched.count j) :
    ∀ t ∈ (interleave sched w (reqs.map Request.prog)).2, t.finished = true := by
  refine interleave_finished sched (b := fun j => (reqs[j]?.map Request.turns).getD 0) ?_ ?_
  · intro j t ht
    rw [List.getElem?_map] at ht
    obtain ⟨r, hr, rfl⟩ := Option.map_eq_some'.mp ht
    simpa only [hr, Option.map_some', Option.getD_some] using r.within
  · intro j hj
    rw [List.length_map] at hj
    simpa only [List.getElem?_eq_getElem hj, Option.map_some', Option.getD_some] using hturns j hj

/-- A sign-up of Bob, a read, an update and a delete of Alice, taking turns round-robin 13 times:
every caller has returned. -/
theorem requests_finish_within_their_turns_round_robin :
    ((interleave (List.replicate 13 [0, 1, 2, 3]).flatten raceWorld
      ([Request.createUser bob bob.id (.ok "h"), .getUser aliceId, .updateUser aliceId franceRequest,
        .deleteUser aliceId].map Request.prog)).2.all Prog.finished) = true :=
  List.all_eq_true.mpr (requests_finish_within_their_turns _ raceWorld _ (by decide))

end UsersService
